import AddonExchange.Settings.Expansion
import AddonExchange.Yaml.Document
import Mathlib.Data.List.Forall2
import Mathlib.Data.List.TakeWhile

/-! What the expansion of references does. A text that is cut at a reference is expanded on either
side of it as if the other side were not there, and a document is expanded in the texts to which
its lists and mappings lead and nowhere else. -/

namespace AddonExchange

namespace Text

variable {environment : Environment} {t name after : Text}

/-- Whether text can be the name in a reference. -/
def IsVariable (name : Text) : Prop := name ≠ [] ∧ ∀ c ∈ name, c.isWord = true

/-- A reference to a variable from the opening brace on. -/
def braced (name : Text) : Text := openBrace :: (name ++ [closeBrace])

def reference (name : Text) : Text := dollar :: braced name

section Reference

private theorem isWord_closeBrace : CodePoint.isWord closeBrace = false := by decide +kernel

private theorem dollar_not_mem_braced (isVariable : name.IsVariable) : dollar ∉ braced name := by
  have noWord : CodePoint.isWord dollar = false := by decide +kernel
  have noBrace : dollar ≠ openBrace ∧ dollar ≠ closeBrace := by decide
  rw [braced, List.mem_cons, List.mem_append, List.mem_singleton]
  intro member
  rcases member with opening | word | closing
  · exact noBrace.1 opening
  · rw [isVariable.2 dollar word] at noWord
    cases noWord
  · exact noBrace.2 closing

private theorem reference?_eq_some_iff :
    reference? t = some (name, after) ↔ name.IsVariable ∧ t = braced name ++ after := by
  constructor
  · intro found
    unfold reference? at found
    split at found
    · rename_i brace rest
      have whole := @List.takeWhile_append_dropWhile _ CodePoint.isWord rest
      split at found
      · rename_i closing remaining same
        split at found
        · rename_i legal
          obtain ⟨rfl, rfl, nonempty⟩ := legal
          cases found
          rw [same] at whole
          exact ⟨⟨nonempty, fun c member => List.mem_takeWhile_imp member⟩, by simp [braced, whole]⟩
        · cases found
      · cases found
    · cases found
  · intro cut
    obtain ⟨⟨nonempty, word⟩, rfl⟩ := cut
    simp [reference?, braced, List.dropWhile_append_of_pos word,
      List.takeWhile_append_of_pos word, isWord_closeBrace, nonempty]

/-- Text after a reference does not change how the reference is read. -/
theorem reference?_append (found : reference? t = some (name, after)) (later : Text) :
    reference? (t ++ later) = some (name, after ++ later) := by
  obtain ⟨isVariable, rfl⟩ := reference?_eq_some_iff.mp found
  exact reference?_eq_some_iff.mpr ⟨isVariable, List.append_assoc _ _ _⟩

/-- No reference goes on over a dollar sign, so what is none does not become one by it. -/
theorem reference?_append_dollar (broken : reference? t = none) (later : Text) :
    reference? (t ++ dollar :: later) = none := by
  refine Option.eq_none_iff_forall_ne_some.mpr fun ⟨name, after⟩ found => ?_
  obtain ⟨isVariable, same⟩ := reference?_eq_some_iff.mp found
  obtain ⟨held, whole⟩ : ∃ held, t = braced name ++ held := by
    rcases List.append_eq_append_iff.mp same with ⟨crossing, whole, rest⟩ | ⟨held, whole, _⟩
    · cases crossing with
      | nil => exact ⟨[], by simpa using whole.symm⟩
      | cons first others =>
        cases rest
        refine absurd ?_ (dollar_not_mem_braced isVariable)
        rw [whole]
        exact List.mem_append_right _ (List.mem_cons_self ..)
    · exact ⟨held, whole⟩
  rw [reference?_eq_some_iff.mpr ⟨isVariable, whole⟩] at broken
  cases broken

end Reference

section Expansion

private theorem expand_of_ne_dollar {c : CodePoint} (other : c ≠ dollar) (rest : Text) :
    expand environment (c :: rest) = c :: expand environment rest := by
  rw [expand, if_neg other]

private theorem expand_of_broken (broken : reference? t = none) :
    expand environment (dollar :: t) = dollar :: expand environment t := by
  rw [expand, if_pos rfl]
  split
  · rename_i found
    rw [broken] at found
    cases found
  · rfl

private theorem expand_of_found (found : reference? t = some (name, after)) :
    expand environment (dollar :: t) =
      (environment name).getD [] ++ expand environment after := by
  rw [expand, if_pos rfl]
  split
  · rename_i other
    rw [found] at other
    cases other
    rfl
  · rename_i broken
    rw [found] at broken
    cases broken

private theorem expand_reference_append (isVariable : name.IsVariable) (after : Text) :
    expand environment (reference name ++ after) =
      (environment name).getD [] ++ expand environment after :=
  expand_of_found (reference?_eq_some_iff.mpr ⟨isVariable, rfl⟩)

/-- A text is expanded on either side of a reference by itself. -/
theorem expand_append_reference (isVariable : name.IsVariable) (before after : Text) :
    expand environment (before ++ reference name ++ after) =
      expand environment before ++ (environment name).getD [] ++ expand environment after := by
  induction before using expand.induct with
  | case1 => simp [expand, expand_reference_append isVariable]
  | case2 rest inner remaining found ih =>
    rw [List.append_assoc, List.cons_append, expand_of_found (reference?_append found _),
      ← List.append_assoc, ih, expand_of_found found]
    simp only [List.append_assoc]
  | case3 rest broken ih =>
    have stillBroken : reference? (rest ++ (reference name ++ after)) = none :=
      reference?_append_dollar broken _
    rw [List.append_assoc, List.cons_append, expand_of_broken stillBroken, ← List.append_assoc, ih,
      expand_of_broken broken]
    rfl
  | case4 c rest other ih =>
    rw [List.cons_append, List.cons_append, expand_of_ne_dollar other, ih,
      expand_of_ne_dollar other]
    rfl

theorem expand_eq_self
    (without : ∀ before name after, name.IsVariable → t ≠ before ++ reference name ++ after) :
    expand environment t = t := by
  induction t using expand.induct with
  | case1 => rw [expand]
  | case2 rest name after found ih =>
    obtain ⟨isVariable, rfl⟩ := reference?_eq_some_iff.mp found
    exact absurd rfl (without [] name after isVariable)
  | case3 rest broken ih =>
    rw [expand_of_broken broken, ih]
    intro before name after isVariable same
    exact without (dollar :: before) name after isVariable (congrArg (dollar :: ·) same)
  | case4 c rest other ih =>
    rw [expand_of_ne_dollar other, ih]
    intro before name after isVariable same
    exact without (c :: before) name after isVariable (congrArg (c :: ·) same)

end Expansion

end Text

namespace Document

/-- What expansion finds directly inside a document: the items of a list, or the values of a
mapping. -/
def parts : Document → List Document
  | list items => items
  | map entries => entries.map Prod.snd
  | _ => []

/-- What a route leads to inside a document. Each step of it is the position of a part. -/
def along? (document : Document) : List Nat → Option Document
  | [] => some document
  | position :: rest => document.parts[position]?.bind fun part => part.along? rest

private theorem sizeOf_part_lt {document part : Document} (member : part ∈ document.parts) :
    sizeOf part < sizeOf document := by
  cases document with
  | list items =>
    have smaller := List.sizeOf_lt_of_mem (show part ∈ items from member)
    simp only [list.sizeOf_spec]
    omega
  | map entries =>
    obtain ⟨entry, isEntry, rfl⟩ := List.mem_map.mp member
    have smaller := List.sizeOf_lt_of_mem isEntry
    obtain ⟨key, value⟩ := entry
    simp only [Prod.mk.sizeOf_spec] at smaller
    simp only [map.sizeOf_spec]
    omega
  | _ => cases member

/-- What holds of a document whenever it holds of its parts holds of all documents. -/
theorem inductionOnParts {motive : Document → Prop}
    (step : ∀ document : Document, (∀ part ∈ document.parts, motive part) → motive document)
    (document : Document) : motive document :=
  step document fun part _ => inductionOnParts step part
termination_by sizeOf document
decreasing_by exact sizeOf_part_lt ‹_›

theorem exists_along?_iff {document sought : Document} :
    (∃ route, document.along? route = some sought) ↔
      document = sought ∨ ∃ part ∈ document.parts, ∃ route, part.along? route = some sought := by
  constructor
  · intro reached
    obtain ⟨route, found⟩ := reached
    cases route with
    | nil => exact Or.inl (Option.some.inj found)
    | cons position rest =>
      obtain ⟨part, here, further⟩ := Option.bind_eq_some_iff.mp found
      exact Or.inr ⟨part, List.mem_of_getElem? here, rest, further⟩
  · intro within
    rcases within with rfl | ⟨part, member, route, further⟩
    · exact ⟨[], rfl⟩
    · obtain ⟨position, here⟩ := List.mem_iff_getElem?.mp member
      exact ⟨position :: route, Option.bind_eq_some_iff.mpr ⟨part, here, further⟩⟩

variable {environment : Environment}

section Collections

private theorem expandAll?_eq_some_iff {items others : List Document} :
    expandAll? environment items = some others ↔
      List.Forall₂ (fun item other => item.expand? environment = some other) items others := by
  induction items generalizing others with
  | nil => simp [expandAll?, eq_comm]
  | cons item rest ih =>
    simp only [expandAll?, bind, Option.bind_eq_some_iff, ih, List.forall₂_cons_left_iff, pure,
      Option.some.injEq]
    constructor
    · intro inTurn
      obtain ⟨expanded, here, remaining, later, rfl⟩ := inTurn
      exact ⟨expanded, remaining, here, later, rfl⟩
    · intro related
      obtain ⟨expanded, remaining, here, later, rfl⟩ := related
      exact ⟨expanded, here, remaining, later, rfl⟩

private theorem expandEntries?_eq_some_iff {entries others : List (Document × Document)} :
    expandEntries? environment entries = some others ↔
      others.map Prod.fst = entries.map Prod.fst ∧
        expandAll? environment (entries.map Prod.snd) = some (others.map Prod.snd) := by
  induction entries generalizing others with
  | nil => cases others <;> simp [expandEntries?, expandAll?]
  | cons entry rest ih =>
    obtain ⟨key, value⟩ := entry
    simp only [expandEntries?, List.map_cons, expandAll?, bind, Option.bind_eq_some_iff, pure,
      Option.some.injEq]
    constructor
    · intro inTurn
      obtain ⟨expanded, here, remaining, later, rfl⟩ := inTurn
      obtain ⟨keys, values⟩ := ih.mp later
      exact ⟨congrArg (key :: ·) keys, expanded, here, _, values, rfl⟩
    · intro apart
      obtain ⟨keys, expanded, here, values, later, same⟩ := apart
      cases others with
      | nil => cases same
      | cons first remaining =>
        obtain ⟨sameKey, sameKeys⟩ := List.cons.inj keys
        obtain ⟨rfl, rfl⟩ := List.cons.inj same
        exact ⟨_, here, remaining, ih.mpr ⟨sameKeys, later⟩, by rw [← sameKey]⟩

private theorem expandAll?_eq_none_iff {items : List Document} :
    expandAll? environment items = none ↔ ∃ item ∈ items, item.expand? environment = none := by
  induction items with
  | nil => simp [expandAll?]
  | cons item rest ih =>
    rw [expandAll?, List.exists_mem_cons_iff, ← ih]
    cases item.expand? environment with
    | none => simp
    | some expanded => cases expandAll? environment rest <;> simp

private theorem expandEntries?_eq_none_iff {entries : List (Document × Document)} :
    expandEntries? environment entries = none ↔
      ∃ entry ∈ entries, entry.2.expand? environment = none := by
  induction entries with
  | nil => simp [expandEntries?]
  | cons entry rest ih =>
    rw [expandEntries?, List.exists_mem_cons_iff, ← ih]
    cases entry.2.expand? environment with
    | none => simp
    | some expanded => cases expandEntries? environment rest <;> simp

end Collections

section Routes

variable {document expanded : Document}

theorem expand?_eq_none_iff : document.expand? environment = none ↔
    document = enclosing ∨ ∃ part ∈ document.parts, part.expand? environment = none := by
  cases document with
  | list items => simp [expand?, parts, expandAll?_eq_none_iff]
  | map entries =>
    simp only [expand?, Option.map_eq_none_iff, expandEntries?_eq_none_iff, parts, List.mem_map,
      exists_exists_and_eq_and, reduceCtorEq, false_or]
  | enclosing => simp [expand?]
  | _ => simp [expand?, parts]

/-- There is no end to expansion just where a route leads back to a collection that it is in. -/
theorem expand?_eq_none_iff_exists_along? (document : Document) :
    document.expand? environment = none ↔ ∃ route, document.along? route = some enclosing := by
  induction document using inductionOnParts with
  | step document ih =>
    rw [expand?_eq_none_iff, exists_along?_iff]
    refine or_congr_right (exists_congr fun part => and_congr_right fun member => ?_)
    exact ih part member

private theorem parts_of_expand? (done : document.expand? environment = some expanded) :
    List.Forall₂ (fun part other => part.expand? environment = some other)
      document.parts expanded.parts := by
  cases document with
  | list items =>
    obtain ⟨others, all, rfl⟩ := Option.map_eq_some_iff.mp done
    exact expandAll?_eq_some_iff.mp all
  | map entries =>
    obtain ⟨others, all, rfl⟩ := Option.map_eq_some_iff.mp done
    exact expandAll?_eq_some_iff.mp (expandEntries?_eq_some_iff.mp all).2
  | enclosing => cases done
  | _ =>
    cases done
    exact .nil

private theorem rel_getElem?_of_forall₂ {α β : Type} {related : α → β → Prop} {firsts : List α}
    {seconds : List β} (each : List.Forall₂ related firsts seconds) (position : Nat) :
    Option.Rel related firsts[position]? seconds[position]? := by
  induction each generalizing position with
  | nil => exact .none
  | cons here _ ih =>
    cases position with
    | zero => exact .some here
    | succ position => exact ih position

/-- What is inside an expanded document is what was inside the document, expanded. -/
theorem along?_of_expand? (done : document.expand? environment = some expanded)
    (route : List Nat) :
    Option.Rel (fun part other => part.expand? environment = some other)
      (document.along? route) (expanded.along? route) := by
  induction route generalizing document expanded with
  | nil => exact .some done
  | cons position rest ih =>
    rw [along?, along?]
    have related := rel_getElem?_of_forall₂ (parts_of_expand? done) position
    revert related
    generalize document.parts[position]? = part
    generalize expanded.parts[position]? = other
    intro related
    cases related with
    | none => exact .none
    | some here => exact ih here

/-- What a document and its expansion are to each other, apart from what is inside them: texts are
expanded, lists are as long as they were, mappings have the same keys in the same order, and every
other document is the same. -/
inductive Expanded (environment : Environment) : Document → Document → Prop where
  | text (t : Text) : Expanded environment (.text t) (.text (t.expand environment))
  | list {items others : List Document} (sameLength : others.length = items.length) :
      Expanded environment (.list items) (.list others)
  | map {entries others : List (Document × Document)}
      (sameKeys : others.map Prod.fst = entries.map Prod.fst) :
      Expanded environment (.map entries) (.map others)
  | other {document : Document} (noText : ∀ t, document ≠ .text t)
      (noList : ∀ items, document ≠ .list items) (noMap : ∀ entries, document ≠ .map entries) :
      Expanded environment document document

private theorem expanded_of_expand? (done : document.expand? environment = some expanded) :
    Expanded environment document expanded := by
  cases document with
  | text t =>
    cases done
    exact .text t
  | list items =>
    obtain ⟨others, all, rfl⟩ := Option.map_eq_some_iff.mp done
    exact .list (expandAll?_eq_some_iff.mp all).length_eq.symm
  | map entries =>
    obtain ⟨others, all, rfl⟩ := Option.map_eq_some_iff.mp done
    exact .map (expandEntries?_eq_some_iff.mp all).1
  | enclosing => cases done
  | _ =>
    cases done
    exact .other nofun nofun nofun

end Routes

/-- Expansion replaces each reference of a text once, from left to right: wherever a text is cut at
a reference the two sides are expanded by themselves, and the value of the variable stands between
them as it is. In a document the texts to which lists and the values of mappings lead are replaced
by their expansions, at all depths. Everything else stays, and so do the texts in it: keys, and what
pairs and sets hold. Only documents that lead back to a collection inside itself have no
expansion. -/
theorem expands_references_once (environment : Environment) :
    (∀ before name after : Text, name.IsVariable →
        (before ++ name.reference ++ after).expand environment =
          before.expand environment ++ (environment name).getD [] ++ after.expand environment) ∧
      (∀ t : Text, (∀ before name after, Text.IsVariable name →
          t ≠ before ++ Text.reference name ++ after) →
        t.expand environment = t) ∧
      (∀ document : Document, document.expand? environment = none ↔
        ∃ route, document.along? route = some .enclosing) ∧
      ∀ document expanded : Document, document.expand? environment = some expanded →
        ∀ route, Option.Rel (Expanded environment) (document.along? route)
          (expanded.along? route) := by
  refine ⟨?_, ?_, ?_, ?_⟩
  · intro before name after isVariable
    exact Text.expand_append_reference isVariable before after
  · intro t without
    exact Text.expand_eq_self without
  · intro document
    exact expand?_eq_none_iff_exists_along? document
  · intro document expanded done route
    match document.along? route, expanded.along? route, along?_of_expand? done route with
    | _, _, .none => exact .none
    | _, _, .some here => exact .some (expanded_of_expand? here)

/-- Variables whose values would make further references with the text around them. -/
def overlapping : Environment := fun name =>
  if name = Text.ofString "B" then some "\x7d$\x7bC" else some "again"

theorem expands_references_once_overlapping :
    let before : Text := "$\x7bA"
    let after : Text := "\x7d"
    let held : Document := .list [.text (before ++ Text.reference "B" ++ after), .int 1]
    let expanded : Document := .list [.text "$\x7bA\x7d$\x7bC\x7d", .int 1]
    (Text.ofString "B").IsVariable ∧
      (∀ first name last, Text.IsVariable name → before ≠ first ++ Text.reference name ++ last) ∧
      (∀ first name last, Text.IsVariable name → after ≠ first ++ Text.reference name ++ last) ∧
      (before ++ Text.reference "B" ++ after).expand overlapping =
        Text.ofString "$\x7bA\x7d$\x7bC\x7d" ∧
      held.expand? overlapping = some expanded ∧
      Option.Rel (Expanded overlapping) (held.along? [1]) (expanded.along? [1]) := by
  intro before after held expanded
  obtain ⟨cut, plain, _, inside⟩ := expands_references_once overlapping
  have isVariable : (Text.ofString "B").IsVariable := by
    refine ⟨by decide, ?_⟩
    rw [← List.all_eq_true]
    decide +kernel
  have closes : Text.closeBrace ∉ before := by decide
  have opens : Text.dollar ∉ after := by decide
  have beforePlain : ∀ first name last, Text.IsVariable name →
      before ≠ first ++ Text.reference name ++ last := by
    intro first name last _ same
    exact closes (by rw [same]; simp [Text.reference, Text.braced])
  have afterPlain : ∀ first name last, Text.IsVariable name →
      after ≠ first ++ Text.reference name ++ last := by
    intro first name last _ same
    exact opens (by rw [same]; simp [Text.reference, Text.braced])
  have replaced : (before ++ Text.reference "B" ++ after).expand overlapping =
      Text.ofString "$\x7bA\x7d$\x7bC\x7d" := by
    rw [cut before "B" after isVariable, plain before beforePlain, plain after afterPlain]
    decide +kernel
  have done : held.expand? overlapping = some expanded := by
    show some (Document.list [.text (Text.expand overlapping _), .int 1]) = _
    rw [replaced]
  exact ⟨isVariable, beforePlain, afterPlain, replaced, done, inside held expanded done [1]⟩

/-- A document in which a text stands in a pair. -/
def ofPair (held : Text) : Document := .map [(.text "a", .list [.pair (.text "k") (.text held)])]

/-- A document in which a list holds itself. -/
def ofItself : Document := .map [(.text "motd", .list [.enclosing])]

def inPair? : Except Yaml.Fault Document → Option Text
  | .ok (.map [(.text key, .list [.pair (.text name) (.text held)])]) =>
    if key = "a" ∧ name = "k" then some held else none
  | _ => none

def isOfItself : Except Yaml.Fault Document → Bool
  | .ok (.map [(.text key, .list [.enclosing])]) => key == "motd"
  | _ => false

private theorem eq_ofPair {read : Except Yaml.Fault Document} {held : Text}
    (found : inPair? read = some held) : read = .ok (ofPair held) := by
  unfold inPair? at found
  split at found
  · split at found
    · rename_i named
      cases found
      rw [named.1, named.2]
      rfl
    · cases found
  · cases found

private theorem eq_ofItself {read : Except Yaml.Fault Document} (found : isOfItself read = true) :
    read = .ok ofItself := by
  unfold isOfItself at found
  split at found
  · rw [beq_iff_eq.mp found]
    rfl
  · cases found

/-- A reference in a pair stays, though it stands in a text, and a document in which a list holds
itself has no expansion. -/
theorem unexpanded_documents :
    let environment : Environment := fun _ => some "filled"
    Text.expand environment "$\x7bA\x7d" = Text.ofString "filled" ∧
      (Yaml.read "a: !!omap [k: \"$\x7bA\x7d\"]".toList = .ok (ofPair "$\x7bA\x7d") ∧
        (ofPair "$\x7bA\x7d").expand? environment = some (ofPair "$\x7bA\x7d")) ∧
      Yaml.read "motd: &m [*m]".toList = .ok ofItself ∧
        ofItself.expand? environment = none := by
  intro environment
  refine ⟨by decide +kernel, ⟨eq_ofPair ?_, rfl⟩, eq_ofItself ?_, rfl⟩
  · decide +kernel
  · decide +kernel

end Document

end AddonExchange
