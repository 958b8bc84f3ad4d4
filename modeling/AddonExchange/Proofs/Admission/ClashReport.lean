import AddonExchange.Proofs.Admission.Collecting
import AddonExchange.Proofs.Tree.Visit

/-! What the search for clashing names finds. A namespace tells of each key whether no entry, one
or several of the directory had it before, so each entry that shares its key with another one is
reported once: when it is met, or with the second of its key if it was the first. -/

namespace AddonExchange

section Repeats

variable {α κ : Type} [DecidableEq κ] {key : α → κ} {items : List α} {item : α}

/-- The items of a key. -/
def alike (key : α → κ) (items : List α) (sought : κ) : List α :=
  items.filter fun item => key item = sought

/-- The items whose key at least one further item has. -/
def repeated (key : α → κ) (items : List α) : List α :=
  items.filter fun item => 1 < (alike key items (key item)).length

/-- The items of which it is new that they share their key when one more comes last: none if its
key is new, the only one before it and itself if there is one, else itself alone. -/
def newlyRepeated (key : α → κ) (earlier : List α) (item : α) : List α :=
  match alike key earlier (key item) with
  | [] => []
  | [first] => [first, item]
  | _ => [item]

private theorem alike_concat (items : List α) (item : α) (sought : κ) :
    alike key (items ++ [item]) sought =
      alike key items sought ++ if key item = sought then [item] else [] := by
  rw [alike, alike, List.filter_append]
  by_cases same : key item = sought <;> simp [same]

private theorem repeated_nil (key : α → κ) : repeated key [] = [] := rfl

private theorem mem_alike_iff {sought : κ} :
    item ∈ alike key items sought ↔ item ∈ items ∧ key item = sought := by
  simp [alike]

/-- Items that pass one of two tests are those that pass the one and those that pass the other, if
none passes both. -/
theorem filter_or_perm {first second : α → Bool}
    (apart : ∀ item ∈ items, first item = true → second item = false) :
    (items.filter fun item => first item || second item).Perm
      (items.filter second ++ items.filter first) := by
  induction items with
  | nil => exact .nil
  | cons item rest ih =>
    have restPerm := ih fun other member => apart other (List.mem_cons_of_mem item member)
    have itemApart := apart item List.mem_cons_self
    cases isFirst : first item with
    | false =>
      cases isSecond : second item <;> simpa [isFirst, isSecond] using restPerm
    | true =>
      have notSecond := itemApart isFirst
      simp only [List.filter_cons, isFirst, notSecond]
      exact (restPerm.cons item).trans List.perm_middle.symm

/-- Of the items before it, the last one makes those repeated that are alone with its key. -/
theorem repeated_concat (items : List α) (item : α) :
    repeated key (items ++ [item]) =
      (items.filter fun other => 1 < (alike key items (key other)).length ||
          (key other = key item && (alike key items (key item)).length = 1)) ++
        if alike key items (key item) = [] then [] else [item] := by
  rw [repeated, List.filter_append]
  congr 1
  · refine List.filter_congr fun other member => ?_
    by_cases same : key other = key item
    · have listed : 0 < (alike key items (key item)).length :=
        List.length_pos_of_mem (mem_alike_iff.mpr ⟨member, same⟩)
      rw [same, alike_concat, if_pos rfl, List.length_append, List.length_singleton]
      grind
    · rw [alike_concat, if_neg (Ne.symm same), List.append_nil]
      simp [same]
  · rw [List.filter_singleton, alike_concat, if_pos rfl, List.length_append, List.length_singleton]
    cases alike key items (key item) <;> simp

private theorem repeated_concat_perm (key : α → κ) (items : List α) (item : α) :
    (repeated key (items ++ [item])).Perm
      (newlyRepeated key items item ++ repeated key items) := by
  rw [repeated_concat, newlyRepeated]
  cases found : alike key items (key item) with
  | nil => simp [repeated]
  | cons first rest =>
    cases rest with
    | nil =>
      have apart : ∀ other ∈ items, decide (1 < (alike key items (key other)).length) = true →
          decide (key other = key item) = false := by
        intro other _ several
        by_contra same
        simp only [Bool.not_eq_false, decide_eq_true_eq] at same several
        rw [same, found] at several
        exact absurd several (by simp)
      have parts := filter_or_perm apart
      rw [← alike, found, ← repeated] at parts
      simp only [List.length_singleton, decide_true, Bool.and_true]
      exact (parts.append_right [item]).trans ((List.perm_append_singleton item _).cons first)
    | cons second more =>
      simp only [List.length_cons, Nat.add_eq_right, Nat.succ_ne_zero, decide_false,
        Bool.and_false, Bool.or_false]
      exact List.perm_append_singleton item (repeated key items)

end Repeats

namespace CaseClash

open Findings (inside)

variable {path : Text} {names : List Text} {seen : Namespace} {earlier : List Entry}

def entryKey (entry : Entry) : Bytes := key entry.name

section Namespaces

/-- What a namespace knows of a key, by the entries that had it. -/
def sighting? (path : Text) : List Entry → Option Sighting
  | [] => none
  | [first] => some (.first (path ++ first.name))
  | _ => some .reported

/-- A namespace knows the entries of a directory that were met. -/
def Knows (path : Text) (seen : Namespace) (earlier : List Entry) : Prop :=
  ∀ sought, seen.lookup sought = sighting? path (alike entryKey earlier sought)

private theorem knows_nil (path : Text) : Knows path [] [] := fun _ => rfl

/-- A namespace knows one entry more if it has changed for the key of that entry alone. -/
theorem Knows.concat {after : Namespace} {entry : Entry} (knows : Knows path seen earlier)
    (here : after.lookup (entryKey entry) =
      sighting? path (alike entryKey earlier (entryKey entry) ++ [entry]))
    (elsewhere : ∀ sought ≠ entryKey entry, after.lookup sought = seen.lookup sought) :
    Knows path after (earlier ++ [entry]) := by
  intro sought
  rw [alike_concat]
  by_cases same : entryKey entry = sought
  · rw [if_pos same, ← same]
    exact here
  · rw [if_neg same, List.append_nil, elsewhere sought (Ne.symm same)]
    exact knows sought

private theorem lookup_cons_of_ne {k sought : Bytes} (sighting : Sighting) (other : sought ≠ k) :
    List.lookup sought ((k, sighting) :: seen) = seen.lookup sought := by
  rw [List.lookup_cons, beq_false_of_ne other]

/-- Recording an entry reports those of which it is new that they share their key. -/
theorem note_of_knows (knows : Knows path seen earlier) (entry : Entry) :
    Knows path (note seen path entry.name).1 (earlier ++ [entry]) ∧
      (note seen path entry.name).2 =
        (newlyRepeated entryKey earlier entry).map fun other => path ++ other.name := by
  have known : seen.lookup (key entry.name) =
      sighting? path (alike entryKey earlier (entryKey entry)) := knows (entryKey entry)
  rw [note, newlyRepeated, known]
  -- By what the namespace knows, its three states are those of the entries that had the key.
  cases held : alike entryKey earlier (entryKey entry) with
  | nil =>
    refine ⟨knows.concat ?_ fun sought => lookup_cons_of_ne _, rfl⟩
    rw [held]
    exact List.lookup_cons_self
  | cons first rest =>
    cases rest with
    | nil =>
      refine ⟨knows.concat ?_ fun sought => lookup_cons_of_ne _, rfl⟩
      rw [held]
      exact List.lookup_cons_self
    | cons second more =>
      refine ⟨knows.concat ?_ fun _ _ => rfl, rfl⟩
      rw [held] at known ⊢
      exact known

end Namespaces

section Visit

/-- The entries that are reported when one is met. -/
def reportedAt (meeting : Meeting) : List LocatedEntry :=
  (newlyRepeated entryKey meeting.earlier meeting.entry).map fun entry => (meeting.names, entry)

/-- The paths that are reported when an entry is met. -/
def pathsAt (meeting : Meeting) : List Text := (reportedAt meeting).map LocatedEntry.path

private theorem note_of_meeting (knows : Knows (Text.dirPath names) seen earlier) {entry : Entry}
    {name : Text} (named : entry.name = name) :
    Knows (Text.dirPath names) (note seen (Text.dirPath names) name).1 (earlier ++ [entry]) ∧
      (note seen (Text.dirPath names) name).2 = pathsAt ⟨names, earlier, entry⟩ := by
  subst named
  obtain ⟨after, reported⟩ := note_of_knows knows entry
  refine ⟨after, ?_⟩
  rw [reported, pathsAt, reportedAt, List.map_map]
  rfl

private theorem reportFiles_cons (path : Text) (file : File) (rest : List File) (seen : Namespace) :
    reportFiles path (file :: rest) seen =
      ((reportFiles path rest (note seen path file.name).1).1,
        (note seen path file.name).2 ++ (reportFiles path rest (note seen path file.name).1).2) :=
  rfl

private theorem reportFiles_of_knows (knows : Knows (Text.dirPath names) seen earlier)
    (files : List File) :
    Knows (Text.dirPath names) (reportFiles (Text.dirPath names) files seen).1
        (earlier ++ Dir.fileEntries files) ∧
      (reportFiles (Text.dirPath names) files seen).2 =
        (Dir.meet names earlier (Dir.fileEntries files)).flatMap pathsAt := by
  induction files generalizing seen earlier with
  | nil => exact ⟨(List.append_nil earlier).symm ▸ knows, rfl⟩
  | cons file rest ih =>
    have named : (Entry.file file.name).name = file.name := rfl
    obtain ⟨after, reported⟩ := note_of_meeting knows named
    obtain ⟨restKnows, restReported⟩ := ih after
    rw [List.append_assoc] at restKnows
    rw [reportFiles_cons, reported, restReported]
    exact ⟨restKnows, rfl⟩

/-- Recording subdirectories reports what meeting and visiting them does, if that holds of what is
in them. -/
theorem reportAll_of_knows {dirs : List Dir}
    (below : ∀ child ∈ dirs, ∀ names,
      report (Text.dirPath names) child = (child.visitFrom names).flatMap pathsAt)
    (knows : Knows (Text.dirPath names) seen earlier) :
    reportAll (Text.dirPath names) seen dirs =
      (Dir.visitAll names earlier dirs).flatMap pathsAt := by
  induction dirs generalizing seen earlier with
  | nil => rfl
  | cons dir rest ih =>
    obtain ⟨dirBelow, restBelow⟩ := List.forall_mem_cons.mp below
    have named : (Entry.dir dir.name).name = dir.name := rfl
    obtain ⟨after, reported⟩ := note_of_meeting knows named
    rw [reportAll_cons, inside_dirPath, dirBelow, ih restBelow after, reported, Dir.visitAll,
      List.flatMap_append, List.flatMap_cons]

theorem report_dirPath (names : List Text) (tree : Dir) :
    report (Text.dirPath names) tree = (tree.visitFrom names).flatMap pathsAt := by
  induction tree generalizing names with
  | node own files dirs ih =>
    obtain ⟨knows, reported⟩ := reportFiles_of_knows (knows_nil (Text.dirPath names)) files
    rw [report_eq, reported, Dir.visitFrom, List.flatMap_append]
    congr 1
    exact reportAll_of_knows ih knows

private theorem find_eq_map_path (tree : Dir) :
    find tree = (tree.visit.flatMap reportedAt).map LocatedEntry.path := by
  rw [find, collectInto_eq, List.nil_append, List.map_flatMap]
  exact report_dirPath [] tree

end Visit

section Once

/-- Meeting the entries of a directory reports those that share their key with another one, less
those that did before. -/
theorem flatMap_reportedAt_meet_perm (names : List Text) (earlier entries : List Entry) :
    ((repeated entryKey (earlier ++ entries)).map fun entry => (names, entry)).Perm
      ((Dir.meet names earlier entries).flatMap reportedAt ++
        (repeated entryKey earlier).map fun entry => (names, entry)) := by
  induction entries generalizing earlier with
  | nil => rw [List.append_nil]; exact .refl _
  | cons entry rest ih =>
    have later := ih (earlier ++ [entry])
    have here := (repeated_concat_perm entryKey earlier entry).map fun entry => (names, entry)
    rw [List.append_assoc, List.singleton_append] at later
    rw [List.map_append] at here
    rw [Dir.meet, List.flatMap_cons, List.append_assoc]
    exact (later.trans (here.append_left _)).trans (List.perm_append_comm_assoc _ _ _)

/-- A visit reports in each directory the entries that share their key with another one. -/
theorem flatMap_reportedAt_visit_perm (tree : Dir) :
    (tree.visit.flatMap reportedAt).Perm
      (tree.located.flatMap fun place =>
        (repeated entryKey place.2.entries).map fun entry => (place.1, entry)) := by
  have met := tree.visit_perm.flatMap_right reportedAt
  rw [List.flatMap_assoc] at met
  refine met.trans (List.Perm.flatMap_left _ fun place _ => ?_)
  have here := flatMap_reportedAt_meet_perm place.1 [] place.2.entries
  rw [List.nil_append, repeated_nil, List.map_nil, List.append_nil] at here
  exact here.symm

/-- The search for clashes reports, in the order of its visit, each entry that shares its key with
one entry met before in its directory together with that one, and alone each that does with more.
So every entry that shares its key with another one of its directory is reported once, and no other
entry is. Nothing clashes if in every directory all keys are distinct. -/
theorem clashes_found_exactly (tree : Dir) :
    find tree = (tree.visit.flatMap reportedAt).map LocatedEntry.path ∧
      (tree.visit.flatMap reportedAt).Perm
        (tree.located.flatMap fun place =>
          (repeated entryKey place.2.entries).map fun entry => (place.1, entry)) ∧
      (isFree tree = true ↔
        ∀ names holder, tree.At names holder → (holder.entries.map entryKey).Nodup) := by
  refine ⟨find_eq_map_path tree, flatMap_reportedAt_visit_perm tree, ?_⟩
  rw [isFree_iff]
  exact Dir.everywhere_iff_at

/-- Names with a clash in a directory and others in one below it. -/
example :
    find ⟨"addon", [⟨"Readme", none, none⟩, ⟨"maps", none, none⟩, ⟨"readme", none, none⟩],
      [⟨"Maps", [⟨"a", none, none⟩], [⟨"A", [], []⟩]⟩, ⟨"README", [], []⟩]⟩ =
      ["Readme", "readme", "maps", "Maps", "Maps/a", "Maps/A", "README"] := by
  decide +kernel

end Once

end CaseClash

end AddonExchange
