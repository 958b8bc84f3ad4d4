import AddonExchange.Admission.CaseClash
import AddonExchange.Proofs.Text.Folding
import AddonExchange.Proofs.Tree.Entry

namespace AddonExchange.CaseClash

open Findings (inside)

/-- No two entries of a directory, files or subdirectories, have names of the same key. -/
def Distinct (dir : Dir) : Prop := (dir.entries.map fun entry => key entry.name).Nodup

instance : DecidablePred Distinct := fun dir =>
  inferInstanceAs (Decidable (dir.entries.map fun entry => key entry.name).Nodup)

theorem key_eq_iff {first second : Text} :
    key first = key second ↔ first.foldAscii = second.foldAscii := by
  rw [key, key, Text.map_lowerByte_wideBytes, Text.map_lowerByte_wideBytes]
  constructor
  · exact Text.wideBytes_injective
  · intro same
    rw [same]

/-- The entries of a directory are apart if their names are with ASCII letters in lower case. -/
theorem distinct_iff_nodup_folded (dir : Dir) :
    Distinct dir ↔ (dir.entries.map fun entry => entry.name.foldAscii).Nodup := by
  rw [Distinct, List.Nodup, List.Nodup, List.pairwise_map, List.pairwise_map]
  simp only [ne_eq, key_eq_iff]

section Recording

variable {seen within : Namespace} {path name : Text} {files : List File}

def keys (seen : Namespace) : List Bytes := seen.map (·.1)

private theorem lookup_isSome_iff (seen : Namespace) (sought : Bytes) :
    (seen.lookup sought).isSome ↔ sought ∈ keys seen := by
  simp only [List.lookup_isSome_iff, keys, List.mem_map, beq_iff_eq]
  exact exists_congr fun sighting => and_congr_right fun _ => eq_comm

/-- A name of a new key is recorded and nothing is reported. -/
theorem note_of_fresh (fresh : key name ∉ keys seen) :
    note seen path name = ((key name, .first (path ++ name)) :: seen, []) := by
  have absent : seen.lookup (key name) = none := by
    rw [← Option.not_isSome_iff_eq_none, lookup_isSome_iff]
    exact fresh
  rw [note, absent]

private theorem note_of_known (known : key name ∈ keys seen) : (note seen path name).2 ≠ [] := by
  obtain ⟨sighting, found⟩ :=
    Option.isSome_iff_exists.mp ((lookup_isSome_iff seen (key name)).mpr known)
  rw [note, found]
  cases sighting <;> simp

/-- Keys fold the letters of ASCII and confuse nothing else: they are the same if the names are,
code point by code point, with `A` to `Z` as `a` to `z` and every other code point as it is. Of two
names that are recorded one after the other both are reported exactly then. -/
theorem key_folds_ascii_letters_only (first second : Text) :
    (key first = key second ↔
        first.map (fun c => if 0x41 ≤ c.val ∧ c.val ≤ 0x5A then c.val + 0x20 else c.val) =
          second.map fun c => if 0x41 ≤ c.val ∧ c.val ≤ 0x5A then c.val + 0x20 else c.val) ∧
      ∀ path place, (note (note [] path first).1 place second).2 =
        if first.foldAscii = second.foldAscii then [path ++ first, place ++ second] else [] := by
  refine ⟨key_eq_iff.trans Text.foldAscii_eq_iff, ?_⟩
  intro path place
  have recorded : note [] path first = ([(key first, .first (path ++ first))], []) :=
    note_of_fresh List.not_mem_nil
  rw [recorded]
  by_cases same : first.foldAscii = second.foldAscii
  · have sameKey := key_eq_iff.mpr same
    rw [if_pos same, note, sameKey, List.lookup_cons_self]
  · have fresh : key second ∉ keys [(key first, .first (path ++ first))] := by
      simpa [keys, key_eq_iff, eq_comm] using same
    rw [if_neg same, note_of_fresh fresh]

private theorem fresh_of_note {after : Namespace} (noted : note seen path name = (after, [])) :
    key name ∉ keys seen := by
  intro known
  exact note_of_known known (congrArg Prod.snd noted)

private theorem freshFiles?_cons (path : Text) (file : File) (files : List File)
    (seen : Namespace) :
    freshFiles? path (file :: files) seen =
      if key file.name ∈ keys seen then none
      else freshFiles? path files ((key file.name, .first (path ++ file.name)) :: seen) := by
  rw [freshFiles?]
  split_ifs with known
  · split
    · rename_i after noted
      exact absurd known (fresh_of_note noted)
    · rfl
  · rw [note_of_fresh known]

private theorem freshFiles?_isSome_iff (path : Text) (files : List File) (seen : Namespace) :
    (freshFiles? path files seen).isSome ↔
      (files.map fun file => key file.name).Nodup ∧ ∀ file ∈ files, key file.name ∉ keys seen := by
  induction files generalizing seen with
  | nil => simp [freshFiles?]
  | cons file rest ih =>
    rw [freshFiles?_cons]
    split_ifs with known
    · simp [known]
    · rw [ih, List.map_cons, List.nodup_cons, List.forall_mem_cons]
      grind [keys]

private theorem mem_keys_of_freshFiles? (recorded : freshFiles? path files seen = some within)
    (k : Bytes) : k ∈ keys within ↔ k ∈ files.map (fun file => key file.name) ∨ k ∈ keys seen := by
  induction files generalizing seen with
  | nil =>
    cases recorded
    simp
  | cons file rest ih =>
    rw [freshFiles?_cons] at recorded
    split_ifs at recorded
    rw [ih recorded]
    simp [keys, or_left_comm, or_assoc]

end Recording

section Visit

variable {seen within : Namespace} {path : Text} {dir : Dir} {dirs : List Dir}

/-- What is left of a directory is free of clashes: the keys of its remaining subdirectories are
new and distinct, and there are no clashes below them. -/
structure Open.Clear (left : Open) : Prop where
  distinct : (left.dirs.map fun dir => key dir.name).Nodup
  fresh : ∀ dir ∈ left.dirs, key dir.name ∉ keys left.seen
  below : ∀ dir ∈ left.dirs, dir.Everywhere Distinct

private theorem clear_nil (seen : Namespace) (path : Text) : Open.Clear ⟨seen, path, []⟩ :=
  ⟨List.nodup_nil, by simp, by simp⟩

private theorem clear_cons_iff (sighting : Sighting) :
    Open.Clear ⟨seen, path, dir :: dirs⟩ ↔
      key dir.name ∉ keys seen ∧ dir.Everywhere Distinct ∧
        Open.Clear ⟨(key dir.name, sighting) :: seen, path, dirs⟩ := by
  constructor
  · rintro ⟨distinct, fresh, below⟩
    rw [List.map_cons, List.nodup_cons] at distinct
    obtain ⟨first, others⟩ := List.forall_mem_cons.mp fresh
    obtain ⟨firstBelow, othersBelow⟩ := List.forall_mem_cons.mp below
    refine ⟨first, firstBelow, distinct.2, ?_, othersBelow⟩
    intro other member known
    rcases List.mem_cons.mp known with same | earlier
    · exact distinct.1 (List.mem_map.mpr ⟨other, member, same⟩)
    · exact others other member earlier
  · rintro ⟨first, firstBelow, distinct, fresh, below⟩
    refine ⟨?_, ?_, List.forall_mem_cons.mpr ⟨firstBelow, below⟩⟩
    · rw [List.map_cons, List.nodup_cons]
      refine ⟨?_, distinct⟩
      intro again
      obtain ⟨other, member, same⟩ := List.mem_map.mp again
      exact fresh other member (by simp [keys, same])
    · refine List.forall_mem_cons.mpr ⟨first, ?_⟩
      intro other member known
      exact fresh other member (List.mem_cons_of_mem _ known)

private theorem everywhere_distinct_iff (path place : Text) (dir : Dir) :
    dir.Everywhere Distinct ↔
      ∃ within, freshFiles? path dir.files [] = some within ∧
        Open.Clear ⟨within, place, dir.dirs⟩ := by
  have files := freshFiles?_isSome_iff path dir.files []
  rw [Dir.everywhere_iff, Distinct, Dir.entries, List.map_append, List.nodup_append']
  simp only [List.map_map, Function.comp_def, Entry.name]
  constructor
  · rintro ⟨⟨distinctFiles, distinctDirs, apart⟩, below⟩
    obtain ⟨within, recorded⟩ :=
      Option.isSome_iff_exists.mp (files.mpr ⟨distinctFiles, by simp [keys]⟩)
    refine ⟨within, recorded, distinctDirs, ?_, below⟩
    intro child member known
    rcases (mem_keys_of_freshFiles? recorded _).mp known with isFile | earlier
    · exact apart isFile (List.mem_map.mpr ⟨child, member, rfl⟩)
    · cases earlier
  · rintro ⟨within, recorded, distinctDirs, fresh, below⟩
    obtain ⟨distinctFiles, _⟩ := files.mp (by rw [recorded]; rfl)
    refine ⟨⟨distinctFiles, distinctDirs, ?_⟩, below⟩
    intro k isFile isDir
    obtain ⟨child, member, rfl⟩ := List.mem_map.mp isDir
    exact fresh child member ((mem_keys_of_freshFiles? recorded _).mpr (Or.inl isFile))

private theorem noneAmong_cons (seen : Namespace) (path : Text) (dir : Dir) (dirs : List Dir)
    (outer : List Open) :
    noneAmong (⟨seen, path, dir :: dirs⟩ :: outer) = true ↔
      key dir.name ∉ keys seen ∧ ∃ within,
        freshFiles? (inside path dir.name) dir.files [] = some within ∧
          noneAmong (⟨within, inside path dir.name, dir.dirs⟩ ::
            ⟨(key dir.name, .first (path ++ dir.name)) :: seen, path, dirs⟩ :: outer) = true := by
  rw [noneAmong]
  by_cases known : key dir.name ∈ keys seen
  · split
    · rename_i after noted
      exact absurd known (fresh_of_note noted)
    · simp [known]
  · rw [note_of_fresh known]
    cases freshFiles? (inside path dir.name) dir.files [] <;> simp [known]

theorem noneAmong_iff (stack : List Open) :
    noneAmong stack = true ↔ ∀ left ∈ stack, left.Clear := by
  induction stack using noneAmong.induct with
  | case1 => simp [noneAmong]
  | case2 seen path outer ih => simp [noneAmong, ih, clear_nil]
  | case3 seen path dir dirs outer after noted within recorded =>
    rename_i ih
    have fresh := fresh_of_note noted
    rw [note_of_fresh fresh, Prod.mk.injEq] at noted
    obtain ⟨rfl, _⟩ := noted
    rw [noneAmong_cons, List.forall_mem_cons, clear_cons_iff (.first (path ++ dir.name)),
      everywhere_distinct_iff (inside path dir.name) (inside path dir.name)]
    simp [recorded, ih, and_assoc]
  | case4 seen path dir dirs outer after noted unrecorded =>
    rw [noneAmong_cons, List.forall_mem_cons, clear_cons_iff (.first (path ++ dir.name)),
      everywhere_distinct_iff (inside path dir.name) (inside path dir.name)]
    simp [unrecorded]
  | case5 seen path dir dirs outer reported =>
    have known : key dir.name ∈ keys seen := by
      by_contra fresh
      exact reported _ (note_of_fresh fresh)
    rw [noneAmong_cons, List.forall_mem_cons, clear_cons_iff (.first (path ++ dir.name))]
    simp [known]

theorem isFree_iff (tree : Dir) : isFree tree = true ↔ tree.Everywhere Distinct := by
  rw [everywhere_distinct_iff [] [], isFree]
  cases freshFiles? [] tree.files [] with
  | none => simp
  | some seen => simp [noneAmong_iff]

end Visit

section Entries

variable {dir tree : Dir}

theorem Distinct.namesDistinct (distinct : Distinct dir) : dir.NamesDistinct :=
  Dir.namesDistinct_iff_nodup_entries.mpr (List.Nodup.of_map _ distinct)

theorem siblingUnique_of_isFree (clashFree : isFree tree = true) : tree.SiblingUnique :=
  ((isFree_iff tree).mp clashFree).mono fun _ => Distinct.namesDistinct

/-- Where names do not repeat, none clash if entries of one place and one key are the same. -/
theorem isFree_iff_hasEntry (unique : tree.SiblingUnique) :
    isFree tree = true ↔
      ∀ path first second, tree.HasEntry path first → tree.HasEntry path second →
        key first.name = key second.name → first = second := by
  rw [isFree_iff, Dir.everywhere_iff_at]
  constructor
  · rintro distinct path first second ⟨holder, reached, member⟩ ⟨other, otherReached, otherMember⟩
    rw [Dir.at_iff_descend? unique] at reached otherReached
    cases reached.symm.trans otherReached
    have here := distinct path holder ((Dir.at_iff_descend? unique).mpr reached)
    exact List.inj_on_of_nodup_map here member otherMember
  · intro sameEntry path holder reached
    have nodup := Dir.namesDistinct_iff_nodup_entries.mp (unique.at reached)
    refine (List.nodup_map_iff_inj_on nodup).mpr ?_
    intro first member second otherMember
    exact sameEntry path first second ⟨holder, reached, member⟩ ⟨holder, reached, otherMember⟩

end Entries

end AddonExchange.CaseClash
