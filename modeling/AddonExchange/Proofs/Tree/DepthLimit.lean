import AddonExchange.Proofs.Tree.Refusal
import AddonExchange.Proofs.Tree.RoundTrip
import AddonExchange.Proofs.Tree.Walk

namespace AddonExchange

namespace Dir

section Levels

variable {tree : Dir} {level : Nat} {place : Place}

/-- Whether a place lies the given number of levels below the root and has a subdirectory. -/
def Place.opensAt (level : Nat) (place : Place) : Bool :=
  place.1.length == level && !place.2.dirs.isEmpty

/-- The first directory in preorder that lies the given number of levels below the root and has a
subdirectory, with the names that lead to it. -/
def firstBeyond? (level : Nat) (tree : Dir) : Option Place :=
  tree.located.find? (Place.opensAt level)

private theorem firstBeyond?_zero (tree : Dir) :
    tree.firstBeyond? 0 = if tree.dirs.isEmpty then none else some ([], tree) := by
  obtain ⟨name, files, dirs⟩ := tree
  cases dirs with
  | nil => rfl
  | cons first rest =>
    rw [firstBeyond?, located_eq]
    rfl

private theorem firstBeyond?_succ (level : Nat) (tree : Dir) :
    tree.firstBeyond? (level + 1) =
      tree.dirs.findSome? fun dir => (dir.firstBeyond? level).map (Place.below dir.name) := by
  have lower (name : Text) :
      Place.opensAt (level + 1) ∘ Place.below name = Place.opensAt level := by
    funext place
    simp [Place.opensAt, Place.below]
  rw [firstBeyond?, located_eq, List.find?_cons_of_neg (by simp [Place.opensAt]),
    List.find?_flatMap]
  simp only [List.find?_map, lower, firstBeyond?]

theorem firstBeyond?_eq_none_iff : tree.firstBeyond? level = none ↔ tree.depth ≤ level := by
  induction tree generalizing level with
  | node name files dirs ih =>
    rw [depth_le_iff]
    cases level with
    | zero =>
      rw [firstBeyond?_zero]
      cases dirs with
      | nil => simp
      | cons first rest =>
        refine iff_of_false (Option.some_ne_none _) fun lower => ?_
        exact Nat.not_lt_zero _ (lower first List.mem_cons_self)
    | succ level =>
      rw [firstBeyond?_succ, List.findSome?_eq_none_iff]
      refine forall₂_congr fun child member => ?_
      rw [Option.map_eq_none_iff, ih child member, Nat.lt_succ_iff]

end Levels

end Dir

namespace TreeReader

open Dir (Place)

variable {options : ReadOptions} {dir : Waiting} {level : Nat} {place : Place}

/-- The fault of going beyond the limit at the place to which names lead from a path. -/
def beyond (options : ReadOptions) (path : Text) (names : List Text) : TreeFault :=
  ⟨names.foldl Text.joinPath path, .tooDeep options.maxDepth⟩

/-- Directories that wait are read up to the first of them that goes beyond the limit. -/
theorem firstFault_below {subdirs : List Value} {dirs : List Dir}
    (describe : List.Forall₂ (Value.DescribesDir options.escaped) subdirs dirs)
    (limit : max options.maxDepth (dir.depth + 1) = dir.depth + 1 + level)
    (faulty : ∀ child ∈ dirs, ∀ (waits : Waiting) (place : Place),
      waits.entry.DescribesDir options.escaped child → waits.depth = dir.depth + 1 →
        child.firstBeyond? level = some place →
          DirFault options waits (beyond options waits.path place.1))
    (first : (dirs.findSome? fun child =>
      (child.firstBeyond? level).map (Place.below child.name)) = some place) :
    FirstFault (fun waits => ∃ tree, Fits options waits tree) (DirFault options)
      (below dir subdirs (dirs.map Dir.name)) (beyond options dir.path place.1) := by
  induction describe with
  | nil => cases first
  | @cons entry child subdirs dirs describes _ ih =>
    rw [List.findSome?_cons] at first
    cases found : child.firstBeyond? level with
    | some inner =>
      rw [found, Option.map_some, Option.some.injEq] at first
      subst first
      exact .here (faulty child List.mem_cons_self _ inner describes rfl found)
    | none =>
      rw [found, Option.map_none] at first
      have within := Dir.firstBeyond?_eq_none_iff.mp found
      refine .later ⟨child, describes, ?_⟩
        (ih (fun other member => faulty other (List.mem_cons_of_mem child member)) first)
      show ((dir.depth + 1 : Nat) + child.depth : Int) ≤ max options.maxDepth (dir.depth + 1 : Nat)
      omega

/-- A directory that waits and describes a tree is refused for the first place beyond the
limit. -/
theorem dirFault_of_firstBeyond? {tree : Dir}
    (describes : dir.entry.DescribesDir options.escaped tree)
    (limit : max options.maxDepth dir.depth = dir.depth + level)
    (first : tree.firstBeyond? level = some place) :
    DirFault options dir (beyond options dir.path place.1) := by
  induction tree generalizing dir level place with
  | node name files dirs ih =>
    cases describes with
    | @dir _ _ fileEntries subdirs _ _ named fileList eachFile dirList eachDir =>
      cases level with
      | zero =>
        rw [Dir.firstBeyond?_zero] at first
        cases dirs with
        | nil => cases first
        | cons child rest =>
          cases first
          have nonempty : subdirs ≠ [] := by
            rw [ne_eq, eq_nil_iff_of_forall₂ eachDir]
            exact List.cons_ne_nil child rest
          -- No level is left, so the subdirectories are refused before any of them is read.
          have reached : options.maxDepth ≤ dir.depth := by omega
          exact .opening
            (.tooDeep ⟨fileEntries, files, fileList, eachFile⟩ dirList nonempty reached)
      | succ level =>
        rw [Dir.firstBeyond?_succ] at first
        have allowed : (dir.depth : Int) < options.maxDepth := by omega
        have subdirsNamed := Value.forall₂_named_of_describesDir eachDir
        have lowerLimit : max options.maxDepth (dir.depth + 1) = dir.depth + 1 + level := by omega
        refine .deeper ⟨⟨fileEntries, fileList, eachFile⟩, dirList, Or.inr allowed, subdirsNamed⟩
          (firstFault_below eachDir lowerLimit ?_ first)
        intro child member waits inner describes lower found
        exact ih child member describes (by omega) found

end TreeReader

namespace Dir

variable {escaped : Bool} {limit : Int} {value : Value} {tree : Dir}

/-- A limit on the depth is exact. What is read under some limit keeps it, is read under every
other limit that it keeps, and is refused under all others: for the first directory in preorder
that lies as deep as the limit allows and has a subdirectory. -/
theorem depth_limit_exact (read : Dir.ofValue ⟨escaped, limit⟩ value = .ok tree) :
    (tree.depth : Int) ≤ max limit 0 ∧
      (∀ other : Int, (tree.depth : Int) ≤ other →
        Dir.ofValue ⟨escaped, other⟩ value = .ok tree) ∧
      ∀ other : Int,
        ((tree.depth : Int) ≤ max other 0 → Dir.ofValue ⟨escaped, other⟩ value = .ok tree) ∧
        (max other 0 < (tree.depth : Int) →
          ∃ names dir, tree.firstBeyond? (max other 0).toNat = some (names, dir) ∧
            Dir.ofValue ⟨escaped, other⟩ value =
              .error ⟨Text.joinNames names, .tooDeep other⟩) := by
  obtain ⟨describes, within⟩ := ofValue_eq_ok_iff.mp read
  have readUnder (other : Int) (kept : (tree.depth : Int) ≤ max other 0) :
      Dir.ofValue ⟨escaped, other⟩ value = .ok tree := ofValue_eq_ok_iff.mpr ⟨describes, kept⟩
  refine ⟨within, fun other above => readUnder other (Int.le_trans above (Int.le_max_left _ _)),
    fun other => ⟨readUnder other, fun exceeded => ?_⟩⟩
  cases first : tree.firstBeyond? (max other 0).toNat with
  | none =>
    have kept := firstBeyond?_eq_none_iff.mp first
    omega
  | some place =>
    refine ⟨place.1, place.2, rfl, ofValue_eq_error_iff.mpr (.inside describes.named ?_)⟩
    have atRoot : max other (0 : Nat) = (0 : Nat) + ((max other 0).toNat : Int) := by omega
    have wrong : TreeReader.DirFault ⟨escaped, other⟩ ⟨value, tree.name, [], 0⟩
        (TreeReader.beyond ⟨escaped, other⟩ [] place.1) :=
      TreeReader.dirFault_of_firstBeyond? describes atRoot first
    exact wrong

/-- An add-on with directories of different depths. -/
def unevenAddon : Dir :=
  ⟨"addon", [], [⟨"maps", [⟨"first.map", none, none⟩], []⟩, ⟨"units", [], [⟨"elves", [], []⟩,
    ⟨"orcs", [], [⟨"old", [⟨"grunt.cfg", none, none⟩], []⟩]⟩]⟩,
    ⟨"sounds", [], [⟨"night", [], [⟨"wind", [], []⟩]⟩]⟩]⟩

theorem depth_limit_exact_unevenAddon :
    let value := unevenAddon.toValue false
    Dir.ofValue ⟨false, 64⟩ value = .ok unevenAddon ∧
      Dir.ofValue ⟨false, 3⟩ value = .ok unevenAddon ∧
      Dir.ofValue ⟨false, 2⟩ value = .error ⟨"units/orcs", .tooDeep 2⟩ ∧
      Dir.ofValue ⟨false, -1⟩ value = .error ⟨[], .tooDeep (-1)⟩ := by
  intro value
  have read : Dir.ofValue ⟨false, 64⟩ value = .ok unevenAddon :=
    ofValue_toValue unevenAddon (by decide)
  obtain ⟨_, keeps, refuses⟩ := depth_limit_exact read
  have under (other : Int) (names : List Text) (exceeded : max other 0 < (unevenAddon.depth : Int))
      (first : (unevenAddon.firstBeyond? (max other 0).toNat).map (·.1) = some names) :
      Dir.ofValue ⟨false, other⟩ value = .error ⟨Text.joinNames names, .tooDeep other⟩ := by
    obtain ⟨found, dir, place, refused⟩ := (refuses other).2 exceeded
    rw [place] at first
    cases first
    exact refused
  refine ⟨read, keeps 3 (by decide), ?_, ?_⟩
  · exact under 2 ["units", "orcs"] (by decide) rfl
  · exact under (-1) [] (by decide) rfl

end Dir

end AddonExchange
