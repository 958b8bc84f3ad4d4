import AddonExchange.Tree.Reader
import Mathlib.Data.List.Forall2

/-! The format in which hosts describe trees, as relations between values and what they stand
for. Each function that reads a part of an entry succeeds exactly where the entry describes
that part, whatever path is named in its faults. -/

namespace AddonExchange

section Steps

variable {ε α β : Type}

theorem bind_eq_ok_iff {first : Except ε α} {next : α → Except ε β} {result : β} :
    (first >>= next) = .ok result ↔ ∃ found, first = .ok found ∧ next found = .ok result := by
  cases first <;> simp [bind, Except.bind]

theorem pure_eq_ok_iff {found result : α} :
    (pure found : Except ε α) = .ok result ↔ found = result := by
  simp [pure, Except.pure]

theorem throw_if_eq_ok_iff {refused : Prop} [Decidable refused] {fault : ε}
    {otherwise : Except ε α} {result : α} :
    (if refused then throw fault else otherwise) = .ok result ↔
      ¬ refused ∧ otherwise = .ok result := by
  split <;> rename_i decided <;> simp [decided, throw, throwThe, MonadExceptOf.throw]

theorem mapM_eq_ok_iff {read : α → Except ε β} {items : List α} {results : List β} :
    items.mapM read = .ok results ↔
      List.Forall₂ (fun item result => read item = .ok result) items results := by
  induction items generalizing results with
  | nil => rw [List.mapM_nil, pure_eq_ok_iff, List.forall₂_nil_left_iff, eq_comm]
  | cons item rest ih =>
    simp only [List.mapM_cons, bind_eq_ok_iff, pure_eq_ok_iff, ih, List.forall₂_cons_left_iff]
    constructor
    · rintro ⟨result, found, others, foundOthers, rfl⟩
      exact ⟨result, others, found, foundOthers, rfl⟩
    · rintro ⟨result, others, found, foundOthers, rfl⟩
      exact ⟨result, found, others, foundOthers, rfl⟩

theorem eq_nil_iff_of_forall₂ {related : α → β → Prop} {items : List α} {results : List β}
    (each : List.Forall₂ related items results) : items = [] ↔ results = [] := by
  cases each <;> simp

theorem forall₂_append_left_iff {related : α → β → Prop} {first second : List α}
    {results : List β} :
    List.Forall₂ related (first ++ second) results ↔
      ∃ former latter, List.Forall₂ related first former ∧ List.Forall₂ related second latter ∧
        former ++ latter = results := by
  induction first generalizing results with
  | nil => simp
  | cons item rest ih =>
    simp only [List.cons_append, List.forall₂_cons_left_iff, ih]
    constructor
    · rintro ⟨result, _, head, ⟨former, latter, tail, others, rfl⟩, rfl⟩
      exact ⟨result :: former, latter, ⟨result, former, head, tail, rfl⟩, others, rfl⟩
    · rintro ⟨_, latter, ⟨result, former, head, tail, rfl⟩, others, rfl⟩
      exact ⟨result, former ++ latter, head, ⟨former, latter, tail, others, rfl⟩, rfl⟩

end Steps

/-- The entries that the value under a tag lists. Without the tag there are none. -/
inductive ListsEntries : Option Value → List Value → Prop where
  | absent : ListsEntries none []
  | list (entries : List Value) : ListsEntries (some (.list entries)) entries

/-- The same for a tag that is not there without entries. -/
inductive ListsSome : Option Value → List Value → Prop where
  | absent : ListsSome none []
  | list {entries : List Value} (nonempty : entries ≠ []) :
      ListsSome (some (.list entries)) entries

theorem ListsSome.listsEntries {held : Option Value} {entries : List Value}
    (lists : ListsSome held entries) : ListsEntries held entries := by
  cases lists with
  | absent => exact .absent
  | list _ => exact .list entries

/-- The contents that are stored under a tag, be it as bytes or as text of one byte for each
character. -/
inductive StoresContents : Option Value → Option Bytes → Prop where
  | absent : StoresContents none none
  | null : StoresContents (some .null) none
  | bytes (bytes : Bytes) : StoresContents (some (.bytes bytes)) (some bytes)
  | text {text : Text} {bytes : Bytes} (narrow : text.latin1? = some bytes) :
      StoresContents (some (.text text)) (some bytes)

/-- The hash that is stored under a tag. An empty one is none. -/
inductive StoresHash : Option Value → Option Text → Prop where
  | absent : StoresHash none none
  | null : StoresHash (some .null) none
  | empty : StoresHash (some (.text [])) none
  | text {hash : Text} (nonempty : hash ≠ []) : StoresHash (some (.text hash)) (some hash)

namespace Value

/-- The name that an entry gives. -/
abbrev Named (entry : Value) (name : Text) : Prop := entry.get? "name" = some (.text name)

/-- Whether a value describes a file, with contents in escaped form or as they are. -/
structure DescribesFile (escaped : Bool) (entry : Value) (file : File) : Prop where
  named : entry.Named file.name
  contents : ∃ stored, StoresContents (entry.get? "contents") stored ∧
    file.contents = if escaped then stored.map Escape.decode else stored
  hash : StoresHash (entry.get? "hash") file.hash

/-- Whether a value describes a directory with all that is below it. -/
inductive DescribesDir (escaped : Bool) : Value → Dir → Prop where
  | dir {entry : Value} {name : Text} {fileEntries dirEntries : List Value} {files : List File}
      {dirs : List Dir} (named : entry.Named name)
      (fileList : ListsEntries (entry.get? "file") fileEntries)
      (eachFile : List.Forall₂ (DescribesFile escaped) fileEntries files)
      (dirList : ListsEntries (entry.get? "dir") dirEntries)
      (eachDir : List.Forall₂ (DescribesDir escaped) dirEntries dirs) :
      DescribesDir escaped entry ⟨name, files, dirs⟩

theorem DescribesDir.named {escaped : Bool} {entry : Value} {tree : Dir}
    (describes : entry.DescribesDir escaped tree) : entry.Named tree.name := by
  cases describes
  assumption

theorem forall₂_named_of_describesDir {escaped : Bool} {entries : List Value} {trees : List Dir}
    (describe : List.Forall₂ (DescribesDir escaped) entries trees) :
    List.Forall₂ Named entries (trees.map Dir.name) := by
  rw [List.forall₂_map_right_iff]
  exact describe.imp fun _ _ describes => describes.named

end Value

namespace TreeReader

section Entries

variable {path name : Text} {entry : Value}

theorem requireName_eq_ok_iff : requireName path entry = .ok name ↔ entry.Named name := by
  rw [Value.Named]
  cases entry with
  | map entries =>
    rw [requireName, Value.get?]
    cases entries.lookup (Text.ofString "name") with
    | none => simp
    | some value => cases value <;> simp
  | _ => simp [requireName, Value.get?]

theorem children_eq_ok_iff {tag : String} {entries : List Value} :
    children tag path entry = .ok entries ↔ ListsEntries (entry.get? tag) entries := by
  rw [children]
  generalize entry.get? tag = held
  constructor
  · intro read
    split at read <;> cases read
    · exact .absent
    · exact .list entries
  · intro listed
    cases listed <;> rfl

theorem readContents_eq_ok_iff {contents : Option Bytes} :
    readContents path entry = .ok contents ↔
      StoresContents (entry.get? "contents") contents := by
  rw [readContents]
  generalize entry.get? "contents" = held
  constructor
  · intro read
    split at read
    · cases read
      exact .absent
    · cases read
      exact .null
    · cases read
      exact .bytes _
    · split at read <;> cases read
      rename_i narrow
      exact .text narrow
    · cases read
  · intro stored
    cases stored with
    | text narrow => simp [narrow]
    | _ => rfl

theorem readHash_eq_ok_iff {hash : Option Text} :
    readHash path entry = .ok hash ↔ StoresHash (entry.get? "hash") hash := by
  rw [readHash]
  generalize entry.get? "hash" = held
  constructor
  · intro read
    split at read <;> cases read
    · exact .absent
    · exact .null
    · rename_i text
      cases text with
      | nil => exact .empty
      | cons first rest => exact .text (List.cons_ne_nil first rest)
  · intro stored
    cases stored with
    | text nonempty => simp [nonempty]
    | _ => rfl

theorem readFile_eq_ok_iff {escaped : Bool} {file : File} :
    readFile escaped path entry = .ok file ↔ entry.DescribesFile escaped file := by
  simp only [readFile, bind_eq_ok_iff, pure_eq_ok_iff, requireName_eq_ok_iff,
    readContents_eq_ok_iff, readHash_eq_ok_iff]
  constructor
  · rintro ⟨name, named, contents, stored, hash, hashed, rfl⟩
    exact ⟨named, ⟨contents, stored, rfl⟩, hashed⟩
  · rintro ⟨named, ⟨contents, stored, same⟩, hashed⟩
    exact ⟨file.name, named, contents, stored, file.hash, hashed, by rw [← same]⟩

end Entries

end TreeReader

end AddonExchange
