import AddonExchange.Proofs.Tree.Format

/-! What is wrong with the entries of a value that describes no tree. Where the format says what
an entry stands for, the relations here say which fault it has and under which path: faults of
an entry itself and of its name count for the directory that lists it, those of contents and
hash for the file. -/

namespace AddonExchange

section Steps

variable {ε α β : Type}

theorem bind_eq_error_iff {first : Except ε α} {next : α → Except ε β} {fault : ε} :
    (first >>= next) = .error fault ↔
      first = .error fault ∨ ∃ found, first = .ok found ∧ next found = .error fault := by
  cases first <;> simp [bind, Except.bind]

theorem pure_ne_error {found : α} {fault : ε} : (pure found : Except ε α) ≠ .error fault := by
  simp [pure, Except.pure]

theorem throw_if_eq_error_iff {refused : Prop} [Decidable refused] {thrown fault : ε}
    {otherwise : Except ε α} :
    (if refused then throw thrown else otherwise) = .error fault ↔
      refused ∧ thrown = fault ∨ ¬ refused ∧ otherwise = .error fault := by
  split <;> rename_i decided <;> simp [decided, throw, throwThe, MonadExceptOf.throw]

/-- The first fault among items that are taken from left to right: the items before the faulty one
are sound, and those after it play no part. -/
inductive FirstFault (sound : α → Prop) (faulty : α → ε → Prop) : List α → ε → Prop where
  | here {item : α} {rest : List α} {fault : ε} (wrong : faulty item fault) :
      FirstFault sound faulty (item :: rest) fault
  | later {item : α} {rest : List α} {fault : ε} (fine : sound item)
      (wrong : FirstFault sound faulty rest fault) : FirstFault sound faulty (item :: rest) fault

variable {sound : α → Prop} {faulty : α → ε → Prop} {fault : ε}

theorem not_firstFault_nil : ¬ FirstFault sound faulty [] fault := by
  intro wrong
  cases wrong

theorem firstFault_cons_iff {item : α} {rest : List α} :
    FirstFault sound faulty (item :: rest) fault ↔
      faulty item fault ∨ sound item ∧ FirstFault sound faulty rest fault := by
  constructor
  · intro wrong
    cases wrong with
    | here wrong => exact Or.inl wrong
    | later fine wrong => exact Or.inr ⟨fine, wrong⟩
  · rintro (wrong | ⟨fine, wrong⟩)
    · exact .here wrong
    · exact .later fine wrong

theorem firstFault_singleton_iff {item : α} :
    FirstFault sound faulty [item] fault ↔ faulty item fault := by
  simp [firstFault_cons_iff, not_firstFault_nil]

theorem firstFault_append_iff {items others : List α} :
    FirstFault sound faulty (items ++ others) fault ↔
      FirstFault sound faulty items fault ∨
        (∀ item ∈ items, sound item) ∧ FirstFault sound faulty others fault := by
  induction items with
  | nil => simp [not_firstFault_nil]
  | cons item rest ih =>
    rw [List.cons_append, firstFault_cons_iff, firstFault_cons_iff, ih, List.forall_mem_cons,
      and_or_left, or_assoc, and_assoc]

theorem mapM_eq_error_iff {read : α → Except ε β} {items : List α} :
    items.mapM read = .error fault ↔
      FirstFault (fun item => ∃ result, read item = .ok result)
        (fun item fault => read item = .error fault) items fault := by
  induction items with
  | nil => simp [not_firstFault_nil, pure_ne_error]
  | cons item rest ih =>
    simp only [List.mapM_cons, bind_eq_error_iff, pure_ne_error, and_false, exists_false, or_false,
      ih, firstFault_cons_iff, exists_and_right]

theorem forall_exists_iff_forall₂ {related : α → β → Prop} {items : List α} :
    (∀ item ∈ items, ∃ result, related item result) ↔
      ∃ results, List.Forall₂ related items results := by
  induction items with
  | nil => simp
  | cons item rest ih =>
    simp only [List.forall_mem_cons, ih, List.forall₂_cons_left_iff]
    constructor
    · rintro ⟨⟨result, first⟩, results, others⟩
      exact ⟨result :: results, result, results, first, others, rfl⟩
    · rintro ⟨_, result, results, first, others, rfl⟩
      exact ⟨⟨result, first⟩, results, others⟩

end Steps

section Faults

variable (path : Text)

/-- What is wrong with an entry that gives no name: it is no mapping, it has no name, or what it
has for a name is no text. -/
inductive NameFault : Value → TreeFault → Prop where
  | notMapping {entry : Value} (other : ∀ entries, entry ≠ .map entries) :
      NameFault entry ⟨path, .notMapping entry.kindName⟩
  | missing {entries : List (Text × Value)} (absent : Value.get? "name" (.map entries) = none) :
      NameFault (.map entries) ⟨path, .missingName⟩
  | notText {entry value : Value} (held : entry.get? "name" = some value)
      (other : ∀ name, value ≠ .text name) : NameFault entry ⟨path, .nameNotText value.kindName⟩

/-- What is wrong with a value that stands in place of a list under a tag. -/
inductive ListFault (tag : String) : Option Value → TreeFault → Prop where
  | notList {value : Value} (other : ∀ entries, value ≠ .list entries) :
      ListFault tag (some value) ⟨path, .childrenNotList tag value.kindName⟩

/-- What is wrong with contents: text with a character that is no byte, or a value that is neither
null nor bytes nor text. -/
inductive ContentsFault : Option Value → TreeFault → Prop where
  | wide {text : Text} (outside : ∃ c ∈ text, 256 ≤ c.val) :
      ContentsFault (some (.text text)) ⟨path, .contentsNotLatin1⟩
  | notBytes {value : Value} (notNull : value ≠ .null) (notBytes : ∀ bytes, value ≠ .bytes bytes)
      (notText : ∀ text, value ≠ .text text) :
      ContentsFault (some value) ⟨path, .contentsNotBytes value.kindName⟩

/-- What is wrong with a hash: it is neither null nor text. -/
inductive HashFault : Option Value → TreeFault → Prop where
  | notText {value : Value} (notNull : value ≠ .null) (notText : ∀ text, value ≠ .text text) :
      HashFault (some value) ⟨path, .hashNotText value.kindName⟩

/-- The first fault of a file entry in the directory at a path: its name, then its contents, then
its hash. -/
inductive FileFault (entry : Value) : TreeFault → Prop where
  | name {fault : TreeFault} (wrong : NameFault path entry fault) : FileFault entry fault
  | contents {name : Text} {fault : TreeFault} (named : entry.Named name)
      (wrong : ContentsFault (path.joinPath name) (entry.get? "contents") fault) :
      FileFault entry fault
  | hash {name : Text} {stored : Option Bytes} {fault : TreeFault} (named : entry.Named name)
      (stores : StoresContents (entry.get? "contents") stored)
      (wrong : HashFault (path.joinPath name) (entry.get? "hash") fault) : FileFault entry fault

end Faults

theorem Text.latin1?_eq_none_iff {text : Text} : text.latin1? = none ↔ ∃ c ∈ text, 256 ≤ c.val := by
  rw [latin1?]
  induction text with
  | nil => simp
  | cons c rest ih =>
    rw [List.mapM_cons, List.exists_mem_cons_iff, ← ih]
    by_cases narrow : c.val < 256
    · rw [if_pos narrow, or_iff_right (Nat.not_le.mpr narrow)]
      generalize (rest.mapM _ : Option Bytes) = others
      cases others <;> simp
    · simp [narrow, Nat.not_lt.mp narrow]

namespace TreeReader

variable {path : Text} {entry : Value} {fault : TreeFault}

theorem requireName_eq_error_iff :
    requireName path entry = .error fault ↔ NameFault path entry fault := by
  constructor
  · intro read
    cases entry with
    | map entries =>
      rw [requireName] at read
      split at read <;> cases read
      · rename_i absent
        exact .missing absent
      · rename_i notText held
        exact .notText held notText
    | _ =>
      cases read
      apply NameFault.notMapping
      intro entries same
      cases same
  · intro wrong
    cases wrong with
    | notMapping other =>
      cases entry with
      | map entries => exact absurd rfl (other entries)
      | _ => rfl
    | missing absent =>
      rw [Value.get?] at absent
      rw [requireName, absent]
    | @notText _ value held other =>
      cases entry with
      | map entries =>
        rw [Value.get?] at held
        rw [requireName, held]
        cases value with
        | text name => exact absurd rfl (other name)
        | _ => rfl
      | _ => cases held

theorem children_eq_error_iff {tag : String} :
    children tag path entry = .error fault ↔ ListFault path tag (entry.get? tag) fault := by
  rw [children]
  generalize entry.get? tag = held
  constructor
  · intro read
    split at read <;> cases read
    rename_i other
    exact .notList other
  · intro wrong
    cases wrong with
    | @notList value other =>
      cases value with
      | list entries => exact absurd rfl (other entries)
      | _ => rfl

theorem readContents_eq_error_iff :
    readContents path entry = .error fault ↔
      ContentsFault path (entry.get? "contents") fault := by
  rw [readContents]
  generalize entry.get? "contents" = held
  constructor
  · intro read
    split at read
    · cases read
    · cases read
    · cases read
    · split at read <;> cases read
      rename_i narrow
      exact .wide (Text.latin1?_eq_none_iff.mp narrow)
    · cases read
      rename_i notNull notBytes notText
      exact .notBytes notNull notBytes notText
  · intro wrong
    cases wrong with
    | wide outside => simp [Text.latin1?_eq_none_iff.mpr outside]
    | @notBytes value notNull notBytes notText =>
      cases value with
      | null => exact absurd rfl notNull
      | bytes bytes => exact absurd rfl (notBytes bytes)
      | text text => exact absurd rfl (notText text)
      | _ => rfl

theorem readHash_eq_error_iff :
    readHash path entry = .error fault ↔ HashFault path (entry.get? "hash") fault := by
  rw [readHash]
  generalize entry.get? "hash" = held
  constructor
  · intro read
    split at read <;> cases read
    rename_i notNull notText
    exact .notText notNull notText
  · intro wrong
    cases wrong with
    | @notText value notNull notText =>
      cases value with
      | null => exact absurd rfl notNull
      | text text => exact absurd rfl (notText text)
      | _ => rfl

theorem readFile_eq_error_iff {escaped : Bool} :
    readFile escaped path entry = .error fault ↔ FileFault path entry fault := by
  simp only [readFile, bind_eq_error_iff, pure_ne_error, and_false, exists_false, or_false,
    requireName_eq_ok_iff, requireName_eq_error_iff, readContents_eq_ok_iff,
    readContents_eq_error_iff, readHash_eq_error_iff]
  constructor
  · rintro (wrong | ⟨name, named, wrong | ⟨stored, stores, wrong⟩⟩)
    · exact .name wrong
    · exact .contents named wrong
    · exact .hash named stores wrong
  · intro wrong
    cases wrong with
    | name wrong => exact Or.inl wrong
    | contents named wrong => exact Or.inr ⟨_, named, Or.inl wrong⟩
    | hash named stores wrong => exact Or.inr ⟨_, named, Or.inr ⟨_, stores, wrong⟩⟩

end TreeReader

end AddonExchange
