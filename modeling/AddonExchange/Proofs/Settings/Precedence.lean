import AddonExchange.Settings.File
import Mathlib.Data.List.Basic

namespace AddonExchange

namespace Disk

open FileSystem

variable {disk other : Disk} {working : Option (List Text)} {path : Path}

/-- What has to stay on a disk for the file of a path to be found as before: all directories, open
or closed as they are, and what lies at the place to which the path leads. -/
structure Keeps (disk other : Disk) (working : Option (List Text)) (path : Path) : Prop where
  directories : ∀ place, disk.isDirectory place = true →
    other.isDirectory place = true ∧ other.isClosed place = disk.isClosed place
  entry : ∀ place, disk.find working path = .ok (some place) →
    other.entries.lookup place = disk.entries.lookup place

private theorem not_isClosed (allOpen : ∀ entry ∈ disk.entries, entry.2 ≠ .directory false)
    (place : List Text) : disk.isClosed place = false := by
  rw [isClosed]
  split
  · rename_i isOpen found
    obtain ⟨before, after, whole, _⟩ := List.lookup_eq_some_iff.mp found
    have member : (place, Entry.directory isOpen) ∈ disk.entries := by
      rw [whole]
      exact List.mem_append_right _ (List.mem_cons_self ..)
    cases isOpen with
    | true => rfl
    | false => exact absurd rfl (allOpen _ member)
  · rfl

private theorem follow_of_directories
    (kept : ∀ place, disk.isDirectory place = true →
      other.isDirectory place = true ∧ other.isClosed place = disk.isClosed place)
    {place names : List Text} (leads : disk.follow place names ≠ .ok none) :
    other.follow place names = disk.follow place names := by
  induction names generalizing place with
  | nil => rfl
  | cons name rest ih =>
    rw [follow] at leads ⊢
    rw [follow]
    cases passable : disk.isDirectory place with
    | false =>
      rw [passable] at leads
      exact absurd rfl leads
    | true =>
      obtain ⟨stillPassable, asOpen⟩ := kept place passable
      rw [passable] at leads
      rw [stillPassable, asOpen]
      cases closed : disk.isClosed place with
      | true => rfl
      | false =>
        rw [closed] at leads
        cases tooLong : isTooLong name with
        | true => rfl
        | false =>
          rw [tooLong] at leads
          exact ih leads

private theorem find_of_keeps (keeps : disk.Keeps other working path)
    (leads : disk.find working path ≠ .ok none) :
    other.find working path = disk.find working path := by
  unfold find at leads ⊢
  split
  · rfl
  · split
    · rfl
    · split
      · rfl
      · split
        · rfl
        · exact follow_of_directories keeps.directories (by simp_all)

private theorem look_of_keeps (keeps : disk.Keeps other working path)
    (present : disk.look working path ≠ .ok none) :
    other.look working path = disk.look working path := by
  have leads : disk.find working path ≠ .ok none := by
    intro nowhere
    rw [look, nowhere] at present
    exact present rfl
  rw [look, look, find_of_keeps keeps leads]
  cases found : disk.find working path with
  | error refusal => rfl
  | ok place =>
    cases place with
    | none => rfl
    | some place => exact congrArg Except.ok (keeps.entry place found)

/-- A change that leaves alone what a path leads to, and the directories, changes nothing for it. -/
theorem contents_of_keeps (keeps : disk.Keeps other working path)
    (present : (disk.files working).contents path ≠ .ok none) :
    (other.files working).contents path = (disk.files working).contents path := by
  have lies : disk.look working path ≠ .ok none := by
    intro nothing
    have noFile : (disk.files working).isFile path = .ok false := congrArg (Except.map _) nothing
    rw [FileSystem.contents, noFile] at present
    exact present rfl
  have same := look_of_keeps keeps lies
  have isFile : (other.files working).isFile path = (disk.files working).isFile path := by
    simp only [files, same]
  have read : (other.files working).read path = (disk.files working).read path := by
    simp only [files, same]
  rw [FileSystem.contents, FileSystem.contents, isFile, read]

end Disk

namespace SettingsFile

variable (libraries : Libraries)

/-- Whether the contents of a file decide. They do if they cannot be decoded or parsed, and if they
hold any document but null. -/
def decides (contents : Bytes) : Bool :=
  match Utf8.decode? contents with
  | none => true
  | some chars =>
    match libraries.parse (unifyLineEnds chars) with
    | .ok .null => false
    | _ => true

example :
    (["\x7b\x7d", "[]", "false", "0", "a: b: c"].map fun text =>
          decides .standard text.toUTF8.toList) =
        [true, true, true, true, true] ∧
      (["", "# nothing here yet\n", "---\n", "~"].map fun text =>
          decides .standard text.toUTF8.toList) =
        [false, false, false, false] := by
  decide +kernel

/-- What the contents of a file come to that decides. -/
def verdict (environment : Environment) (path : Path) (contents : Bytes) :
    Except Fault Settings :=
  match Utf8.decode? contents with
  | none => .error (.notUtf8 path)
  | some chars =>
    match libraries.parse (unifyLineEnds chars) with
    | .error (.refused problem) => .error (.malformed path problem)
    | .error (.badScalar message) => .error (.badScalar message)
    | .error .endless => .error .endless
    | .ok (.map entries) =>
      match (Document.map entries).expand? environment with
      | none => .error .endless
      | some expanded => (libraries.validate expanded).mapError (Fault.invalid path)
    | .ok other => .error (.notMapping path other.kindName)

/-- What a place comes to that is not passed over: the verdict on a file that decides, or a fault
where the place or its file cannot be told. -/
def Surroundings.outcome? (around : Surroundings) (place : Except Fault Path) :
    Option (Except Fault Settings) :=
  match place with
  | .error fault => some (.error fault)
  | .ok path =>
    match around.files.contents path with
    | .error refusal => some (.error (.unreadable path refusal))
    | .ok none => none
    | .ok (some contents) =>
      if decides libraries contents then some (verdict libraries around.environment path contents)
      else none

variable {libraries} {around : Surroundings}

/-- A file that decides is not passed over, whatever it comes to. -/
theorem settle_documentOf (environment : Environment) (path : Path) (contents : Bytes)
    (after : Except Fault Settings) :
    (documentOf libraries path contents >>= fun held =>
        match held with
        | .null => after
        | held => settingsOf libraries environment path held) =
      if decides libraries contents then verdict libraries environment path contents
      else after := by
  cases decoded : Utf8.decode? contents with
  | none =>
    simp only [documentOf, decides, verdict, decoded]
    rfl
  | some chars =>
    cases parsed : libraries.parse (unifyLineEnds chars) with
    | error fault =>
      simp only [documentOf, decides, verdict, decoded, parsed]
      cases fault <;> rfl
    | ok held =>
      cases held <;> simp only [documentOf, decides, verdict, decoded, parsed] <;> rfl

private theorem loadFrom_cons (place : Except Fault Path) (rest : List (Except Fault Path)) :
    loadFrom libraries around (place :: rest) =
      (around.outcome? libraries place).getD (loadFrom libraries around rest) := by
  cases place with
  | error fault => rfl
  | ok path =>
    change (document libraries around.files path >>= _) = _
    rw [document, Surroundings.outcome?]
    cases around.files.contents path with
    | error refusal => rfl
    | ok held =>
      cases held with
      | none => rfl
      | some contents =>
        refine (settle_documentOf around.environment path contents _).trans ?_
        dsimp only
        cases decides libraries contents <;> rfl

private theorem loadFrom_eq (places : List (Except Fault Path)) :
    loadFrom libraries around places =
      (places.findSome? (around.outcome? libraries)).getD (.ok {}) := by
  induction places with
  | nil => rfl
  | cons place rest ih =>
    rw [loadFrom_cons, ih, List.findSome?_cons]
    cases around.outcome? libraries place <;> rfl

def Surroundings.on (around : Surroundings) (files : FileSystem) : Surroundings :=
  { around with files }

private theorem Surroundings.outcome?_congr {other : Surroundings} {place : Except Fault Path}
    (sameVariables : other.environment = around.environment)
    (same : ∀ path, place = .ok path → other.files.contents path = around.files.contents path) :
    other.outcome? libraries place = around.outcome? libraries place := by
  cases place with
  | error fault => rfl
  | ok path => rw [outcome?, outcome?, sameVariables, same path rfl]

private theorem load_of_outcome {asked : Option Text} {skipped later : List (Except Fault Path)}
    {place : Except Fault Path} {outcome : Except Fault Settings}
    (places : candidates around asked = skipped ++ place :: later)
    (silent : ∀ other ∈ skipped, around.outcome? libraries other = none)
    (settled : around.outcome? libraries place = some outcome) :
    load libraries around asked = outcome := by
  have none : skipped.findSome? (around.outcome? libraries) = none :=
    List.findSome?_eq_none_iff.mpr silent
  rw [load, places, loadFrom_eq, List.findSome?_append, none, List.findSome?_cons, settled]
  rfl

/-- Places are named by what is asked for and by the variable, unless that is empty, and after them
come those of the project and of the user. -/
theorem candidates_eq (around : Surroundings) (asked : Option Text) :
    candidates around asked =
      ((asked.toList ++ (around.environment "ADDONPACK_CONFIG").toList).filter (· ≠ [])).map
          (fun text => .ok (Path.ofText text)) ++
        [below around.workingDirectory ["addonpack.yaml"] .noWorkingDirectory,
          below around.homeDirectory [".addonpack", "config.yaml"] .noHomeDirectory] := by
  have named_eq (text : Option Text) :
      named text = (text.toList.filter (· ≠ [])).map Path.ofText := by
    rcases text with _ | _ | ⟨c, rest⟩ <;> rfl
  rw [candidates, named_eq, named_eq, List.filter_append, List.map_append, List.map_append,
    List.map_map, List.map_map]
  rfl

/-- Settings come from the first place that is not passed over, whether it gives settings or a
fault. No change to files makes a difference that leaves the contents at this place as they are and
makes no earlier place count, and such is every change of a disk that takes no directory away,
neither opens nor closes one, and leaves the entry alone to which the place leads. If every place is
passed over, the settings are the defaults. -/
theorem first_settled_place_decides (libraries : Libraries) (around : Surroundings)
    (asked : Option Text) :
    candidates around asked =
        ((asked.toList ++ (around.environment "ADDONPACK_CONFIG").toList).filter (· ≠ [])).map
            (fun text => .ok (Path.ofText text)) ++
          [below around.workingDirectory ["addonpack.yaml"] .noWorkingDirectory,
            below around.homeDirectory [".addonpack", "config.yaml"] .noHomeDirectory] ∧
      (∀ skipped place later outcome, candidates around asked = skipped ++ place :: later →
        (∀ other ∈ skipped, around.outcome? libraries other = none) →
        around.outcome? libraries place = some outcome →
          load libraries around asked = outcome ∧
          ∀ files, (∀ other ∈ skipped, (around.on files).outcome? libraries other = none) →
            (∀ path, place = .ok path → files.contents path = around.files.contents path) →
              load libraries (around.on files) asked = load libraries around asked) ∧
      ((∀ place ∈ candidates around asked, around.outcome? libraries place = none) →
        load libraries around asked = .ok {}) ∧
      ∀ (disk other : Disk) (working : Option (List Text)) (path : Path),
        disk.Keeps other working path → (disk.files working).contents path ≠ .ok none →
          (other.files working).contents path = (disk.files working).contents path := by
  refine ⟨candidates_eq around asked, ?_, ?_, ?_⟩
  · intro skipped place later outcome places silent settled
    have loaded := load_of_outcome places silent settled
    refine ⟨loaded, fun files silentThere same => ?_⟩
    have settledThere : (around.on files).outcome? libraries place = some outcome := by
      rw [← settled]
      exact Surroundings.outcome?_congr rfl same
    have placesThere : candidates (around.on files) asked = skipped ++ place :: later := places
    rw [loaded]
    exact load_of_outcome placesThere silentThere settledThere
  · intro silent
    rw [load, loadFrom_eq, List.findSome?_eq_none_iff.mpr silent]
    rfl
  · intro disk other working path keeps present
    exact Disk.contents_of_keeps keeps present

/-- Files of a site. What the project has is the document false. -/
def siteFiles (asked user : String) : Disk where
  entries :=
    [(["srv", "notes.yaml"], .file asked.toUTF8.toList), (["etc", "addonpack"], .directory),
      (["srv", "addonpack.yaml"], .file "false\n".toUTF8.toList),
      (["root", ".addonpack", "config.yaml"], .file user.toUTF8.toList)]

/-- A site with some files, where the variable names a directory. -/
def site (disk : Disk) : Surroundings where
  files := disk.files (some ["srv"])
  environment name :=
    if name = Text.ofString "ADDONPACK_CONFIG" then some "/etc/addonpack" else none
  workingDirectory := some ⟨1, ["srv"]⟩
  homeDirectory := some ⟨1, ["root"]⟩

theorem first_settled_place_decides_site :
    let disk := siteFiles "# nothing here yet\n" "server:\n  port: 8080\n"
    let edited := siteFiles "" "server: [\n"
    let asked : Option Text := some "notes.yaml"
    let fault : Fault := .notMapping ⟨1, ["srv", "addonpack.yaml"]⟩ "bool"
    load .standard (site disk) asked = .error fault ∧
      load .standard (site edited) asked = .error fault ∧
      load .standard (site ⟨[]⟩) asked = .ok {} := by
  intro disk edited asked fault
  let project : Path := ⟨1, ["srv", "addonpack.yaml"]⟩
  obtain ⟨_, decided, _, kept⟩ := first_settled_place_decides .standard (site disk) asked
  obtain ⟨_, _, undecided, _⟩ := first_settled_place_decides .standard (site ⟨[]⟩) asked
  have places : candidates (site disk) asked =
      [.ok ⟨0, ["notes.yaml"]⟩, .ok ⟨1, ["etc", "addonpack"]⟩] ++
        .ok project :: [.ok ⟨1, ["root", ".addonpack", "config.yaml"]⟩] := by
    decide +kernel
  have silent : ∀ other ∈ [.ok ⟨0, ["notes.yaml"]⟩, .ok ⟨1, ["etc", "addonpack"]⟩],
      (site disk).outcome? .standard other = none ∧
        (site edited).outcome? .standard other = none := by
    decide +kernel
  have leads : disk.find (some ["srv"]) project = .ok (some project.names) := by
    decide +kernel
  have allOpen (asked user : String) :
      ∀ entry ∈ (siteFiles asked user).entries, entry.2 ≠ .directory false := by
    simp [siteFiles]
  have keeps : disk.Keeps edited (some ["srv"]) project := by
    refine ⟨fun place isDirectory => ⟨isDirectory, ?_⟩, fun place led => ?_⟩
    · rw [Disk.not_isClosed (allOpen _ _), Disk.not_isClosed (allOpen _ _)]
    · cases leads.symm.trans led
      rfl
  have settled : (site disk).outcome? .standard (.ok project) = some (.error fault) := by
    decide +kernel
  obtain ⟨loaded, same⟩ := decided _ _ _ _ places (fun other member => (silent other member).1)
    settled
  have unchanged := same (edited.files (some ["srv"]))
    (fun other member => (silent other member).2) fun path isProject => by
      cases isProject
      exact kept disk edited _ _ keeps (by decide +kernel)
  exact ⟨loaded, unchanged.trans loaded, undecided (by decide +kernel)⟩

/-- Surroundings of an empty directory. -/
def bare : Surroundings where
  files := Disk.files ⟨[(["srv"], .directory)]⟩ (some ["srv"])
  environment _ := none
  workingDirectory := some ⟨1, ["srv"]⟩
  homeDirectory := some ⟨1, ["root"]⟩

/-- A settings file with a name that is too long is not passed over, though there is no file. -/
theorem load_name_too_long :
    let asked : Text := List.replicate 256 (CodePoint.ofChar 'a')
    (∀ path, bare.files.isFile path ≠ .ok true) ∧ load .standard bare none = .ok {} ∧
      load .standard bare (some asked) = .error (.unreadable ⟨0, [asked]⟩ .nameTooLong) := by
  intro asked
  refine ⟨fun path => ?_, by decide +kernel, by decide +kernel⟩
  simp only [bare, Disk.files, Disk.look]
  cases Disk.find _ _ path with
  | error refusal => nofun
  | ok found =>
    cases found with
    | none => nofun
    | some place =>
      simp only [Except.map, Option.bind_some, List.lookup_cons, List.lookup_nil]
      cases place == [Text.ofString "srv"] <;> nofun

end SettingsFile

end AddonExchange
