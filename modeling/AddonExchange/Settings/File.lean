import AddonExchange.Settings.Conversion
import AddonExchange.Settings.Disk
import AddonExchange.Settings.Expansion
import AddonExchange.Text.Quoted
import AddonExchange.Yaml.Document

/-! Settings files: where they are looked for, how they are read, and one that spells out the
defaults. The first place decides that holds a file with a document in it; where none does,
the defaults hold. -/

namespace AddonExchange.SettingsFile

def environmentVariable : String := "ADDONPACK_CONFIG"

def projectName : String := "addonpack.yaml"

def userNames : List String := [".addonpack", "config.yaml"]

/-- A settings file that spells out the defaults. -/
def template : String := String.intercalate "\n"
  ["# addonpack.yaml",
   "",
   "# Add-on server",
   "server:",
   "  host: \"0.0.0.0\"",
   "  port: 15015",
   "",
   "# Tree ingestion",
   "tree:",
   "  max_depth: 64                # deeper trees are rejected as malformed",
   "  escaped_contents: true       # file contents use the binary escape codec",
   "",
   "# Update packs",
   "sync:",
   "  hash_workers: 1              # >1 hashes sibling files in a thread pool",
   "",
   "# Logging",
   "log_level: \"info\"              # debug | info | warn | error",
   "log_format: \"text\"             # text | json",
   ""]

/-- The libraries with which settings are loaded: the one that reads the document of a text and the
one that validates settings. -/
structure Libraries where
  parse : List Char → Except Yaml.Fault Document
  validate : Document → Checked Settings

def Libraries.standard : Libraries where
  parse := Yaml.read
  validate := Settings.validate Document.validator

/-- Why settings cannot be loaded. -/
inductive Fault where
  | noWorkingDirectory
  | noHomeDirectory
  | unreadable (path : Path) (refusal : FileSystem.Refusal)
  | notUtf8 (path : Path)
  | malformed (path : Path) (problem : Yaml.Problem)
  | badScalar (message : Text)
  | endless
  | notMapping (path : Path) (kind : String)
  | invalid (path : Path) (issues : List Issue)
deriving DecidableEq

/-- What a load of settings can see: files, environment variables and two directories, of which each
can be missing. -/
structure Surroundings where
  files : FileSystem
  environment : Environment
  workingDirectory : Option Path
  homeDirectory : Option Path

/-- The path that text names, where it names one. -/
def named (text : Option Text) : List Path :=
  match text with
  | none | some [] => []
  | some t => [Path.ofText t]

/-- A path below a directory, or what is wrong where there is no such directory. -/
def below (directory : Option Path) (names : List String) (missing : Fault) : Except Fault Path :=
  match directory with
  | some path => .ok (path.append (names.map Text.ofString))
  | none => .error missing

/-- The places where a settings file is looked for: the one asked for, the one in the environment,
that of the project and that of the user. -/
def candidates (around : Surroundings) (asked : Option Text) : List (Except Fault Path) :=
  (named asked ++ named (around.environment (Text.ofString environmentVariable))).map Except.ok ++
    [below around.workingDirectory [projectName] .noWorkingDirectory,
      below around.homeDirectory userNames .noHomeDirectory]

/-- Characters with every line end as a line feed. -/
def unifyLineEnds : List Char → List Char
  | '\r' :: '\n' :: rest => '\n' :: unifyLineEnds rest
  | '\r' :: rest => '\n' :: unifyLineEnds rest
  | c :: rest => c :: unifyLineEnds rest
  | [] => []

variable (libraries : Libraries)

/-- The document that the contents of a file hold. -/
def documentOf (path : Path) (contents : Bytes) : Except Fault Document :=
  match Utf8.decode? contents with
  | none => .error (.notUtf8 path)
  | some chars =>
    (libraries.parse (unifyLineEnds chars)).mapError fun fault =>
      match fault with
      | .refused problem => .malformed path problem
      | .badScalar message => .badScalar message
      | .endless => .endless

/-- The document of a settings file, which is null where there is no file. -/
def document (files : FileSystem) (path : Path) : Except Fault Document := do
  match ← (files.contents path).mapError (Fault.unreadable path) with
  | none => return .null
  | some contents => documentOf libraries path contents

/-- The settings of a document, with references to environment variables replaced. -/
def settingsOf (environment : Environment) (path : Path) (held : Document) :
    Except Fault Settings :=
  match held with
  | .map _ =>
    match held.expand? environment with
    | none => .error .endless
    | some expanded => (libraries.validate expanded).mapError (Fault.invalid path)
  | other => .error (.notMapping path other.kindName)

/-- The settings that the first decisive place gives. -/
def loadFrom (around : Surroundings) : List (Except Fault Path) → Except Fault Settings
  | [] => .ok {}
  | place :: rest => do
    let path ← place
    match ← document libraries around.files path with
    | .null => loadFrom around rest
    | held => settingsOf libraries around.environment path held

def load (around : Surroundings) (asked : Option Text) : Except Fault Settings :=
  loadFrom libraries around (candidates around asked)

namespace Fault

/-- The wording of a fault, without what the parts of a document that are at fault say. -/
def message : Fault → Text
  | noWorkingDirectory => Text.ofString "[Errno 2] No such file or directory"
  | noHomeDirectory => Text.ofString "Could not determine home directory."
  | unreadable path refusal =>
    Text.ofString ("[Errno " ++ toString refusal.number ++ "] " ++ refusal.wording ++ ": ") ++
      path.toText.quoted
  | notUtf8 path => Text.ofString "Not UTF-8: " ++ path.toText
  | malformed path _ => Text.ofString "Invalid YAML in " ++ path.toText
  | badScalar message => message
  | endless => Text.ofString "maximum recursion depth exceeded"
  | notMapping path kind =>
    Text.ofString "Invalid config in " ++ path.toText ++
      Text.ofString (": top level must be a mapping, got " ++ kind)
  | invalid path _ => Text.ofString "Invalid config in " ++ path.toText

end Fault

end AddonExchange.SettingsFile
