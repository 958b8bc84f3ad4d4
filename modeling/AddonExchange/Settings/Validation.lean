import AddonExchange.Settings.Basic
import AddonExchange.Settings.Issue

/-! Reading settings from inputs of any type. A validation library knows what the inputs are and
converts them to the kinds of the fields. Every field is checked on its own and the issues are told
in the order in which the fields are declared; absent fields take their defaults and keys that no
field has are passed over. -/

namespace AddonExchange

/-- What a validation library makes of inputs of a type: their conversions to the kinds of fields,
the entries of those that are mappings, the settings that some of them are already, and plain data
as inputs. -/
structure Validator (Input : Type) where
  integer : Input → Checked Int
  boolean : Input → Checked Bool
  text : Input → Checked Text
  literal : (words : List String) → Input → Checked Text
  entries? : Input → Option (Text → Option Input)
  server? : Input → Option ServerSettings
  tree? : Input → Option TreeSettings
  sync? : Input → Option SyncSettings
  settings? : Input → Option Settings
  ofInt : Int → Input
  ofBool : Bool → Input
  ofText : Text → Input
  ofEntries : List (Text × Input) → Input

namespace Checked

def above (bound i : Int) : Checked Int := if bound < i then .ok i else fail (.notAbove bound)

def lessThan (bound i : Int) : Checked Int := if i < bound then .ok i else fail (.notBelow bound)

def atLeast (bound i : Int) : Checked Int := if bound ≤ i then .ok i else fail (.notAtLeast bound)

/-- The input under a key, checked, or the default where the key is absent. -/
def field {Input α : Type} (entries : Text → Option Input) (key : String) (default : α)
    (check : Input → Checked α) : Checked α :=
  match entries (Text.ofString key) with
  | none => .ok default
  | some input => (check input).mapError fun issues => issues.map (Issue.below key)

end Checked

open Checked

variable {Input : Type} (v : Validator Input)

/-- The entries from which settings of a kind are read. Where the input is such settings already
there are none. -/
def Validator.written? {α : Type} (ready? : Input → Option α) (input : Input) :
    Option (Text → Option Input) :=
  match ready? input with
  | some _ => none
  | none => v.entries? input

/-- Settings of a kind: those that the input is, as they are, or those that its entries give. -/
def Validator.model {α : Type} (name : String) (ready? : Input → Option α)
    (read : (Text → Option Input) → Checked α) (input : Input) : Checked α :=
  match ready? input with
  | some ready => .ok ready
  | none =>
    match v.entries? input with
    | some entries => read entries
    | none => fail (.notSection name)

namespace ServerSettings

def ofEntries (entries : Text → Option Input) : Checked ServerSettings := do
  let host := field entries "host" ({} : ServerSettings).host v.text
  let port := field entries "port" ({} : ServerSettings).port fun input =>
    (v.integer input).bind fun i => (lessThan 65536 i).bind (above 0)
  let (host, port) ← both host port
  return ⟨host, port⟩

/-- Reads where the service listens. -/
def validate : Input → Checked ServerSettings := v.model "ServerConfig" v.server? (ofEntries v)

end ServerSettings

namespace TreeSettings

def ofEntries (entries : Text → Option Input) : Checked TreeSettings := do
  let maxDepth := field entries "max_depth" ({} : TreeSettings).maxDepth fun input =>
    (v.integer input).bind (above 0)
  let escaped := field entries "escaped_contents" ({} : TreeSettings).escapedContents v.boolean
  let (maxDepth, escaped) ← both maxDepth escaped
  return ⟨maxDepth, escaped⟩

/-- Reads how trees are read. -/
def validate : Input → Checked TreeSettings := v.model "TreeConfig" v.tree? (ofEntries v)

end TreeSettings

namespace SyncSettings

def ofEntries (entries : Text → Option Input) : Checked SyncSettings := do
  let workers ← field entries "hash_workers" ({} : SyncSettings).hashWorkers fun input =>
    (v.integer input).bind (atLeast 1)
  return ⟨workers⟩

/-- Reads how trees are compared. -/
def validate : Input → Checked SyncSettings := v.model "SyncConfig" v.sync? (ofEntries v)

end SyncSettings

namespace Settings

def ofEntries (entries : Text → Option Input) : Checked Settings := do
  let server := field entries "server" {} (ServerSettings.validate v)
  let tree := field entries "tree" {} (TreeSettings.validate v)
  let sync := field entries "sync" {} (SyncSettings.validate v)
  let level := field entries "log_level" ({} : Settings).logLevel (v.literal logLevels)
  let format := field entries "log_format" ({} : Settings).logFormat (v.literal logFormats)
  let ((((server, tree), sync), level), format) ←
    both (both (both (both server tree) sync) level) format
  return ⟨server, tree, sync, level, format⟩

/-- Reads all settings. -/
def validate : Input → Checked Settings := v.model "AddonPackConfig" v.settings? (ofEntries v)

end Settings

def ServerSettings.write (server : ServerSettings) : Input :=
  v.ofEntries
    [(Text.ofString "host", v.ofText server.host), (Text.ofString "port", v.ofInt server.port)]

def TreeSettings.write (tree : TreeSettings) : Input :=
  v.ofEntries
    [(Text.ofString "max_depth", v.ofInt tree.maxDepth),
      (Text.ofString "escaped_contents", v.ofBool tree.escapedContents)]

def SyncSettings.write (sync : SyncSettings) : Input :=
  v.ofEntries [(Text.ofString "hash_workers", v.ofInt sync.hashWorkers)]

/-- Settings as a mapping. -/
def Settings.write (settings : Settings) : Input :=
  v.ofEntries
    [(Text.ofString "server", settings.server.write v),
      (Text.ofString "tree", settings.tree.write v),
      (Text.ofString "sync", settings.sync.write v),
      (Text.ofString "log_level", v.ofText settings.logLevel),
      (Text.ofString "log_format", v.ofText settings.logFormat)]

end AddonExchange
