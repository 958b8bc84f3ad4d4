import AddonExchange.Proofs.Settings.Validation

namespace AddonExchange

open Checked

variable {Input : Type}

section Agreement

variable (v : Validator Input)

end Agreement

section Congruence

variable {v : Validator Input} {first second : Input}

end Congruence

section Defaults

/-- What holds of the settings where the entries that they are read from say nothing. -/
structure ServerSettings.FilledIn (entries : Text → Option Input) (server : ServerSettings) :
    Prop where
  host : entries "host" = none → server.host = "0.0.0.0"
  port : entries "port" = none → server.port = 15015

@[inherit_doc ServerSettings.FilledIn]
structure TreeSettings.FilledIn (entries : Text → Option Input) (tree : TreeSettings) :
    Prop where
  maxDepth : entries "max_depth" = none → tree.maxDepth = 64
  escapedContents : entries "escaped_contents" = none → tree.escapedContents = true

@[inherit_doc ServerSettings.FilledIn]
structure SyncSettings.FilledIn (entries : Text → Option Input) (sync : SyncSettings) :
    Prop where
  hashWorkers : entries "hash_workers" = none → sync.hashWorkers = 1

/-- What holds of the settings where the entries that they are read from say nothing, in the whole
and in the sections. -/
structure Settings.FilledIn (v : Validator Input) (entries : Text → Option Input)
    (settings : Settings) : Prop where
  server : entries "server" = none → settings.server = {}
  tree : entries "tree" = none → settings.tree = {}
  sync : entries "sync" = none → settings.sync = {}
  logLevel : entries "log_level" = none → settings.logLevel = "info"
  logFormat : entries "log_format" = none → settings.logFormat = "text"
  inServer : ∀ input fields, entries "server" = some input →
    v.written? v.server? input = some fields → settings.server.FilledIn fields
  inTree : ∀ input fields, entries "tree" = some input →
    v.written? v.tree? input = some fields → settings.tree.FilledIn fields
  inSync : ∀ input fields, entries "sync" = some input →
    v.written? v.sync? input = some fields → settings.sync.FilledIn fields

variable {v : Validator Input} {entries : Text → Option Input}

end Defaults

end AddonExchange
