import AddonExchange.Tree.Reader

namespace AddonExchange

/-- Where the service listens. -/
structure ServerSettings where
  host : Text := Text.ofString "0.0.0.0"
  port : Int := 15015
deriving DecidableEq

/-- How trees are read. -/
structure TreeSettings where
  maxDepth : Int := defaultMaxDepth
  escapedContents : Bool := true
deriving DecidableEq

/-- How trees are compared. -/
structure SyncSettings where
  hashWorkers : Int := 1
deriving DecidableEq

structure Settings where
  server : ServerSettings := {}
  tree : TreeSettings := {}
  sync : SyncSettings := {}
  logLevel : Text := Text.ofString "info"
  logFormat : Text := Text.ofString "text"
deriving DecidableEq

def Settings.logLevels : List String := ["debug", "info", "warn", "error"]

def Settings.logFormats : List String := ["text", "json"]

end AddonExchange
