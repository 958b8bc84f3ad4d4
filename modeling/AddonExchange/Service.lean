import AddonExchange.Admission.Report
import AddonExchange.Settings.Basic
import AddonExchange.Sync.HashList
import AddonExchange.Sync.UpdatePack
import AddonExchange.Tree.Reader

namespace AddonExchange

structure Service where
  settings : Settings := {}

namespace Service

/-- Reads a tree under the depth limit and in the form of contents that the settings name. -/
def ingest (service : Service) (value : Value) : Except TreeFault Dir :=
  Dir.ofValue ⟨service.settings.tree.escapedContents, service.settings.tree.maxDepth⟩ value

/-- Reads an add-on and reports on it. -/
def assess (service : Service) (name : Text) (value : Value) : Except TreeFault (Dir × Report) :=
  (service.ingest value).map fun tree => (tree, Report.ofAddon name tree)

def hashList (service : Service) (tree : Dir) : Value :=
  (tree.hashList (some service.settings.sync.hashWorkers)).toValue false

/-- Whether a client with the given hash list holds every file of a tree. -/
def isUpToDate (service : Service) (client : Value) (server : Dir) : Except TreeFault Bool :=
  (service.ingest client).map fun tree => tree.contains server

/-- The pack that brings a client with the given hash list up to a tree. -/
def updatePack (service : Service) (client : Value) (server : Dir) :
    Except TreeFault UpdatePack :=
  (service.ingest client).map fun tree => UpdatePack.between tree server

/-- A pack as a host value, in the form of contents that the settings name. -/
def render (service : Service) (pack : UpdatePack) : Value :=
  pack.toValue service.settings.tree.escapedContents

end Service

end AddonExchange
