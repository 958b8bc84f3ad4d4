import AddonExchange.Text.Basic

namespace AddonExchange.Yaml

inductive Directive where
  | version (major minor : Nat)
  | handle (name uri : List Char)
  | reserved

inductive Token where
  | directive (d : Directive)
  | documentStart
  | documentEnd
  | textEnd
  | blockSequenceStart
  | blockMappingStart
  | blockEnd
  | blockEntry
  | flowSequenceStart
  | flowSequenceEnd
  | flowMappingStart
  | flowMappingEnd
  | flowEntry
  | key
  | value
  | anchor (name : List Char)
  | alias (name : List Char)
  | tag (handle : Option (List Char)) (suffix : List Char)
  | scalar (content : Text) (isPlain : Bool)

end AddonExchange.Yaml
