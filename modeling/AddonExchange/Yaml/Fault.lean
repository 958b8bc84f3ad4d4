import AddonExchange.Text.Basic

namespace AddonExchange.Yaml

/-- Causes for which a document is refused. -/
inductive Problem where
  | unprintableCharacter
  | strayCharacter
  | keyWithoutValue
  | entryNotAllowed
  | keyNotAllowed
  | valueNotAllowed
  | malformedDirective
  | repeatedDirective
  | unsupportedVersion
  | malformedAnchor
  | malformedTag
  | unknownHandle
  | malformedEscape
  | unclosedQuote
  | separatorInQuote
  | malformedBlockHeader
  | unexpectedToken
  | secondDocument
  | unknownAlias
  | repeatedAnchor
  | unknownTag
  | wrongNodeKind
  | unusableKey
  | malformedBase64
  | unclosedCollection
  | unfinished
deriving DecidableEq

/-- A document that is refused, a scalar of which the text is not what its tag promises, or text
that is to be taken from a mapping inside itself. -/
inductive Fault where
  | refused (problem : Problem)
  | badScalar (message : Text)
  | endless

end AddonExchange.Yaml
