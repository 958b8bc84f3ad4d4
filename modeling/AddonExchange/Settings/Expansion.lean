import AddonExchange.Settings.Document
import AddonExchange.Text.WordCharacter

/-! References to environment variables in settings. A reference is a dollar sign and a name of
word characters in braces; it stands for the value of the variable, or for nothing where the
variable is not set. Values are taken as they are and not looked into again. -/

namespace AddonExchange

abbrev Environment := Text → Option Text

namespace Text

def dollar : CodePoint := CodePoint.ofChar '$'

def openBrace : CodePoint := CodePoint.ofChar '\x7B'

def closeBrace : CodePoint := CodePoint.ofChar '\x7D'

/-- The name in a reference of which the dollar sign is already read, and what follows it. -/
def reference? : Text → Option (Text × Text)
  | brace :: rest =>
    match rest.dropWhile CodePoint.isWord with
    | closing :: after =>
      if brace = openBrace ∧ closing = closeBrace ∧ rest.takeWhile CodePoint.isWord ≠ [] then
        some (rest.takeWhile CodePoint.isWord, after)
      else none
    | [] => none
  | [] => none

private theorem length_after_reference_lt {t name after : Text}
    (found : reference? t = some (name, after)) : after.length < t.length := by
  unfold reference? at found
  split at found
  · rename_i brace rest
    have shorter := (List.dropWhile_sublist (l := rest) CodePoint.isWord).length_le
    split at found
    · rename_i closing remaining same
      split at found
      · cases found
        rw [same] at shorter
        simp only [List.length_cons] at *
        omega
      · cases found
    · cases found
  · cases found

/-- Replaces every reference, from left to right. -/
def expand (environment : Environment) : Text → Text
  | [] => []
  | c :: rest =>
    if c = dollar then
      match _found : reference? rest with
      | some (name, after) => (environment name).getD [] ++ expand environment after
      | none => c :: expand environment rest
    else c :: expand environment rest
termination_by t => t.length
decreasing_by
  · have shorter := length_after_reference_lt _found
    simp only [List.length_cons]
    omega
  · simp
  · simp

end Text

namespace Document

mutual

/-- Replaces the references in every text that lists and the values of mappings lead to. There is no
end to it where these lead back to a collection that they are in. -/
def expand? (environment : Environment) : Document → Option Document
  | text t => some (text (t.expand environment))
  | list items => (expandAll? environment items).map list
  | map entries => (expandEntries? environment entries).map map
  | enclosing => none
  | other => some other

def expandAll? (environment : Environment) : List Document → Option (List Document)
  | [] => some []
  | item :: rest => do
    let expanded ← item.expand? environment
    return expanded :: (← expandAll? environment rest)

def expandEntries? (environment : Environment) :
    List (Document × Document) → Option (List (Document × Document))
  | [] => some []
  | (key, value) :: rest => do
    let expanded ← value.expand? environment
    return (key, expanded) :: (← expandEntries? environment rest)

end

end Document

end AddonExchange
