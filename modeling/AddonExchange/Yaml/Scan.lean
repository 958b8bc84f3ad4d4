import AddonExchange.Yaml.Fault
import AddonExchange.Yaml.Glyph

namespace AddonExchange.Yaml

abbrev Scan := StateT (List Glyph) (Except Fault)

namespace Scan

def refuse {α : Type} (problem : Problem) : Scan α := throw (.refused problem)

def here : Scan Glyph := return (← get).headD ⟨endMark, 0, 0, 0⟩

def peekAt (ahead : Nat) : Scan Char :=
  return match (← get)[ahead]? with
    | some glyph => glyph.char
    | none => endMark

def peek : Scan Char := peekAt 0

def column : Scan Nat := return (← here).column

def skip (count : Nat) : Scan Unit := modify (·.drop count)

def takeWhile (inClass : Char → Bool) : Scan (List Char) := do
  let run := (← get).takeWhile fun glyph => inClass glyph.char
  skip run.length
  return run.map (·.char)

def skipWhile (inClass : Char → Bool) : Scan Unit := do
  let _ ← takeWhile inClass

/-- Goes over the given number of characters, which have to be of a class, and gives them. -/
def takeExactly (count : Nat) (inClass : Char → Bool) (problem : Problem) : Scan (List Char) := do
  let run := ((← get).take count).map (·.char)
  if run.length == count && run.all inClass then
    skip count
    return run
  else refuse problem

/-- Goes over a line end, if one is next, and gives it in its plain form. -/
def lineBreak : Scan (List Char) := do
  let c ← peek
  if c == '\r' && (← peekAt 1) == '\n' then
    skip 2
    return ['\n']
  else if c == '\u2028' || c == '\u2029' then
    skip 1
    return [c]
  else if isBreak c then
    skip 1
    return ['\n']
  else return []

def skipSpacesAndComment : Scan Unit := do
  skipWhile (· == ' ')
  if (← peek) == '#' then skipWhile (!isEnd ·)

def atDocumentSeparator : Scan Bool := do
  let first ← peek
  return (first == '-' || first == '.') && (← peekAt 1) == first && (← peekAt 2) == first &&
    isSeparator (← peekAt 3)

/-- Repeats a step until it gives a result. The count bounds the repetitions. -/
def repeatAtMost {σ α : Type} (step : σ → Scan (σ ⊕ α)) : Nat → σ → Scan α
  | 0, _ => refuse .unfinished
  | count + 1, state => do
    match ← step state with
    | .inl next => repeatAtMost step count next
    | .inr result => return result

/-- Repeats a step that goes over at least one character whenever it asks to be repeated. -/
def untilDone {σ α : Type} (step : σ → Scan (σ ⊕ α)) (state : σ) : Scan α := do
  repeatAtMost step ((← get).length + 1) state

end Scan

end AddonExchange.Yaml
