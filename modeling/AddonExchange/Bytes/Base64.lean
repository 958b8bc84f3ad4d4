import AddonExchange.Bytes.Basic
import AddonExchange.Text.Basic

namespace AddonExchange.Base64

/-- The sixty-four digits in the order of their values. -/
def alphabet : List Char :=
  "ABCDEFGHIJKLMNOPQRSTUVWXYZabcdefghijklmnopqrstuvwxyz0123456789+/".toList

def digit (value : Nat) : Char := (alphabet[value % 64]?).getD '='

/-- Three bytes become four digits; one or two at the end are padded. -/
def encode : Bytes → List Char
  | [] => []
  | [a] => [digit (a.toNat / 4), digit (a.toNat % 4 * 16), '=', '=']
  | [a, b] =>
    [digit (a.toNat / 4), digit (a.toNat % 4 * 16 + b.toNat / 16), digit (b.toNat % 16 * 4), '=']
  | a :: b :: c :: rest =>
    digit (a.toNat / 4) :: digit (a.toNat % 4 * 16 + b.toNat / 16) ::
      digit (b.toNat % 16 * 4 + c.toNat / 64) :: digit (c.toNat % 64) :: encode rest

/-- A group that is being read: how many digits it has, the bits not yet part of a byte, and
how many padding characters stand directly before the next character. -/
structure Group where
  digits : Nat := 0
  carry : Nat := 0
  padding : Nat := 0

/-- Reads on within a group; fails when the text ends inside one. -/
def decodeFrom (group : Group) : List Char → Option Bytes
  | [] => if group.digits = 0 then some [] else none
  | c :: rest =>
    if c = '=' then
      if 2 ≤ group.digits then
        if 4 ≤ group.digits + group.padding + 1 then some []
        else decodeFrom { group with padding := group.padding + 1 } rest
      else decodeFrom group rest
    else match alphabet.idxOf? c with
      | none => decodeFrom group rest
      | some value =>
        match group.digits with
        | 0 => decodeFrom ⟨1, value, 0⟩ rest
        | 1 =>
          (decodeFrom ⟨2, value % 16, 0⟩ rest).map ((group.carry * 4 + value / 16).toUInt8 :: ·)
        | 2 =>
          (decodeFrom ⟨3, value % 4, 0⟩ rest).map ((group.carry * 16 + value / 4).toUInt8 :: ·)
        | _ => (decodeFrom ⟨0, 0, 0⟩ rest).map ((group.carry * 64 + value).toUInt8 :: ·)

def decode? (chars : List Char) : Option Bytes := decodeFrom {} chars

end AddonExchange.Base64
