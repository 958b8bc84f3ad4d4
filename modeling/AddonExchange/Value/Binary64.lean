/-! Floating-point numbers as exact values: a sign, a whole mantissa and a power of two, or
one of the values that are not finite. -/

namespace AddonExchange

/-- The value of a double-precision number. -/
inductive Binary64 where
  | finite (negative : Bool) (mantissa : Nat) (exponent : Int)
  | infinite (negative : Bool)
  | nan
deriving DecidableEq, Inhabited

namespace Binary64

/-- Takes a machine number apart. -/
def ofFloat (x : Float) : Binary64 :=
  let bits := x.toBits.toNat
  let negative := bits / 0x8000000000000000 == 1
  let biased : Nat := bits / 0x10000000000000 % 2048
  let fraction := bits % 0x10000000000000
  if biased = 2047 then if fraction = 0 then infinite negative else nan
  else if biased = 0 then finite negative fraction (-1074)
  else finite negative (0x10000000000000 + fraction) ((biased : Int) - 1075)

/-- The whole number that a finite value is, if it has no fractional part. -/
def toInt? : Binary64 → Option Int
  | finite negative mantissa exponent =>
    let signed : Int := if negative then -mantissa else mantissa
    match exponent with
    | .ofNat places => some (signed * Nat.pow 2 places)
    | .negSucc places =>
      if mantissa % Nat.pow 2 (places + 1) = 0 then some (signed / Nat.pow 2 (places + 1)) else none
  | _ => none

end Binary64

end AddonExchange
