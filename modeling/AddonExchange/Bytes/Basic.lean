namespace AddonExchange

abbrev Bytes := List UInt8

namespace Bytes

/-- Maps the bytes of `A` to `Z` to those of `a` to `z`. -/
def lowerByte (b : UInt8) : UInt8 := if 0x41 ≤ b ∧ b ≤ 0x5A then b + 0x20 else b

/-- Maps the bytes of `a` to `z` to those of `A` to `Z`. -/
def upperByte (b : UInt8) : UInt8 := if 0x61 ≤ b ∧ b ≤ 0x7A then b - 0x20 else b

end Bytes

end AddonExchange
