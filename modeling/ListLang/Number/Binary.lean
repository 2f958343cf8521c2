/-!
# Binary Parts of a Real

Reals are 64-bit binary floating-point numbers. A finite one is a sign and a
magnitude `mantissa * 2 ^ exponent`, and every exact question about it (is it
whole, which decimals lie near it) is a question about those two integers.

## Main definitions

* `twoPow`, `tenPow`: Powers of two and of ten.
* `BinaryParts`: A magnitude as a mantissa and a power of two.
* `BinaryParts.ofFloat`: The parts of a finite real.
* `isNegative`: The sign bit.
* `wholePart?`: The integer a whole real equals.
* `realBound`: Where the integers without a nearest finite real begin.
* `realOfInt?`: The nearest real to an integer, if it is finite.
-/

namespace ListLang

/-- A power of two. -/
def twoPow (n : Nat) : Nat :=
  Nat.pow 2 n

/-- A power of ten. -/
def tenPow (n : Nat) : Nat :=
  Nat.pow 10 n

/-- The magnitude `mantissa * 2 ^ exponent`. -/
structure BinaryParts where
  /-- An integer below `2 ^ 53`. -/
  mantissa : Nat
  /-- The power of two, at least `-1074`. -/
  exponent : Int
deriving DecidableEq

/-- The least exponent, shared by the reals too small for an implied leading
    bit. -/
def BinaryParts.leastExponent : Int := -1074

/-- The magnitude of a finite real, read from its bits: fifty-two of fraction
    under eleven of exponent. -/
def BinaryParts.ofFloat (x : Float) : BinaryParts :=
  let bits := x.toBits.toNat
  let fraction : Nat := bits % twoPow 52
  let biased : Nat := bits / twoPow 52 % twoPow 11
  if biased = 0 then ⟨fraction, leastExponent⟩ else ⟨twoPow 52 + fraction, (biased : Int) - 1075⟩

/-- Whether the sign bit is set. It is for `-0.0`. -/
def isNegative (x : Float) : Bool :=
  decide (twoPow 63 ≤ x.toBits.toNat)

/-- The integer that `x` equals, if `x` is finite and has no fractional part. -/
def wholePart? (x : Float) : Option Int :=
  if x.isFinite then
    let parts := BinaryParts.ofFloat x
    let signed (n : Nat) : Int := if isNegative x then -(n : Int) else n
    match parts.exponent with
    | .ofNat up => some (signed (parts.mantissa * twoPow up))
    | .negSucc down =>
        if parts.mantissa % twoPow (down + 1) = 0 then
          some (signed (parts.mantissa / twoPow (down + 1)))
        else none
  else none

/-- The least magnitude whose nearest real lies beyond the finite reals. It is half
    a step above the greatest of them, and the tie goes up. -/
@[irreducible]
def realBound : Nat :=
  twoPow 1024 - twoPow 970

/-- The real nearest to `n`, ties going to the even mantissa, or `none` when
    that lies beyond the finite reals. -/
def realOfInt? (n : Int) : Option Float :=
  if n.natAbs < realBound then some (Float.ofInt n) else none

/-- The number of bits needed to write the magnitude of `n`. -/
def bitLength (n : Int) : Nat :=
  if n = 0 then 0 else n.natAbs.log2 + 1

end ListLang
