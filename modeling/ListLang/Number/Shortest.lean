import ListLang.Number.Binary

/-!
# Shortest Decimals

Every finite positive real is the nearest real to a whole interval of numbers.
Its shortest decimal is the one with the fewest digits inside that interval; of
two with equally few digits it is the nearer, and of two equally near it is the
one with the even last digit. Reading that decimal gives the real back.

Everything is exact: the value, the ends of the interval and the points of a
decimal grid are compared as integers over one denominator.

## Main definitions

* `Decimal`: An integer times a power of ten.
* `Rounding`: The interval of numbers that round to one real.
* `Rounding.nearest?`: The best point of a decimal grid inside the interval.
* `shortestDecimal`: The shortest decimal of a positive finite real.
-/

namespace ListLang

/-- The number `digits * 10 ^ exponent`. -/
structure Decimal where
  /-- The digits, read as an integer. -/
  digits : Nat
  /-- The power of ten that the last digit stands for. -/
  exponent : Int
deriving DecidableEq

/-- The number of decimal digits of `n`; zero has one. -/
def decimalLength (n : Nat) : Nat :=
  (Nat.toDigits 10 n).length

/-- The numbers that round to one real, all over the same denominator. -/
structure Rounding where
  /-- Numerator of the lower end. -/
  low : Nat
  /-- Numerator of the real itself. -/
  value : Nat
  /-- Numerator of the upper end. -/
  high : Nat
  /-- The common denominator. -/
  denominator : Nat
  /-- Whether the ends themselves round to the real. -/
  closed : Bool

/-- The interval around a positive magnitude. It reaches half way to either
    neighbour, and the lower neighbour of a power of two is only half as far
    away as the upper one. The ends belong to it when the mantissa is even. -/
def Rounding.ofParts (p : BinaryParts) : Rounding :=
  let narrow : Bool := p.mantissa = twoPow 52 ∧ p.exponent > BinaryParts.leastExponent
  let scale := twoPow (p.exponent - 2).toNat
  { low := (4 * p.mantissa - if narrow then 1 else 2) * scale
    value := 4 * p.mantissa * scale
    high := (4 * p.mantissa + 2) * scale
    denominator := twoPow (2 - p.exponent).toNat
    closed := p.mantissa % 2 = 0 }

/-- The power of ten of the value's leading digit: `10 ^ e ≤ value < 10 ^ (e + 1)`. -/
def Rounding.leadingPower (r : Rounding) : Int :=
  if r.denominator ≤ r.value then decimalLength (r.value / r.denominator) - 1
  else
    let places := decimalLength (r.denominator / r.value)
    if r.denominator = r.value * tenPow (places - 1) then 1 - places else -places

/-- The best multiple of `10 ^ k` that rounds to the real: one of the two
    neighbours of the value on that grid, the nearer if both will do and the
    even one if they are equally near. -/
def Rounding.nearest? (r : Rounding) (k : Int) : Option Nat :=
  let up := tenPow (-k).toNat
  let unit := r.denominator * tenPow k.toNat
  let below := r.value * up / unit
  let rest := r.value * up % unit
  let holds (c : Nat) : Bool :=
    if r.closed then r.low * up ≤ c * unit ∧ c * unit ≤ r.high * up
    else r.low * up < c * unit ∧ c * unit < r.high * up
  match holds below, holds (below + 1) with
  | true, false => some below
  | false, true => some (below + 1)
  | true, true =>
      if 2 * rest < unit then some below
      else if unit < 2 * rest then some (below + 1)
      else some (if below % 2 = 0 then below else below + 1)
  | false, false => none

/-- Search the grids of `count`, `count + 1`, … digits, at most `tries` of
    them. -/
def Rounding.search (r : Rounding) (leading : Int) : (tries count : Nat) → Option Decimal
  | 0, _ => none
  | tries + 1, count =>
      let k := leading - count + 1
      match r.nearest? k with
      | some digits => some ⟨digits, k⟩
      | none => r.search leading tries (count + 1)

/-- Drop at most `tries` zeros at the end of the digits. -/
def Decimal.trimWithin : (tries digits : Nat) → (exponent : Int) → Decimal
  | 0, digits, e => ⟨digits, e⟩
  | tries + 1, digits, e =>
      if digits % 10 = 0 then trimWithin tries (digits / 10) (e + 1) else ⟨digits, e⟩

/-- Drop the zeros at the end of the digits, raising the exponent for each. A
    number has fewer digits than its value, so none is left. -/
def Decimal.trim (d : Decimal) : Decimal :=
  Decimal.trimWithin d.digits d.digits d.exponent

/-- The shortest decimal of a positive magnitude. Seventeen digits tell any two
    reals apart, so the search never goes further. -/
def shortestDecimal (p : BinaryParts) : Decimal :=
  let r := Rounding.ofParts p
  match r.search r.leadingPower 17 1 with
  | some d => d.trim
  | none => ⟨0, 0⟩

end ListLang
