import ListLang.Number.Shortest

/-!
# Numerals

How a number is written: an optional sign, digits, optionally a point with
digits after it, and optionally a power of ten. A numeral without point and
power of ten denotes an integer; any other denotes the real nearest to the
decimal it spells.

## Main definitions

* `Numeral`: The parts of a number as written.
* `Numeral.read?`: Reading a whole text as a numeral.
* `Numeral.integer`: The integer that the digits before the point denote.
* `Numeral.real`: The real that the numeral denotes.
-/

namespace ListLang

/-- The power of ten of a numeral: its sign and its digits. -/
structure TenPower where
  /-- Whether a minus sign is written. -/
  negative : Bool
  /-- At least one digit. -/
  digits : List Char
deriving DecidableEq

/-- The parts of a number as written. -/
structure Numeral where
  /-- Whether a minus sign is written. -/
  negative : Bool
  /-- The digits before the point. -/
  whole : List Char
  /-- The digits after the point, if a point is written. -/
  fraction : Option (List Char)
  /-- The power of ten, if one is written. -/
  power : Option TenPower
deriving DecidableEq

namespace Numeral

/-- Take an optional sign off a text; true is minus. -/
def takeSign : List Char → Bool × List Char
  | '+' :: cs => (false, cs)
  | '-' :: cs => (true, cs)
  | cs => (false, cs)

/-- Read a whole text as an optional power of ten. -/
def readPower? : List Char → Option (Option TenPower)
  | [] => some none
  | c :: cs =>
      if c = 'e' ∨ c = 'E' then
        let (negative, ds) := takeSign cs
        if ds ≠ [] ∧ ds.all Char.isDigit then some (some ⟨negative, ds⟩) else none
      else none

/-- Read a whole text as a numeral. At least one digit stands beside the
    point. -/
def read? (cs : List Char) : Option Numeral :=
  let (negative, body) := takeSign cs
  let whole := body.takeWhile Char.isDigit
  match body.dropWhile Char.isDigit with
  | '.' :: tail =>
      let fraction := tail.takeWhile Char.isDigit
      if whole = [] ∧ fraction = [] then none
      else (readPower? (tail.dropWhile Char.isDigit)).map fun power =>
        ⟨negative, whole, some fraction, power⟩
  | rest =>
      if whole = [] then none
      else (readPower? rest).map fun power => ⟨negative, whole, none, power⟩

/-- Whether the numeral has neither point nor power of ten. -/
def isInteger (n : Numeral) : Bool :=
  n.fraction.isNone && n.power.isNone

/-- The value of a decimal digit. -/
def digitValue (c : Char) : Nat :=
  c.toNat - '0'.toNat

/-- The number that digits denote in base ten. -/
def digitsValue (ds : List Char) : Nat :=
  ds.foldl (fun n c => 10 * n + digitValue c) 0

/-- The number `n`, negated if `negative`. -/
def signed (negative : Bool) (n : Nat) : Int :=
  if negative then -(n : Int) else n

/-- The integer that sign and digits before the point denote. -/
def integer (n : Numeral) : Int :=
  signed n.negative (digitsValue n.whole)

/-- The real nearest to `digits * 10 ^ exponent`. Beyond four hundred places in
    either direction the answer is infinite or zero, whatever the digits. -/
def nearestReal (digits : Nat) (exponent : Int) : Float :=
  let leading := exponent + decimalLength digits
  if digits = 0 ∨ leading < -400 then 0.0
  else if 400 < leading then 1.0 / 0.0
  else OfScientific.ofScientific digits (decide (exponent < 0)) exponent.natAbs

/-- The real that the numeral denotes. -/
def real (n : Numeral) : Float :=
  let fraction := n.fraction.getD []
  let power : Int := match n.power with
    | some p => signed p.negative (digitsValue p.digits)
    | none => 0
  let magnitude := nearestReal (digitsValue (n.whole ++ fraction)) (power - fraction.length)
  if n.negative then -magnitude else magnitude

end Numeral

end ListLang
