import ListLang.Number.Shortest

/-!
# Text of a Real

A real is written with its shortest decimal. Between `10 ^ -4` and `10 ^ 16` it
is written out in full, with a point and at least one digit on either side of
it; outside that range the point follows the first digit and a power of ten
follows, with a sign and at least two digits.

## Main definitions

* `Decimal.text`: The text of a positive decimal.
* `realText`: The text of any real.
-/

namespace ListLang

/-- A decimal is written in full from this power of ten of its leading digit. -/
def positionalFrom : Int := -4

/-- A decimal is written in full below this power of ten of its leading digit. -/
def positionalBelow : Int := 16

/-- The given number of zeros. -/
def zeros (n : Nat) : String :=
  String.ofList (List.replicate n '0')

/-- A decimal written in full. The digits are `ds`, and the point stands after
    `point` of them. -/
def positionalText (ds : List Char) (point : Int) : String :=
  if point ≤ 0 then "0." ++ zeros (-point).toNat ++ String.ofList ds
  else if ds.length ≤ point then String.ofList ds ++ zeros (point.toNat - ds.length) ++ ".0"
  else String.ofList (ds.take point.toNat) ++ "." ++ String.ofList (ds.drop point.toNat)

/-- The power of ten behind a decimal, with its sign and at least two digits. -/
def exponentText (e : Int) : String :=
  let digits := toString e.natAbs
  "e" ++ (if e < 0 then "-" else "+") ++ (if e.natAbs < 10 then "0" else "") ++ digits

/-- A decimal with one digit before the point, and its power of ten. -/
def scientificText (ds : List Char) (e : Int) : String :=
  let tail := String.ofList (ds.drop 1)
  String.ofList (ds.take 1) ++ (if tail.isEmpty then "" else "." ++ tail) ++ exponentText e

/-- The text of a positive decimal without zeros at the end of its digits. -/
def Decimal.text (d : Decimal) : String :=
  let ds := Nat.toDigits 10 d.digits
  let leading : Int := d.exponent + ds.length - 1
  if positionalFrom ≤ leading ∧ leading < positionalBelow then positionalText ds (leading + 1)
  else scientificText ds leading

/-- The text of a real. Zero keeps its sign; a real that is not a number has
    none. -/
def realText (x : Float) : String :=
  if x.isNaN then "nan"
  else
    let sign := if isNegative x then "-" else ""
    if x.isInf then sign ++ "inf"
    else
      let parts := BinaryParts.ofFloat x
      sign ++ if parts.mantissa = 0 then "0.0" else (shortestDecimal parts).text

end ListLang
