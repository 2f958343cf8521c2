/-!
# Text of an Integer

An integer is written in full or not at all: one with too many digits has no
text, and whatever was to be written with it in it is not written either.

## Main definitions

* `digitLimit`: How many digits an integer may have.
* `isWritable`: Whether an integer has a text.
* `digitsRefused`: What is said in place of a text.
-/

namespace ListLang

/-- The number of digits that an integer may have. -/
def digitLimit : Nat := 4300

/-- Whether an integer has few enough digits to be written. Its sign is not one of
    them. -/
def isWritable (n : Int) : Bool :=
  decide ((Nat.toDigits 10 n.natAbs).length ≤ digitLimit)

/-- The beginning of what is said of an integer with too many digits. -/
def digitsExceeded : String :=
  "Exceeds the limit (" ++ toString digitLimit ++ " digits) for integer string conversion"

/-- The end of what is said of an integer with too many digits. -/
def digitsAdvice : String :=
  "; use sys.set_int_max_str_digits() to increase the limit"

/-- What is said in place of a text with an integer that has too many digits. -/
def digitsRefused : String :=
  digitsExceeded ++ digitsAdvice

end ListLang
