import ListLang.Builtin.Apply
import ListLang.Eval.Evaluate

/-!
# Integers With a Text

An integer has a text if it is below a power of ten. The integers that arithmetic
takes and gives are all of them far below it: an operand has to be near some
finite real, and a result is a whole real, which its bits keep below a power of
two. So arithmetic cannot make an integer too long to be written, and it cannot
lose one either. A limit of depth for which the call stack has room is a machine
integer and has a text as well.

## Main definitions

* `Number.isWritable`: Whether a number has a text.
* `longInteger`: The least integer that is too long to be written.

## Theorems

* `isWritable_iff`: The integers with a text.
* `isWritable_of_realOfInt?`: Operands of arithmetic have a text.
* `natAbs_lt_of_wholePart?`: Whole reals are below a power of two.
* `Number.isWritable_ofReal`: Results of arithmetic have a text.
* `Limits.isWritable_depth`: So have limits that the call stack does not refuse.
-/

namespace ListLang

theorem length_toDigits_le_iff (m : Nat) {k : Nat} (hk : 0 < k) :
    (Nat.toDigits 10 m).length ≤ k ↔ m < tenPow k :=
  Nat.length_toDigits_le_iff (by decide) hk

/-- An integer has a text if its magnitude is below a power of ten. -/
theorem isWritable_iff (n : Int) : isWritable n = true ↔ n.natAbs < tenPow digitLimit := by
  unfold isWritable
  rw [decide_eq_true_iff, length_toDigits_le_iff n.natAbs (by decide)]

theorem twoPow_le_twoPow {j k : Nat} (h : j ≤ k) : twoPow j ≤ twoPow k :=
  Nat.pow_le_pow_right Nat.two_pos h

theorem twoPow_le_tenPow (k : Nat) : twoPow k ≤ tenPow k :=
  Nat.pow_le_pow_left (by decide) k

/-- Every power of two that arithmetic comes near is below the power of ten. -/
theorem isWritable_of_natAbs_lt {n : Int} {k : Nat} (h : n.natAbs < twoPow k)
    (hk : k ≤ digitLimit) : isWritable n = true := by
  refine (isWritable_iff n).2 (Nat.lt_of_lt_of_le h ?_)
  calc twoPow k ≤ twoPow digitLimit := twoPow_le_twoPow hk
    _ ≤ tenPow digitLimit := twoPow_le_tenPow digitLimit

/-- An integer that is near some finite real has a text. -/
theorem isWritable_of_realOfInt? {n : Int} {x : Float} (h : realOfInt? n = some x) :
    isWritable n = true := by
  unfold realOfInt? at h
  split at h
  · rename_i hbound
    have hle : realBound ≤ twoPow 1024 := by
      unfold realBound
      exact Nat.sub_le ..
    exact isWritable_of_natAbs_lt (Nat.lt_of_lt_of_le hbound hle) (by decide)
  · cases h

/-! ### Whole Reals -/

theorem BinaryParts.mantissa_ofFloat_lt (x : Float) : (ofFloat x).mantissa < twoPow 53 := by
  have hfraction : x.toBits.toNat % twoPow 52 < twoPow 52 := Nat.mod_lt _ (by decide)
  have hdouble : twoPow 53 = twoPow 52 + twoPow 52 := by decide
  unfold ofFloat
  dsimp only
  split <;> simp only <;> omega

theorem BinaryParts.exponent_ofFloat_le (x : Float) : (ofFloat x).exponent ≤ 972 := by
  have hbiased : x.toBits.toNat / twoPow 52 % twoPow 11 < 2048 := Nat.mod_lt _ (by decide)
  unfold ofFloat leastExponent
  dsimp only
  split <;> simp only <;> omega

/-- A whole real is below the power of two that its bits allow. -/
theorem natAbs_lt_of_wholePart? {x : Float} {n : Int} (h : wholePart? x = some n) :
    n.natAbs < twoPow 1025 := by
  have hmantissa := BinaryParts.mantissa_ofFloat_lt x
  have hexponent := BinaryParts.exponent_ofFloat_le x
  -- The sign is no part of the magnitude.
  have hsigned : ∀ k : Nat, (if isNegative x then -(k : Int) else k).natAbs = k := by
    intro k
    split <;> omega
  unfold wholePart? at h
  split at h
  · dsimp only at h
    split at h
    · rename_i up hup
      have hle : up ≤ 972 := by
        rw [hup] at hexponent
        exact Int.ofNat_le.1 hexponent
      cases h
      rw [hsigned]
      calc (BinaryParts.ofFloat x).mantissa * twoPow up
          < twoPow 53 * twoPow up := Nat.mul_lt_mul_of_pos_right hmantissa (Nat.two_pow_pos up)
        _ = twoPow (53 + up) := (Nat.pow_add 2 53 up).symm
        _ ≤ twoPow 1025 := twoPow_le_twoPow (by omega)
    · split at h
      · cases h
        rw [hsigned]
        refine Nat.lt_of_lt_of_le ?_ (twoPow_le_twoPow (by decide : 53 ≤ 1025))
        exact Nat.lt_of_le_of_lt (Nat.div_le_self ..) hmantissa
      · cases h
  · cases h

/-- Whether a number has a text. Every real does. -/
def Number.isWritable : Number → Bool
  | .integer n => ListLang.isWritable n
  | .real _ => true

theorem Number.isWritable_ofReal (x : Float) : (Number.ofReal x).isWritable = true := by
  unfold ofReal
  split
  · exact isWritable_of_natAbs_lt (natAbs_lt_of_wholePart? ‹_›) (by decide)
  · rfl

/-- What arithmetic gives has a text. -/
theorem Arithmetic.isWritable_result {op : Arithmetic} {x y : Float} {n : Number}
    (h : op.apply? x y = some n) : n.isWritable = true := by
  unfold Arithmetic.apply? at h
  split at h
  · cases h
  · cases h
    exact Number.isWritable_ofReal _

/-- A limit of depth has a text if the call stack has room for it. -/
theorem Limits.isWritable_depth {limits : Limits} (h : limits.refusal? = none) :
    ListLang.isWritable limits.depth = true := by
  have hroom := (CallStack.refusal?_eq_none_iff ..).1 h
  have hlimit := limits.stack.limit_le
  have hpow : twoPow 32 = 4294967296 := by decide
  unfold stackLimit callsPerLevel at hroom
  unfold CallStack.greatestLimit at hroom hlimit
  refine isWritable_of_natAbs_lt (k := 32) ?_ (by decide)
  omega

/-- The least integer that is too long to be written. -/
def longInteger : Int := tenPow digitLimit

theorem isWritable_longInteger : isWritable longInteger = false := by
  have hlong : longInteger.natAbs = tenPow digitLimit := Int.natAbs_natCast _
  rw [Bool.eq_false_iff, Ne, isWritable_iff, hlong]
  exact Nat.lt_irrefl _

/-- An error can only say that it is an integer. -/
theorem shown_longInteger : (Value.integer longInteger).shown = ⟨none, .integer⟩ := by
  simp only [Value.shown, Value.text?, Value.isWritable, isWritable_longInteger, Value.kind,
    Bool.false_eq_true, ↓reduceIte]

end ListLang
