import Mathlib.Data.Nat.Bitwise
import NodeFormula.Conversion

/-!
# What conversion keeps

A value that is written as its type asks for is converted to one written as the
new type asks for.  Conversion to a truth value goes two ways: numbers are true
up to zero, means are true unless zero.
-/

namespace NodeFormula

namespace Number.Double

@[simp]
theorem abs_negate (x : Double) : x.negate.abs = x.abs := by
  refine congrArg mk (UInt64.toNat_inj.1 ?_)
  simp [negate, Nat.and_xor_distrib_right]

theorem isNegative_negate (x : Double) : x.negate.isNegative = !x.isNegative := by
  have bounded : (x.bits >>> 63).toNat < 2 := by
    simpa [Nat.shiftRight_eq_div_pow] using Nat.div_lt_of_lt_mul x.bits.toNat_lt
  have flips : x.negate.bits >>> 63 = x.bits >>> 63 ^^^ 1 := UInt64.shiftRight_xor
  have zeroOrOne : x.bits >>> 63 = 0 ∨ x.bits >>> 63 = 1 := by
    simp only [← UInt64.toNat_inj]
    exact Nat.le_one_iff_eq_zero_or_eq_one.1 (Nat.le_of_lt_succ bounded)
  rcases zeroOrOne with isZero | isOne
  · simp [isNegative, flips, isZero]
  · simp [isNegative, flips, isOne]

def IsPositive (x : Double) : Prop := 0 < x.bits.toNat ∧ x.bits.toNat < infinity.bits.toNat

theorem isPositive_ofFraction (nonzero : n ≠ 0) (fits : (ofFraction n 1).isInf = false) :
    (ofFraction n 1).IsPositive := by
  obtain ⟨bits, positive, shape⟩ : ∃ bits, 0 < bits ∧ ofFraction n 1 =
      if bits < infinity.bits.toNat then ⟨.ofNat bits⟩ else infinity := by
    refine ⟨_, ?_, if_neg nonzero⟩
    have noBit : Nat.log2 1 = 0 := rfl
    refine Nat.add_pos_left (Nat.mul_pos ?_ (Nat.pow_pos Nat.two_pos)) _
    omega
  rw [shape] at fits ⊢
  split at fits
  · rename_i finite
    have sameBits : (UInt64.ofNat bits).toNat = bits :=
      UInt64.toNat_ofNat_of_lt' (finite.trans (by decide))
    rw [if_pos finite]
    exact ⟨sameBits.symm ▸ positive, sameBits.symm ▸ finite⟩
  · cases fits

theorem IsPositive.unsigned {x : Double} (positive : x.IsPositive) :
    x.isZero = false ∧ x.isNegative = false ∧ x.isNaN = false := by
  have small : x.bits.toNat < 2 ^ 63 := positive.2.trans (by decide)
  have same : x.abs = x := by
    refine congrArg mk (UInt64.toNat_inj.1 ?_)
    exact (UInt64.toNat_and _ _).trans
      ((Nat.and_two_pow_sub_one_eq_mod _ 63).trans (Nat.mod_eq_of_lt small))
  have noSign : x.bits >>> 63 = 0 := by
    refine UInt64.toNat_inj.1 ((UInt64.toNat_shiftRight _ _).trans ?_)
    exact (Nat.shiftRight_eq_div_pow _ 63).trans (Nat.div_eq_of_lt small)
  refine ⟨?_, by simp [isNegative, noSign], ?_⟩
  · refine beq_eq_false_iff_ne.2 fun isZero => positive.1.ne' ?_
    rw [← same, isZero]
    rfl
  · simpa [isNaN, same, UInt64.lt_iff_toNat_lt] using Nat.le_of_lt positive.2

theorem isAtMostZero_ofInt (found : ofInt? n = some x) : x.isAtMostZero = decide (n ≤ 0) := by
  by_cases zero : n = 0
  · subst zero
    cases found
    decide
  rw [ofInt?] at found
  split at found
  · cases found
  · rename_i fits
    obtain ⟨notZero, noSign, number⟩ :=
      (isPositive_ofFraction (Int.natAbs_ne_zero.2 zero) (by simpa using fits)).unsigned
    obtain rfl := Option.some.inj found
    split_ifs with negative
    · have sameNaN : (ofFraction n.natAbs 1).negate.isNaN = false := by simpa [isNaN] using number
      simp [isAtMostZero, isNegative_negate, noSign, sameNaN, Int.le_of_lt negative]
    · have positive : ¬ n ≤ 0 := by omega
      simp [isAtMostZero, notZero, noSign, positive]

end Number.Double

open Number

/-! ## How conversion ends -/

section Ends

variable {α : Type}

def Ends (good : α → Prop) (fails : Fault → Prop) : Except Fault α → Prop
  | .ok answer => good answer
  | .error fault => fails fault

theorem Ends.bind {next : α → Except Fault β} (first : Ends good fails step)
    (rest : ∀ answer, good answer → Ends better fails (next answer)) :
    Ends better fails (step >>= next) := by
  cases step with
  | ok answer => exact rest answer first
  | error => exact first

/-- The only fault of a step is an integer that no finite double is near to. -/
abbrev OnlyTooLarge : Except Fault α → Prop := Ends (fun _ => True) (· = .integerTooLarge)

theorem onlyTooLarge_floatOfInt (n : Int) : OnlyTooLarge (floatOfInt n) := by
  rw [floatOfInt]
  split
  · trivial
  · exact rfl

theorem Scalar.onlyTooLarge_toFloat : ∀ s : Scalar, OnlyTooLarge s.toFloat
  | .int n => (onlyTooLarge_floatOfInt n).bind fun _ _ => trivial
  | .float _ => trivial

theorem Scalar.onlyTooLarge_add (s t : Scalar) : OnlyTooLarge (s.add t) := by
  unfold add
  split
  · trivial
  · exact s.onlyTooLarge_toFloat.bind fun _ _ => t.onlyTooLarge_toFloat.bind fun _ _ => trivial

theorem onlyTooLarge_luminance : OnlyTooLarge (luminance (r :: g :: b :: others)) :=
  r.onlyTooLarge_toFloat.bind fun _ _ => g.onlyTooLarge_toFloat.bind fun _ _ =>
    b.onlyTooLarge_toFloat.bind fun _ _ => trivial

theorem onlyTooLarge_meanOfThree : OnlyTooLarge (meanOfThree (r :: g :: b :: others)) :=
  (r.onlyTooLarge_add g).bind fun sum _ => (sum.onlyTooLarge_add b).bind fun sum _ =>
    sum.onlyTooLarge_toFloat.bind fun _ _ => trivial

end Ends

/-! ## Truth values -/

/-- The types of numbers, which are true up to zero; all else is true unless zero. -/
def DataType.IsNumber (type : DataType) : Prop := type = .int ∨ type = .float

instance (type : DataType) : Decidable type.IsNumber := inferInstanceAs (Decidable (_ ∨ _))

/-- The values of the types that convert into one another. -/
inductive Value.Counts : Value → DataType → Prop
  | bool (b : Bool) : Counts (.bool b) .bool
  | int (n : Int) : Counts (.int n) .int
  | float (x : Double) : Counts (.float x) .float
  | vec3 (x y z : Scalar) : Counts (.vector [x, y, z]) .vec3
  | rgba (r g b a : Scalar) : Counts (.vector [r, g, b, a]) .rgba

/--
Conversion to a truth value and to a float fail together, but for an integer.  Where both succeed,
the float has the same truth value if the type is that of a number, or if it is below zero.
-/
def Value.Coherent (value : Value) (type : DataType) : Prop :=
  match convert value type .float with
  | .error fault => fault = .integerTooLarge ∧
      (type = .int ∨ convert value type .bool = .error fault)
  | .ok mean => ∃ x direct, mean = .float x ∧ convert value type .bool = .ok (.bool direct) ∧
      (convert mean .float .bool = .ok (.bool direct) ↔
        type.IsNumber ∨ x.isAtMostZero = true ∧ x.isZero = false)

theorem Number.Double.isAtMostZero_eq_not_isZero (x : Double) :
    x.isAtMostZero = !x.isZero ↔ x.isAtMostZero = true ∧ x.isZero = false := by
  unfold isAtMostZero
  cases x.isZero <;> simp

theorem Value.coherent_of_mean (only : OnlyTooLarge step) (vector : ¬ type.IsNumber)
    (toFloat : convert value type .float = step >>= fun mean => .ok (.float (.ofFloat mean)))
    (toBool : convert value type .bool =
      step >>= fun mean => .ok (.bool (!(Double.ofFloat mean).isZero))) : value.Coherent type := by
  rw [Coherent, toFloat, toBool]
  cases step with
  | error => exact ⟨only, .inr rfl⟩
  | ok mean =>
    refine ⟨.ofFloat mean, !(Double.ofFloat mean).isZero, rfl, rfl, ?_⟩
    rw [or_iff_right vector, ← Double.isAtMostZero_eq_not_isZero]
    show Except.ok (bool _) = Except.ok (bool _) ↔ _
    rw [Except.ok.injEq, bool.injEq]

theorem Value.coherent_int (n : Int) : (int n).Coherent .int := by
  have toFloat : convert (.int n) .int .float = floatOfInt n >>= fun x => .ok (.float x) := rfl
  rw [Coherent, toFloat, floatOfInt]
  cases found : Double.ofInt? n with
  | none => exact ⟨rfl, .inl rfl⟩
  | some x =>
    refine ⟨x, _, rfl, rfl, iff_of_true ?_ (.inl (.inl rfl))⟩
    show Except.ok (bool x.isAtMostZero) = _
    rw [Double.isAtMostZero_ofInt found]

theorem Value.Counts.coherent {value : Value} (counts : value.Counts type) :
    value.Coherent type := by
  cases counts with
  | bool b =>
    cases b
    · exact ⟨.zero, false, rfl, rfl, iff_of_false nofun (by decide)⟩
    · exact ⟨.one, true, rfl, rfl, iff_of_false nofun (by decide)⟩
  | int n => exact coherent_int n
  | float x => exact ⟨x, _, rfl, rfl, iff_of_true rfl (.inl (.inr rfl))⟩
  | vec3 => exact coherent_of_mean onlyTooLarge_meanOfThree (by decide) rfl rfl
  | rgba => exact coherent_of_mean onlyTooLarge_luminance (by decide) rfl rfl

/--
A value is converted to a truth value as its float is, if its type is that of a number, and
otherwise only if the float is below zero.  A truth value comes back from a number as its opposite,
and from all else as it was.
-/
theorem convert_bool_coherent {value : Value} {type : DataType} (counts : value.Counts type) :
    value.Coherent type ∧ ∀ b : Bool, ∃ passed, convert (.bool b) .bool type = .ok passed ∧
      convert passed type .bool = .ok (.bool (if type.IsNumber then !b else b)) := by
  refine ⟨counts.coherent, fun b => ?_⟩
  cases counts <;> cases b <;> exact ⟨_, rfl, rfl⟩

theorem convert_bool_coherent_dark :
    (Value.vector [.int (-3), .float .one, .int 0, .int 1]).Counts .rgba ∧
      (Value.vector [.int (-3), .float .one, .int 0, .int 1]).Coherent .rgba ∧
      ∃ passed, convert (.bool true) .bool .rgba = .ok passed ∧
        convert passed .rgba .bool = .ok (.bool true) :=
  ⟨.rgba _ _ _ _, (convert_bool_coherent (.rgba _ _ _ _)).1,
    (convert_bool_coherent (.rgba (.int (-3)) (.float .one) (.int 0) (.int 1))).2 true⟩

/-- Truth comes back from an integer as falsehood; white is true but its luminance is not. -/
theorem truth_lost_in_numbers :
    convert (.bool true) .bool .int = .ok (.int 1) ∧
      convert (.int 1) .int .bool = .ok (.bool false) ∧
      (∃ white mean, white.Counts .rgba ∧ convert white .rgba .bool = .ok (.bool true) ∧
        convert white .rgba .float = .ok mean ∧ convert mean .float .bool = .ok (.bool false)) :=
  ⟨rfl, rfl, .vector [.int 1, .int 1, .int 1, .int 1], _, .rgba _ _ _ _, rfl, rfl, rfl⟩

end NodeFormula
