import Mathlib.Algebra.Field.Rat
import Mathlib.Algebra.Order.Field.Basic
import Mathlib.Algebra.Order.Ring.Rat
import Mathlib.Tactic.Ring
import SqlPlan.Plan.Scalar

namespace SqlPlan

variable {a b c : Value}

namespace Decimal

def number (d : Decimal) : ℚ := d.digits * (10 : ℚ) ^ (-d.scale)

theorem number_eq_zero {d : Decimal} : d.number = 0 ↔ d.digits = 0 := by
  simp [number, zpow_ne_zero]

theorem number_eq_iff (a b : Decimal) : a.number = b.number ↔
    a.digits * powerOfTen (b.scale - a.scale).toNat = b.digits * powerOfTen (a.scale - b.scale).toNat := by
  have hten : (10 : ℚ) ≠ 0 := by norm_num
  have hscale : ((b.scale - a.scale).toNat : ℤ) - ((a.scale - b.scale).toNat : ℤ) = b.scale - a.scale := by
    omega
  have hpow (k : Nat) : ((powerOfTen k : ℤ) : ℚ) = (10 : ℚ) ^ (k : ℤ) := by
    simp [powerOfTen]
  have hcommon : (10 : ℚ) ^ ((a.scale - b.scale).toNat + b.scale) ≠ 0 := zpow_ne_zero _ hten
  calc a.number = b.number
    _ ↔ a.number * 10 ^ ((a.scale - b.scale).toNat + b.scale) =
          b.number * 10 ^ ((a.scale - b.scale).toNat + b.scale) := (mul_left_inj' hcommon).symm
    _ ↔ (a.digits : ℚ) * 10 ^ ((b.scale - a.scale).toNat : ℤ) =
          b.digits * 10 ^ ((a.scale - b.scale).toNat : ℤ) := by
      rw [number, number, mul_assoc, mul_assoc, ← zpow_add₀ hten, ← zpow_add₀ hten,
        show -a.scale + ((a.scale - b.scale).toNat + b.scale) = ((b.scale - a.scale).toNat : ℤ) by omega,
        show -b.scale + ((a.scale - b.scale).toNat + b.scale) = ((a.scale - b.scale).toNat : ℤ) by omega]
    _ ↔ _ := by
      rw [← hpow, ← hpow, ← Int.cast_mul, ← Int.cast_mul, Int.cast_inj]

theorem length_digits_mul {n : Nat} (hn : 0 < n) (k : Nat) :
    (Text.digits (n * powerOfTen k)).length = (Text.digits n).length + k := by
  induction k with
  | zero => simp [powerOfTen]
  | succ k ih =>
    have hpos : 0 < n * powerOfTen k := Nat.mul_pos hn (Nat.pow_pos (by decide))
    have hstep : n * powerOfTen (k + 1) = 10 * (n * powerOfTen k) + 0 := by
      simp only [powerOfTen, Nat.pow_eq, Nat.pow_succ]
      ring
    have hlast : (Text.digits 0).length = 1 := rfl
    have happend := Nat.toDigits_append_toDigits (b := 10) (by decide) hpos (d := 0) (by decide)
    rw [hstep, Text.digits, ← happend, List.length_append]
    exact (congrArg₂ (· + ·) ih hlast).trans (Nat.add_assoc _ _ _)

theorem magnitude_eq_of_number_eq {a b : Decimal} (ha : a.digits ≠ 0) (hb : b.digits ≠ 0)
    (h : a.number = b.number) : a.magnitude = b.magnitude := by
  have habs := congrArg Int.natAbs ((number_eq_iff a b).mp h)
  rw [Int.natAbs_mul, Int.natAbs_mul, Int.natAbs_natCast, Int.natAbs_natCast] at habs
  have hlength := congrArg (fun n => (Text.digits n).length) habs
  simp only [length_digits_mul (Int.natAbs_pos.mpr ha), length_digits_mul (Int.natAbs_pos.mpr hb)] at hlength
  simp only [magnitude, width]
  omega

theorem sameNumber_iff {a b : Decimal} : a.sameNumber b = true ↔ a.number = b.number := by
  unfold sameNumber
  split
  · next hzero =>
    simp only [Bool.or_eq_true, decide_eq_true_eq] at hzero ⊢
    rcases hzero with ha | hb
    · rw [ha, number_eq_zero.mpr ha, eq_comm, eq_comm (a := (0 : ℚ)), number_eq_zero]
    · rw [hb, number_eq_zero.mpr hb, number_eq_zero]
  · next hzero =>
    simp only [Bool.or_eq_true, decide_eq_true_eq, not_or] at hzero
    rw [Bool.and_eq_true, decide_eq_true_eq, decide_eq_true_eq, ← number_eq_iff]
    exact ⟨fun h => h.2, fun h => ⟨magnitude_eq_of_number_eq hzero.1 hzero.2 h, h⟩⟩

end Decimal

theorem BinaryFormat.sameNumber_iff {f : BinaryFormat} {a b : Nat} : f.sameNumber a b = true ↔
    (f.isNaN a = false ∧ a = b) ∨ (f.magnitude a = 0 ∧ f.magnitude b = 0) := by
  have hzero (c : Nat) (hc : f.magnitude c = 0) : f.isNaN c = false := by simp [isNaN, hc]
  simp only [sameNumber, Bool.and_eq_true, Bool.or_eq_true, beq_iff_eq, Bool.not_eq_true']
  constructor
  · rintro ⟨⟨ha, -⟩, rfl | h⟩
    · exact .inl ⟨ha, rfl⟩
    · exact .inr h
  · rintro (⟨ha, rfl⟩ | ⟨ha, hb⟩)
    · exact ⟨⟨ha, ha⟩, .inl rfl⟩
    · exact ⟨⟨hzero a ha, hzero b hb⟩, .inr ⟨ha, hb⟩⟩

namespace Value

def isNaN : Value → Bool
  | real bits => BinaryFormat.single.isNaN bits.toNat
  | double bits => BinaryFormat.double.isNaN bits.toNat
  | _ => false

/-- Values that are taken for one another: decimals of one number, points of one instant, and
floating-point zeros. -/
inductive Interchangeable : Value → Value → Prop where
  | decimal {a b : Decimal} : a.number = b.number → Interchangeable (.decimal a) (.decimal b)
  | zonedTimestamp {a b : ZonedPoint} : a.instant = b.instant →
      Interchangeable (.zonedTimestamp a) (.zonedTimestamp b)
  | real {a b : UInt32} : BinaryFormat.single.magnitude a.toNat = 0 →
      BinaryFormat.single.magnitude b.toNat = 0 → Interchangeable (.real a) (.real b)
  | double {a b : UInt64} : BinaryFormat.double.magnitude a.toNat = 0 →
      BinaryFormat.double.magnitude b.toNat = 0 → Interchangeable (.double a) (.double b)

theorem Interchangeable.symm (h : Interchangeable a b) : Interchangeable b a := by
  cases h with
  | decimal h => exact .decimal h.symm
  | zonedTimestamp h => exact .zonedTimestamp h.symm
  | real ha hb => exact .real hb ha
  | double ha hb => exact .double hb ha

theorem Interchangeable.trans (h : Interchangeable a b) (h' : Interchangeable b c) : Interchangeable a c := by
  cases h with
  | decimal h =>
    cases h' with
    | decimal h' => exact .decimal (h.trans h')
  | zonedTimestamp h =>
    cases h' with
    | zonedTimestamp h' => exact .zonedTimestamp (h.trans h')
  | real ha _ =>
    cases h' with
    | real _ hc => exact .real ha hc
  | double ha _ =>
    cases h' with
    | double _ hc => exact .double ha hc

theorem same_iff : a.same b = true ↔ (a.isNaN = false ∧ a = b) ∨ Interchangeable a b := by
  constructor
  · intro h
    unfold same at h
    split at h
    · rcases BinaryFormat.sameNumber_iff.mp h with ⟨ha, h⟩ | ⟨ha, hb⟩
      · exact .inl ⟨ha, congrArg _ (UInt32.toNat_inj.mp h)⟩
      · exact .inr (.real ha hb)
    · rcases BinaryFormat.sameNumber_iff.mp h with ⟨ha, h⟩ | ⟨ha, hb⟩
      · exact .inl ⟨ha, congrArg _ (UInt64.toNat_inj.mp h)⟩
      · exact .inr (.double ha hb)
    · exact .inr (.decimal (Decimal.sameNumber_iff.mp h))
    · exact .inr (.zonedTimestamp (of_decide_eq_true h))
    · next hreal hdouble _ _ =>
      obtain rfl := of_decide_eq_true h
      refine .inl ⟨?_, rfl⟩
      cases a with
      | real bits => exact (hreal bits bits rfl rfl).elim
      | double bits => exact (hdouble bits bits rfl rfl).elim
      | _ => rfl
  · rintro (⟨ha, rfl⟩ | h)
    · cases a with
      | real bits | double bits => exact BinaryFormat.sameNumber_iff.mpr (.inl ⟨ha, rfl⟩)
      | decimal d => exact Decimal.sameNumber_iff.mpr rfl
      | zonedTimestamp z => simp [same, ZonedPoint.sameInstant]
      | _ => simp [same]
    · cases h with
      | decimal h => exact Decimal.sameNumber_iff.mpr h
      | zonedTimestamp h => exact decide_eq_true h
      | real ha hb | double ha hb => exact BinaryFormat.sameNumber_iff.mpr (.inr ⟨ha, hb⟩)

theorem same_self_iff : a.same a = true ↔ a.isNaN = false := by
  constructor
  · intro h
    rcases same_iff.mp h with ⟨ha, -⟩ | h
    · exact ha
    · cases h with
      | real ha _ | double ha _ => simp [isNaN, BinaryFormat.isNaN, ha]
      | _ => rfl
  · exact fun ha => same_iff.mpr (.inl ⟨ha, rfl⟩)

theorem same_symm (h : a.same b = true) : b.same a = true := by
  rcases same_iff.mp h with ⟨ha, rfl⟩ | h
  · exact h
  · exact same_iff.mpr (.inr h.symm)

theorem same_trans (h : a.same b = true) (h' : b.same c = true) : a.same c = true := by
  rcases same_iff.mp h with ⟨-, rfl⟩ | hab
  · exact h'
  · rcases same_iff.mp h' with ⟨-, rfl⟩ | hbc
    · exact h
    · exact same_iff.mpr (.inr (hab.trans hbc))

end Value

end SqlPlan
