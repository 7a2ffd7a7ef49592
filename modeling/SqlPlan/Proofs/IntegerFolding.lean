import Mathlib.Data.Nat.Digits.Defs
import SqlPlan.Proofs.LimitCount

namespace SqlPlan

/-- The integer that a value is, of any size. -/
inductive Value.IsInteger : Value → Int → Prop where
  | integer (w : IntWidth) (n : Int) : IsInteger (.integer w n) n
  | decimal {d : Decimal} {n : Int} : d.number = n → IsInteger (.decimal d) n

def UnaryOperator.value? (op : UnaryOperator) (n : Int) : Option Int :=
  match op with
  | .plus => some n
  | .signInversion => some (-n)
  | _ => none

def BinaryOperator.value? (op : BinaryOperator) (m n : Int) : Option Int :=
  match op with
  | .add => some (m + n)
  | .subtract => some (m - n)
  | .multiply => some (m * n)
  | .divide => if n = 0 then none else some (m.tdiv n)
  | .remainder => if n = 0 then none else some (m.tmod n)
  | _ => none

namespace Scalar

/-- The number of an expression of integers, signs, arithmetic and casts to integer types, which change nothing. -/
inductive Denotes : Scalar → Int → Prop where
  | immediate {v : Value} {t : SqlType} {n : Int} : v.IsInteger n → Denotes (.immediate v t) n
  | cast {policy : LossPolicy} {w : IntWidth} {s : Scalar} {n : Int} : Denotes s n →
      Denotes (.cast policy (.integer w) s) n
  | sign {op : UnaryOperator} {s : Scalar} {m n : Int} : Denotes s m → op.value? m = some n → Denotes (.unary op s) n
  | arithmetic {op : BinaryOperator} {l r : Scalar} {m n k : Int} : Denotes l m → Denotes r n →
      op.value? m n = some k → Denotes (.binary op l r) k

/-- An expression that is made of integers, casts to integer types, signs and arithmetic. -/
inductive Integral : Scalar → Prop where
  | immediate {v : Value} {t : SqlType} {n : Int} : v.IsInteger n → Integral (.immediate v t)
  | cast {policy : LossPolicy} {w : IntWidth} {s : Scalar} : Integral s → Integral (.cast policy (.integer w) s)
  | sign {op : UnaryOperator} {s : Scalar} : op ∈ [.plus, .signInversion] → Integral s → Integral (.unary op s)
  | arithmetic {op : BinaryOperator} {l r : Scalar} : op ∈ [.add, .subtract, .multiply, .divide, .remainder] →
      Integral l → Integral r → Integral (.binary op l r)

/-- A part that has no number in 64 bits, or the remainder by minus one of the least number. -/
inductive Fault : Scalar → Prop where
  | zeroDivisor {op : BinaryOperator} {l r : Scalar} : op ∈ [.divide, .remainder] → r.Denotes 0 →
      Fault (.binary op l r)
  | outOfRange {s : Scalar} {n : Int} : s.Denotes n → ¬IntWidth.w64.Holds n → Fault s
  | leastRemainder {l r : Scalar} : l.Denotes (-2 ^ 63) → r.Denotes (-1) → Fault (.binary .remainder l r)

/-- Integers are in the range of their widths. -/
def Sized (s : Scalar) : Prop := s.Every fun c => ∀ w n t, c = .immediate (.integer w n) t → w.Holds n

end Scalar

variable {s : Scalar} {m n k : Int}

theorem Value.IsInteger.unique {v : Value} (hm : v.IsInteger m) (hn : v.IsInteger n) : m = n := by
  cases hm with
  | integer =>
    cases hn
    rfl
  | decimal hm =>
    cases hn with
    | decimal hn => exact Int.cast_injective (hm.symm.trans hn)

theorem Scalar.Denotes.unique (hm : s.Denotes m) (hn : s.Denotes n) : m = n := by
  induction hm generalizing n with
  | immediate hm =>
    cases hn with
    | immediate hn => exact hm.unique hn
  | cast _ ih =>
    cases hn with
    | cast hn => exact ih hn
  | sign _ hop ih =>
    cases hn with
    | sign hn hop' =>
      cases ih hn
      exact Option.some.inj (hop.symm.trans hop')
  | arithmetic _ _ hop ihl ihr =>
    cases hn with
    | arithmetic hl hr hop' =>
      cases ihl hl
      cases ihr hr
      exact Option.some.inj (hop.symm.trans hop')

section Operators

theorem holds_int64 : IntWidth.w64.Holds n ↔ -2 ^ 63 ≤ n ∧ n < 2 ^ 63 := Iff.rfl

theorem int64?_eq_some : int64? n = some k ↔ n = k ∧ IntWidth.w64.Holds n := by
  unfold int64?
  split <;> simp [*]

/-- A decimal that is an integer in range has at most as many digits as are asked for. -/
theorem Decimal.toInt?_of_number {d : Decimal} (h : d.number = n) (hn : IntWidth.w64.Holds n) :
    d.toInt? 19 = some n := by
  by_cases hzero : d.digits = 0
  · have hn0 : (n : ℚ) = 0 := h.symm.trans (number_eq_zero.mpr hzero)
    rw [toInt?, if_pos hzero, Int.cast_eq_zero.mp hn0]
  have hsame : d.number = (⟨n, 0⟩ : Decimal).number := by simpa [number] using h
  have hne : n ≠ 0 := by
    rintro rfl
    exact hzero (number_eq_zero.mp (h.trans Int.cast_zero))
  have hmagnitude : d.magnitude = (Text.digits n.natAbs).length := by
    rw [magnitude_eq_of_number_eq hzero hne hsame, magnitude, width]
    exact Int.sub_zero _
  have hpos : 0 < (Text.digits n.natAbs).length := Nat.length_toDigits_pos
  have hlength : (Text.digits n.natAbs).length ≤ 19 := by
    obtain ⟨hlow, hhigh⟩ := holds_int64.mp hn
    exact Nat.toDigits_length 10 n.natAbs 19 (by decide) (by omega)
  have hdigits := (number_eq_iff d ⟨n, 0⟩).mp hsame
  simp only [Int.zero_sub, Int.sub_zero] at hdigits
  unfold toInt?
  rw [if_neg hzero, if_neg (by simp only [hmagnitude, Bool.or_eq_true, decide_eq_true_eq]; omega)]
  split
  · rename_i hscale
    rw [hdigits, Int.toNat_of_nonpos hscale]
    simp [powerOfTen]
  · rename_i hscale
    rw [Int.toNat_of_nonpos (by omega : -d.scale ≤ 0)] at hdigits
    have hten : (powerOfTen d.scale.toNat : ℤ) ≠ 0 := by simp [powerOfTen]
    have hdigits : d.digits = n * powerOfTen d.scale.toNat := by simpa [powerOfTen] using hdigits
    rw [hdigits, if_pos (Int.mul_emod_left _ _), Int.mul_ediv_cancel _ hten]

theorem Value.IsInteger.toInt64?_eq {v : Value} (h : v.IsInteger n) (hn : IntWidth.w64.Holds n) :
    v.toInt64? = some n := by
  cases h with
  | integer => rfl
  | decimal h => simp [toInt64?, Decimal.toInt?_of_number h hn, hn]

theorem UnaryOperator.int64?_eq_some {op : UnaryOperator} (hm : IntWidth.w64.Holds m) :
    op.int64? m = some k ↔ op.value? m = some k ∧ IntWidth.w64.Holds k := by
  cases op with
  | plus =>
    simp only [int64?, value?, Option.some.injEq]
    exact ⟨fun h => ⟨h, h ▸ hm⟩, And.left⟩
  | signInversion =>
    simp only [int64?, value?, SqlPlan.int64?_eq_some, Option.some.injEq]
    exact ⟨fun h => ⟨h.1, h.1 ▸ h.2⟩, fun h => ⟨h.1, h.1 ▸ h.2⟩⟩
  | _ => simp [int64?, value?]

/-- A quotient of numbers in range is out of range in one case only. -/
theorem holds_tdiv (hm : IntWidth.w64.Holds m) (hn : n ≠ 0) (h : ¬(m = -2 ^ 63 ∧ n = -1)) :
    IntWidth.w64.Holds (m.tdiv n) := by
  rw [holds_int64] at hm ⊢
  have habs : (m.tdiv n).natAbs = m.natAbs / n.natAbs := Int.natAbs_tdiv m n
  have hle : m.natAbs / n.natAbs ≤ m.natAbs := Nat.div_le_self _ _
  by_cases hone : n = 1
  · simpa [hone] using hm
  by_cases hneg : n = -1
  · rw [hneg, Int.tdiv_neg, Int.tdiv_one]
    omega
  · have hhalf : m.natAbs / n.natAbs ≤ m.natAbs / 2 := Nat.div_le_div_left (by omega) (by decide)
    omega

theorem holds_tmod (hn : IntWidth.w64.Holds n) (hzero : n ≠ 0) (m : Int) : IntWidth.w64.Holds (m.tmod n) := by
  rw [holds_int64] at hn ⊢
  have habs : (m.tmod n).natAbs = m.natAbs % n.natAbs := Int.natAbs_tmod m n
  have hlt : m.natAbs % n.natAbs < n.natAbs := Nat.mod_lt _ (by omega)
  omega

theorem BinaryOperator.int64?_eq_some {op : BinaryOperator} (hm : IntWidth.w64.Holds m) (hn : IntWidth.w64.Holds n) :
    op.int64? m n = some k ↔ op.value? m n = some k ∧ IntWidth.w64.Holds k ∧
      ¬(op = .remainder ∧ m = -2 ^ 63 ∧ n = -1) := by
  have hchecked : ∀ a, SqlPlan.int64? a = some k ↔ a = k ∧ IntWidth.w64.Holds k := by
    intro a
    rw [SqlPlan.int64?_eq_some]
    exact ⟨fun h => ⟨h.1, h.1 ▸ h.2⟩, fun h => ⟨h.1, h.1 ▸ h.2⟩⟩
  cases op with
  | divide =>
    by_cases hzero : n = 0
    · simp [int64?, value?, hzero]
    · simp [int64?, value?, hzero, hchecked]
  | remainder =>
    by_cases hzero : n = 0
    · simp [int64?, value?, hzero]
    have hmod := holds_tmod hn hzero m
    simp only [int64?, value?, hzero, if_false, Option.map_eq_some_iff, Option.some.injEq, true_and]
    constructor
    · rintro ⟨q, hq, rfl⟩
      refine ⟨rfl, hmod, ?_⟩
      rintro ⟨rfl, rfl⟩
      exact absurd (SqlPlan.int64?_eq_some.mp hq).2 (by decide)
    · rintro ⟨rfl, -, hleast⟩
      exact ⟨_, SqlPlan.int64?_eq_some.mpr ⟨rfl, holds_tdiv hm hzero hleast⟩, rfl⟩
  | _ => simp [int64?, value?, hchecked]

end Operators

namespace Scalar

theorem Denotes.of_foldInteger (hs : s.Sized) (h : s.foldInteger = some n) :
    (s.Denotes n ∧ IntWidth.w64.Holds n) ∧ s.Every fun c => ∃ n, c.Denotes n ∧ IntWidth.w64.Holds n := by
  fun_induction foldInteger s generalizing n with
  | case1 v t =>
    have hv : v.IsInteger n ∧ IntWidth.w64.Holds n := by
      cases v with
      | integer w k =>
        cases h
        exact ⟨.integer w n, IntWidth.Holds.mono (by cases w <;> decide) ((every_iff.mp hs).1 w n t rfl)⟩
      | decimal d =>
        obtain ⟨hn, hrange⟩ := Option.filter_eq_some_iff.mp h
        exact ⟨.decimal (Decimal.number_of_toInt? hn), of_decide_eq_true hrange⟩
      | _ => cases h
    exact ⟨⟨.immediate hv.1, hv.2⟩, every_iff.mpr ⟨⟨n, .immediate hv.1, hv.2⟩, by simp [children]⟩⟩
  | case2 policy target s hinteger ih =>
    obtain ⟨w, rfl⟩ : ∃ w, target = .integer w := by
      cases target <;> simp_all [SqlType.isInteger]
    obtain ⟨⟨hden, hn⟩, hall⟩ := ih (every_cast.mp hs).2 h
    exact ⟨⟨.cast hden, hn⟩, every_cast.mpr ⟨⟨n, .cast hden, hn⟩, hall⟩⟩
  | case3 => cases h
  | case4 op s ih =>
    obtain ⟨m, hm, hop⟩ := Option.bind_eq_some_iff.mp h
    obtain ⟨⟨hden, hm⟩, hall⟩ := ih (every_unary.mp hs).2 hm
    obtain ⟨hop, hn⟩ := (UnaryOperator.int64?_eq_some hm).mp hop
    exact ⟨⟨.sign hden hop, hn⟩, every_unary.mpr ⟨⟨n, .sign hden hop, hn⟩, hall⟩⟩
  | case5 op l r ihl ihr =>
    obtain ⟨m, hm, hop⟩ := Option.bind_eq_some_iff.mp h
    obtain ⟨k, hk, hop⟩ := Option.bind_eq_some_iff.mp hop
    obtain ⟨-, hsl, hsr⟩ := every_binary.mp hs
    obtain ⟨⟨hl, hm⟩, hall⟩ := ihl hsl hm
    obtain ⟨⟨hr, hk⟩, hall'⟩ := ihr hsr hk
    obtain ⟨hop, hn, -⟩ := (BinaryOperator.int64?_eq_some hm hk).mp hop
    exact ⟨⟨.arithmetic hl hr hop, hn⟩, every_binary.mpr ⟨⟨n, .arithmetic hl hr hop, hn⟩, hall, hall'⟩⟩
  | case6 => cases h

theorem Integral.folds (h : s.Integral) (hs : s.Sized) (hfaults : s.Every fun c => ¬c.Fault) :
    ∃ n, s.foldInteger = some n := by
  induction h with
  | @immediate v t n hv =>
    refine ⟨n, hv.toInt64?_eq (by_contra fun hn => ?_)⟩
    exact (every_iff.mp hfaults).1 (.outOfRange (.immediate hv) hn)
  | @cast policy w s _ ih =>
    obtain ⟨n, hn⟩ := ih (every_cast.mp hs).2 (every_cast.mp hfaults).2
    exact ⟨n, by simp [foldInteger, SqlType.isInteger, hn]⟩
  | @sign op s hop _ ih =>
    obtain ⟨-, hs⟩ := every_unary.mp hs
    obtain ⟨hfault, hfaults⟩ := every_unary.mp hfaults
    obtain ⟨m, hm⟩ := ih hs hfaults
    obtain ⟨⟨hden, hrange⟩, -⟩ := Denotes.of_foldInteger hs hm
    obtain ⟨k, hk⟩ : ∃ k, op.value? m = some k := by
      rcases List.mem_pair.mp hop with rfl | rfl <;> exact ⟨_, rfl⟩
    have hkrange : IntWidth.w64.Holds k := by_contra fun hout => hfault (.outOfRange (.sign hden hk) hout)
    exact ⟨k, by simp [foldInteger, hm, (UnaryOperator.int64?_eq_some hrange).mpr ⟨hk, hkrange⟩]⟩
  | @arithmetic op l r hop _ _ ihl ihr =>
    obtain ⟨hfault, hfaultsl, hfaultsr⟩ := every_binary.mp hfaults
    obtain ⟨-, hsl, hsr⟩ := every_binary.mp hs
    obtain ⟨m, hm⟩ := ihl hsl hfaultsl
    obtain ⟨n, hn⟩ := ihr hsr hfaultsr
    obtain ⟨⟨hl, hmrange⟩, -⟩ := Denotes.of_foldInteger hsl hm
    obtain ⟨⟨hr, hnrange⟩, -⟩ := Denotes.of_foldInteger hsr hn
    obtain ⟨k, hk⟩ : ∃ k, op.value? m n = some k := by
      by_cases hzero : n = 0 ∧ op ∈ [.divide, .remainder]
      · exact (hfault (.zeroDivisor hzero.2 (hzero.1 ▸ hr))).elim
      · simp only [List.mem_cons, List.not_mem_nil, or_false] at hop hzero
        rcases hop with rfl | rfl | rfl | rfl | rfl <;> simp_all [BinaryOperator.value?]
    have hkrange : IntWidth.w64.Holds k := by_contra fun hout => hfault (.outOfRange (.arithmetic hl hr hk) hout)
    refine ⟨k, ?_⟩
    simp only [foldInteger, hm, hn, Option.bind_eq_bind, Option.bind_some]
    refine (BinaryOperator.int64?_eq_some hmrange hnrange).mpr ⟨hk, hkrange, ?_⟩
    rintro ⟨rfl, rfl, rfl⟩
    exact hfault (.leastRemainder hl hr)

/-- Folding is exact. The number that an expression folds to is its only number over all integers, and every part of it
has a number that 64 bits hold. An expression of integers that does not fold has a part at fault: a divisor is zero, a
number is out of range, or a remainder is that of the least number by minus one. -/
theorem foldInteger_exact (hs : s.Sized) :
    (∀ v, s.foldInteger = some v → (∀ n, s.Denotes n ↔ n = v) ∧
      s.Every fun c => ∃ n, c.Denotes n ∧ IntWidth.w64.Holds n) ∧
    (s.Integral → s.foldInteger = none → ∃ path c, s.at? path = some c ∧ c.Fault) := by
  constructor
  · intro v hv
    obtain ⟨⟨hden, -⟩, hall⟩ := Denotes.of_foldInteger hs hv
    refine ⟨fun n => ⟨fun hn => hn.unique hden, ?_⟩, hall⟩
    rintro rfl
    exact hden
  · intro hintegral hnone
    by_contra hfaults
    obtain ⟨n, hn⟩ := hintegral.folds hs fun path c hc hfault => hfaults ⟨path, c, hc, hfault⟩
    cases hnone.symm.trans hn

end Scalar

/-- An operator on two constants. -/
def Sample.onConstants (op : BinaryOperator) (m n : Int) : Scalar :=
  .binary op (.immediate (.integer .w64 m) .int8) (.immediate (.integer .w64 n) .int8)

/-- Quotients are truncated toward zero, and the remainder of the least number by minus one is refused. -/
theorem Scalar.foldInteger_exact_least : (∀ n, (Sample.onConstants .divide (-7) 2).Denotes n ↔ n = -3) ∧
    ∃ path c, (Sample.onConstants .remainder (-2 ^ 63) (-1)).at? path = some c ∧ c.Fault := by
  have hsized : ∀ op m n, IntWidth.w64.Holds m → IntWidth.w64.Holds n → (Sample.onConstants op m n).Sized := by
    intro op m n hm hn
    have hleaf : ∀ k, IntWidth.w64.Holds k → (immediate (.integer .w64 k) .int8).Sized := by
      intro k hk
      refine every_iff.mpr ⟨?_, by simp [children]⟩
      rintro _ _ _ ⟨⟩
      exact hk
    exact every_iff.mpr ⟨by simp [Sample.onConstants], by
      simpa [Sample.onConstants, children] using ⟨hleaf m hm, hleaf n hn⟩⟩
  obtain ⟨hfolds, -⟩ := foldInteger_exact (hsized .divide (-7) 2 (by decide) (by decide))
  obtain ⟨-, hfaults⟩ := foldInteger_exact (hsized .remainder (-2 ^ 63) (-1) (by decide) (by decide))
  refine ⟨(hfolds (-3) rfl).1, hfaults ?_ rfl⟩
  exact .arithmetic (by decide) (.immediate (.integer _ _)) (.immediate (.integer _ _))

end SqlPlan
