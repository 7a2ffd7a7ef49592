import Mathlib.Algebra.Order.Field.Rat
import Mathlib.Tactic.FieldSimp
import Mathlib.Tactic.NormNum
import Mathlib.Tactic.Positivity
import SqlPlan.Proofs.ConversionCost
import SqlPlan.Proofs.TypeLattice

namespace SqlPlan

/-- Whether a number is an integer of less than `p + 1` digits once the point is moved by `s` digits. -/
def HasDigits (p s : ℕ) (q : ℚ) : Prop :=
  ∃ n : ℤ, q * 10 ^ s = n ∧ |n| < 10 ^ p

namespace HasDigits

variable {i k m p s : ℕ} {q : ℚ}

theorem mono (h : HasDigits (i + k) k q) (hk : k ≤ s) (hp : i + s ≤ p) : HasDigits p s q := by
  obtain ⟨n, hn, hlt⟩ := h
  obtain ⟨d, rfl⟩ := Nat.exists_eq_add_of_le hk
  refine ⟨n * 10 ^ d, ?_, ?_⟩
  · push_cast
    rw [pow_add, ← mul_assoc, hn]
  · calc |n * 10 ^ d|
      _ = |n| * 10 ^ d := by rw [abs_mul, abs_of_pos (by positivity : (0 : ℤ) < 10 ^ d)]
      _ < 10 ^ (i + k) * 10 ^ d := by gcongr
      _ = 10 ^ (i + (k + d)) := by rw [← pow_add, Nat.add_assoc]
      _ ≤ 10 ^ p := pow_le_pow_right₀ (by norm_num) hp

theorem power (hm : m < p) : HasDigits p s (10 ^ m / 10 ^ s) := by
  refine ⟨10 ^ m, ?_, ?_⟩
  · push_cast
    field_simp
  · rw [abs_of_pos (by positivity)]
    exact pow_lt_pow_right₀ (by norm_num) hm

theorem digits_lt (hk : k ≤ s) (h : HasDigits p s (10 ^ m / 10 ^ k)) : m + (s - k) < p := by
  obtain ⟨n, hn, hlt⟩ := h
  obtain ⟨d, rfl⟩ := Nat.exists_eq_add_of_le hk
  have hpow : (10 : ℚ) ^ m / 10 ^ k * 10 ^ (k + d) = ((10 ^ (m + d) : ℤ) : ℚ) := by
    push_cast
    rw [pow_add, pow_add]
    field_simp
  have hn' : n = 10 ^ (m + d) := by
    rw [hpow] at hn
    exact_mod_cast hn.symm
  rw [hn', abs_of_pos (by positivity)] at hlt
  rw [Nat.add_sub_cancel_left]
  exact (pow_lt_pow_iff_right₀ (by norm_num)).mp hlt

theorem scale_le (h : HasDigits p s (1 / 10 ^ k)) : k ≤ s := by
  obtain ⟨n, hn, -⟩ := h
  by_contra hlt
  obtain ⟨d, rfl⟩ := Nat.exists_eq_add_of_lt (Nat.lt_of_not_le hlt)
  have hone : n * 10 ^ (d + 1) = 1 := by
    have : (n : ℚ) * 10 ^ (d + 1) = 1 := by
      rw [← hn, Nat.add_assoc, pow_add]
      field_simp
    exact_mod_cast this
  have hdvd : (10 : ℤ) ∣ 1 := by
    rw [← hone, pow_succ]
    exact Dvd.intro_left _ (mul_assoc n _ _)
  omega

end HasDigits

namespace IntWidth

variable {v w : IntWidth} {n : ℤ}

theorem Holds.mono (h : v.rank ≤ w.rank) (hn : v.Holds n) : w.Holds n := by
  have hp : powerOfTwo (v.bits - 1) ≤ powerOfTwo (w.bits - 1) := by
    revert h
    cases v <;> cases w <;> decide
  obtain ⟨hlow, hhigh⟩ := hn
  constructor <;> omega

theorem Holds.hasDigits (hn : w.Holds n) : HasDigits w.digits 0 n := by
  obtain ⟨hlow, hhigh⟩ := hn
  have hp : (powerOfTwo (w.bits - 1) : ℤ) < 10 ^ w.digits := by
    cases w <;> decide
  refine ⟨n, by simp, abs_lt.mpr ⟨?_, ?_⟩⟩ <;> omega

theorem holds_power (w : IntWidth) : w.Holds (10 ^ (w.digits - 1)) := by
  cases w <;> decide

theorem holds_one (w : IntWidth) : w.Holds 1 := by
  cases w <;> decide

end IntWidth

namespace SqlType

variable {a b c : SqlType} {i k p s : ℕ} {q : ℚ}

/-- The exact types whose numbers are known: a decimal leaves its precision and its scale flexible, or it
gives both and has a digit. -/
def Ranged : SqlType → Prop
  | .integer _ => True
  | .decimal none none => True
  | .decimal (some p) (some s) => 1 ≤ p ∧ s ≤ p
  | _ => False

/-- Whether a number is of a type. -/
def Represents : SqlType → ℚ → Prop
  | .integer w, q => ∃ n : ℤ, q = n ∧ w.Holds n
  | .decimal none none, q => ∃ (n : ℤ) (s : ℕ), q * 10 ^ s = n
  | .decimal (some p) (some s), q => HasDigits p s q
  | _, _ => False

/-- The numbers of a type have up to `i` digits before the point and `k` after it, and some number of the
type needs them. -/
structure Extent (a : SqlType) (i k : ℕ) : Prop where
  parts : a.decimalParts = some (i, k)
  pos : 1 ≤ i + k
  digits : ∀ q, a.Represents q → HasDigits (i + k) k q
  least : a.Represents (1 / 10 ^ k)
  power : a.Represents (10 ^ (i + k - 1) / 10 ^ k)

theorem extent_integer (w : IntWidth) : Extent (.integer w) w.digits 0 where
  parts := rfl
  pos := by cases w <;> decide
  digits := by
    rintro q ⟨n, rfl, hn⟩
    exact hn.hasDigits
  least := ⟨1, by simp, w.holds_one⟩
  power := ⟨10 ^ (w.digits - 1), by simp, w.holds_power⟩

theorem extent_decimal (hp : 1 ≤ p) (hs : s ≤ p) : Extent (.decimal (some p) (some s)) (p - s) s where
  parts := rfl
  pos := by omega
  digits := by
    intro q h
    rwa [Nat.sub_add_cancel hs]
  least := by
    have h : HasDigits p s (10 ^ 0 / 10 ^ s) := .power hp
    rwa [pow_zero] at h
  power := by
    rw [Nat.sub_add_cancel hs]
    exact HasDigits.power (by omega)

theorem Ranged.extent (h : a.Ranged) : a = .flexibleDecimal ∨ ∃ i k, a.Extent i k := by
  unfold Ranged at h
  split at h
  · exact .inr ⟨_, _, extent_integer _⟩
  · exact .inl rfl
  · exact .inr ⟨_, _, extent_decimal h.1 h.2⟩
  · exact h.elim

theorem Represents.flexible (ha : a.Ranged) (h : a.Represents q) : Represents .flexibleDecimal q := by
  obtain rfl | ⟨i, k, he⟩ := ha.extent
  · exact h
  · obtain ⟨n, hn, -⟩ := he.digits q h
    exact ⟨n, k, hn⟩

theorem Represents.widen (ha : a.Ranged) (hb : b.Ranged) (hab : Widens a b) (h : a.Represents q) :
    b.Represents q := by
  cases hab with
  | refl => exact h
  | integer hw =>
    obtain ⟨n, rfl, hn⟩ := h
    exact ⟨n, rfl, hn.mono hw⟩
  | bounded hparts hk hp =>
    obtain rfl | ⟨i, k, he⟩ := ha.extent
    · cases hparts
    · cases hparts.symm.trans he.parts
      exact (he.digits q h).mono hk hp
  | flexible => exact h.flexible ha
  | unknown | string | time | timestamp | date => exact ha.elim
  | double => exact hb.elim

theorem Ranged.widens (ha : a.Ranged)
    (h : ∀ q, a.Represents q → Represents (.decimal (some p) (some s)) q) :
    Widens a (.decimal (some p) (some s)) := by
  obtain rfl | ⟨i, k, he⟩ := ha.extent
  · -- The flexible decimal has a number with one more digit after the point.
    have hnumber : HasDigits p s (1 / 10 ^ (s + 1)) := h _ ⟨1, s + 1, by field_simp; norm_num⟩
    exact absurd hnumber.scale_le (by omega)
  · have hk : k ≤ s := HasDigits.scale_le (h _ he.least)
    have hp := HasDigits.digits_lt hk (h _ he.power)
    have hpos := he.pos
    exact .bounded he.parts hk (by omega)

theorem Ranged.isExact (ha : a.Ranged) : a.isExact = true := by
  obtain rfl | ⟨i, k, he⟩ := ha.extent
  · rfl
  · exact isExact_of_parts he.parts

theorem Ranged.wellScaled (ha : a.Ranged) : a.WellScaled := by
  unfold Ranged at ha
  split at ha
  · trivial
  · trivial
  · exact ha.2
  · exact ha.elim

theorem Ranged.unifyExact (ha : a.Ranged) (hb : b.Ranged) : (unifyExact a b).Ranged := by
  unfold SqlType.unifyExact
  obtain rfl | ⟨i, k, hea⟩ := ha.extent
  · trivial
  · obtain rfl | ⟨j, l, heb⟩ := hb.extent
    · simp only [hea.parts]
      trivial
    · have := hea.pos
      simp only [hea.parts, heb.parts]
      exact ⟨by omega, by omega⟩

theorem Ranged.exists_unify (ha : a.Ranged) (hb : b.Ranged) : ∃ c, unify a b = some c ∧ c.Ranged := by
  obtain rfl | ⟨v, w, rfl, rfl⟩ | h := unify_exact_cases ha.isExact hb.isExact
  · exact ⟨a, unify_self a, ha⟩
  · exact ⟨_, unify_integer v w, trivial⟩
  · exact ⟨_, h, ha.unifyExact hb⟩

theorem represents_of_unify (ha : a.Ranged) (hb : b.Ranged) (hc : c.Ranged) (h : unify a b = some c)
    (hq : a.Represents q ∨ b.Represents q) : c.Represents q := by
  obtain hq | hq := hq
  · exact hq.widen ha hc (widens_left h)
  · exact hq.widen hb hc (widens_right h)

/-- A decimal for the numbers of two types has the digits of the decimal that they unify to. -/
theorem Ranged.digits_le {p' s' : ℕ} (ha : a.Ranged) (hb : b.Ranged)
    (h : unify a b = some (.decimal (some p) (some s)))
    (hq : ∀ q, a.Represents q ∨ b.Represents q → Represents (.decimal (some p') (some s')) q) :
    s ≤ s' ∧ p - s ≤ p' - s' := by
  have hwa := ha.widens fun q h => hq q (.inl h)
  have hwb := hb.widens fun q h => hq q (.inr h)
  obtain ⟨c, hc, hle⟩ := SqlType.exists_unify hwa hwb
  cases h.symm.trans hc
  cases le_iff.mp hle with
  | refl => exact ⟨le_rfl, le_rfl⟩
  | bounded hparts hk hi =>
    rw [parts_decimal] at hparts
    cases hparts
    exact ⟨hk, by omega⟩

theorem Represents.convert (ha : a.Ranged) (hb : b.Ranged) (h : (conversionCost a b).isSome)
    (hq : a.Represents q) : b.Represents q := by
  have hu := unify_eq_of_cost h hb.wellScaled
  rw [if_neg] at hu
  · exact hq.widen ha hb (widens_left hu)
  · rintro ⟨-, rfl⟩
    exact hb

/-- Exact types unify to one with the numbers of both, by no more digits than these need, and a type that
converts to another has no number that the other lacks. -/
theorem unify_lossless_least (ha : a.Ranged) (hb : b.Ranged) :
    (∃ c, unify a b = some c ∧ c.Ranged ∧
      (∀ q, a.Represents q ∨ b.Represents q → c.Represents q) ∧
      ∀ p s, c = .decimal (some p) (some s) → ∀ p' s',
        (∀ q, a.Represents q ∨ b.Represents q → Represents (.decimal (some p') (some s')) q) →
          s ≤ s' ∧ p - s ≤ p' - s') ∧
    ((conversionCost a b).isSome → ∀ q, a.Represents q → b.Represents q) := by
  obtain ⟨c, h, hc⟩ := ha.exists_unify hb
  refine ⟨⟨c, h, hc, fun q => represents_of_unify ha hb hc h, ?_⟩, fun hcost q hq => hq.convert ha hb hcost⟩
  rintro p s rfl p' s' hq
  exact ha.digits_le hb h hq

theorem unify_lossless_least_ratio :
    (unify .int2 (.decimal (some 4) (some 3)) = some (.decimal (some 8) (some 3)) ∧
      Represents (.decimal (some 8) (some 3)) (-32768) ∧ Represents (.decimal (some 8) (some 3)) (9999 / 1000) ∧
      ∀ p s, (∀ q, Represents .int2 q ∨ Represents (.decimal (some 4) (some 3)) q →
        Represents (.decimal (some p) (some s)) q) → 3 ≤ s ∧ 5 ≤ p - s) ∧
    Represents (.decimal (some 7) (some 2)) (-32768) := by
  have hratio : unify .int2 (.decimal (some 4) (some 3)) = some (.decimal (some 8) (some 3)) := by decide
  have hint : Represents .int2 (-32768) := ⟨-32768, by norm_num, by decide⟩
  constructor
  · obtain ⟨⟨c, hc, -, hlossless, hleast⟩, -⟩ :=
      unify_lossless_least (a := .int2) (b := .decimal (some 4) (some 3)) trivial ⟨by decide, by decide⟩
    cases hc.symm.trans hratio
    refine ⟨hratio, hlossless _ (.inl hint), hlossless _ (.inr ?_), hleast 8 3 rfl⟩
    exact ⟨9999, by norm_num, by norm_num⟩
  · exact (unify_lossless_least (a := .int2) (b := .decimal (some 7) (some 2)) trivial
      ⟨by decide, by decide⟩).2 (by decide) _ hint

end SqlType

end SqlPlan
