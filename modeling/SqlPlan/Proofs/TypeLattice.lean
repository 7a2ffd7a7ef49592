import Mathlib.Order.Bounds.Basic
import SqlPlan.Proofs.Unification

namespace SqlPlan

namespace IntWidth

theorem max_rank_le {u v w : IntWidth} (hu : u.rank ≤ w.rank) (hv : v.rank ≤ w.rank) :
    (u.max v).rank ≤ w.rank := by
  unfold max
  split <;> assumption

theorem digits_max (v w : IntWidth) : (v.max w).digits = Nat.max v.digits w.digits := by
  cases v <;> cases w <;> rfl

end IntWidth

namespace SqlType

variable {a b c d t : SqlType} {ts us : List SqlType}

theorem unify_unknown_right (a : SqlType) : unify a .unknown = some a := by
  rw [unify_comm, unify_unknown_left]

theorem Widens.antisymm (h : Widens a b) (h' : Widens b a) : a = b := by
  have hb := h.unify_eq
  rw [unify_comm, h'.unify_eq] at hb
  exact Option.some.inj hb

instance : PartialOrder SqlType where
  le := Widens
  le_refl := .refl
  le_trans _ _ _ := Widens.trans
  le_antisymm _ _ := Widens.antisymm

theorem le_iff : a ≤ b ↔ Widens a b := .rfl

theorem unknown_le (a : SqlType) : .unknown ≤ a := .unknown a

theorem unify_integer (v w : IntWidth) : unify (.integer v) (.integer w) = some (.integer (v.max w)) := by
  cases v <;> cases w <;> rfl

theorem unify_string (k : StringKind) (v w : Bool) (m n : Option Nat) :
    unify (.string k v m) (.string k w n) = some (.string k (v || w) (maxLength m n)) := by
  by_cases h : SqlType.string k v m = .string k w n
  · cases h
    cases m <;> simp [unify, maxLength]
  · simp [unify, h]

theorem unify_time (y z : Bool) : unify (.time y) (.time z) = some (.time (y || z)) := by
  cases y <;> cases z <;> rfl

theorem unify_timestamp (y z : Bool) : unify (.timestamp y) (.timestamp z) = some (.timestamp (y || z)) := by
  cases y <;> cases z <;> rfl

theorem maxLength_le {m n l : Option Nat} (hm : LengthLe m l) (hn : LengthLe n l) :
    LengthLe (maxLength m n) l := by
  cases m <;> cases n <;> cases l <;> simp_all [maxLength, LengthLe]

theorem unify_exact_cases (ha : a.isExact = true) (hb : b.isExact = true) :
    a = b ∨ (∃ v w, a = .integer v ∧ b = .integer w) ∨ unify a b = some (unifyExact a b) := by
  by_cases hab : a = b
  · exact .inl hab
  · cases a <;> cases b <;> simp_all [isExact, unify]

/-- Exact types that bound their digits unify to one with the greater number of digits on either side of the
point. -/
theorem exists_unify_of_parts {i j k l : Nat} (ha : a.decimalParts = some (i, k))
    (hb : b.decimalParts = some (j, l)) :
    ∃ c, unify a b = some c ∧ c.decimalParts = some (max i j, max k l) := by
  obtain rfl | ⟨v, w, rfl, rfl⟩ | h := unify_exact_cases (isExact_of_parts ha) (isExact_of_parts hb)
  · cases ha.symm.trans hb
    exact ⟨a, unify_self a, by rw [ha, Nat.max_self, Nat.max_self]⟩
  · cases ha
    cases hb
    exact ⟨_, unify_integer v w, by rw [decimalParts, IntWidth.digits_max]; rfl⟩
  · refine ⟨_, h, ?_⟩
    simp only [unifyExact, ha, hb, parts_decimal, Nat.add_sub_cancel]

theorem exists_unify_of_exact (ha : a.isExact = true) (hb : b.isExact = true) :
    ∃ c, unify a b = some c ∧ c.isExact = true := by
  obtain rfl | ⟨v, w, rfl, rfl⟩ | h := unify_exact_cases ha hb
  · exact ⟨a, unify_self a, ha⟩
  · exact ⟨_, unify_integer v w, rfl⟩
  · refine ⟨_, h, ?_⟩
    unfold unifyExact
    split <;> rfl

theorem exists_unify_of_numeric (ha : a.isNumeric = true) (hb : b.isNumeric = true) :
    ∃ c, unify a b = some c ∧ c.isNumeric = true := by
  by_cases hexact : a.isExact = true ∧ b.isExact = true
  · obtain ⟨c, hc, he⟩ := exists_unify_of_exact hexact.1 hexact.2
    exact ⟨c, hc, isNumeric_of_exact he⟩
  · by_cases hab : a = b
    · exact ⟨a, by rw [← hab, unify_self], ha⟩
    · refine ⟨.double, ?_, rfl⟩
      cases a <;> cases b <;> simp_all [unify, isNumeric, isExact, isApproximate]

theorem exists_unify (ha : a ≤ d) (hb : b ≤ d) : ∃ c, unify a b = some c ∧ c ≤ d := by
  by_cases hbound : b = d ∨ b = .unknown
  · obtain rfl | rfl := hbound
    · exact ⟨b, ha.unify_eq, .refl b⟩
    · exact ⟨a, unify_unknown_right a, ha⟩
  · obtain ⟨hne, hknown⟩ := not_or.mp hbound
    -- The bound is in the family of both types, so one case is left for each family.
    have hwb := le_iff.mp hb
    cases le_iff.mp ha with
    | refl => exact ⟨a, (unify_comm a b).trans hb.unify_eq, .refl a⟩
    | unknown => exact ⟨b, unify_unknown_left b, hb⟩
    | @integer v w hv =>
      cases hwb with
      | refl | unknown => contradiction
      | integer hw => exact ⟨_, unify_integer _ _, .integer (IntWidth.max_rank_le hv hw)⟩
    | @bounded _ i k p s hi hk hp =>
      cases hwb with
      | refl | unknown => contradiction
      | @bounded _ j l _ _ hj hl hq =>
        obtain ⟨c, hc, hparts⟩ := exists_unify_of_parts hi hj
        exact ⟨c, hc, .bounded hparts (by omega) (by omega)⟩
    | flexible hae =>
      cases hwb with
      | refl | unknown => contradiction
      | flexible hbe =>
        obtain ⟨c, hc, he⟩ := exists_unify_of_exact hae hbe
        exact ⟨c, hc, .flexible he⟩
    | double han =>
      cases hwb with
      | refl | unknown => contradiction
      | double hbn =>
        obtain ⟨c, hc, hn⟩ := exists_unify_of_numeric han hbn
        exact ⟨c, hc, .double hn⟩
    | string k hv hm =>
      cases hwb with
      | refl | unknown => contradiction
      | string _ hw hn =>
        refine ⟨_, unify_string k _ _ _ _, .string k ?_ (maxLength_le hm hn)⟩
        rw [Bool.or_eq_true]
        exact fun h => h.elim hv hw
    | time hy =>
      cases hwb with
      | refl | unknown => contradiction
      | time hz =>
        refine ⟨_, unify_time _ _, .time ?_⟩
        rw [Bool.or_eq_true]
        exact fun h => h.elim hy hz
    | timestamp hy =>
      cases hwb with
      | refl | unknown => contradiction
      | timestamp hz =>
        refine ⟨_, unify_timestamp _ _, .timestamp ?_⟩
        rw [Bool.or_eq_true]
        exact fun h => h.elim hy hz
      | date => exact ⟨_, rfl, ha⟩
    | date z =>
      cases hwb with
      | refl | unknown => contradiction
      | timestamp hz => exact ⟨_, rfl, hb⟩
      | date => exact ⟨_, unify_self _, ha⟩

theorem exists_foldlM_unify (ha : a ≤ d) (hts : ∀ u ∈ ts, u ≤ d) :
    ∃ t, ts.foldlM unify a = some t ∧ t ≤ d := by
  induction ts generalizing a with
  | nil => exact ⟨a, rfl, ha⟩
  | cons b ts ih =>
    obtain ⟨hb, hts⟩ := List.forall_mem_cons.mp hts
    obtain ⟨c, hc, hle⟩ := exists_unify ha hb
    obtain ⟨t, ht, htd⟩ := ih hle hts
    exact ⟨t, (foldlM_unify_cons a b ts t).mpr ⟨c, hc, ht⟩, htd⟩

theorem unifyAll_eq_some_iff : unifyAll ts = some t ↔ IsLUB {u | u ∈ ts} t := by
  constructor
  · intro h
    refine ⟨fun u hu => (widens_foldlM h).2 u hu, fun d hd => ?_⟩
    obtain ⟨t', ht', hle⟩ := exists_foldlM_unify (unknown_le d) hd
    cases h.symm.trans ht'
    exact hle
  · rintro ⟨hupper, hleast⟩
    obtain ⟨t', ht', hle⟩ := exists_foldlM_unify (unknown_le t) hupper
    have hge : t ≤ t' := hleast fun u hu => (widens_foldlM ht').2 u hu
    rw [unifyAll, ht', le_antisymm hle hge]

theorem unifyAll_congr (h : ∀ u, u ∈ ts ↔ u ∈ us) : unifyAll ts = unifyAll us := by
  refine Option.ext fun t => ?_
  have hset : {u | u ∈ ts} = {u | u ∈ us} := Set.ext h
  rw [unifyAll_eq_some_iff, unifyAll_eq_some_iff, hset]

theorem unifyAll_perm (h : ts.Perm us) : unifyAll ts = unifyAll us := unifyAll_congr fun _ => h.mem_iff

theorem unify_assoc (a b c : SqlType) : (unify a b).bind (unify · c) = (unify b c).bind (unify a) := by
  have htriple : ∀ a b c, (unify a b).bind (unify · c) = unifyAll [a, b, c] := by
    intro a b c
    simp [unifyAll, List.foldlM, unify_unknown_left, Option.bind_eq_bind]
  calc (unify a b).bind (unify · c)
    _ = unifyAll [b, c, a] := by
      rw [htriple]
      exact unifyAll_congr (by simp; tauto)
    _ = (unify b c).bind (unify a) := by
      rw [← htriple]
      simp only [unify_comm a]

end SqlType

end SqlPlan
