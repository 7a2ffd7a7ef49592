import SqlPlan.Type.Unify

namespace SqlPlan

variable {v w : IntWidth} {m n : Option Nat} {a b c t : SqlType} {ts : List SqlType}

namespace IntWidth

theorem max_comm (v w : IntWidth) : v.max w = w.max v := by
  cases v <;> cases w <;> rfl

theorem rank_le_max (v w : IntWidth) : v.rank ≤ (v.max w).rank := by
  cases v <;> cases w <;> decide

theorem max_eq_right (h : v.rank ≤ w.rank) : v.max w = w := by
  revert h
  cases v <;> cases w <;> decide

theorem digits_le (h : v.rank ≤ w.rank) : v.digits ≤ w.digits := by
  revert h
  cases v <;> cases w <;> decide

end IntWidth

namespace SqlType

/-- Whether strings of one length are also strings of another; `none` is flexible. -/
def LengthLe : Option Nat → Option Nat → Prop
  | _, none => True
  | some m, some n => m ≤ n
  | none, some _ => False

theorem LengthLe.trans {k : Option Nat} (h : LengthLe k m) (h' : LengthLe m n) : LengthLe k n := by
  cases k <;> cases m <;> cases n <;> simp_all [LengthLe]
  omega

theorem lengthLe_maxLength (m n : Option Nat) : LengthLe m (maxLength m n) := by
  cases m <;> cases n <;> simp only [maxLength, LengthLe]
  omega

theorem maxLength_eq_right (h : LengthLe m n) : maxLength m n = n := by
  cases m <;> cases n <;> simp_all [maxLength, LengthLe]

theorem maxLength_comm (m n : Option Nat) : maxLength m n = maxLength n m := by
  cases m <;> cases n <;> simp [maxLength, Nat.max_comm]

theorem unifyExact_comm (a b : SqlType) : unifyExact a b = unifyExact b a := by
  unfold unifyExact
  rcases a.decimalParts with _ | ⟨i, s⟩ <;> rcases b.decimalParts with _ | ⟨j, t⟩ <;>
    simp [Nat.max_comm]

theorem unify_self (a : SqlType) : unify a a = some a := by
  simp [unify]

theorem unify_comm (a b : SqlType) : unify a b = unify b a := by
  by_cases h : a = b
  · rw [h]
  · have h' : ¬b = a := fun e => h e.symm
    cases a <;> cases b <;>
      simp_all [unify, IntWidth.max_comm, maxLength_comm, unifyExact_comm, Bool.or_comm, isExact,
        isNumeric, isApproximate, eq_comm]

theorem unify_unknown_left (a : SqlType) : unify .unknown a = some a := by
  cases a <;> simp [unify]

/-- Widening within a family of types. -/
inductive Widens : SqlType → SqlType → Prop where
  | refl (a : SqlType) : Widens a a
  | unknown (a : SqlType) : Widens .unknown a
  | integer {v w : IntWidth} : v.rank ≤ w.rank → Widens (.integer v) (.integer w)
  | bounded {a : SqlType} {i k p s : Nat} : a.decimalParts = some (i, k) → k ≤ s → i + s ≤ p →
      Widens a (.decimal (some p) (some s))
  | flexible {a : SqlType} : a.isExact = true → Widens a .flexibleDecimal
  | double {a : SqlType} : a.isNumeric = true → Widens a .double
  | string (k : StringKind) {v w : Bool} {m n : Option Nat} : (v = true → w = true) → LengthLe m n →
      Widens (.string k v m) (.string k w n)
  | time {y z : Bool} : (y = true → z = true) → Widens (.time y) (.time z)
  | timestamp {y z : Bool} : (y = true → z = true) → Widens (.timestamp y) (.timestamp z)
  | date (z : Bool) : Widens .date (.timestamp z)

@[simp] theorem parts_decimal (p s : Nat) :
    (decimal (some p) (some s)).decimalParts = some (p - s, s) :=
  rfl

theorem isExact_of_parts {p : Nat × Nat} (h : a.decimalParts = some p) : a.isExact = true := by
  cases a <;> simp_all [decimalParts, isExact]

theorem isNumeric_of_exact (h : a.isExact = true) : a.isNumeric = true := by
  simp [isNumeric, h]

theorem widens_unifyExact (ha : a.isExact = true) (b : SqlType) : Widens a (unifyExact a b) := by
  unfold unifyExact
  rcases h : a.decimalParts with _ | ⟨i, s⟩ <;> rcases b.decimalParts with _ | ⟨j, t⟩
  case some.some => exact .bounded h (by omega) (by omega)
  all_goals exact .flexible ha

theorem widens_left (h : unify a b = some c) : Widens a c := by
  unfold unify at h
  split at h
  · cases h
    exact .refl _
  · split at h
    case h_1 => cases h; exact .unknown _
    case h_2 => cases h; exact .refl _
    case h_3 => cases h; exact .integer (IntWidth.rank_le_max _ _)
    case h_4 =>
      split at h
      · cases h
        exact .string _ (by simp_all) (lengthLe_maxLength _ _)
      · cases h
    case h_5 => cases h; exact .time (by simp_all)
    case h_6 => cases h; exact .timestamp (by simp_all)
    case h_7 => cases h; exact .date _
    case h_8 => cases h; exact .refl _
    case h_9 =>
      split at h
      · rename_i he
        cases h
        exact widens_unifyExact (by simp_all) _
      · split at h
        · cases h
          exact .double (by simp_all)
        · cases h

theorem widens_right (h : unify a b = some c) : Widens b c := by
  rw [unify_comm] at h
  exact widens_left h

theorem Widens.unify_eq (h : Widens a b) : unify a b = some b := by
  by_cases hab : a = b
  · rw [hab, unify_self]
  · cases h with
    | refl => exact absurd rfl hab
    | unknown => exact unify_unknown_left b
    | integer h => simp [unify, hab, IntWidth.max_eq_right h]
    | @bounded _ i k p s hp hk hi =>
      have he : unifyExact a (.decimal (some p) (some s)) = .decimal (some p) (some s) := by
        have h1 : max i (p - s) + max k s = p := by omega
        have h2 : max k s = s := by omega
        simp only [unifyExact, hp, parts_decimal, h1]
        rw [h2]
      have ha := isExact_of_parts hp
      cases a <;> simp_all [unify, isExact]
    | flexible ha =>
      have he : unifyExact a .flexibleDecimal = .flexibleDecimal := by
        unfold unifyExact
        rcases a.decimalParts with _ | ⟨i, s⟩ <;> rfl
      cases a <;> simp_all [unify, isExact]
    | double ha => cases a <;> simp_all [unify, isExact, isNumeric, isApproximate]
    | string k hv hl =>
      have hw : ∀ v w : Bool, (v = true → w = true) → (v || w) = w := by decide
      simp [unify, hab, maxLength_eq_right hl, hw _ _ hv]
    | @time y z hz | @timestamp y z hz =>
      cases y <;> cases z <;> simp_all [unify]
    | date z => rfl

theorem Widens.isNumeric (h : Widens a b) (ha : a ≠ .unknown) (hb : b.isNumeric = true) : a.isNumeric = true := by
  cases h with
  | refl => exact hb
  | unknown => exact absurd rfl ha
  | integer => rfl
  | bounded hp => exact isNumeric_of_exact (isExact_of_parts hp)
  | flexible he => exact isNumeric_of_exact he
  | double he => exact he
  | string | time | timestamp | date => simp [SqlType.isNumeric, isExact, isApproximate] at hb

theorem Widens.trans (h : Widens a b) (h' : Widens b c) : Widens a c := by
  by_cases ha : a = .unknown
  · subst ha
    exact .unknown c
  · cases h' with
    | refl => exact h
    | unknown =>
      cases h with
      | refl | unknown => exact .unknown c
    | integer hw =>
      cases h with
      | refl => exact .integer hw
      | unknown => exact .unknown _
      | integer hv => exact .integer (Nat.le_trans hv hw)
    | bounded hp hk hi =>
      cases h with
      | refl => exact .bounded hp hk hi
      | unknown => exact .unknown _
      | integer hv =>
        cases hp
        have hd := IntWidth.digits_le hv
        exact .bounded rfl hk (by omega)
      | bounded hp' hk' hi' =>
        rw [parts_decimal, Option.some.injEq, Prod.mk.injEq] at hp
        exact .bounded hp' (by omega) (by omega)
      | _ => cases hp
    | flexible he =>
      cases h with
      | refl => exact .flexible he
      | unknown => exact .unknown _
      | integer => exact .flexible rfl
      | bounded hp => exact .flexible (isExact_of_parts hp)
      | flexible he' => exact .flexible he'
      | _ => cases he
    | double he => exact .double (h.isNumeric ha he)
    | string k hv hl =>
      cases h with
      | refl => exact .string k hv hl
      | unknown => exact .unknown _
      | string _ hu hl' => exact .string k (fun e => hv (hu e)) (hl'.trans hl)
    | time hz =>
      cases h with
      | refl => exact .time hz
      | unknown => exact .unknown _
      | time hy => exact .time (fun e => hz (hy e))
    | timestamp hz =>
      cases h with
      | refl => exact .timestamp hz
      | unknown => exact .unknown _
      | timestamp hy => exact .timestamp (fun e => hz (hy e))
      | date => exact .date _
    | date z =>
      cases h with
      | refl => exact .date z
      | unknown => exact .unknown _

/-- The type that a list of types shares, unified from the left. -/
def unifyAll (ts : List SqlType) : Option SqlType := ts.foldlM unify .unknown

theorem unifyAll_pair (a b : SqlType) : unifyAll [a, b] = unify a b := by
  simp [unifyAll, List.foldlM, unify_unknown_left]

theorem foldlM_unify_cons (a b : SqlType) (ts : List SqlType) (t : SqlType) :
    (b :: ts).foldlM unify a = some t ↔ ∃ c, unify a b = some c ∧ ts.foldlM unify c = some t := by
  simp [List.foldlM_cons, Option.bind_eq_some_iff]

theorem widens_foldlM (h : ts.foldlM unify a = some t) : Widens a t ∧ ∀ b ∈ ts, Widens b t := by
  induction ts generalizing a with
  | nil =>
    cases h
    exact ⟨.refl _, by simp⟩
  | cons b ts ih =>
    obtain ⟨c, hc, ht⟩ := (foldlM_unify_cons a b ts t).mp h
    obtain ⟨hct, hall⟩ := ih ht
    refine ⟨(widens_left hc).trans hct, ?_⟩
    intro u hu
    rcases List.mem_cons.mp hu with rfl | hu
    · exact (widens_right hc).trans hct
    · exact hall u hu

theorem foldlM_unify_top (h : ∀ b ∈ ts, Widens b t) : ts.foldlM unify t = some t := by
  induction ts with
  | nil => rfl
  | cons b ts ih =>
    refine (foldlM_unify_cons t b ts t).mpr ⟨t, ?_, ih fun u hu => h u (by simp [hu])⟩
    rw [unify_comm]
    exact (h b (by simp)).unify_eq

/-- Types left open do not change what the others unify to, once they are filled with it. -/
theorem foldlM_unify_filled {ts : List (Option SqlType)} (h : (ts.filterMap id).foldlM unify a = some t) :
    (ts.map fun u => u.getD t).foldlM unify a = some t := by
  induction ts generalizing a with
  | nil => exact h
  | cons u ts ih =>
    cases u with
    | some b =>
      obtain ⟨c, hc, ht⟩ := (foldlM_unify_cons a b _ t).mp h
      exact (foldlM_unify_cons a b _ t).mpr ⟨c, hc, ih ht⟩
    | none =>
      have hts : (ts.filterMap id).foldlM unify a = some t := h
      obtain ⟨ha, hall⟩ := widens_foldlM hts
      refine (foldlM_unify_cons a t _ t).mpr ⟨t, ha.unify_eq, foldlM_unify_top ?_⟩
      intro b hb
      obtain ⟨u, hu, rfl⟩ := List.mem_map.mp hb
      cases u with
      | none => exact .refl t
      | some b => exact hall b (List.mem_filterMap.mpr ⟨some b, hu, rfl⟩)

theorem Widens.eq_unknown (h : Widens a .unknown) : a = .unknown := by
  cases h <;> rfl

/-- If nothing is known of the others, the open types decide. -/
theorem unifyAll_filled_unknown {ts : List (Option SqlType)} (h : unifyAll (ts.filterMap id) = some .unknown)
    (hopen : none ∈ ts) : unifyAll (ts.map fun u => u.getD t) = some t := by
  obtain ⟨-, hall⟩ := widens_foldlM h
  have hknown : ∀ b, some b ∈ ts → b = .unknown := fun b hb =>
    (hall b (List.mem_filterMap.mpr ⟨some b, hb, rfl⟩)).eq_unknown
  clear h hall
  unfold unifyAll
  induction ts with
  | nil => cases hopen
  | cons u ts ih =>
    cases u with
    | some b =>
      have hb := hknown b (by simp)
      subst hb
      refine (foldlM_unify_cons _ _ _ _).mpr ⟨.unknown, unify_self _, ih ?_ ?_⟩
      · simpa using hopen
      · exact fun b hb => hknown b (by simp [hb])
    | none =>
      refine (foldlM_unify_cons _ _ _ _).mpr ⟨t, unify_unknown_left t, foldlM_unify_top ?_⟩
      intro b hb
      obtain ⟨u, hu, rfl⟩ := List.mem_map.mp hb
      cases u with
      | none => exact .refl t
      | some b =>
        rw [hknown b (by simp [hu])]
        exact .unknown t

end SqlType

end SqlPlan
