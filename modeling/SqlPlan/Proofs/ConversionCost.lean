import SqlPlan.Proofs.Unification
import SqlPlan.Type.Conversion

namespace SqlPlan

theorem IntWidth.rank_lt (w : IntWidth) : w.rank < 4 := by
  cases w <;> decide

theorem IntWidth.rank_inj {v w : IntWidth} (h : v.rank = w.rank) : v = w := by
  revert h
  cases v <;> cases w <;> decide

namespace SqlType

variable {a b c : SqlType} {m n x y : Nat}

/-- Whether one number of digits before and after the point is within another; `none` bounds them nowhere. -/
def PartsLe : Option (Nat × Nat) → Option (Nat × Nat) → Prop
  | _, none => True
  | some (i, k), some (j, l) => i ≤ j ∧ k ≤ l
  | none, some _ => False

theorem PartsLe.trans {p q r : Option (Nat × Nat)} (h : PartsLe p q) (h' : PartsLe q r) : PartsLe p r := by
  rcases p with _ | ⟨i, k⟩ <;> rcases q with _ | ⟨j, l⟩ <;> rcases r with _ | ⟨i', k'⟩ <;>
    simp_all only [PartsLe]
  omega

/-- A conversion to another type, with its cost. -/
inductive Converts : SqlType → SqlType → Nat → Prop where
  | unknown {b : SqlType} : b ≠ .unknown → Converts .unknown b 1
  | numeric {a b : SqlType} {m n : Nat} : a ≠ b → a.numericRank = some m → b.numericRank = some n → m ≤ n →
      PartsLe a.decimalParts b.decimalParts → Converts a b (max 1 (n - m))
  | string (k : StringKind) {v : Bool} {m n : Option Nat} : SqlType.string k v m ≠ .string k true n →
      LengthLe m n → Converts (.string k v m) (.string k true n) (if v then 1 else 2)
  | time : Converts (.time false) (.time true) 1
  | timestamp : Converts (.timestamp false) (.timestamp true) 1
  | date (z : Bool) : Converts .date (.timestamp z) (if z then 2 else 1)

theorem Converts.ne (h : Converts a b x) : a ≠ b := by
  cases h with
  | unknown h => exact h.symm
  | numeric h => exact h
  | string _ h => exact h
  | time | timestamp | date => simp

theorem Converts.pos (h : Converts a b x) : 0 < x := by
  cases h with
  | numeric => omega
  | string | date => split <;> decide
  | unknown | time | timestamp => decide

theorem lengthFits_iff {m n : Option Nat} : lengthFits m n = true ↔ LengthLe m n := by
  cases m <;> cases n <;> simp [lengthFits, LengthLe]

theorem conversionCost_numeric (hab : a ≠ b) (ha : a.numericRank = some m) (hb : b.numericRank = some n) :
    conversionCost a b = some x ↔
      m ≤ n ∧ PartsLe a.decimalParts b.decimalParts ∧ x = max 1 (n - m) := by
  cases a <;> cases b <;> cases ha <;> cases hb
  case integer.integer v w =>
    -- A wider integer has more digits, so the rank decides.
    have hr : v.rank ≠ w.rank := fun h => hab (by rw [IntWidth.rank_inj h])
    have hd := IntWidth.digits_le (v := v) (w := w)
    simp [conversionCost, hab, numericRank, decimalParts, PartsLe]
    omega
  case integer.decimal w q t =>
    have := w.rank_lt
    cases q <;> simp [conversionCost, numericRank, decimalParts, PartsLe] <;> omega
  case decimal.decimal p s q t =>
    cases p <;> cases q <;> simp [conversionCost, hab, decimalParts, PartsLe] <;> omega
  case integer.real w | integer.double w | decimal.integer w | real.integer w | double.integer w =>
    have := w.rank_lt
    simp [conversionCost, numericRank, decimalParts, PartsLe]
    omega
  case real.real | double.double => exact absurd rfl hab
  all_goals simp [conversionCost, numericRank, decimalParts, PartsLe, eq_comm]

theorem Converts.of_cost (hab : a ≠ b) (h : conversionCost a b = some x) : Converts a b x := by
  have hnumeric {m n : Nat} (ha : a.numericRank = some m) (hb : b.numericRank = some n) :
      Converts a b x := by
    obtain ⟨hmn, hp, rfl⟩ := (conversionCost_numeric hab ha hb).1 h
    exact .numeric hab ha hb hmn hp
  unfold conversionCost at h
  rw [if_neg hab] at h
  split at h
  case h_1 => cases h; exact .unknown hab.symm
  case h_2 | h_3 | h_4 => exact hnumeric rfl rfl
  case h_5 =>
    split at h
    · rename_i hc
      obtain ⟨rfl, rfl, hl⟩ := hc
      cases h
      exact .string _ hab (lengthFits_iff.1 hl)
    · cases h
  case h_6 => cases h; exact .time
  case h_7 => cases h; exact .timestamp
  case h_8 => cases h; exact .date _
  case h_9 =>
    obtain ⟨m, ha, h⟩ := Option.bind_eq_some_iff.1 h
    obtain ⟨n, hb, -⟩ := Option.bind_eq_some_iff.1 h
    exact hnumeric ha hb

theorem Converts.cost_eq (h : Converts a b x) : conversionCost a b = some x := by
  have hab := h.ne
  cases h with
  | unknown => cases b <;> simp_all [conversionCost]
  | numeric _ ha hb hmn hp => exact (conversionCost_numeric hab ha hb).2 ⟨hmn, hp, rfl⟩
  | string k _ hl => simp [conversionCost, hab, lengthFits_iff.2 hl]
  | time | timestamp | date => simp [conversionCost]

/-- The conversions are those that `Converts` lists, and that of a type to itself. -/
theorem conversionCost_eq_some_iff :
    conversionCost a b = some x ↔ (a = b ∧ x = 0) ∨ Converts a b x := by
  constructor
  · intro h
    by_cases hab : a = b
    · subst hab
      simp_all [conversionCost]
    · exact .inr (.of_cost hab h)
  · rintro (⟨rfl, rfl⟩ | h)
    · simp [conversionCost]
    · exact h.cost_eq

theorem conversionCost_eq_zero_iff : conversionCost a b = some 0 ↔ a = b := by
  rw [conversionCost_eq_some_iff]
  constructor
  · rintro (⟨rfl, -⟩ | h)
    · rfl
    · exact absurd h.pos (Nat.lt_irrefl 0)
  · exact fun h => .inl ⟨h, rfl⟩

/-- Of two conversions one after the other, unless they lead back, there is a conversion that costs no more
than both. -/
theorem Converts.trans (hac : a ≠ c) (hab : Converts a b x) (hbc : Converts b c y) :
    ∃ z, Converts a c z ∧ z ≤ x + y := by
  cases hab with
  | unknown => exact ⟨1, .unknown hac.symm, by omega⟩
  | numeric _ ha hb hmn hp =>
    cases hbc with
    | numeric _ hb' hc hnl hq =>
      -- Ranks only climb, and each conversion costs at least the ranks that it climbs.
      cases hb.symm.trans hb'
      exact ⟨_, .numeric hac ha hc (Nat.le_trans hmn hnl) (hp.trans hq), by omega⟩
    | unknown | string | time | timestamp | date => cases hb
  | string k _ hl =>
    cases hbc with
    | numeric _ hb => cases hb
    | string _ _ hl' => exact ⟨_, .string k hac (hl.trans hl'), by omega⟩
  | time | timestamp => cases hbc with
    | numeric _ hb => cases hb
  | date z =>
    cases hbc with
    | numeric _ hb => cases hb
    | timestamp => exact ⟨2, .date true, by decide⟩

theorem conversionCost_triangle (hab : conversionCost a b = some x) (hbc : conversionCost b c = some y) :
    ∃ z, conversionCost a c = some z ∧ z ≤ x + y := by
  by_cases hac : a = c
  · exact ⟨0, conversionCost_eq_zero_iff.2 hac, Nat.zero_le _⟩
  · obtain ⟨rfl, rfl⟩ | hab' := conversionCost_eq_some_iff.1 hab
    · exact ⟨y, hbc, by omega⟩
    · obtain ⟨rfl, rfl⟩ | hbc' := conversionCost_eq_some_iff.1 hbc
      · exact ⟨x, hab, by omega⟩
      · obtain ⟨z, hz, hle⟩ := hab'.trans hac hbc'
        exact ⟨z, hz.cost_eq, hle⟩

/-- A decimal type gives neither its precision nor its scale, or both, with no more digits after the point
than there are. -/
def WellScaled : SqlType → Prop
  | .decimal none none => True
  | .decimal (some p) (some s) => s ≤ p
  | .decimal _ _ => False
  | _ => True

theorem WellScaled.widens_decimal {p s : Option Nat} (h : (decimal p s).WellScaled) (ha : a.isExact = true)
    (hp : PartsLe a.decimalParts (decimal p s).decimalParts) : Widens a (.decimal p s) := by
  rcases p with _ | p <;> rcases s with _ | s <;> simp only [WellScaled] at h
  · exact .flexible ha
  · rcases he : a.decimalParts with _ | ⟨i, k⟩ <;> rw [he] at hp <;> simp only [parts_decimal, PartsLe] at hp
    exact .bounded he hp.2 (by omega)

theorem isNumeric_of_rank (ha : a.numericRank = some m) : a.isNumeric = true := by
  cases a <;> simp_all [numericRank, isNumeric, isExact, isApproximate]

theorem isExact_of_rank (ha : a.numericRank = some m) (hm : m ≤ 5) (hr : a ≠ .real) : a.isExact = true := by
  cases a <;> cases ha
  case integer | decimal => rfl
  case real => exact absurd rfl hr
  case double => omega

theorem widens_of_rank (ha : a.numericRank = some m) (hn : b.numericRank = some n) (hmn : m ≤ n)
    (hp : PartsLe a.decimalParts b.decimalParts) (hb : b.WellScaled) (hr : b ≠ .real) : Widens a b := by
  cases b <;> cases hn
  case integer w =>
    have := w.rank_lt
    cases a <;> cases ha
    case integer => exact .integer hmn
    all_goals omega
  case decimal =>
    have har : a ≠ .real := by
      rintro rfl
      cases ha
      omega
    exact hb.widens_decimal (isExact_of_rank ha (by omega) har) hp
  case real => exact absurd rfl hr
  case double => exact .double (isNumeric_of_rank ha)

theorem Converts.widens (h : Converts a b x) (hb : b.WellScaled) :
    Widens a b ∨ a.isExact = true ∧ b = .real := by
  cases h with
  | unknown => exact .inl (.unknown _)
  | string k _ hl => exact .inl (.string k (fun _ => rfl) hl)
  | time => exact .inl (.time (fun _ => rfl))
  | timestamp => exact .inl (.timestamp (fun _ => rfl))
  | date z => exact .inl (.date z)
  | numeric hab ha hn hmn hp =>
    by_cases hr : b = .real
    · subst hr
      cases hn
      exact .inr ⟨isExact_of_rank ha hmn hab, rfl⟩
    · exact .inl (widens_of_rank ha hn hmn hp hb hr)

theorem unify_real (ha : a.isExact = true) : unify a .real = some .double := by
  cases a <;> simp_all [unify, isExact, isNumeric, isApproximate]

theorem unify_eq_of_cost (h : (conversionCost a b).isSome) (hb : b.WellScaled) :
    unify a b = if a.isExact = true ∧ b = .real then some .double else some b := by
  obtain ⟨x, hx⟩ := Option.isSome_iff_exists.1 h
  obtain ⟨rfl, -⟩ | hc := conversionCost_eq_some_iff.1 hx
  · rw [unify_self, if_neg]
    rintro ⟨ha, rfl⟩
    cases ha
  · obtain hw | he := hc.widens hb
    · rw [hw.unify_eq, if_neg]
      rintro ⟨ha, rfl⟩
      cases hw <;> cases ha
    · rw [if_pos he, he.2, unify_real he.1]

/-- The cost of a conversion is a quasi-metric on the types, and it agrees with unification. -/
theorem conversionCost_quasiMetric :
    (∀ a b, conversionCost a b = some 0 ↔ a = b) ∧
    (∀ a b c x y, conversionCost a b = some x → conversionCost b c = some y →
      ∃ z, conversionCost a c = some z ∧ z ≤ x + y) ∧
    (∀ a b, (conversionCost a b).isSome → b.WellScaled →
      unify a b = if a.isExact = true ∧ b = .real then some .double else some b) := by
  refine ⟨fun _ _ => conversionCost_eq_zero_iff, fun _ _ _ _ _ => conversionCost_triangle, ?_⟩
  exact fun _ _ => unify_eq_of_cost

theorem conversionCost_quasiMetric_smallint :
    (conversionCost .int2 .int8 = some 2 ∧ conversionCost .int8 .real = some 2 ∧
      ∃ z, conversionCost .int2 .real = some z ∧ z ≤ 2 + 2) ∧
    unify .int2 (.decimal (some 7) (some 2)) = some (.decimal (some 7) (some 2)) ∧
    unify .int2 .real = some .double := by
  refine ⟨⟨by decide, by decide, ?_⟩, ?_, ?_⟩
  · exact conversionCost_quasiMetric.2.1 .int2 .int8 .real 2 2 (by decide) (by decide)
  · exact conversionCost_quasiMetric.2.2 .int2 (.decimal (some 7) (some 2)) (by decide) (by simp [WellScaled])
  · exact conversionCost_quasiMetric.2.2 .int2 .real (by decide) trivial

end SqlType

end SqlPlan
