import SqlPlan.Proofs.Delivery

namespace SqlPlan

variable {σ : Type} {op : SetOperator} {s s' : σ}

open List (Forall₂)

theorem map_zip_fst {α β γ : Type} {xs : List α} {ys : List β} (h : xs.length = ys.length) (f : α → γ) :
    (xs.zip ys).map (fun p => f p.1) = xs.map f := by
  have hcomp : (xs.zip ys).map (fun p => f p.1) = ((xs.zip ys).map Prod.fst).map f := by
    rw [List.map_map]
    rfl
  rw [hcomp, List.map_fst_zip (Nat.le_of_eq h)]

namespace SetOperation

variable {env : Environment} {left right : Planned}

/-- The columns of both operands in pairs, each with the type of the result. -/
abbrev Pairing := List ((ColumnInfo × ColumnInfo) × SqlType)

/-- A pairing over operands with the given columns. -/
structure Pairing.Sound (ps : Pairing) (Γ Γ' : Columns) : Prop where
  left : Γ.Carries (ps.map fun p => (p.1.1.carrier, p.1.1.type))
  right : ∀ p ∈ ps, Γ'.type? p.1.2.carrier = some p.1.2.type
  unified : ∀ p ∈ ps, p.1.1.type.unify p.1.2.type = some p.2

theorem pairs_ok {ps : List (ColumnInfo × ColumnInfo)} (h : pairs op left right env s = (.ok ps, s')) :
    ps.map (·.1) = left.relation.exportedColumns ∧ (∀ p ∈ ps, p.2 ∈ right.relation.columns) ∧ s' = s := by
  simp only [pairs, Step.ite_ok, Step.fail_ok, Step.pure_ok, and_false, false_or] at h
  obtain ⟨hlen, rfl, rfl⟩ := h
  refine ⟨List.map_fst_zip (by omega), fun p hp => ?_, rfl⟩
  exact (List.mem_filter.mp (List.of_mem_zip hp).2).1

theorem columnType_ok {p : (ColumnInfo × ColumnInfo) × Nat} {t : SqlType} (h : columnType op p env s = (.ok t, s')) :
    p.1.1.type.unify p.1.2.type = some t ∧ s' = s := by
  obtain ⟨⟨l, r⟩, i⟩ := p
  unfold columnType at h
  rcases hunify : l.type.unify r.type with _ | u
  · simp only [hunify, Step.fail_ok] at h
  · simp only [hunify, Step.pure_ok] at h
    obtain ⟨rfl, rfl⟩ := h
    exact ⟨rfl, rfl⟩

theorem unionColumn_ok {p : (ColumnInfo × ColumnInfo) × SqlType} {n : Nat} {c : UnionMapping × ColumnInfo}
    {m : Nat} (h : unionColumn p env n = (.ok c, m)) :
    (∃ label, c.2.carrier = ⟨n + 1, .stream label⟩) ∧ n + 1 ≤ m ∧
      c.1 = ⟨some p.1.1.carrier, some p.1.2.carrier, c.2.carrier⟩ ∧ c.2.type = p.2 := by
  obtain ⟨⟨l, r⟩, type⟩ := p
  simp only [unionColumn, Step.bind_ok, Analysis.stream_ok, Step.pure_ok] at h
  obtain ⟨v, k, ⟨rfl, rfl⟩, rfl, rfl⟩ := h
  exact ⟨⟨_, rfl⟩, Nat.le_refl _, rfl, rfl⟩

variable {Γ Γ' : Columns} {q : SetQuantifier} {ps : Pairing} {n m k : Nat}

theorem union_columns (hp : ps.Sound Γ Γ') {cs : List (UnionMapping × ColumnInfo)}
    (h : Step.each unionColumn ps env n = (.ok cs, m)) :
    n ≤ m ∧ Fresh n (cs.map fun c => c.2.carrier) m ∧
      (Operator.union q (cs.map (·.1))).columns .both [Γ, Γ'] =
        some (cs.map fun c => (c.2.carrier, c.2.type)) := by
  obtain ⟨hle, hfresh, hall⟩ := each_minted (fun c => c.2.carrier) (fun _ _ _ _ => unionColumn_ok) h
  refine ⟨hle, hfresh, mapM_map_eq_some fun c hc => ?_⟩
  obtain ⟨p, hpmem, hmapping, htype⟩ := exists_of_forall₂ hall c hc
  have hl := (hp.left.typed _ (List.mem_map_of_mem hpmem)).2
  have hr := hp.right p hpmem
  have hu := hp.unified p hpmem
  rw [hmapping, htype]
  simp [UnionMapping.type?, hl, hr, hu]

def Pairing.kept (ps : Pairing) : Columns := ps.map fun p => (p.1.1.carrier, p.2)

theorem keptColumns_eq (hp : ps.Sound Γ Γ') :
    keptColumns .both (ps.map fun p => (p.1.1.carrier, p.1.2.carrier)) Γ Γ' = some ps.kept := by
  refine mapM_map_eq_some fun p hpmem => ?_
  have hl := (hp.left.typed _ (List.mem_map_of_mem hpmem)).2
  have hr := hp.right p hpmem
  have hu := hp.unified p hpmem
  simp [Meet.both, hl, hr, hu]

theorem Pairing.Sound.kept_within (hp : ps.Sound Γ Γ') (hw : Γ.Within k n) : ps.kept.Within k n := by
  intro b hb
  obtain ⟨p, hpmem, rfl⟩ := List.mem_map.mp hb
  exact hp.left.within hw (p.1.1.carrier, p.1.1.type) (List.mem_map_of_mem hpmem)

theorem Pairing.Sound.kept_carries (hp : ps.Sound Γ Γ') : ps.kept.Carries ps.kept := by
  refine Columns.carries_of_distinct ?_ fun b hb => ?_
  · have hd := hp.left.distinct
    rw [Columns.Distinct, List.pairwise_map] at hd
    rw [Columns.Distinct, Pairing.kept, List.pairwise_map]
    exact hd
  · obtain ⟨p, hpmem, rfl⟩ := List.mem_map.mp hb
    exact (hp.left.typed (p.1.1.carrier, p.1.1.type) (List.mem_map_of_mem hpmem)).1

theorem operator_ok {pairs : List (ColumnInfo × ColumnInfo)} {types : List SqlType}
    (hlen : pairs.length = types.length) (hp : Pairing.Sound (pairs.zip types) Γ Γ') (hw : Γ.Within k n)
    (hk : k ≤ n) {operator : Operator} {columns : List ColumnInfo}
    (h : SetOperation.operator op q pairs types env n = (.ok (operator, columns), m)) :
    n ≤ m ∧ operator.subqueries = [] ∧ ∃ Γ₂ : Columns, operator.columns .both [Γ, Γ'] = some Γ₂ ∧
      Γ₂ = columns.map (fun c => (c.carrier, c.type)) ∧ Γ₂.Carries Γ₂ ∧ Γ₂.Within k m := by
  have hkeys : pairs.map (fun p => (p.1.carrier, p.2.carrier)) =
      (pairs.zip types).map fun p => (p.1.1.carrier, p.1.2.carrier) :=
    (map_zip_fst hlen fun p : ColumnInfo × ColumnInfo => (p.1.carrier, p.2.carrier)).symm
  have hkept : Pairing.kept (pairs.zip types) =
      ((pairs.zip types).map fun p => { p.1.1 with type := p.2 }).map fun c : ColumnInfo => (c.carrier, c.type) := by
    rw [Pairing.kept, List.map_map]
    rfl
  cases op with
  | union =>
    simp only [SetOperation.operator, Step.bind_ok, Step.pure_ok, Prod.mk.injEq] at h
    obtain ⟨cs, m, hcs, ⟨rfl, rfl⟩, rfl⟩ := h
    obtain ⟨hle, hfresh, hcolumns⟩ := union_columns (q := q) hp hcs
    have hfresh : Fresh n (Columns.carriers (cs.map fun c => (c.2.carrier, c.2.type))) m := by
      rwa [Columns.carriers, List.map_map]
    exact ⟨hle, by simp [Operator.subqueries], _, hcolumns, by rw [List.map_map]; rfl,
      Columns.carries_self hfresh, (Columns.within_of_fresh hfresh).mono hk (Nat.le_refl _)⟩
  | intersect | except =>
    simp only [SetOperation.operator, Step.pure_ok, Prod.mk.injEq] at h
    obtain ⟨⟨rfl, rfl⟩, rfl⟩ := h
    rw [hkeys]
    exact ⟨Nat.le_refl _, by simp [Operator.subqueries], _, keptColumns_eq hp, hkept, hp.kept_carries,
      hp.kept_within hw⟩

theorem pairing_sound {pairs : List (ColumnInfo × ColumnInfo)} {types : List SqlType}
    (hleft : pairs.map (·.1) = left.relation.exportedColumns)
    (hright : ∀ p ∈ pairs, p.2 ∈ right.relation.columns)
    (htypes : Forall₂ (fun p t => p.1.type.unify p.2.type = some t) pairs types)
    (hl : Γ.Carries left.relation.bindings) (hr : Γ'.Carries right.relation.bindings) :
    Pairing.Sound (pairs.zip types) Γ Γ' where
  left := by
    have hexported : (pairs.zip types).map (fun p => (p.1.1.carrier, p.1.1.type)) =
        left.relation.exportedColumns.map fun c => (c.carrier, c.type) := by
      rw [← hleft, map_zip_fst htypes.length_eq fun p : ColumnInfo × ColumnInfo => (p.1.carrier, p.1.type),
        List.map_map]
      rfl
    rw [hexported]
    exact hl.sublist (List.Sublist.map _ List.filter_sublist)
  right p hp := by
    have hmem := hright p.1 (List.of_mem_zip hp).1
    exact (hr.typed (p.1.2.carrier, p.1.2.type) (List.mem_map.mpr ⟨_, hmem, rfl⟩)).2
  unified p hp := (List.forall₂_iff_zip.mp htypes).2 hp

variable {d d₁ d₂ d₃ : Draft} {written : Option SetQuantifier} {p : Planned}

theorem plan_ok (h : plan op written left right env d = (.ok p, d₁)) :
    ∃ pairs types o columns, pairs.map (·.1) = left.relation.exportedColumns ∧
      (∀ p ∈ pairs, p.2 ∈ right.relation.columns) ∧
      Forall₂ (fun p t => p.1.type.unify p.2.type = some t) pairs types ∧
      operator op (quantifier written) pairs types env d.minted = (.ok (o, columns), d₁.minted) ∧
      p = ⟨⟨d.graph.size, 0⟩, { columns }⟩ ∧ d₁.graph = d.graph.insert o [left.output, right.output] 1 := by
  simp only [plan, Step.bind_ok, Planning.lift_ok, Planning.add_ok, Step.pure_ok, Prod.exists] at h
  obtain ⟨pairs, _, hpairs, types, _, htypes, o, columns, d₂, ⟨hoperator, hg₂⟩, _, _, ⟨rfl, hm, hg⟩, rfl, rfl⟩ := h
  obtain ⟨hleft, hright, rfl⟩ := pairs_ok hpairs
  obtain ⟨hindexed, rfl⟩ := each_keeps (fun _ _ _ _ => columnType_ok) htypes
  rw [hg₂] at hg ⊢
  refine ⟨pairs, types, o, columns, hleft, hright, ?_, hm ▸ hoperator, rfl, hg⟩
  rw [← List.zipIdx_map_fst 0 pairs]
  exact List.forall₂_map_left_iff.mpr hindexed

theorem plan_delivers (hl : Delivers d ⟨left.output, [left.relation]⟩ d₁)
    (hr : Delivers d₁ ⟨right.output, [right.relation]⟩ d₂)
    (h : plan op written left right env d₂ = (.ok p, d₃)) : Delivers d ⟨p.output, [p.relation]⟩ d₃ := by
  obtain ⟨pairs, types, o, columns, hleft, hright, hall, hoperator, rfl, hg⟩ := plan_ok h
  obtain ⟨Γ, hbl, hcl⟩ := hl
  obtain ⟨Γ', hbr, hcr⟩ := hr
  rw [bindings_singleton] at hcl hcr
  have hw := (hbl.within _ (List.mem_singleton_self _)).mono (Nat.le_refl _) hbr.minted_le
  have hle := Nat.le_trans hbl.minted_le hbr.minted_le
  obtain ⟨hle', hsub, Γ₂, hcolumns, hbindings, hcarries, hwithin⟩ :=
    operator_ok hall.length_eq (pairing_sound hleft hright hall hcl hcr) hw hle hoperator
  refine ⟨Γ₂, (hbl.trans hbr).binary hle' hg hcolumns hwithin hsub, ?_⟩
  rw [bindings_singleton]
  exact hbindings ▸ hcarries

end SetOperation

end SqlPlan
