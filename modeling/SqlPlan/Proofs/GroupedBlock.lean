import SqlPlan.Proofs.BlockClauses
import SqlPlan.Proofs.Regrouping

namespace SqlPlan

variable {ss : List Scalar} {a : Aggregation} {α : Type} {c c' : Clauses} {lo : Nat} {input output : Socket}
  {vs available : List Variable} {v : Variable}

open List (Forall₂)
open Scalar (Replaces listTypes)

variable {env : Environment}

def GroupingState.regrouping (s : GroupingState) : Regrouping := ⟨s.aggregation, s.minted, none⟩

namespace Aggregation

theorem addKeys_ok (keys : List Variable) (a : Aggregation) :
    (keys.foldl addKey a).locals = a.locals ∧ (keys.foldl addKey a).entries = a.entries ∧
      ∀ v ∈ (keys.foldl addKey a).keys, v ∈ a.keys ∨ v ∈ keys := by
  induction keys generalizing a with
  | nil => exact ⟨rfl, rfl, fun v hv => .inl hv⟩
  | cons key keys ih =>
    obtain ⟨hlocals, hentries, hkeys⟩ := ih (a.addKey key)
    refine ⟨hlocals, hentries, fun v hv => ?_⟩
    rcases hkeys v hv with hv | hv
    · by_cases hin : key.isIn a.keys = true
      · simp only [addKey, if_pos hin] at hv
        exact .inl hv
      · simp only [addKey, if_neg hin, List.mem_append, List.mem_singleton] at hv
        rcases hv with hv | rfl
        · exact .inl hv
        · exact .inr List.mem_cons_self
    · exact .inr (List.mem_cons_of_mem _ hv)

theorem regroups_from_keys {keys locals : List Variable} {ss' : List Scalar} {n m : Nat}
    (h : Regroups ss ⟨keys.foldl addKey { locals }, n, none⟩ ss' ⟨a, m, none⟩) :
    a.locals = locals ∧ (∀ v ∈ a.keys, v ∈ keys) ∧ n ≤ m ∧ Fresh n (a.entries.map (·.destination)) m ∧
      ∀ Γ : ColumnTypes, (∀ s ∈ ss, s.Typeable Γ) →
        ∀ e ∈ a.entries, ∃ ts, listTypes Γ [] e.arguments = some ts := by
  obtain ⟨hlocals, hentries, hkeys⟩ := addKeys_ok keys { locals }
  have hgrows := h.grows
  obtain ⟨more, hmore, hfresh, -⟩ := hgrows.entries
  have hmore : a.entries = more := hmore.trans (by simp [hentries])
  refine ⟨hgrows.locals.trans hlocals, fun v hv => ?_, hgrows.minted_le, hmore ▸ hfresh, ?_⟩
  · exact (hkeys v (hgrows.keys ▸ hv)).resolve_left List.not_mem_nil
  · intro Γ hs e he
    refine (h.entries_typeable hs e he).resolve_left fun he => ?_
    simp [hentries] at he

theorem regroup_ok {location : Option Span} {s s' : Scalar} {g g' : GroupingState}
    (h : Aggregation.regroup location s env g = (.ok s', g')) :
    Regroups [s] g.regrouping [s'] g'.regrouping := by
  unfold Aggregation.regroup process at h
  rcases hr : s.regroup location ⟨g.aggregation, g.minted, none⟩ with ⟨t, a, k, _ | problem⟩
  · have hok := Scalar.regroup_ok location s g.regrouping
    simp only [GroupingState.regrouping, hr] at hok h
    cases h
    exact (hok trivial).2
  · simp [hr] at h

theorem run_ok {a' : Aggregation} {m : Grouping α} {x : α} {d d' : Draft} (h : a.run m env d = (.ok (x, a'), d')) :
    m env ⟨d.minted, a⟩ = (.ok x, ⟨d'.minted, a'⟩) ∧ d'.graph = d.graph := by
  unfold run at h
  rcases hm : m env ⟨d.minted, a⟩ with ⟨o, k, c⟩
  rw [hm] at h
  obtain ⟨ho, rfl⟩ := Prod.mk.inj h
  obtain ⟨y, rfl, hy⟩ := Outcome.map_eq_ok.mp ho
  cases hy
  exact ⟨rfl, rfl⟩

end Aggregation

theorem collect_regroups {f : α → Grouping α} (parts : α → List Scalar)
    {P : (Scalar → Scalar → Prop) → α → α → Prop}
    (hf : ∀ x g x' g', f x env g = (.ok x', g') → Regroups (parts x) g.regrouping (parts x') g'.regrouping ∧
      ∀ R, Forall₂ R (parts x) (parts x') → P R x x') {xs xs' : List α} {g g' : GroupingState}
    (h : Step.collect (xs.map f) env g = (.ok xs', g')) :
    Regroups (xs.flatMap parts) g.regrouping (xs'.flatMap parts) g'.regrouping ∧
      ∀ Γ Γ', g'.aggregation.Context Γ Γ' → Forall₂ (P (Replaces Γ Γ')) xs xs' := by
  induction xs generalizing xs' g with
  | nil =>
    obtain ⟨rfl, rfl⟩ := Step.collect_nil_ok.mp h
    exact ⟨.nil _, fun _ _ _ => .nil⟩
  | cons x xs ih =>
    obtain ⟨x', xs', g₁, rfl, hx, hxs⟩ := Step.collect_cons_ok.mp h
    obtain ⟨hparts, hp⟩ := hf x g x' g₁ hx
    obtain ⟨hrest, hps⟩ := ih hxs
    refine ⟨hparts.append hrest, fun Γ Γ' hΓ => ?_⟩
    have hΓ₁ : g₁.aggregation.Context Γ Γ' := hrest.grows.context hΓ
    exact .cons (hp _ (hparts.replaces hΓ₁)) (hps Γ Γ' hΓ)

namespace Block

def SortTarget.exprs : SortTarget → List Scalar
  | .output _ => []
  | .expr e => [e]

def Clauses.exprs (c : Clauses) : List Scalar :=
  (c.columns.flatMap fun x => [x.value]) ++
    ((c.having.toList.flatMap fun x => [x.1]) ++ c.sorts.flatMap fun s => SortTarget.exprs s.target)

def SortTarget.Typed (Γ : ColumnTypes) (width : Nat) : SortTarget → Prop
  | .output position => position < width
  | .expr e => ∃ t, e.HasType Γ t

structure Clauses.Typed (Γ : ColumnTypes) (c : Clauses) : Prop where
  columns : ∀ x ∈ c.columns, x.value.HasType Γ x.type
  having : ∀ x ∈ c.having, ∃ t, x.1.HasType Γ t
  sorts : ∀ s ∈ c.sorts, SortTarget.Typed Γ c.columns.length s.target

theorem Clauses.Resolved.typed {b : Block} {c : Clauses} (h : c.Resolved env b) {Γ : ColumnTypes}
    (hΓ : Γ.Has b.scopes.visible) : c.Typed Γ where
  columns x hx := (h.columns x hx).hasType hΓ
  having x hx := by
    obtain ⟨t, ht⟩ := h.having x hx
    exact ⟨t, ht.hasType hΓ⟩
  sorts s hs := by
    have hresolved := h.sorts s hs
    rcases htarget : s.target with position | e
    · rw [htarget] at hresolved
      exact hresolved
    · rw [htarget] at hresolved
      obtain ⟨t, ht⟩ := hresolved
      exact ⟨t, ht.hasType hΓ⟩

theorem Clauses.Typed.typeable {Γ : ColumnTypes} (h : c.Typed Γ) : ∀ s ∈ c.exprs, s.Typeable Γ := by
  intro s hs
  simp only [exprs, List.mem_append, List.mem_flatMap, List.mem_singleton, Option.mem_toList] at hs
  rcases hs with ⟨x, hx, rfl⟩ | ⟨x, hx, rfl⟩ | ⟨x, hx, hs⟩
  · exact ⟨[], x.type, h.columns x hx []⟩
  · obtain ⟨t, ht⟩ := h.having x hx
    exact ⟨[], t, ht []⟩
  · have htyped := h.sorts x hx
    rcases htarget : x.target with position | e
    · simp [htarget, SortTarget.exprs] at hs
    · rw [htarget] at htyped hs
      obtain ⟨t, ht⟩ := htyped
      obtain rfl := List.mem_singleton.mp hs
      exact ⟨[], t, ht []⟩

variable {g g' : GroupingState}

theorem regroupColumn_ok {c : SelectColumn} {g : GroupingState} {c' : SelectColumn} {g' : GroupingState}
    (h : regroupColumn c env g = (.ok c', g')) :
    Regroups [c.value] g.regrouping [c'.value] g'.regrouping ∧
      ∀ R, Forall₂ R [c.value] [c'.value] → R c.value c'.value ∧ c'.type = c.type := by
  simp only [regroupColumn, Step.bind_ok, Step.pure_ok] at h
  obtain ⟨value, _, hvalue, rfl, rfl⟩ := h
  refine ⟨Aggregation.regroup_ok hvalue, fun R hR => ?_⟩
  cases hR with
  | cons hr _ => exact ⟨hr, rfl⟩

theorem regroupCondition_ok {c : Scalar × Option Span} {g : GroupingState} {c' : Scalar × Option Span}
    {g' : GroupingState} (h : regroupCondition c env g = (.ok c', g')) :
    Regroups [c.1] g.regrouping [c'.1] g'.regrouping ∧ ∀ R, Forall₂ R [c.1] [c'.1] → R c.1 c'.1 := by
  simp only [regroupCondition, Step.bind_ok, Step.pure_ok] at h
  obtain ⟨value, _, hvalue, rfl, rfl⟩ := h
  refine ⟨Aggregation.regroup_ok hvalue, fun R hR => ?_⟩
  cases hR with
  | cons hr _ => exact hr

inductive SortTarget.Corresponds (R : Scalar → Scalar → Prop) : SortTarget → SortTarget → Prop where
  | output (position : Nat) : Corresponds R (.output position) (.output position)
  | expr {e e' : Scalar} : R e e' → Corresponds R (.expr e) (.expr e')

theorem regroupSort_ok {s : SortRequest} {g : GroupingState} {s' : SortRequest} {g' : GroupingState}
    (h : regroupSort s env g = (.ok s', g')) :
    Regroups (SortTarget.exprs s.target) g.regrouping (SortTarget.exprs s'.target) g'.regrouping ∧
      ∀ R, Forall₂ R (SortTarget.exprs s.target) (SortTarget.exprs s'.target) →
        SortTarget.Corresponds R s.target s'.target := by
  unfold regroupSort at h
  rcases htarget : s.target with position | e
  · simp only [htarget, Step.pure_ok] at h
    obtain ⟨rfl, rfl⟩ := h
    rw [htarget]
    exact ⟨.nil _, fun R _ => .output position⟩
  · simp only [htarget, Step.bind_ok, Step.pure_ok] at h
    obtain ⟨value, _, hvalue, rfl, rfl⟩ := h
    refine ⟨Aggregation.regroup_ok hvalue, fun R hR => ?_⟩
    cases hR with
    | cons hr _ => exact .expr hr

theorem collect_of_optional {σ β : Type} {f : α → Step σ β} {o : Option α} {r : Option β} {s s' : σ}
    (h : optional f o env s = (.ok r, s')) : Step.collect (o.toList.map f) env s = (.ok r.toList, s') := by
  rcases optional_ok h with ⟨rfl, rfl, rfl⟩ | ⟨a, y, rfl, rfl, hy⟩
  · exact Step.collect_nil_ok.mpr ⟨rfl, rfl⟩
  · exact Step.collect_cons_ok.mpr ⟨y, [], s', rfl, hy, Step.collect_nil_ok.mpr ⟨rfl, rfl⟩⟩

theorem regroup_ok (h : regroup c env g = (.ok c', g')) :
    Regroups c.exprs g.regrouping c'.exprs g'.regrouping ∧
      ∀ Γ Γ', g'.aggregation.Context Γ Γ' → c.Typed Γ → c'.Typed Γ' := by
  simp only [regroup, Step.bind_ok, Step.both_ok, Step.pure_ok, Prod.exists] at h
  obtain ⟨columns, having, sorts, _, ⟨g₁, hcolumns, g₂, hhaving, hsorts⟩, rfl, rfl⟩ := h
  obtain ⟨hcolumns, hcs⟩ := collect_regroups _ (fun _ _ _ _ => regroupColumn_ok) hcolumns
  obtain ⟨hhaving, hhs⟩ :=
    collect_regroups _ (fun _ _ _ _ => regroupCondition_ok) (collect_of_optional hhaving)
  obtain ⟨hsorts, hss⟩ := collect_regroups _ (fun _ _ _ _ => regroupSort_ok) hsorts
  refine ⟨hcolumns.append (hhaving.append hsorts), fun Γ Γ' hΓ htyped => ?_⟩
  -- What holds for the columns at the end held when each clause was regrouped.
  have hΓ₂ : g₂.aggregation.Context Γ Γ' := hsorts.grows.context hΓ
  have hΓ₁ : g₁.aggregation.Context Γ Γ' := hhaving.grows.context hΓ₂
  have hcs := hcs Γ Γ' hΓ₁
  refine ⟨fun x' hx' => ?_, fun x' hx' => ?_, fun s' hs' => ?_⟩
  · obtain ⟨x, hx, hreplaces, htype⟩ := exists_of_forall₂ hcs x' hx'
    intro Δ
    rw [htype]
    exact hreplaces Δ x.type (htyped.columns x hx Δ)
  · obtain ⟨x, hx, hreplaces⟩ := exists_of_forall₂ (hhs Γ Γ' hΓ₂) x' (Option.mem_toList.mpr hx')
    obtain ⟨t, ht⟩ := htyped.having x (Option.mem_toList.mp hx)
    exact ⟨t, fun Δ => hreplaces Δ t (ht Δ)⟩
  · obtain ⟨s, hs, hcorresponds⟩ := exists_of_forall₂ (hss Γ Γ' hΓ) s' hs'
    have hsort := htyped.sorts s hs
    rw [hcs.length_eq] at hsort
    generalize s.target = target at hcorresponds hsort
    generalize s'.target = target' at hcorresponds ⊢
    cases hcorresponds with
    | output position => exact hsort
    | expr hreplaces =>
      obtain ⟨t, ht⟩ := hsort
      exact ⟨t, fun Δ => hreplaces Δ t (ht Δ)⟩

/-- Sort keys that stand for a column of the result by its position do so. -/
def Clauses.InRange (c : Clauses) : Prop :=
  ∀ s ∈ c.sorts, ∀ i, s.target = .output i → i < c.columns.length

theorem Clauses.Resolved.inRange {b : Block} (h : c.Resolved env b) : c.InRange := by
  intro s hs i hi
  have hresolved := h.sorts s hs
  rw [hi] at hresolved
  exact hresolved

/-- What grouping leaves as it is. -/
structure Clauses.Keeps (c c' : Clauses) : Prop where
  width : c'.columns.length = c.columns.length
  having : c'.having.isSome = c.having.isSome
  limit : c'.limit = c.limit
  sorts : Forall₂ (fun s s' => s'.order = s.order ∧ ∀ i, s'.target = .output i → s.target = .output i) c.sorts
    c'.sorts

theorem regroupSort_keeps {s s' : SortRequest} (h : regroupSort s env g = (.ok s', g')) :
    s'.order = s.order ∧ ∀ i, s'.target = .output i → s.target = .output i := by
  unfold regroupSort at h
  cases htarget : s.target with
  | output position =>
    simp only [htarget, Step.pure_ok] at h
    obtain ⟨rfl, -⟩ := h
    exact ⟨rfl, fun i hi => htarget.symm.trans hi⟩
  | expr e =>
    simp only [htarget, Step.bind_ok, Step.pure_ok] at h
    obtain ⟨value, _, -, rfl, -⟩ := h
    exact ⟨rfl, fun i hi => by cases hi⟩

theorem regroup_keeps (h : regroup c env g = (.ok c', g')) : c.Keeps c' := by
  simp only [regroup, Step.bind_ok, Step.both_ok, Step.pure_ok, Prod.exists] at h
  obtain ⟨columns, having, sorts, _, ⟨g₁, hcolumns, g₂, hhaving, hsorts⟩, rfl, rfl⟩ := h
  refine ⟨(collect_forall₂ hcolumns).length_eq.symm, optional_isSome hhaving, rfl, ?_⟩
  refine (collect_forall₂ hsorts).imp fun s s' hs => ?_
  obtain ⟨g, g', hs⟩ := hs
  exact regroupSort_keeps hs

theorem Clauses.Keeps.inRange (h : c.Keeps c') (hc : c.InRange) : c'.InRange := by
  intro s hs i hi
  obtain ⟨s₀, hs₀, -, htarget⟩ := exists_of_forall₂ h.sorts s hs
  rw [h.width]
  exact hc s₀ hs₀ i (htarget i hi)

end Block

/-- Computed columns with their types: new ones, each with the type of its expression. -/
structure Computes (Γ : ColumnTypes) (n : Nat) (computed : List (Variable × Scalar)) (C : Columns)
    (m : Nat) : Prop where
  minted_le : n ≤ m
  types : computed.mapM (fun p => (p.2.typeIn Γ []).map (p.1, ·)) = some C
  fresh : Fresh n C.carriers m

namespace Computes

variable {Γ : ColumnTypes} {computed computed' : List (Variable × Scalar)} {C C' : Columns} {n k m : Nat}

theorem nil (Γ : ColumnTypes) (n : Nat) : Computes Γ n [] [] n := ⟨Nat.le_refl _, rfl, .nil _ _⟩

theorem single {label : Option String} {s : Scalar} {t : SqlType} (h : s.typeIn Γ [] = some t) :
    Computes Γ n [(⟨n + 1, .stream label⟩, s)] [(⟨n + 1, .stream label⟩, t)] (n + 1) where
  minted_le := Nat.le_succ n
  types := by simp [h]
  fresh := .cons (Nat.le_refl _) (.nil _ _)

theorem mono {n' m' : Nat} (hn : n' ≤ n) (hm : m ≤ m') (h : Computes Γ n computed C m) :
    Computes Γ n' computed C m' :=
  ⟨Nat.le_trans hn (Nat.le_trans h.minted_le hm), h.types, h.fresh.mono hn hm⟩

theorem append (h : Computes Γ n computed C k) (h' : Computes Γ k computed' C' m) :
    Computes Γ n (computed ++ computed') (C ++ C') m where
  minted_le := Nat.le_trans h.minted_le h'.minted_le
  types := by
    rw [List.mapM_append, h.types, h'.types]
    rfl
  fresh := by
    rw [Columns.carriers, List.map_append]
    exact h.fresh.append h'.fresh h.minted_le h'.minted_le

theorem project_columns {Γ : Columns} (h : Computes Γ.type? n computed C m) (hΓ : Γ.Within lo n) :
    (Operator.project computed).columns .both [Γ] = some (Γ ++ C) ∧
      (∀ p ∈ C, Columns.type? (Γ ++ C) p.1 = some p.2) := by
  constructor
  · have htypes := h.types
    simp only [Operator.columns, Option.bind_eq_bind]
    rw [htypes]
    rfl
  · intro p hp
    have hmem : p.1 ∈ C.carriers := List.mem_map_of_mem hp
    have hs := h.fresh.stream p.1 hmem
    rw [Columns.type?_append_right hΓ hs (.inl (h.fresh.above p.1 hmem))]
    exact Columns.type?_of_mem (Columns.distinct_of_fresh h.fresh) hp

theorem within {Γ : Columns} (h : Computes Γ.type? n computed C m) (hΓ : Γ.Within lo n) (hlo : lo ≤ n) :
    Columns.Within lo (Γ ++ C) m :=
  (hΓ.mono (Nat.le_refl _) h.minted_le).append
    ((Columns.within_of_fresh h.fresh).mono hlo (Nat.le_refl _))

end Computes

variable {d d₁ d₂ : Draft}

theorem Block.addIf_cases {needed : Bool} {operator : Operator}
    (h : addIf needed operator input env d₁ = (.ok output, d₂)) :
    needed = false ∧ input = output ∧ d₁ = d₂ ∨ needed = true ∧ output = ⟨d₁.graph.size, 0⟩ ∧
      d₂.minted = d₁.minted ∧ d₂.graph = d₁.graph.insert operator [input] 1 := by
  cases needed with
  | false => exact .inl ⟨rfl, Step.pure_ok.mp h⟩
  | true =>
    simp only [addIf, if_pos, Planning.add_ok] at h
    exact .inr ⟨rfl, h⟩

theorem Block.addIf_project {needed : Bool} {computed : List (Variable × Scalar)} {Γ C : Columns} {n : Nat}
    (hb : Builds d [(input, Γ)] d₁) (hΓ : Γ.Within d.minted n) (hn : d.minted ≤ n)
    (hC : Computes Γ.type? n computed C d₁.minted) (hneeded : needed = false → computed = [])
    (h : addIf needed (.project computed) input env d₁ = (.ok output, d₂)) :
    Builds d [(output, Γ ++ C)] d₂ ∧ d₂.minted = d₁.minted := by
  rcases addIf_cases h with ⟨rfl, rfl, rfl⟩ | ⟨-, rfl, hm, hg⟩
  · obtain rfl := hneeded rfl
    obtain rfl : C = [] := (Option.some.inj hC.types).symm
    rw [List.append_nil]
    exact ⟨hb, rfl⟩
  · refine ⟨?_, hm⟩
    refine hb.unary (Nat.le_of_eq hm.symm) hg (hC.project_columns hΓ).1 ?_ (by simp [Operator.subqueries])
    rw [hm]
    exact hC.within hΓ hn

namespace Aggregation

theorem argumentColumns_ok {Γ : ColumnTypes} {ts : List SqlType} (ht : listTypes Γ [] ss = some ts)
    {computed : List (Variable × Scalar)} {n m : Nat} (h : argumentColumns ss env n = (.ok (vs, computed), m)) :
    ∃ C, Computes Γ n computed C m ∧ ∀ Γ' : ColumnTypes, Γ.Le Γ' → (∀ p ∈ C, Γ' p.1 = some p.2) →
      listTypes Γ' [] (vs.map .var) = some ts := by
  induction ss generalizing ts vs computed n with
  | nil =>
    simp only [argumentColumns, Step.pure_ok, Prod.mk.injEq] at h
    obtain ⟨⟨rfl, rfl⟩, rfl⟩ := h
    exact ⟨[], .nil Γ n, fun Γ' _ _ => ht⟩
  | cons s ss ih =>
    simp only [listTypes, Option.bind_eq_bind, Option.bind_eq_some_iff] at ht
    obtain ⟨t, hs, ts, hss, ht⟩ := ht
    cases ht
    rcases hvar : s.asVariable? with _ | v
    · simp only [argumentColumns, hvar, Step.bind_ok, Analysis.stream_ok, Step.pure_ok, Prod.exists,
        Prod.mk.injEq] at h
      obtain ⟨_, _, ⟨rfl, rfl⟩, vs, computed, _, hrest, ⟨rfl, rfl⟩, rfl⟩ := h
      obtain ⟨C, hcomputes, harguments⟩ := ih hss hrest
      refine ⟨_, (Computes.single hs).append hcomputes, fun Γ' hle hC => ?_⟩
      obtain ⟨hhead, htail⟩ := List.forall_mem_cons.mp hC
      simp [listTypes, Scalar.typeIn, Variable.typeIn, hhead, harguments Γ' hle htail]
    · simp only [argumentColumns, hvar, Step.bind_ok, Step.pure_ok, Prod.exists, Prod.mk.injEq] at h
      obtain ⟨vs, computed, _, hrest, ⟨rfl, rfl⟩, rfl⟩ := h
      obtain ⟨C, hcomputes, harguments⟩ := ih hss hrest
      obtain rfl := Scalar.eq_var_of_asVariable? hvar
      refine ⟨C, hcomputes, fun Γ' hle hC => ?_⟩
      have hv := Scalar.replaces_of_le hle (.var v) [] t hs
      simp [listTypes, hv, harguments Γ' hle hC]

theorem aggregateColumns_ok {Γ : ColumnTypes} {entries : List AggregateEntry}
    (ht : ∀ e ∈ entries, ∃ ts, listTypes Γ [] e.arguments = some ts) {columns : List AggregateColumn}
    {computed : List (Variable × Scalar)} {n m : Nat}
    (h : aggregateColumns entries env n = (.ok (columns, computed), m)) :
    ∃ C, Computes Γ n computed C m ∧ ∀ Γ' : ColumnTypes, Γ.Le Γ' → (∀ p ∈ C, Γ' p.1 = some p.2) →
      columns.mapM (fun c => (listTypes Γ' [] (c.arguments.map .var)).map fun _ =>
        (c.destination, c.function.result)) =
      some (entries.map fun e => (e.destination, e.function.result)) := by
  induction entries generalizing columns computed n with
  | nil =>
    simp only [aggregateColumns, Step.pure_ok, Prod.mk.injEq] at h
    obtain ⟨⟨rfl, rfl⟩, rfl⟩ := h
    exact ⟨[], .nil Γ n, fun Γ' _ _ => rfl⟩
  | cons e entries ih =>
    simp only [aggregateColumns, Step.bind_ok, Step.pure_ok, Prod.exists, Prod.mk.injEq] at h
    obtain ⟨arguments, computed, _, harguments, columns, more, _, hrest, ⟨rfl, rfl⟩, rfl⟩ := h
    obtain ⟨⟨ts, hts⟩, ht⟩ := List.forall_mem_cons.mp ht
    obtain ⟨C, hC, htypes⟩ := argumentColumns_ok hts harguments
    obtain ⟨C', hC', hcolumns⟩ := ih ht hrest
    refine ⟨C ++ C', hC.append hC', fun Γ' hle hall => ?_⟩
    obtain ⟨hleft, hright⟩ := List.forall_mem_append.mp hall
    simp [htypes Γ' hle hleft, hcolumns Γ' hle hright]

/-- Arguments that are variables are passed as they are, and the others are computed into new columns. -/
theorem argumentColumns_cases {computed : List (Variable × Scalar)} {n m : Nat}
    (h : argumentColumns ss env n = (.ok (vs, computed), m)) :
    n ≤ m ∧ Fresh n (computed.map (·.1)) m ∧ (!computed.isEmpty) = ss.any (fun s => s.asVariable?.isNone) ∧
      Forall₂ (fun s v => s.asVariable? = some v ∨ s.asVariable? = none ∧ v.isStream = true) ss vs := by
  induction ss generalizing vs computed n with
  | nil =>
    simp only [argumentColumns, Step.pure_ok, Prod.mk.injEq] at h
    obtain ⟨⟨rfl, rfl⟩, rfl⟩ := h
    exact ⟨Nat.le_refl _, .nil _ _, rfl, .nil⟩
  | cons s ss ih =>
    cases hvar : s.asVariable? with
    | none =>
      simp only [argumentColumns, hvar, Step.bind_ok, Analysis.stream_ok, Step.pure_ok, Prod.exists,
        Prod.mk.injEq] at h
      obtain ⟨_, _, ⟨rfl, rfl⟩, vs, computed, _, hrest, ⟨rfl, rfl⟩, rfl⟩ := h
      obtain ⟨hle, hfresh, -, hvs⟩ := ih hrest
      exact ⟨by omega, .cons hle hfresh, by simp [hvar], .cons (.inr ⟨hvar, rfl⟩) hvs⟩
    | some v =>
      simp only [argumentColumns, hvar, Step.bind_ok, Step.pure_ok, Prod.exists, Prod.mk.injEq] at h
      obtain ⟨vs, computed, _, hrest, ⟨rfl, rfl⟩, rfl⟩ := h
      obtain ⟨hle, hfresh, hcomputed, hvs⟩ := ih hrest
      exact ⟨hle, hfresh, by simp [hvar, hcomputed], .cons (.inl hvar) hvs⟩

theorem aggregateColumns_cases {entries : List AggregateEntry} {columns : List AggregateColumn}
    {computed : List (Variable × Scalar)} {n m : Nat}
    (h : aggregateColumns entries env n = (.ok (columns, computed), m)) :
    n ≤ m ∧ Fresh n (computed.map (·.1)) m ∧
      (!computed.isEmpty) = entries.any (fun e => e.arguments.any fun s => s.asVariable?.isNone) ∧
      Forall₂ (fun e c => c.destination = e.destination ∧
        Forall₂ (fun s v => s.asVariable? = some v ∨ s.asVariable? = none ∧ v.isStream = true) e.arguments
          c.arguments) entries columns := by
  induction entries generalizing columns computed n with
  | nil =>
    simp only [aggregateColumns, Step.pure_ok, Prod.mk.injEq] at h
    obtain ⟨⟨rfl, rfl⟩, rfl⟩ := h
    exact ⟨Nat.le_refl _, .nil _ _, rfl, .nil⟩
  | cons e entries ih =>
    simp only [aggregateColumns, Step.bind_ok, Step.pure_ok, Prod.exists, Prod.mk.injEq] at h
    obtain ⟨arguments, first, _, harguments, columns, more, _, hrest, ⟨rfl, rfl⟩, rfl⟩ := h
    obtain ⟨hle, hfresh, hfirst, hvs⟩ := argumentColumns_cases harguments
    obtain ⟨hle', hfresh', hmore, hcolumns⟩ := ih hrest
    refine ⟨Nat.le_trans hle hle', ?_, ?_, .cons ⟨rfl, hvs⟩ hcolumns⟩
    · rw [List.map_append]
      exact hfresh.append hfresh' hle hle'
    · rw [List.any_cons, ← hfirst, ← hmore]
      cases first <;> simp

theorem install_ok (h : a.install input env d₁ = (.ok output, d₂)) :
    ∃ columns computed d₃ o d₄,
      aggregateColumns a.entries env d₁.minted = (.ok (columns, computed), d₃.minted) ∧
      d₃.graph = d₁.graph ∧
      Block.addIf (!computed.isEmpty) (.project computed) input env d₃ = (.ok o, d₄) ∧
      output = ⟨d₄.graph.size, 0⟩ ∧ d₂.minted = d₄.minted ∧
      d₂.graph = d₄.graph.insert (.aggregate a.keys columns) [o] 1 := by
  simp only [install, Step.bind_ok, Planning.lift_ok, Planning.add_ok, Step.ite_ok, Step.pure_ok,
    Prod.exists] at h
  obtain ⟨columns, computed, d₃, ⟨hcolumns, hg₃⟩, h⟩ := h
  refine ⟨columns, computed, d₃, ?_⟩
  rcases h with ⟨hempty, o, d₄, ⟨rfl, rfl⟩, h⟩ | ⟨hne, o, d₄, hadd, h⟩
  · refine ⟨input, d₃, hcolumns, hg₃, ?_, h⟩
    simp [Block.addIf, hempty]
  · refine ⟨o, d₄, hcolumns, hg₃, ?_, h⟩
    simpa [Block.addIf, hne] using hadd

theorem install_delivers {Γ : Columns} {n : Nat} (hb : Builds d [(input, Γ)] d₁) (hΓ : Γ.Within d.minted n)
    (hn : d.minted ≤ n) (hfresh : Fresh n (a.entries.map (·.destination)) d₁.minted) (hn₁ : n ≤ d₁.minted)
    (hkeys : ∀ v ∈ a.keys, v.isStream = true ∧ ∃ t, Γ.type? v = some t)
    (hentries : ∀ e ∈ a.entries, ∃ ts, listTypes Γ.type? [] e.arguments = some ts)
    (h : a.install input env d₁ = (.ok output, d₂)) :
    ∃ Γ' : Columns, Builds d [(output, Γ')] d₂ ∧
      (∀ v t, v.isStream = true → Γ.type? v = some t → v.isIn a.keys = true → Γ'.type? v = some t) ∧
      ∀ e ∈ a.entries, e.destination.isStream = true ∧ Γ'.type? e.destination = some e.function.result := by
  obtain ⟨columns, computed, d₃, o, d₄, hcolumns, hg₃, ho, rfl, hm, hg⟩ := install_ok h
  obtain ⟨C, hC, htypes⟩ := aggregateColumns_ok hentries hcolumns
  have hΓ₁ : Γ.Within d.minted d₁.minted := hΓ.mono (Nat.le_refl _) hn₁
  obtain ⟨hb₄, hm₄⟩ := Block.addIf_project (hb.mint hC.minted_le hg₃) hΓ₁ hb.minted_le hC (by simp) ho
  have hle : Γ.type?.Le (Columns.type? (Γ ++ C)) := fun v t ht => Columns.type?_append_left ht
  have hwithin : Columns.Within d.minted (Γ ++ C) d₃.minted := hC.within hΓ₁ hb.minted_le
  have hcomputed := htypes _ hle (hC.project_columns hΓ₁).2
  obtain ⟨G, hselect, hcarriers, hG, hGtypes⟩ := Columns.select_ok hwithin fun v hv => by
    obtain ⟨hs, t, ht⟩ := hkeys v hv
    exact ⟨hs, t, hle v t ht⟩
  -- The keys are older than the columns of the calls.
  have hGold : G.Within d.minted n := by
    intro p hp
    have hkey : p.1 ∈ a.keys := hcarriers ▸ List.mem_map_of_mem hp
    obtain ⟨hs, t, ht⟩ := hkeys p.1 hkey
    exact ⟨hs, Columns.within_of_type? hΓ hs ht⟩
  have hD : Fresh n (Columns.carriers (a.entries.map fun e => (e.destination, e.function.result)))
      d₁.minted := by
    rwa [Columns.carriers, List.map_map]
  refine ⟨G ++ a.entries.map fun e => (e.destination, e.function.result), ?_, ?_, ?_⟩
  · refine hb₄.unary (Nat.le_of_eq hm.symm) hg ?_ ?_ (by simp [Operator.subqueries])
    · simp [Operator.columns, hselect, hcomputed]
    · rw [hm, hm₄]
      refine (hG.append ?_)
      exact (Columns.within_of_fresh hD).mono hn hC.minted_le
  · intro v t hs ht hin
    exact Columns.type?_append_left ((hGtypes v hs hin).trans (hle v t ht))
  · intro e he
    have hmem : e.destination ∈ a.entries.map (·.destination) := List.mem_map_of_mem he
    have hs := hfresh.stream _ hmem
    refine ⟨hs, ?_⟩
    rw [Columns.type?_append_right hGold hs (.inl (hfresh.above _ hmem))]
    exact Columns.type?_of_mem (Columns.distinct_of_fresh hD) (List.mem_map.mpr ⟨e, he, rfl⟩)

end Aggregation

namespace Block

def restrict (Γ : ColumnTypes) (vs : List Variable) : ColumnTypes := fun v => if v.isIn vs then Γ v else none

theorem restrict_eq_some {Γ : ColumnTypes} {t : SqlType} :
    restrict Γ vs v = some t ↔ v.isIn vs = true ∧ Γ v = some t :=
  Option.ite_none_right_eq_some

variable {b : Block} {Γ : Columns}

theorem mem_locals {c : ColumnInfo} (hc : c ∈ b.relations.flatMap (·.columns)) : c.carrier ∈ b.locals := by
  obtain ⟨r, hr, hc⟩ := List.mem_flatMap.mp hc
  exact List.mem_flatMap.mpr ⟨r, hr, List.mem_map_of_mem hc⟩

theorem exists_column_of_mem_locals (hv : v ∈ b.locals) : ∃ c ∈ b.relations.flatMap (·.columns), v = c.carrier := by
  obtain ⟨r, hr, hv⟩ := List.mem_flatMap.mp hv
  obtain ⟨c, hc, rfl⟩ := List.mem_map.mp hv
  exact ⟨c, List.mem_flatMap.mpr ⟨r, hr, hc⟩, rfl⟩

theorem group_inactive (hactive : c.active = false)
    (h : b.group c input env d₁ = (.ok (c', output, available), d₂)) :
    c = c' ∧ input = output ∧ b.locals = available ∧ d₁ = d₂ := by
  simpa only [group, hactive, Bool.false_eq_true, if_false, Step.pure_ok, Prod.mk.injEq, and_assoc] using h

theorem group_active (hactive : c.active = true) (h : b.group c input env d₁ = (.ok (c', output, available), d₂)) :
    ∃ d₃ a, regroup c env ⟨d₁.minted, c.keys.foldl Aggregation.addKey { locals := b.locals }⟩ =
        (.ok c', ⟨d₃.minted, a⟩) ∧ d₃.graph = d₁.graph ∧
      a.install input env d₃ = (.ok output, d₂) ∧ available = a.outputs := by
  simp only [group, hactive, if_pos, Step.bind_ok, Step.pure_ok, Prod.exists, Prod.mk.injEq] at h
  obtain ⟨c', a, d₃, hrun, o, _, hinstall, ⟨rfl, rfl, rfl⟩, rfl⟩ := h
  obtain ⟨hregroup, hg⟩ := Aggregation.run_ok hrun
  exact ⟨d₃, a, hregroup, hg, hinstall, rfl⟩

theorem group_keeps (h : b.group c input env d₁ = (.ok (c', output, available), d₂)) : c.Keeps c' := by
  cases hactive : c.active with
  | false =>
    obtain ⟨rfl, -, -, -⟩ := group_inactive hactive h
    exact ⟨rfl, rfl, rfl, List.forall₂_same.mpr fun s _ => ⟨rfl, fun _ hi => hi⟩⟩
  | true =>
    obtain ⟨d₃, a, hregroup, -, -, -⟩ := group_active hactive h
    exact regroup_keeps hregroup

theorem group_delivers (hb : Builds d [(input, Γ)] d₁)
    (hvisible : b.scopes.visible = b.relations.flatMap (·.columns)) (hcarries : Γ.Carries (bindings b.relations))
    (hc : c.Resolved env b) (h : b.group c input env d₁ = (.ok (c', output, available), d₂)) :
    ∃ Γ' : Columns, Builds d [(output, Γ')] d₂ ∧ c'.Typed Γ'.type? ∧
      ∀ v ∈ available, v.isStream = true ∧ ∃ t, Γ'.type? v = some t := by
  have hhas : Γ.type?.Has b.scopes.visible := hvisible ▸ hcarries.has
  rcases hactive : c.active with _ | _
  · obtain ⟨rfl, rfl, rfl, rfl⟩ := group_inactive hactive h
    refine ⟨Γ, hb, hc.typed hhas, fun v hv => ?_⟩
    obtain ⟨col, hcol, rfl⟩ := exists_column_of_mem_locals hv
    obtain ⟨hs, ht⟩ := hcarries.has col hcol
    exact ⟨hs, col.type, ht⟩
  · obtain ⟨d₃, a, hregroup, hg, hinstall, rfl⟩ := group_active hactive h
    obtain ⟨hregroups, htyped⟩ := regroup_ok hregroup
    obtain ⟨hlocals, hkeys, hle, hfresh, hentries⟩ := Aggregation.regroups_from_keys hregroups
    have hkeys : ∀ v ∈ a.keys, v.isStream = true ∧ ∃ t, Γ.type? v = some t := by
      intro v hv
      obtain ⟨-, col, hcol, rfl⟩ := hc.keys v (hkeys v hv)
      obtain ⟨hs, ht⟩ := hhas col hcol
      exact ⟨hs, col.type, ht⟩
    have hΓ := hb.within _ (List.mem_singleton_self _)
    obtain ⟨Γ', hb', hold, hnew⟩ := Aggregation.install_delivers (hb.mint hle hg) hΓ hb.minted_le hfresh hle
      hkeys (hentries _ (hc.typed hhas).typeable) hinstall
    -- Outside of calls the clauses use only columns of the block.
    have hcontext : a.Context (restrict Γ.type? b.locals) Γ'.type? := by
      refine ⟨fun v t ht => ?_, fun v t hs ht hin => ?_, hnew⟩
      · rw [hlocals]
        exact (restrict_eq_some.mp ht).1
      · exact hold v t hs (restrict_eq_some.mp ht).2 hin
    have hrestricted : (restrict Γ.type? b.locals).Has b.scopes.visible := by
      intro col hcol
      obtain ⟨hs, ht⟩ := hhas col hcol
      exact ⟨hs, restrict_eq_some.mpr ⟨Variable.isIn_of_mem (mem_locals (hvisible ▸ hcol)), ht⟩⟩
    refine ⟨Γ', hb', htyped _ _ hcontext (hc.typed hrestricted), fun v hv => ?_⟩
    rcases List.mem_append.mp hv with hv | hv
    · obtain ⟨hs, t, ht⟩ := hkeys v hv
      exact ⟨hs, t, hold v t hs ht (Variable.isIn_of_mem hv)⟩
    · obtain ⟨e, he, rfl⟩ := List.mem_map.mp hv
      obtain ⟨hs, ht⟩ := hnew e he
      exact ⟨hs, _, ht⟩

end Block

end SqlPlan
