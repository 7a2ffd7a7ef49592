import Mathlib.Data.List.Lex
import SqlPlan.Proofs.AggregateCalls

namespace SqlPlan

variable {i : Nat} {p : List Nat} {c : Scalar} {f : AggregateDecl} {ss : List Scalar} {d : Diagnostic}

open List (Forall₂)

namespace Scalar

def CallAt (s : Scalar) (p : List Nat) : Prop := ∃ f ss, s.at? p = some (.aggregate f ss)

def Exposed (s : Scalar) (p : List Nat) : Prop := ∀ front i rest, p = front ++ i :: rest → ¬s.CallAt front

theorem callAt_nil {s : Scalar} : s.CallAt [] ↔ ∃ f ss, s = .aggregate f ss := by
  simp [CallAt, at?]

theorem callAt_cons {s : Scalar} : s.CallAt (i :: p) ↔ ∃ c, s.children[i]? = some c ∧ c.CallAt p := by
  cases h : s.children[i]? <;> simp [CallAt, at?, h]

theorem exposed_nil (s : Scalar) : s.Exposed [] := by
  simp [Exposed]

theorem exposed_cons {s : Scalar} (hc : s.children[i]? = some c) :
    s.Exposed (i :: p) ↔ ¬s.CallAt [] ∧ c.Exposed p := by
  constructor
  · intro h
    refine ⟨h [] i p rfl, fun front j rest hp hcall => ?_⟩
    exact h (i :: front) j rest (by rw [hp, List.cons_append]) (callAt_cons.mpr ⟨c, hc, hcall⟩)
  · rintro ⟨htop, h⟩ front j rest hp hcall
    cases front with
    | nil => exact htop hcall
    | cons k front =>
      obtain ⟨rfl, rfl⟩ := List.cons.inj hp
      obtain ⟨c', hc', hcall⟩ := callAt_cons.mp hcall
      obtain rfl : c = c' := Option.some.inj (hc.symm.trans hc')
      exact h front j rest rfl hcall

/-- A call is outside of all other calls, or inside of one that is. -/
theorem exists_exposed_call {s : Scalar} (h : s.CallAt p) :
    ∃ front rest, p = front ++ rest ∧ s.CallAt front ∧ s.Exposed front := by
  induction p generalizing s with
  | nil => exact ⟨[], [], rfl, h, s.exposed_nil⟩
  | cons i p ih =>
    by_cases htop : s.CallAt []
    · exact ⟨[], i :: p, rfl, htop, s.exposed_nil⟩
    · obtain ⟨c, hc, h⟩ := callAt_cons.mp h
      obtain ⟨front, rest, rfl, hcall, hexposed⟩ := ih h
      exact ⟨i :: front, rest, rfl, callAt_cons.mpr ⟨c, hc, hcall⟩, (exposed_cons hc).mpr ⟨htop, hexposed⟩⟩

theorem hasAggregate_iff {s : Scalar} : s.hasAggregate = true ↔ ∃ p, s.CallAt p := by
  induction s using childInduction with
  | node s ih =>
    by_cases htop : s.CallAt []
    · obtain ⟨f, ss, rfl⟩ := callAt_nil.mp htop
      exact ⟨fun _ => ⟨[], htop⟩, fun _ => rfl⟩
    · rw [hasAggregate_node fun f ss hs => htop (callAt_nil.mpr ⟨f, ss, hs⟩), List.any_eq_true]
      constructor
      · rintro ⟨c, hc, hcall⟩
        obtain ⟨p, hp⟩ := (ih c hc).mp hcall
        obtain ⟨i, hi⟩ := List.mem_iff_getElem?.mp hc
        exact ⟨i :: p, callAt_cons.mpr ⟨c, hi, hp⟩⟩
      · rintro ⟨p, hp⟩
        cases p with
        | nil => exact absurd hp htop
        | cons i p =>
          obtain ⟨c, hc, hp⟩ := callAt_cons.mp hp
          have hmem := List.mem_of_getElem? hc
          exact ⟨c, hmem, (ih c hmem).mpr ⟨p, hp⟩⟩

theorem listHasAggregate_iff : listHasAggregate ss = true ↔ ∃ q, q ≠ [] ∧ (aggregate f ss).CallAt q := by
  rw [listHasAggregate_eq, List.any_eq_true]
  constructor
  · rintro ⟨c, hc, hcall⟩
    obtain ⟨p, hp⟩ := hasAggregate_iff.mp hcall
    obtain ⟨i, hi⟩ := List.mem_iff_getElem?.mp hc
    exact ⟨i :: p, List.cons_ne_nil i p, callAt_cons.mpr ⟨c, hi, hp⟩⟩
  · rintro ⟨q, hq, hcall⟩
    obtain ⟨i, p, rfl⟩ := List.exists_cons_of_ne_nil hq
    obtain ⟨c, hc, hp⟩ := callAt_cons.mp hcall
    exact ⟨c, List.mem_of_getElem? hc, hasAggregate_iff.mpr ⟨p, hp⟩⟩

section Nodes

variable (location : Option Span)

theorem regroupList_cons (s : Scalar) (ss : List Scalar) (r : Regrouping) :
    regroupList location (s :: ss) r =
      ((s.regroup location r).1 :: (regroupList location ss (s.regroup location r).2).1,
        (regroupList location ss (s.regroup location r).2).2) := rfl

@[simp] theorem length_regroupList (ss : List Scalar) (r : Regrouping) :
    (regroupList location ss r).1.length = ss.length := by
  induction ss generalizing r with
  | nil => rfl
  | cons s ss ih => exact congrArg (· + 1) (ih _)

theorem regroupList_append (ss ts : List Scalar) (r : Regrouping) :
    regroupList location (ss ++ ts) r =
      ((regroupList location ss r).1 ++ (regroupList location ts (regroupList location ss r).2).1,
        (regroupList location ts (regroupList location ss r).2).2) := by
  induction ss generalizing r with
  | nil => rfl
  | cons s ss ih => simp only [List.cons_append, regroupList, ih]

theorem regroupList_flatPairs (ps : List (Scalar × Scalar)) (r : Regrouping) :
    regroupList location (flatPairs ps) r =
      (flatPairs (regroupPairs location ps r).1, (regroupPairs location ps r).2) ∧
    (regroupPairs location ps r).1.length = ps.length := by
  induction ps generalizing r with
  | nil => exact ⟨rfl, rfl⟩
  | cons p ps ih =>
    obtain ⟨x, y⟩ := p
    obtain ⟨hlist, hlength⟩ := ih (y.regroup location (x.regroup location r).2).2
    refine ⟨?_, congrArg (· + 1) hlength⟩
    simp only [flatPairs] at hlist
    simp only [flatPairs, List.flatMap_cons, List.cons_append, List.nil_append, regroupList, hlist, regroupPairs]

theorem regroupList_declarators (ds : List (Variable × Scalar)) (r : Regrouping) :
    (regroupDeclarators location ds r).1 =
      (ds.map (·.1)).zip (regroupList location (ds.map (·.2)) r).1 ∧
    (regroupDeclarators location ds r).2 = (regroupList location (ds.map (·.2)) r).2 := by
  induction ds generalizing r with
  | nil => exact ⟨rfl, rfl⟩
  | cons d ds ih =>
    obtain ⟨v, s⟩ := d
    obtain ⟨hzip, hstate⟩ := ih (s.regroup location r).2
    simp only [regroupDeclarators, List.map_cons, regroupList, List.zip_cons_cons, hzip, hstate, and_self]

theorem regroupList_toList (o : Option Scalar) (r : Regrouping) :
    regroupList location o.toList r =
      ((regroupOption location o r).1.toList, (regroupOption location o r).2) ∧
    (regroupOption location o r).1.isSome = o.isSome := by
  cases o <;> exact ⟨rfl, rfl⟩

/-- Apart from variables and aggregate calls, regrouping an expression is regrouping its subexpressions
one after the other. -/
theorem regroup_node {s : Scalar} (hvar : ∀ v, s ≠ .var v) (hcall : ¬s.CallAt []) (r : Regrouping) :
    s.regroup location r = (s.withChildren (regroupList location s.children r).1,
      (regroupList location s.children r).2) := by
  cases s with
  | var v => exact absurd rfl (hvar v)
  | aggregate f ss => exact absurd (callAt_nil.mpr ⟨f, ss, rfl⟩) hcall
  | conditional ps o =>
    obtain ⟨hlist, hlength⟩ := regroupList_flatPairs location ps r
    obtain ⟨hoption, hsome⟩ := regroupList_toList location o (regroupPairs location ps r).2
    simp only [children_conditional, regroupList_append, hlist, hoption, withChildren_conditional hlength hsome,
      regroup]
  | letIn ds b =>
    obtain ⟨hzip, hstate⟩ := regroupList_declarators location ds r
    simp only [children, regroupList_append, regroupList, regroup, hstate, hzip,
      withChildren_letIn ((length_regroupList location _ r).trans (List.length_map _))]
  | _ => rfl

/-- Induction along a regrouping: `P` is about an expression and `L` about expressions that are regrouped
one after the other. -/
theorem regroup_induction {P : Scalar → Regrouping → Prop} {L : List Scalar → Regrouping → Prop}
    (var : ∀ v r, P (.var v) r) (aggregate : ∀ f ss r, P (.aggregate f ss) r)
    (node : ∀ s r, (∀ v, s ≠ .var v) → ¬s.CallAt [] → L s.children r → P s r)
    (nil : ∀ r, L [] r) (cons : ∀ s ss r, P s r → L ss (s.regroup location r).2 → L (s :: ss) r)
    (s : Scalar) (r : Regrouping) : P s r := by
  induction s using childInduction generalizing r with
  | node s ih =>
    by_cases hvar : ∃ v, s = .var v
    · obtain ⟨v, rfl⟩ := hvar
      exact var v r
    · by_cases hcall : s.CallAt []
      · obtain ⟨f, ss, rfl⟩ := callAt_nil.mp hcall
        exact aggregate f ss r
      · refine node s r (not_exists.mp hvar) hcall ?_
        generalize s.children = cs at ih
        induction cs generalizing r with
        | nil => exact nil r
        | cons c cs ihcs =>
          obtain ⟨hc, hcs⟩ := List.forall_mem_cons.mp ih
          exact cons c cs r (hc r) (ihcs _ hcs)

end Nodes

end Scalar

section Faults

variable {location : Option Span} {a : Aggregation} {s : Scalar}

/-- What is wrong at a position outside of all calls: a call has another one inside of it, or a column of
the block is no grouping key. -/
inductive Aggregation.FaultAt (a : Aggregation) (location : Option Span) (s : Scalar) (p : List Nat) :
    Diagnostic → Prop where
  | nested {f : AggregateDecl} {ss : List Scalar} {q : List Nat} : s.Exposed p →
      s.at? p = some (.aggregate f ss) → q ≠ [] → s.CallAt (p ++ q) →
      FaultAt a location s p ⟨.unsupportedFeature, location, "nested aggregate in '" ++ f.name ++ "'"⟩
  | ungrouped {v : Variable} : s.Exposed p → s.at? p = some (.var v) → v.isIn a.locals = true →
      v.isIn a.keys = false →
      FaultAt a location s p ⟨.invalidAggregationColumn, location, "column '" ++ v.label?.getD "?" ++
        "' must appear in GROUP BY or be used in an aggregate function"⟩

open Scalar

theorem Aggregation.FaultAt.of_child (htop : ¬s.CallAt []) (hc : s.children[i]? = some c)
    (h : a.FaultAt location c p d) : a.FaultAt location s (i :: p) d := by
  have hat (q : List Nat) : s.at? (i :: q) = c.at? q := by simp [at?, hc]
  cases h with
  | nested hexposed hp hq hcall =>
    exact .nested ((exposed_cons hc).mpr ⟨htop, hexposed⟩) ((hat p).trans hp) hq
      (callAt_cons.mpr ⟨c, hc, hcall⟩)
  | ungrouped hexposed hp hlocal hkey =>
    exact .ungrouped ((exposed_cons hc).mpr ⟨htop, hexposed⟩) ((hat p).trans hp) hlocal hkey

theorem Aggregation.FaultAt.exists_child (h : a.FaultAt location s (i :: p) d) :
    ∃ c, s.children[i]? = some c ∧ a.FaultAt location c p d := by
  cases h with
  | nested hexposed hp hq hcall =>
    obtain ⟨c, hc, hp⟩ := Option.bind_eq_some_iff.mp hp
    obtain ⟨c', hc', hcall⟩ := callAt_cons.mp hcall
    obtain rfl : c = c' := Option.some.inj (hc.symm.trans hc')
    exact ⟨c, hc, .nested ((exposed_cons hc).mp hexposed).2 hp hq hcall⟩
  | ungrouped hexposed hp hlocal hkey =>
    obtain ⟨c, hc, hp⟩ := Option.bind_eq_some_iff.mp hp
    exact ⟨c, hc, .ungrouped ((exposed_cons hc).mp hexposed).2 hp hlocal hkey⟩

/-- There is no fault if no call is inside of another and all columns of the block outside of calls are
grouping keys. -/
theorem Aggregation.forall_not_faultAt_iff : (∀ p d, ¬a.FaultAt location s p d) ↔
    (∀ p q, s.CallAt p → q ≠ [] → ¬s.CallAt (p ++ q)) ∧
      ∀ p v, s.Exposed p → s.at? p = some (.var v) → v.isIn a.locals = true → v.isIn a.keys = true := by
  constructor
  · intro h
    constructor
    · intro p q hp hq hpq
      obtain ⟨front, rest, rfl, ⟨f, ss, hfront⟩, hexposed⟩ := exists_exposed_call hp
      rw [List.append_assoc] at hpq
      exact h front _ (.nested hexposed hfront (by simp [hq]) hpq)
    · intro p v hexposed hp hlocal
      by_contra hkey
      exact h p _ (.ungrouped hexposed hp hlocal (by simpa using hkey))
  · rintro ⟨hflat, hkeys⟩ p d hfault
    cases hfault with
    | nested _ hp hq hcall => exact hflat p _ ⟨_, _, hp⟩ hq hcall
    | ungrouped hexposed hp hlocal hkey => simp [hkeys p _ hexposed hp hlocal] at hkey

theorem Scalar.regroup_of_problem (location : Option Span) (s : Scalar) (r : Regrouping) :
    r.problem.isSome = true → (s.regroup location r).2 = r := by
  refine regroup_induction location (P := fun s r => r.problem.isSome = true → (s.regroup location r).2 = r)
    (L := fun ss r => r.problem.isSome = true → (regroupList location ss r).2 = r) ?_ ?_ ?_ ?_ ?_ s r
  · intro v r h
    simp [regroup, Regrouping.check, Option.isNone_eq_false_iff.mpr h]
  · intro f ss r h
    simp [regroup, Regrouping.call, h]
  · intro s r hvar hcall hchildren h
    rw [regroup_node location hvar hcall]
    exact hchildren h
  · intro r h
    rfl
  · intro s ss r hs hss h
    rw [hs h] at hss
    rw [regroupList_cons, hs h]
    exact hss h

theorem Scalar.regroupList_of_problem (location : Option Span) {r : Regrouping} (h : r.problem.isSome = true) :
    (regroupList location ss r).2 = r := by
  induction ss with
  | nil => rfl
  | cons s ss ih => rw [regroupList_cons, regroup_of_problem location s r h, ih]

theorem Scalar.problem_none_of_regroupList {r : Regrouping} (h : (regroupList location ss r).2.problem = none) :
    r.problem = none := by
  by_contra hsome
  rw [regroupList_of_problem location (Option.isSome_iff_ne_none.mpr hsome)] at h
  exact hsome h

theorem Aggregation.FaultAt.eq_nil (hs : s.children = [] ∨ s.CallAt []) (h : a.FaultAt location s p d) : p = [] := by
  cases p with
  | nil => rfl
  | cons i p =>
    obtain ⟨c, hc, -⟩ := h.exists_child
    have htop : ¬s.CallAt [] := by
      cases h with
      | nested hexposed _ _ _ | ungrouped hexposed _ _ _ => exact ((exposed_cons hc).mp hexposed).1
    rcases hs with hs | hs
    · simp [hs] at hc
    · exact absurd hs htop

/-- A fault in one of several expressions, at the position that begins with the number of that one. -/
def Aggregation.FaultIn (a : Aggregation) (location : Option Span) (ss : List Scalar) (p : List Nat)
    (d : Diagnostic) : Prop :=
  ∃ i c q, p = i :: q ∧ ss[i]? = some c ∧ a.FaultAt location c q d

theorem Aggregation.faultAt_node (hvar : ∀ v, s ≠ .var v) (htop : ¬s.CallAt []) :
    a.FaultAt location s p d ↔ a.FaultIn location s.children p d := by
  constructor
  · intro h
    cases p with
    | nil =>
      cases h with
      | nested _ hp _ _ => exact absurd ⟨_, _, hp⟩ htop
      | ungrouped _ hp _ _ => exact absurd (Option.some.inj hp) (hvar _)
    | cons i p =>
      obtain ⟨c, hc, h⟩ := h.exists_child
      exact ⟨i, c, p, rfl, hc, h⟩
  · rintro ⟨i, c, q, rfl, hc, h⟩
    exact h.of_child htop hc

/-- The problem is the first of the faults, and without one there is none. -/
structure ReportsFirst (fault : List Nat → Diagnostic → Prop) (problem : Option Diagnostic) : Prop where
  faultless : problem = none → ∀ p d, ¬fault p d
  first : ∀ d, problem = some d → ∃ p, fault p d ∧ ∀ q e, fault q e → p ≤ q

theorem ReportsFirst.of_top {fault : List Nat → Diagnostic → Prop} {d : Diagnostic} (htop : fault [] d) :
    ReportsFirst fault (some d) where
  faultless h := by cases h
  first e he := by
    obtain rfl := Option.some.inj he
    exact ⟨[], htop, fun q _ _ => not_lt.mp (List.not_lt_nil q)⟩

theorem ReportsFirst.of_forall_not {fault : List Nat → Diagnostic → Prop} (h : ∀ p d, ¬fault p d) :
    ReportsFirst fault none where
  faultless _ := h
  first d hd := by cases hd

theorem ReportsFirst.cons {s : Scalar} {problem problem' : Option Diagnostic}
    (hs : ReportsFirst (a.FaultAt location s) problem)
    (hss : problem = none → ReportsFirst (a.FaultIn location ss) problem')
    (hstuck : problem ≠ none → problem' = problem) : ReportsFirst (a.FaultIn location (s :: ss)) problem' := by
  cases problem with
  | none =>
    obtain hss := hss rfl
    constructor
    · rintro hnone p d ⟨i, c, q, rfl, hc, h⟩
      cases i with
      | zero =>
        obtain rfl : s = c := Option.some.inj hc
        exact hs.faultless rfl q d h
      | succ i => exact hss.faultless hnone (i :: q) d ⟨i, c, q, rfl, hc, h⟩
    · intro d hd
      obtain ⟨_, ⟨i, c, p, rfl, hc, h⟩, hfirst⟩ := hss.first d hd
      refine ⟨(i + 1) :: p, ⟨i + 1, c, p, rfl, hc, h⟩, ?_⟩
      rintro _ e ⟨j, c', q, rfl, hc', h'⟩
      cases j with
      | zero =>
        obtain rfl : s = c' := Option.some.inj hc'
        exact absurd h' (hs.faultless rfl q e)
      | succ j =>
        have hle := hfirst (j :: q) e ⟨j, c', q, rfl, hc', h'⟩
        rw [← not_lt, List.cons_lt_cons_iff] at hle ⊢
        simpa using hle
  | some d =>
    obtain rfl := hstuck (by simp)
    constructor
    · intro hnone
      cases hnone
    · intro d' hd'
      obtain ⟨p, h, hfirst⟩ := hs.first d' hd'
      refine ⟨0 :: p, ⟨0, s, p, rfl, rfl, h⟩, ?_⟩
      rintro _ e ⟨j, c', q, rfl, hc', h'⟩
      cases j with
      | zero =>
        obtain rfl : s = c' := Option.some.inj hc'
        exact List.cons_le_cons 0 (hfirst q e h')
      | succ j => exact le_of_lt (List.Lex.rel j.succ_pos)

end Faults

section Progress

/-- What regrouping does to a grouping: calls are registered, and a problem is noted. -/
inductive Regrouping.Advances (r : Regrouping) : Regrouping → Prop where
  | refl : Advances r r
  | register {r' : Regrouping} (f : AggregateDecl) {ss : List Scalar} : Advances r r' →
      Scalar.listHasAggregate ss = false → Advances r (r'.register f ss).2
  | fail {r' : Regrouping} (d : Diagnostic) : Advances r r' → Advances r (r'.fail d)

namespace Regrouping

variable {r r₁ r₂ : Regrouping}

theorem Advances.trans (h : r.Advances r₁) (h' : r₁.Advances r₂) : r.Advances r₂ := by
  induction h' with
  | refl => exact h
  | register f _ ha ih => exact .register f ih ha
  | fail d _ ih => exact .fail d ih

theorem problem_register (r : Regrouping) (f : AggregateDecl) (ss : List Scalar) :
    (r.register f ss).2.problem = r.problem := by
  unfold register
  split <;> rfl

theorem call_of_problem_none {location : Option Span} (h : (r.call location f ss).2.problem = none) :
    r.call location f ss = (.var (r.register f ss).1, (r.register f ss).2) := by
  unfold call at h ⊢
  split at h
  · next hsome => exact absurd h (Option.isSome_iff_ne_none.mp hsome)
  · split at h
    · simp [fail] at h
    · next hsome ha => simp [hsome, ha]

theorem advances_check (location : Option Span) (v : Variable) : r.Advances (r.check location v) := by
  unfold check
  split
  · exact .fail _ .refl
  · exact .refl

theorem advances_call (location : Option Span) (f : AggregateDecl) (ss : List Scalar) :
    r.Advances (r.call location f ss).2 := by
  unfold call
  split
  · exact .refl
  · split
    · exact .fail _ .refl
    · next ha => exact .register f .refl (by simpa using ha)

theorem Advances.grows (h : r.Advances r₁) : r.Grows r₁ := by
  induction h with
  | refl => exact .refl r
  | @register r' f ss _ ha ih =>
    have hregister : r'.register f ss = ((r'.register f ss).1, (r'.register f ss).2) := rfl
    exact ih.trans (register_ok hregister ha).1
  | fail d _ ih => exact ⟨ih.locals, ih.keys, ih.minted_le, ih.entries⟩

end Regrouping

theorem Scalar.regroup_advances (location : Option Span) (s : Scalar) (r : Regrouping) :
    r.Advances (s.regroup location r).2 := by
  refine regroup_induction location (P := fun s r => r.Advances (s.regroup location r).2)
    (L := fun ss r => r.Advances (regroupList location ss r).2) ?_ ?_ ?_ ?_ ?_ s r
  · exact fun v r => Regrouping.advances_check location v
  · exact fun f ss r => Regrouping.advances_call location f ss
  · intro s r hvar hcall h
    rw [regroup_node location hvar hcall]
    exact h
  · exact fun r => .refl
  · exact fun s ss r hs hss => hs.trans hss

theorem Scalar.regroupList_advances (location : Option Span) (ss : List Scalar) (r : Regrouping) :
    r.Advances (regroupList location ss r).2 := by
  induction ss generalizing r with
  | nil => exact .refl
  | cons s ss ih => exact (s.regroup_advances location r).trans (ih _)

/-- Regrouping reports the first fault of an expression. -/
theorem Scalar.regroup_reportsFirst (location : Option Span) (a : Aggregation) (s : Scalar) (r : Regrouping) :
    r.problem = none → r.aggregation.locals = a.locals → r.aggregation.keys = a.keys →
      ReportsFirst (a.FaultAt location s) (s.regroup location r).2.problem := by
  refine regroup_induction location
    (P := fun s r => r.problem = none → r.aggregation.locals = a.locals → r.aggregation.keys = a.keys →
      ReportsFirst (a.FaultAt location s) (s.regroup location r).2.problem)
    (L := fun ss r => r.problem = none → r.aggregation.locals = a.locals → r.aggregation.keys = a.keys →
      ReportsFirst (a.FaultIn location ss) (regroupList location ss r).2.problem) ?_ ?_ ?_ ?_ ?_ s r
  · intro v r hr hlocals hkeys
    have hungrouped : r.aggregation.isUngrouped v = (v.isIn a.locals && !v.isIn a.keys) := by
      rw [Aggregation.isUngrouped, hlocals, hkeys]
    by_cases hv : v.isIn a.locals = true ∧ v.isIn a.keys = false
    · have hstep : (regroup location (.var v) r).2.problem = some ⟨.invalidAggregationColumn, location,
          "column '" ++ v.label?.getD "?" ++
            "' must appear in GROUP BY or be used in an aggregate function"⟩ := by
        simp [regroup, Regrouping.check, hr, hungrouped, hv, Regrouping.fail]
      rw [hstep]
      exact .of_top (.ungrouped (exposed_nil _) rfl hv.1 hv.2)
    · have hstep : (regroup location (.var v) r).2.problem = none := by
        have hgrouped : (v.isIn a.locals && !v.isIn a.keys) = false := by simpa using hv
        simp [regroup, Regrouping.check, hr, hungrouped, hgrouped]
      rw [hstep]
      refine .of_forall_not fun p d h => ?_
      obtain rfl := h.eq_nil (.inl rfl)
      cases h with
      | nested _ hp _ _ => cases hp
      | ungrouped _ hp hlocal hkey =>
        cases hp
        exact hv ⟨hlocal, hkey⟩
  · intro f ss r hr hlocals hkeys
    by_cases ha : listHasAggregate ss = true
    · have hstep : (regroup location (.aggregate f ss) r).2.problem =
          some ⟨.unsupportedFeature, location, "nested aggregate in '" ++ f.name ++ "'"⟩ := by
        simp [regroup, Regrouping.call, hr, ha, Regrouping.fail]
      obtain ⟨q, hq, hcall⟩ := (listHasAggregate_iff (f := f)).mp ha
      rw [hstep]
      exact .of_top (.nested (exposed_nil _) rfl hq hcall)
    · have hstep : (regroup location (.aggregate f ss) r).2.problem = none := by
        simp [regroup, Regrouping.call, hr, ha, Regrouping.problem_register]
      rw [hstep]
      refine .of_forall_not fun p d h => ?_
      obtain rfl := h.eq_nil (.inr (callAt_nil.mpr ⟨f, ss, rfl⟩))
      cases h with
      | nested _ _ hq hcall => exact ha (listHasAggregate_iff.mpr ⟨_, hq, hcall⟩)
      | ungrouped _ hp _ _ => cases hp
  · intro s r hvar hcall h hr hlocals hkeys
    have hfault : a.FaultAt location s = a.FaultIn location s.children := by
      funext p d
      exact propext (Aggregation.faultAt_node hvar hcall)
    rw [regroup_node location hvar hcall, hfault]
    exact h hr hlocals hkeys
  · intro r hr _ _
    refine ⟨?_, ?_⟩
    · rintro _ p d ⟨i, c, q, _, hc, _⟩
      simp at hc
    · intro d hd
      simp [regroupList, hr] at hd
  · intro s ss r hs hss hr hlocals hkeys
    have hgrows := (s.regroup_advances location r).grows
    refine (hs hr hlocals hkeys).cons ?_ ?_
    · exact fun hnone => hss hnone (hgrows.locals.trans hlocals) (hgrows.keys.trans hkeys)
    · intro hsome
      rw [regroupList_cons, regroupList_of_problem location (Option.isSome_iff_ne_none.mpr hsome)]

end Progress

end SqlPlan
