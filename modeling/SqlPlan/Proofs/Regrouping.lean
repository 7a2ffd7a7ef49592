import SqlPlan.Analysis.Aggregation
import SqlPlan.Proofs.Columns

namespace SqlPlan

variable {ts : List SqlType} {location : Option Span} {v : Variable} {function : AggregateDecl}
  {R : Scalar → Scalar → Prop} {ps : List (Scalar × Scalar)} {ds : List (Variable × Scalar)} {Δ : Temporaries}

open List (Forall₂)

def flatPairs (ps : List (Scalar × Scalar)) : List Scalar := ps.flatMap fun p => [p.1, p.2]

inductive Regroups : List Scalar → Regrouping → List Scalar → Regrouping → Prop where
  | nil (r) : Regroups [] r [] r
  | cons {s s' ss ss' r r₁ r₂} : Regroups [s] r [s'] r₁ → Regroups ss r₁ ss' r₂ →
      Regroups (s :: ss) r (s' :: ss') r₂
  | immediate (v t r) : Regroups [.immediate v t] r [.immediate v t] r
  | var {v r} : r.aggregation.isUngrouped v = false → Regroups [.var v] r [.var v] r
  | unary {s s' r r'} (op) : Regroups [s] r [s'] r' → Regroups [.unary op s] r [.unary op s'] r'
  | binary {x x' y y' r r'} (op) : Regroups [x, y] r [x', y'] r' →
      Regroups [.binary op x y] r [.binary op x' y'] r'
  | compare {x x' y y' r r'} (op) : Regroups [x, y] r [x', y'] r' →
      Regroups [.compare op x y] r [.compare op x' y'] r'
  | pattern {i i' p p' e e' r r'} (op) : Regroups [i, p, e] r [i', p', e'] r' →
      Regroups [.pattern op i p e] r [.pattern op i' p' e'] r'
  | conditional {ps ps' o o' r r₁ r₂} : Regroups (flatPairs ps) r (flatPairs ps') r₁ →
      Regroups o.toList r₁ o'.toList r₂ → Regroups [.conditional ps o] r [.conditional ps' o'] r₂
  | letIn {ds ds' b b' r r₁ r₂} : ds'.map (·.1) = ds.map (·.1) →
      Regroups (ds.map (·.2)) r (ds'.map (·.2)) r₁ → Regroups [b] r₁ [b'] r₂ →
      Regroups [.letIn ds b] r [.letIn ds' b'] r₂
  | cast {s s' r r'} (policy target) : Regroups [s] r [s'] r' →
      Regroups [.cast policy target s] r [.cast policy target s'] r'
  | call {ss ss' r r'} (function) : Regroups ss r ss' r' →
      Regroups [.call function ss] r [.call function ss'] r'
  | aggregate {function ss r v r'} : Scalar.listHasAggregate ss = false →
      r.register function ss = (v, r') → Regroups [.aggregate function ss] r [.var v] r'

namespace Regroups

theorem pair {x x' y y' : Scalar} {r r₁ r₂ : Regrouping} (hx : Regroups [x] r [x'] r₁)
    (hy : Regroups [y] r₁ [y'] r₂) : Regroups [x, y] r [x', y'] r₂ :=
  .cons hx (.cons hy (.nil r₂))

theorem append {ss ss' ts ts' : List Scalar} {r r₁ r₂ : Regrouping} (h : Regroups ss r ss' r₁)
    (h' : Regroups ts r₁ ts' r₂) : Regroups (ss ++ ts) r (ss' ++ ts') r₂ := by
  induction h with
  | nil r => exact h'
  | cons hs _ _ ih => exact .cons hs (ih h')
  | immediate v t r => exact .cons (.immediate v t r) h'
  | var hv => exact .cons (.var hv) h'
  | unary op h => exact .cons (.unary op h) h'
  | binary op h => exact .cons (.binary op h) h'
  | compare op h => exact .cons (.compare op h) h'
  | pattern op h => exact .cons (.pattern op h) h'
  | conditional hp ho => exact .cons (.conditional hp ho) h'
  | letIn hv hd hb => exact .cons (.letIn hv hd hb) h'
  | cast policy target h => exact .cons (.cast policy target h) h'
  | call function h => exact .cons (.call function h) h'
  | aggregate ha hr => exact .cons (.aggregate ha hr) h'

end Regroups

namespace Regrouping

theorem problem_of_check {r : Regrouping} (h : (r.check location v).problem = none) :
    r.problem = none ∧ r.check location v = r ∧ r.aggregation.isUngrouped v = false := by
  rcases hp : r.problem with _ | d
  · by_cases hv : r.aggregation.isUngrouped v = true
    · simp [check, hp, hv, fail] at h
    · exact ⟨rfl, by simp [check, hp, hv], by simpa using hv⟩
  · simp [check, hp] at h

theorem regroups_of_call {ss : List Scalar} {r : Regrouping} (h : (r.call location function ss).2.problem = none) :
    r.problem = none ∧
      Regroups [.aggregate function ss] r [(r.call location function ss).1] (r.call location function ss).2 := by
  rcases hp : r.problem with _ | d
  · by_cases ha : Scalar.listHasAggregate ss = true
    · simp [call, hp, ha, fail] at h
    · have hcall : r.call location function ss =
          (.var (r.register function ss).1, (r.register function ss).2) := by simp [call, hp, ha]
      rw [hcall]
      exact ⟨rfl, .aggregate (by simpa using ha) rfl⟩
  · simp [call, hp] at h

end Regrouping

namespace Scalar

mutual

theorem regroup_ok (location : Option Span) : ∀ (s : Scalar) (r : Regrouping),
    (s.regroup location r).2.problem = none →
      r.problem = none ∧ Regroups [s] r [(s.regroup location r).1] (s.regroup location r).2
  | immediate v t, r, h => ⟨h, .immediate v t r⟩
  | var v, r, h => by
    obtain ⟨hp, hr, hv⟩ := Regrouping.problem_of_check h
    simp only [regroup, hr]
    exact ⟨hp, .var hv⟩
  | unary op s, r, h => by
    obtain ⟨hp, hs⟩ := regroup_ok location s r h
    exact ⟨hp, .unary op hs⟩
  | binary op x y, r, h => by
    obtain ⟨hp, hy⟩ := regroup_ok location y _ h
    obtain ⟨hp, hx⟩ := regroup_ok location x _ hp
    exact ⟨hp, .binary op (.pair hx hy)⟩
  | compare op x y, r, h => by
    obtain ⟨hp, hy⟩ := regroup_ok location y _ h
    obtain ⟨hp, hx⟩ := regroup_ok location x _ hp
    exact ⟨hp, .compare op (.pair hx hy)⟩
  | pattern op i p e, r, h => by
    obtain ⟨hp, he⟩ := regroup_ok location e _ h
    obtain ⟨hp, hpat⟩ := regroup_ok location p _ hp
    obtain ⟨hp, hi⟩ := regroup_ok location i _ hp
    exact ⟨hp, .pattern op (.cons hi (.pair hpat he))⟩
  | conditional ps o, r, h => by
    obtain ⟨hp, ho⟩ := regroupOption_ok location o _ h
    obtain ⟨hp, hps⟩ := regroupPairs_ok location ps _ hp
    exact ⟨hp, .conditional hps ho⟩
  | letIn ds b, r, h => by
    obtain ⟨hp, hb⟩ := regroup_ok location b _ h
    obtain ⟨hp, hv, hds⟩ := regroupDeclarators_ok location ds _ hp
    exact ⟨hp, .letIn hv hds hb⟩
  | cast policy target s, r, h => by
    obtain ⟨hp, hs⟩ := regroup_ok location s r h
    exact ⟨hp, .cast policy target hs⟩
  | call function ss, r, h => by
    obtain ⟨hp, hs⟩ := regroupList_ok location ss r h
    exact ⟨hp, .call function hs⟩
  | aggregate function ss, r, h => Regrouping.regroups_of_call h

theorem regroupPairs_ok (location : Option Span) : ∀ (ps : List (Scalar × Scalar)) (r : Regrouping),
    (regroupPairs location ps r).2.problem = none → r.problem = none ∧
      Regroups (flatPairs ps) r (flatPairs (regroupPairs location ps r).1) (regroupPairs location ps r).2
  | [], r, h => ⟨h, .nil r⟩
  | (x, y) :: ps, r, h => by
    obtain ⟨hp, hps⟩ := regroupPairs_ok location ps _ h
    obtain ⟨hp, hy⟩ := regroup_ok location y _ hp
    obtain ⟨hp, hx⟩ := regroup_ok location x _ hp
    exact ⟨hp, .cons hx (.cons hy hps)⟩

theorem regroupOption_ok (location : Option Span) : ∀ (o : Option Scalar) (r : Regrouping),
    (regroupOption location o r).2.problem = none → r.problem = none ∧
      Regroups o.toList r (regroupOption location o r).1.toList (regroupOption location o r).2
  | none, r, h => ⟨h, .nil r⟩
  | some s, r, h => regroup_ok location s r h

theorem regroupDeclarators_ok (location : Option Span) :
    ∀ (ds : List (Variable × Scalar)) (r : Regrouping),
    (regroupDeclarators location ds r).2.problem = none → r.problem = none ∧
      (regroupDeclarators location ds r).1.map (·.1) = ds.map (·.1) ∧
      Regroups (ds.map (·.2)) r ((regroupDeclarators location ds r).1.map (·.2))
        (regroupDeclarators location ds r).2
  | [], r, h => ⟨h, rfl, .nil r⟩
  | (v, s) :: ds, r, h => by
    obtain ⟨hp, hv, hds⟩ := regroupDeclarators_ok location ds _ h
    obtain ⟨hp, hs⟩ := regroup_ok location s _ hp
    exact ⟨hp, congrArg (v :: ·) hv, .cons hs hds⟩

theorem regroupList_ok (location : Option Span) : ∀ (ss : List Scalar) (r : Regrouping),
    (regroupList location ss r).2.problem = none → r.problem = none ∧
      Regroups ss r (regroupList location ss r).1 (regroupList location ss r).2
  | [], r, h => ⟨h, .nil r⟩
  | s :: ss, r, h => by
    obtain ⟨hp, hss⟩ := regroupList_ok location ss _ h
    obtain ⟨hp, hs⟩ := regroup_ok location s _ hp
    exact ⟨hp, .cons hs hss⟩

end

end Scalar

namespace Regrouping

/-- A grouping goes on from another: the keys stay, and new entries have columns minted since then. -/
structure Grows (r r' : Regrouping) : Prop where
  locals : r'.aggregation.locals = r.aggregation.locals
  keys : r'.aggregation.keys = r.aggregation.keys
  minted_le : r.minted ≤ r'.minted
  entries : ∃ more, r'.aggregation.entries = r.aggregation.entries ++ more ∧
    Fresh r.minted (more.map (·.destination)) r'.minted ∧
    ∀ e ∈ more, Scalar.listHasAggregate e.arguments = false

namespace Grows

variable {r r₁ r₂ : Regrouping}

theorem refl (r : Regrouping) : Grows r r where
  locals := rfl
  keys := rfl
  minted_le := Nat.le_refl _
  entries := ⟨[], by simp, Fresh.nil _ _, by simp⟩

theorem trans (h : Grows r r₁) (h' : Grows r₁ r₂) : Grows r r₂ where
  locals := h'.locals.trans h.locals
  keys := h'.keys.trans h.keys
  minted_le := Nat.le_trans h.minted_le h'.minted_le
  entries := by
    obtain ⟨more, he, hf, ha⟩ := h.entries
    obtain ⟨more', he', hf', ha'⟩ := h'.entries
    refine ⟨more ++ more', ?_, ?_, List.forall_mem_append.mpr ⟨ha, ha'⟩⟩
    · rw [he', he, List.append_assoc]
    · rw [List.map_append]
      exact hf.append hf' h.minted_le h'.minted_le

theorem mem_entries (h : Grows r r₁) {e : AggregateEntry} (he : e ∈ r.aggregation.entries) :
    e ∈ r₁.aggregation.entries := by
  obtain ⟨more, hentries, -⟩ := h.entries
  rw [hentries]
  exact List.mem_append_left _ he

end Grows

theorem register_ok {r r' : Regrouping} {ss : List Scalar} (h : r.register function ss = (v, r'))
    (ha : Scalar.listHasAggregate ss = false) :
    Grows r r' ∧ (∃ e ∈ r'.aggregation.entries, v = e.destination ∧ e.function = function) ∧
      ∀ e ∈ r'.aggregation.entries, e ∈ r.aggregation.entries ∨ e.arguments = ss := by
  unfold register at h
  rcases hentry : r.aggregation.entry? function ss with _ | e
  · rw [hentry] at h
    cases h
    have hfresh : Fresh r.minted [⟨r.minted + 1, .stream (some function.name)⟩] (r.minted + 1) :=
      .cons (Nat.le_refl _) (.nil _ _)
    refine ⟨⟨rfl, rfl, Nat.le_succ _, _, rfl, hfresh, by simpa using ha⟩, ?_, ?_⟩
    · exact ⟨_, List.mem_append_right _ (List.mem_singleton_self _), rfl, rfl⟩
    · intro e he
      rcases List.mem_append.mp he with he | he
      · exact .inl he
      · exact .inr (List.mem_singleton.mp he ▸ rfl)
  · rw [hentry] at h
    cases h
    have hmem := List.mem_of_find?_eq_some hentry
    have hsame := List.find?_some hentry
    simp only [AggregateDecl.sameObject, Bool.and_eq_true, decide_eq_true_eq] at hsame
    exact ⟨.refl r, ⟨e, hmem, rfl, hsame.1⟩, fun e' he' => .inl he'⟩

end Regrouping

theorem Regroups.grows {ss ss' : List Scalar} {r r' : Regrouping} (h : Regroups ss r ss' r') :
    r.Grows r' := by
  induction h with
  | nil r => exact .refl r
  | immediate _ _ r => exact .refl r
  | var _ => exact .refl _
  | cons _ _ ih ih' | conditional _ _ ih ih' | letIn _ _ _ ih ih' => exact ih.trans ih'
  | aggregate ha h => exact (Regrouping.register_ok h ha).1
  | unary _ _ ih | binary _ _ ih | compare _ _ ih | pattern _ _ ih | cast _ _ _ ih | call _ _ ih => exact ih

section Typing

open Scalar

variable {Γ Γ' : ColumnTypes} {ss ss' : List Scalar} {r r' : Regrouping}

/-- The second context has the keys of the grouping as they are in the first, and the aggregate columns
with the types of their functions. -/
structure Aggregation.Context (Γ Γ' : ColumnTypes) (a : Aggregation) : Prop where
  locals : ∀ v t, Γ v = some t → v.isIn a.locals = true
  keys : ∀ v t, v.isStream = true → Γ v = some t → v.isIn a.keys = true → Γ' v = some t
  entries : ∀ e ∈ a.entries, e.destination.isStream = true ∧ Γ' e.destination = some e.function.result

theorem Regrouping.Grows.context (h : r.Grows r') (hΓ : r'.aggregation.Context Γ Γ') :
    r.aggregation.Context Γ Γ' where
  locals := h.locals ▸ hΓ.locals
  keys := h.keys ▸ hΓ.keys
  entries e he := hΓ.entries e (h.mem_entries he)

theorem forall₂_flatPairs {ps' : List (Scalar × Scalar)} (h : Forall₂ R (flatPairs ps) (flatPairs ps')) :
    Forall₂ (fun p p' => R p.1 p'.1 ∧ R p.2 p'.2) ps ps' := by
  induction ps generalizing ps' with
  | nil =>
    cases ps' with
    | nil => exact .nil
    | cons p' ps' => cases h
  | cons p ps ih =>
    cases ps' with
    | nil => cases h
    | cons p' ps' =>
      cases h with
      | cons hc h =>
        cases h with
        | cons hb h => exact .cons ⟨hc, hb⟩ (ih h)

theorem forall₂_declarators {ds' : List (Variable × Scalar)} (hv : ds'.map (·.1) = ds.map (·.1))
    (h : Forall₂ R (ds.map (·.2)) (ds'.map (·.2))) : Forall₂ (fun d d' => d.1 = d'.1 ∧ R d.2 d'.2) ds ds' := by
  induction ds generalizing ds' with
  | nil =>
    cases ds' with
    | nil => exact .nil
    | cons d' ds' => cases h
  | cons d ds ih =>
    cases ds' with
    | nil => cases h
    | cons d' ds' =>
      simp only [List.map_cons, List.cons.injEq] at hv
      cases h with
      | cons hd h => exact .cons ⟨hv.1.symm, hd⟩ (ih hv.2 h)

theorem Regroups.replaces (h : Regroups ss r ss' r') (hΓ : r'.aggregation.Context Γ Γ') :
    Forall₂ (Replaces Γ Γ') ss ss' := by
  induction h with
  | nil => exact .nil
  | cons _ h ih ih' =>
    cases ih (h.grows.context hΓ) with
    | cons hs _ => exact .cons hs (ih' hΓ)
  | immediate => exact .cons (fun _ _ ht => ht) .nil
  | @var v r hv =>
    refine .cons (fun Δ t ht => ?_) .nil
    by_cases hs : v.isStream = true
    · simp only [typeIn, Variable.typeIn_stream hs] at ht ⊢
      refine hΓ.keys v t hs ht ?_
      simpa [Aggregation.isUngrouped, hΓ.locals v t ht] using hv
    · simp only [typeIn, Variable.typeIn] at ht ⊢
      split at ht
      · next hk => simp [Variable.isStream, hk] at hs
      all_goals exact ht
  | unary op _ ih =>
    cases ih hΓ with
    | cons hs _ => exact .cons (.unary op hs) .nil
  | binary op _ ih =>
    rcases ih hΓ with _ | ⟨hx, _ | ⟨hy, _⟩⟩
    exact .cons (.binary op hx hy) .nil
  | compare op _ ih =>
    rcases ih hΓ with _ | ⟨hx, _ | ⟨hy, _⟩⟩
    exact .cons (.compare op hx hy) .nil
  | pattern op _ ih =>
    rcases ih hΓ with _ | ⟨hi, _ | ⟨hp, _ | ⟨he, _⟩⟩⟩
    exact .cons (.pattern op hi hp he) .nil
  | conditional _ h ih ih' =>
    exact .cons (.conditional (forall₂_flatPairs (ih (h.grows.context hΓ))) (ih' hΓ)) .nil
  | letIn hv _ h ih ih' =>
    cases ih' hΓ with
    | cons hb _ => exact .cons (.letIn (forall₂_declarators hv (ih (h.grows.context hΓ))) hb) .nil
  | cast policy target _ ih =>
    cases ih hΓ with
    | cons hs _ => exact .cons (.cast policy target hs) .nil
  | call function _ ih => exact .cons (.call function (ih hΓ)) .nil
  | @aggregate function ss r v r' ha h =>
    refine .cons (fun Δ t ht => ?_) .nil
    obtain ⟨-, ⟨e, he, rfl, rfl⟩, -⟩ := Regrouping.register_ok h ha
    obtain ⟨hs, htype⟩ := hΓ.entries e he
    obtain ⟨_, _, rfl⟩ := Option.map_eq_some_iff.mp ht
    exact (Variable.typeIn_stream hs Γ' Δ).trans htype

/-- Some let expressions around it give the expression a type. -/
def Scalar.Typeable (Γ : ColumnTypes) (s : Scalar) : Prop := ∃ Δ t, s.typeIn Γ Δ = some t

theorem Scalar.typeable_of_listTypes {ss : List Scalar} (h : listTypes Γ Δ ss = some ts) :
    ∀ s ∈ ss, s.Typeable Γ := by
  induction ss generalizing ts with
  | nil => simp
  | cons s ss ih =>
    simp only [listTypes, Option.bind_eq_bind, Option.bind_eq_some_iff] at h
    obtain ⟨t, hs, _, hss, _⟩ := h
    exact List.forall_mem_cons.mpr ⟨⟨Δ, t, hs⟩, ih hss⟩

theorem Scalar.typeable_of_bodyTypes (h : bodyTypes Γ Δ ps = some ts) : ∀ s ∈ flatPairs ps, s.Typeable Γ := by
  induction ps generalizing ts with
  | nil => simp [flatPairs]
  | cons p ps ih =>
    simp only [bodyTypes, Option.bind_eq_bind, Option.bind_eq_some_iff] at h
    obtain ⟨t, hc, u, hb, _, hps, _⟩ := h
    exact List.forall_mem_cons.mpr ⟨⟨Δ, t, hc⟩, List.forall_mem_cons.mpr ⟨⟨Δ, u, hb⟩, ih hps⟩⟩

theorem Scalar.typeable_of_optionTypes {o : Option Scalar} (h : optionTypes Γ Δ o = some ts) :
    ∀ s ∈ o.toList, s.Typeable Γ := by
  cases o with
  | none => simp
  | some s =>
    obtain ⟨t, hs, _⟩ := Option.map_eq_some_iff.mp h
    exact List.forall_mem_singleton.mpr ⟨Δ, t, hs⟩

theorem Scalar.typeable_of_declare {Δ' : Temporaries} (h : declare Γ Δ ds = some Δ') :
    ∀ s ∈ ds.map (·.2), s.Typeable Γ := by
  induction ds generalizing Δ with
  | nil => simp
  | cons d ds ih =>
    simp only [declare, Option.bind_eq_bind, Option.ite_none_right_eq_some, Option.bind_eq_some_iff] at h
    obtain ⟨_, t, hs, hds⟩ := h
    exact List.forall_mem_cons.mpr ⟨⟨Δ, t, hs⟩, ih hds⟩

/-- The arguments of a registered call have types outside of all let expressions. -/
theorem Regroups.entries_typeable (h : Regroups ss r ss' r') (hs : ∀ s ∈ ss, s.Typeable Γ) :
    ∀ e ∈ r'.aggregation.entries, e ∈ r.aggregation.entries ∨
      ∃ ts, listTypes Γ [] e.arguments = some ts := by
  induction h with
  | nil | immediate | var _ => exact fun e he => .inl he
  | cons _ _ ih ih' =>
    obtain ⟨hhead, htail⟩ := List.forall_mem_cons.mp hs
    intro e he
    rcases ih' htail e he with he | he
    · exact ih (List.forall_mem_singleton.mpr hhead) e he
    · exact .inr he
  | unary _ _ ih | cast _ _ _ ih =>
    obtain ⟨Δ, t, ht⟩ := hs _ (List.mem_singleton_self _)
    obtain ⟨u, hu, _⟩ := Option.map_eq_some_iff.mp ht
    exact ih (List.forall_mem_singleton.mpr ⟨Δ, u, hu⟩)
  | binary _ _ ih | compare _ _ ih =>
    obtain ⟨Δ, t, ht⟩ := hs _ (List.mem_singleton_self _)
    simp only [typeIn, Option.bind_eq_bind, Option.bind_eq_some_iff] at ht
    obtain ⟨u, hx, w, hy, _⟩ := ht
    exact ih (List.forall_mem_cons.mpr ⟨⟨Δ, u, hx⟩, List.forall_mem_singleton.mpr ⟨Δ, w, hy⟩⟩)
  | pattern _ _ ih =>
    obtain ⟨Δ, t, ht⟩ := hs _ (List.mem_singleton_self _)
    simp only [typeIn, Option.bind_eq_bind, Option.bind_eq_some_iff] at ht
    obtain ⟨u, hi, w, hp, x, he, _⟩ := ht
    exact ih (List.forall_mem_cons.mpr ⟨⟨Δ, u, hi⟩, List.forall_mem_cons.mpr ⟨⟨Δ, w, hp⟩,
      List.forall_mem_singleton.mpr ⟨Δ, x, he⟩⟩⟩)
  | conditional _ _ ih ih' =>
    obtain ⟨Δ, t, ht⟩ := hs _ (List.mem_singleton_self _)
    simp only [typeIn, Option.bind_eq_bind, Option.bind_eq_some_iff] at ht
    obtain ⟨_, hps, _, ho, _⟩ := ht
    intro e he
    rcases ih' (typeable_of_optionTypes ho) e he with he | he
    · exact ih (typeable_of_bodyTypes hps) e he
    · exact .inr he
  | letIn _ _ _ ih ih' =>
    obtain ⟨Δ, t, ht⟩ := hs _ (List.mem_singleton_self _)
    simp only [typeIn, Option.bind_eq_bind, Option.bind_eq_some_iff] at ht
    obtain ⟨Δ', hds, hb⟩ := ht
    intro e he
    rcases ih' (List.forall_mem_singleton.mpr ⟨Δ', t, hb⟩) e he with he | he
    · exact ih (typeable_of_declare hds) e he
    · exact .inr he
  | call _ _ ih =>
    obtain ⟨Δ, t, ht⟩ := hs _ (List.mem_singleton_self _)
    obtain ⟨ts, hts, _⟩ := Option.map_eq_some_iff.mp ht
    exact ih (typeable_of_listTypes hts)
  | aggregate ha h =>
    obtain ⟨Δ, t, ht⟩ := hs _ (List.mem_singleton_self _)
    obtain ⟨ts, hts, _⟩ := Option.map_eq_some_iff.mp ht
    intro e he
    rcases (Regrouping.register_ok h ha).2.2 e he with he | he
    · exact .inl he
    · exact .inr ⟨ts, he ▸ hts⟩

end Typing

end SqlPlan
