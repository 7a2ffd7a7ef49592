import Mathlib.Data.List.Forall2
import SqlPlan.Plan.Scalar
import SqlPlan.Proofs.Unification

namespace SqlPlan

variable {v : Variable} {s s' l l' r r' : Scalar} {ps ps' : List (Scalar × Scalar)} {Δ : Temporaries}
  {ts : List SqlType} {ss ss' : List Scalar} {ds ds' : List (Variable × Scalar)}

abbrev ColumnTypes := Variable → Option SqlType

abbrev Temporaries := List (Variable × SqlType)

namespace ColumnTypes

def none : ColumnTypes := fun _ => Option.none

def Le (Γ Γ' : ColumnTypes) : Prop := ∀ v t, Γ v = some t → Γ' v = some t

end ColumnTypes

def Variable.typeIn (Γ : ColumnTypes) (Δ : Temporaries) (v : Variable) : Option SqlType :=
  match v.kind with
  | .stream _ => Γ v
  | .temporary => (Δ.find? fun p => v.same p.1).map (·.2)
  | .host decl => some decl.type
  | .external decl => some decl.type
  | .column _ => none

theorem Variable.typeIn_stream (h : v.isStream = true) (Γ : ColumnTypes) (Δ : Temporaries) : v.typeIn Γ Δ = Γ v := by
  unfold isStream at h
  unfold typeIn
  split at h
  · next hk => rw [hk]
  · cases h

/-- A sign keeps the type of its operand, and all other unary operators are tests. -/
def UnaryOperator.type (op : UnaryOperator) (t : SqlType) : SqlType :=
  match op with
  | .plus => t
  | .signInversion => t
  | _ => .boolean

def BinaryOperator.type (op : BinaryOperator) (t u : SqlType) : Option SqlType :=
  match op with
  | .concat => t.concat u
  | .conditionalAnd => some .boolean
  | .conditionalOr => some .boolean
  | _ => t.unify u

namespace Scalar

mutual

/-- The type of an expression. The arguments of an aggregate call are computed before the let
expressions around it, so they see no temporaries. -/
def typeIn (Γ : ColumnTypes) : Temporaries → Scalar → Option SqlType
  | _, immediate _ t => some t
  | Δ, var v => v.typeIn Γ Δ
  | Δ, unary op s => (s.typeIn Γ Δ).map op.type
  | Δ, binary op l r => do
    let t ← l.typeIn Γ Δ
    let u ← r.typeIn Γ Δ
    op.type t u
  | Δ, compare _ l r => do
    let _ ← l.typeIn Γ Δ
    let _ ← r.typeIn Γ Δ
    return .boolean
  | Δ, pattern _ i p e => do
    let _ ← i.typeIn Γ Δ
    let _ ← p.typeIn Γ Δ
    let _ ← e.typeIn Γ Δ
    return .boolean
  | Δ, conditional alternatives default => do
    let ts ← bodyTypes Γ Δ alternatives
    let us ← optionTypes Γ Δ default
    SqlType.unifyAll (ts ++ us)
  | Δ, letIn declarators body => do
    let Δ ← declare Γ Δ declarators
    body.typeIn Γ Δ
  | Δ, cast _ target s => (s.typeIn Γ Δ).map fun _ => target
  | Δ, call function arguments => (listTypes Γ Δ arguments).map fun _ => function.result
  | _, aggregate function arguments => (listTypes Γ [] arguments).map fun _ => function.result

def bodyTypes (Γ : ColumnTypes) : Temporaries → List (Scalar × Scalar) → Option (List SqlType)
  | _, [] => some []
  | Δ, (condition, body) :: rest => do
    let _ ← condition.typeIn Γ Δ
    let t ← body.typeIn Γ Δ
    let ts ← bodyTypes Γ Δ rest
    return t :: ts

def optionTypes (Γ : ColumnTypes) : Temporaries → Option Scalar → Option (List SqlType)
  | _, none => some []
  | Δ, some s => (s.typeIn Γ Δ).map fun t => [t]

/-- The temporaries after the declarators, each of which sees those before it. -/
def declare (Γ : ColumnTypes) : Temporaries → List (Variable × Scalar) → Option Temporaries
  | Δ, [] => some Δ
  | Δ, (v, s) :: rest =>
    if v.kind = .temporary then do
      let t ← s.typeIn Γ Δ
      declare Γ ((v, t) :: Δ) rest
    else none

def listTypes (Γ : ColumnTypes) : Temporaries → List Scalar → Option (List SqlType)
  | _, [] => some []
  | Δ, s :: rest => do
    let t ← s.typeIn Γ Δ
    let ts ← listTypes Γ Δ rest
    return t :: ts

end

-- a second declarator of the same variable hides the first one
example (x y : Value) :
    typeIn .none [] (letIn [(⟨1, .temporary⟩, immediate x .int4), (⟨1, .temporary⟩, immediate y .int8)]
      (var ⟨1, .temporary⟩)) = some .int8 := by
  cbv

theorem eq_var_of_asVariable? (h : s.asVariable? = some v) : s = .var v := by
  unfold asVariable? at h
  split at h
  · cases h
    rfl
  · cases h

/-- The second expression has in the second context every type that the first one has in the first. -/
def Replaces (Γ Γ' : ColumnTypes) (s s' : Scalar) : Prop :=
  ∀ Δ t, s.typeIn Γ Δ = some t → s'.typeIn Γ' Δ = some t

namespace Replaces

open List (Forall₂)

variable {Γ Γ' : ColumnTypes}

theorem unary (op : UnaryOperator) (h : Replaces Γ Γ' s s') : Replaces Γ Γ' (.unary op s) (.unary op s') := by
  intro Δ t ht
  simp only [typeIn, Option.map_eq_some_iff] at ht ⊢
  obtain ⟨u, hu, rfl⟩ := ht
  exact ⟨u, h Δ u hu, rfl⟩

theorem binary (op : BinaryOperator) (hl : Replaces Γ Γ' l l') (hr : Replaces Γ Γ' r r') :
    Replaces Γ Γ' (.binary op l r) (.binary op l' r') := by
  intro Δ t ht
  simp only [typeIn, Option.bind_eq_bind, Option.bind_eq_some_iff] at ht ⊢
  obtain ⟨u, hu, w, hw, ht⟩ := ht
  exact ⟨u, hl Δ u hu, w, hr Δ w hw, ht⟩

theorem compare (op : ComparisonOp) (hl : Replaces Γ Γ' l l') (hr : Replaces Γ Γ' r r') :
    Replaces Γ Γ' (.compare op l r) (.compare op l' r') := by
  intro Δ t ht
  simp only [typeIn, Option.bind_eq_bind, Option.bind_eq_some_iff] at ht ⊢
  obtain ⟨u, hu, w, hw, ht⟩ := ht
  exact ⟨u, hl Δ u hu, w, hr Δ w hw, ht⟩

theorem pattern (op : PatternOp) {i i' p p' e e' : Scalar} (hi : Replaces Γ Γ' i i')
    (hp : Replaces Γ Γ' p p') (he : Replaces Γ Γ' e e') :
    Replaces Γ Γ' (.pattern op i p e) (.pattern op i' p' e') := by
  intro Δ t ht
  simp only [typeIn, Option.bind_eq_bind, Option.bind_eq_some_iff] at ht ⊢
  obtain ⟨u, hu, w, hw, x, hx, ht⟩ := ht
  exact ⟨u, hi Δ u hu, w, hp Δ w hw, x, he Δ x hx, ht⟩

theorem cast (policy : LossPolicy) (target : SqlType) (h : Replaces Γ Γ' s s') :
    Replaces Γ Γ' (.cast policy target s) (.cast policy target s') := by
  intro Δ t ht
  simp only [typeIn, Option.map_eq_some_iff] at ht ⊢
  obtain ⟨u, hu, rfl⟩ := ht
  exact ⟨u, h Δ u hu, rfl⟩

theorem bodyTypes (h : Forall₂ (fun p p' => Replaces Γ Γ' p.1 p'.1 ∧ Replaces Γ Γ' p.2 p'.2) ps ps')
    (ht : bodyTypes Γ Δ ps = some ts) : Scalar.bodyTypes Γ' Δ ps' = some ts := by
  induction h generalizing ts with
  | nil => exact ht
  | cons hp _ ih =>
    simp only [Scalar.bodyTypes, Option.bind_eq_bind, Option.bind_eq_some_iff] at ht ⊢
    obtain ⟨u, hu, w, hw, us, hus, ht⟩ := ht
    exact ⟨u, hp.1 Δ u hu, w, hp.2 Δ w hw, us, ih hus, ht⟩

theorem listTypes (h : Forall₂ (Replaces Γ Γ') ss ss') (ht : listTypes Γ Δ ss = some ts) :
    Scalar.listTypes Γ' Δ ss' = some ts := by
  induction h generalizing ts with
  | nil => exact ht
  | cons hs _ ih =>
    simp only [Scalar.listTypes, Option.bind_eq_bind, Option.bind_eq_some_iff] at ht ⊢
    obtain ⟨u, hu, us, hus, ht⟩ := ht
    exact ⟨u, hs Δ u hu, us, ih hus, ht⟩

theorem conditional {o o' : Option Scalar}
    (hp : Forall₂ (fun p p' => Replaces Γ Γ' p.1 p'.1 ∧ Replaces Γ Γ' p.2 p'.2) ps ps')
    (ho : Forall₂ (Replaces Γ Γ') o.toList o'.toList) : Replaces Γ Γ' (.conditional ps o) (.conditional ps' o') := by
  intro Δ t ht
  simp only [typeIn, Option.bind_eq_bind, Option.bind_eq_some_iff] at ht ⊢
  obtain ⟨ts, hts, us, hus, ht⟩ := ht
  refine ⟨ts, bodyTypes hp hts, us, ?_, ht⟩
  cases o with
  | none =>
    cases o' with
    | none => exact hus
    | some s' => cases ho
  | some s =>
    cases o' with
    | none => cases ho
    | some s' =>
      cases ho with
      | cons hs _ =>
        simp only [optionTypes, Option.map_eq_some_iff] at hus ⊢
        obtain ⟨u, hu, rfl⟩ := hus
        exact ⟨u, hs Δ u hu, rfl⟩

theorem declare (h : Forall₂ (fun d d' => d.1 = d'.1 ∧ Replaces Γ Γ' d.2 d'.2) ds ds') {Δ' : Temporaries}
    (hd : declare Γ Δ ds = some Δ') : Scalar.declare Γ' Δ ds' = some Δ' := by
  induction h generalizing Δ with
  | nil => exact hd
  | @cons d d' _ _ h _ ih =>
    obtain ⟨v, s⟩ := d
    obtain ⟨v', s'⟩ := d'
    obtain ⟨rfl, hs⟩ := h
    simp only [Scalar.declare, Option.bind_eq_bind, Option.ite_none_right_eq_some,
      Option.bind_eq_some_iff] at hd ⊢
    obtain ⟨hv, u, hu, hd⟩ := hd
    exact ⟨hv, u, hs Δ u hu, ih hd⟩

theorem letIn {body body' : Scalar} (hd : Forall₂ (fun d d' => d.1 = d'.1 ∧ Replaces Γ Γ' d.2 d'.2) ds ds')
    (hb : Replaces Γ Γ' body body') : Replaces Γ Γ' (.letIn ds body) (.letIn ds' body') := by
  intro Δ t ht
  simp only [typeIn, Option.bind_eq_bind, Option.bind_eq_some_iff] at ht ⊢
  obtain ⟨Δ', hΔ, ht⟩ := ht
  exact ⟨Δ', declare hd hΔ, hb Δ' t ht⟩

theorem call (function : FunctionDecl) (h : Forall₂ (Replaces Γ Γ') ss ss') :
    Replaces Γ Γ' (.call function ss) (.call function ss') := by
  intro Δ t ht
  simp only [typeIn, Option.map_eq_some_iff] at ht ⊢
  obtain ⟨ts, hts, rfl⟩ := ht
  exact ⟨ts, listTypes h hts, rfl⟩

theorem aggregate (function : AggregateDecl) (h : Forall₂ (Replaces Γ Γ') ss ss') :
    Replaces Γ Γ' (.aggregate function ss) (.aggregate function ss') := by
  intro Δ t ht
  simp only [typeIn, Option.map_eq_some_iff] at ht ⊢
  obtain ⟨ts, hts, rfl⟩ := ht
  exact ⟨ts, listTypes h hts, rfl⟩

end Replaces

section

open List (Forall₂)

variable {Γ Γ' : ColumnTypes}

mutual

theorem replaces_of_le (h : Γ.Le Γ') : ∀ s : Scalar, Replaces Γ Γ' s s
  | immediate _ _ => fun _ _ ht => ht
  | var v => by
    intro Δ t ht
    simp only [typeIn, Variable.typeIn] at ht ⊢
    split at ht
    · exact h v t ht
    all_goals exact ht
  | unary op s => .unary op (replaces_of_le h s)
  | binary op l r => .binary op (replaces_of_le h l) (replaces_of_le h r)
  | compare op l r => .compare op (replaces_of_le h l) (replaces_of_le h r)
  | pattern op i p e => .pattern op (replaces_of_le h i) (replaces_of_le h p) (replaces_of_le h e)
  | conditional ps none => .conditional (pairs_replace_of_le h ps) .nil
  | conditional ps (some s) =>
    .conditional (pairs_replace_of_le h ps) (.cons (replaces_of_le h s) .nil)
  | letIn ds body => .letIn (declarators_replace_of_le h ds) (replaces_of_le h body)
  | cast policy target s => .cast policy target (replaces_of_le h s)
  | call function ss => .call function (list_replaces_of_le h ss)
  | aggregate function ss => .aggregate function (list_replaces_of_le h ss)

theorem pairs_replace_of_le (h : Γ.Le Γ') : ∀ ps : List (Scalar × Scalar),
    Forall₂ (fun p p' => Replaces Γ Γ' p.1 p'.1 ∧ Replaces Γ Γ' p.2 p'.2) ps ps
  | [] => .nil
  | (a, b) :: ps => .cons ⟨replaces_of_le h a, replaces_of_le h b⟩ (pairs_replace_of_le h ps)

theorem declarators_replace_of_le (h : Γ.Le Γ') : ∀ ds : List (Variable × Scalar),
    Forall₂ (fun d d' => d.1 = d'.1 ∧ Replaces Γ Γ' d.2 d'.2) ds ds
  | [] => .nil
  | (_, s) :: ds => .cons ⟨rfl, replaces_of_le h s⟩ (declarators_replace_of_le h ds)

theorem list_replaces_of_le (h : Γ.Le Γ') : ∀ ss : List Scalar, Forall₂ (Replaces Γ Γ') ss ss
  | [] => .nil
  | s :: ss => .cons (replaces_of_le h s) (list_replaces_of_le h ss)

end

end

def Covered (Γ : ColumnTypes) (vs : List Variable) : Prop := ∀ v ∈ vs, v.isStream = true → (Γ v).isSome = true

namespace Covered

variable {Γ : ColumnTypes} {vs ws : List Variable}

theorem nil : Covered Γ [] := fun _ h => nomatch h

theorem append (h : Covered Γ vs) (h' : Covered Γ ws) : Covered Γ (vs ++ ws) := by
  intro v hv
  rcases List.mem_append.mp hv with hv | hv
  · exact h v hv
  · exact h' v hv

end Covered

section

variable {Γ : ColumnTypes}

mutual

theorem covered_of_typeIn : ∀ (s : Scalar) {Δ : Temporaries} {t : SqlType},
    s.typeIn Γ Δ = some t → Covered Γ s.mentioned
  | immediate _ _, _, _, _ => .nil
  | var v, Δ, t, h => by
    intro w hw hs
    obtain rfl := List.mem_singleton.mp hw
    simp only [typeIn, Variable.typeIn] at h
    split at h
    · simp [h]
    all_goals next hk => simp [Variable.isStream, hk] at hs
  | unary _ s, _, _, h | cast _ _ s, _, _, h => by
    obtain ⟨_, hs, _⟩ := Option.map_eq_some_iff.mp h
    exact covered_of_typeIn s hs
  | binary _ l r, _, _, h | compare _ l r, _, _, h => by
    simp only [typeIn, Option.bind_eq_bind, Option.bind_eq_some_iff] at h
    obtain ⟨_, hl, _, hr, _⟩ := h
    exact (covered_of_typeIn l hl).append (covered_of_typeIn r hr)
  | pattern _ i p e, _, _, h => by
    simp only [typeIn, Option.bind_eq_bind, Option.bind_eq_some_iff] at h
    obtain ⟨_, hi, _, hp, _, he, _⟩ := h
    exact ((covered_of_typeIn i hi).append (covered_of_typeIn p hp)).append (covered_of_typeIn e he)
  | conditional ps o, _, _, h => by
    simp only [typeIn, Option.bind_eq_bind, Option.bind_eq_some_iff] at h
    obtain ⟨_, hp, _, ho, _⟩ := h
    exact (pairs_covered ps hp).append (option_covered o ho)
  | letIn ds body, _, _, h => by
    simp only [typeIn, Option.bind_eq_bind, Option.bind_eq_some_iff] at h
    obtain ⟨_, hd, hb⟩ := h
    exact (declarators_covered ds hd).append (covered_of_typeIn body hb)
  | call _ ss, _, _, h | aggregate _ ss, _, _, h => by
    obtain ⟨_, hs, _⟩ := Option.map_eq_some_iff.mp h
    exact list_covered ss hs

theorem pairs_covered : ∀ (ps : List (Scalar × Scalar)) {Δ : Temporaries} {ts : List SqlType},
    bodyTypes Γ Δ ps = some ts → Covered Γ (pairVariables ps)
  | [], _, _, _ => .nil
  | (a, b) :: ps, _, _, h => by
    simp only [bodyTypes, Option.bind_eq_bind, Option.bind_eq_some_iff] at h
    obtain ⟨_, ha, _, hb, _, hp, _⟩ := h
    exact ((covered_of_typeIn a ha).append (covered_of_typeIn b hb)).append (pairs_covered ps hp)

theorem option_covered : ∀ (o : Option Scalar) {Δ : Temporaries} {ts : List SqlType},
    optionTypes Γ Δ o = some ts → Covered Γ (optionVariables o)
  | none, _, _, _ => .nil
  | some s, _, _, h => by
    obtain ⟨_, hs, _⟩ := Option.map_eq_some_iff.mp h
    exact covered_of_typeIn s hs

theorem declarators_covered : ∀ (ds : List (Variable × Scalar)) {Δ Δ' : Temporaries},
    declare Γ Δ ds = some Δ' → Covered Γ (ds.map (·.1) ++ declaratorVariables ds)
  | [], _, _, _ => .nil
  | (v, s) :: ds, _, _, h => by
    simp only [declare, Option.bind_eq_bind, Option.ite_none_right_eq_some, Option.bind_eq_some_iff] at h
    obtain ⟨hv, _, hs, hd⟩ := h
    intro w hw
    simp only [List.map_cons, declaratorVariables, List.cons_append, List.mem_cons, List.mem_append] at hw
    rcases hw with rfl | hw | hw | hw
    · simp [Variable.isStream, hv]
    · exact declarators_covered ds hd w (List.mem_append_left _ hw)
    · exact covered_of_typeIn s hs w hw
    · exact declarators_covered ds hd w (List.mem_append_right _ hw)

theorem list_covered : ∀ (ss : List Scalar) {Δ : Temporaries} {ts : List SqlType},
    listTypes Γ Δ ss = some ts → Covered Γ (listVariables ss)
  | [], _, _, _ => .nil
  | s :: ss, _, _, h => by
    simp only [listTypes, Option.bind_eq_bind, Option.bind_eq_some_iff] at h
    obtain ⟨_, hs, _, hss, _⟩ := h
    exact (covered_of_typeIn s hs).append (list_covered ss hss)

end

end

end Scalar

end SqlPlan
