import SqlPlan.Proofs.Ensures
import SqlPlan.Proofs.ScalarTree
import SqlPlan.Proofs.WrittenConstants

namespace SqlPlan

/-- Whether something holds of every node of an expression. -/
def Scalar.Every (P : Scalar → Prop) (s : Scalar) : Prop := ∀ p c, s.at? p = some c → P c

theorem Scalar.every_iff {P : Scalar → Prop} {s : Scalar} : s.Every P ↔ P s ∧ ∀ c ∈ s.children, c.Every P := by
  constructor
  · refine fun h => ⟨h [] s rfl, fun c hc p c' hp => ?_⟩
    obtain ⟨i, hi⟩ := List.mem_iff_getElem?.mp hc
    exact h (i :: p) c' (by rw [at?, hi, Option.bind_some, hp])
  · rintro ⟨hs, hchildren⟩ p c hp
    cases p with
    | nil =>
      cases hp
      exact hs
    | cons i p =>
      obtain ⟨c', hc', hp⟩ := Option.bind_eq_some_iff.mp hp
      exact hchildren c' (List.mem_of_getElem? hc') p c hp

structure Vocabulary where
  types : SqlType → Prop
  constants : Value → SqlType → Prop
  unknown : types .unknown
  boolean : types .boolean
  string (kind : StringKind) (varying : Bool) (length : Option Nat) : types (.string kind varying length)
  unify {a b c : SqlType} : types a → types b → a.unify b = some c → types c
  null {t : SqlType} : types t → constants .null t
  noEscape : constants (.character "") .flexibleVarchar

namespace Vocabulary

variable (V : Vocabulary)

def Allows : Scalar → Prop
  | .immediate v t => V.constants v t
  | .cast _ t _ => V.types t
  | _ => True

def Says (s : Scalar) : Prop := s.Every V.Allows

def Gives (x : Typed) : Prop := V.Says x.expr ∧ V.types x.type

structure OfTarget (t : Target) : Prop where
  type : V.types t.type
  default : ∀ v ∈ t.default, V.constants v t.type

structure OfSchema (s : Schema) : Prop where
  columns : ∀ t ∈ s.tables, ∀ c ∈ t.columns, V.types c.type
  parameters : ∀ f ∈ s.functions, ∀ t ∈ f.parameters, V.types t
  results : ∀ f ∈ s.functions, V.types f.result
  aggregateParameters : ∀ f ∈ s.aggregates, ∀ t ∈ f.parameters, V.types t
  aggregateResults : ∀ f ∈ s.aggregates, V.types f.result
  externals : ∀ v ∈ s.externals, V.types v.type

structure OfEnvironment (env : Environment) : Prop where
  literals : ∀ l v t, Literal.constant env.options l = .ok (v, t) → V.constants v t ∧ V.types t
  written : ∀ d t, DataType.type env.options d = .ok t → V.types t
  hostParameters : ∀ key decl, env.hostParameter? key = some decl → V.types decl.type
  placeholders : ∀ key v t, env.placeholder? key = some (v, t) → V.constants v t ∧ V.types t
  schemas : ∀ s, s ∈ env.catalog.schemas ∨ s ∈ env.searchPath.schemas → V.OfSchema s

def OfScopes (scopes : Scopes) : Prop := ∀ c ∈ scopes.visible, V.types c.type

/-- Elaborated expressions are of the vocabulary if the target is, or the types that bare NULLs have. Operands that are
not bare NULLs are of it in any case. -/
def Elaborated {Q : Type} : Position → List (Expr Q) → List Typed → Prop
  | .target target, _, xs => (∀ t ∈ target, V.OfTarget t) → ∀ x ∈ xs, V.Gives x
  | .operands nulls, es, xs => ((∀ i, V.types (nulls i)) → ∀ x ∈ xs, V.Gives x) ∧
    ∀ p ∈ es.zip xs, p.1.isNull = false → V.Gives p.2

variable {V} {s l r : Scalar}

theorem says_iff : V.Says s ↔ V.Allows s ∧ ∀ c ∈ s.children, V.Says c := Scalar.every_iff

@[simp] theorem says_immediate {v : Value} {t : SqlType} : V.Says (.immediate v t) ↔ V.constants v t := by
  rw [says_iff]
  simp [Allows, Scalar.children]

@[simp] theorem says_var (v : Variable) : V.Says (.var v) := by
  rw [says_iff]
  simp [Allows, Scalar.children]

@[simp] theorem says_unary {op : UnaryOperator} : V.Says (.unary op s) ↔ V.Says s := by
  rw [says_iff]
  simp [Allows, Scalar.children]

@[simp] theorem says_cast {policy : LossPolicy} {t : SqlType} :
    V.Says (.cast policy t s) ↔ V.types t ∧ V.Says s := by
  rw [says_iff]
  simp [Allows, Scalar.children]

@[simp] theorem says_binary {op : BinaryOperator} : V.Says (.binary op l r) ↔ V.Says l ∧ V.Says r := by
  rw [says_iff]
  simp [Allows, Scalar.children]

@[simp] theorem says_compare {op : ComparisonOp} : V.Says (.compare op l r) ↔ V.Says l ∧ V.Says r := by
  rw [says_iff]
  simp [Allows, Scalar.children]

@[simp] theorem says_pattern {op : PatternOp} {e : Scalar} :
    V.Says (.pattern op l r e) ↔ V.Says l ∧ V.Says r ∧ V.Says e := by
  rw [says_iff]
  simp [Allows, Scalar.children]

@[simp] theorem says_conditional {ps : List (Scalar × Scalar)} {o : Option Scalar} :
    V.Says (.conditional ps o) ↔ (∀ p ∈ ps, V.Says p.1 ∧ V.Says p.2) ∧ ∀ d ∈ o, V.Says d := by
  rw [says_iff, Scalar.children_conditional]
  simp only [Allows, true_and, List.forall_mem_append, flatPairs, List.forall_mem_flatMap, Option.mem_toList]
  simp

@[simp] theorem says_letIn {ds : List (Variable × Scalar)} :
    V.Says (.letIn ds s) ↔ (∀ d ∈ ds, V.Says d.2) ∧ V.Says s := by
  rw [says_iff]
  simp only [Allows, Scalar.children, true_and, List.forall_mem_append, List.forall_mem_map, List.forall_mem_singleton]

@[simp] theorem says_call {f : FunctionDecl} {ss : List Scalar} : V.Says (.call f ss) ↔ ∀ s ∈ ss, V.Says s := by
  rw [says_iff]
  simp [Allows, Scalar.children]

@[simp] theorem says_aggregate {f : AggregateDecl} {ss : List Scalar} :
    V.Says (.aggregate f ss) ↔ ∀ s ∈ ss, V.Says s := by
  rw [says_iff]
  simp [Allows, Scalar.children]

theorem says_negatedIf (h : V.Says s) (negated : Bool) : V.Says (s.negatedIf negated) := by
  cases negated with
  | true => exact says_unary.mpr h
  | false => exact h

theorem gives_truth (h : V.Says s) (negated aggregated : Bool) : V.Gives (.truth s negated aggregated) :=
  ⟨says_negatedIf h negated, V.boolean⟩

theorem says_anyOf {ss : List Scalar} (h : ∀ t ∈ s :: ss, V.Says t) : V.Says (Form.anyOf s ss) := by
  unfold Form.anyOf
  induction ss generalizing s with
  | nil => exact h s (List.mem_singleton_self s)
  | cons t ss ih =>
    obtain ⟨hs, h⟩ := List.forall_mem_cons.mp h
    obtain ⟨ht, hss⟩ := List.forall_mem_cons.mp h
    exact ih (List.forall_mem_cons.mpr ⟨says_binary.mpr ⟨hs, ht⟩, hss⟩)

theorem concat {a b c : SqlType} (h : a.concat b = some c) : V.types c := by
  unfold SqlType.concat at h
  split at h
  all_goals first
    | (cases h; exact V.string _ _ _)
    | (split at h <;> cases h; exact V.string _ _ _)
    | cases h

theorem unifyAll {ts : List SqlType} {u : SqlType} (hts : ∀ t ∈ ts, V.types t) (h : SqlType.unifyAll ts = some u) :
    V.types u := by
  have hfold : ∀ a, V.types a → ts.foldlM SqlType.unify a = some u → V.types u := by
    clear h
    induction ts with
    | nil =>
      rintro a ha ⟨⟩
      exact ha
    | cons t ts ih =>
      intro a ha h
      obtain ⟨ht, hts⟩ := List.forall_mem_cons.mp hts
      obtain ⟨b, hb, h⟩ := (SqlType.foldlM_unify_cons _ _ _ _).mp h
      exact ih hts b (V.unify ha ht hb) h
  exact hfold .unknown V.unknown h

theorem gives_null {t : SqlType} (h : V.types t) : V.Gives (.constant .null t) := ⟨says_immediate.mpr (V.null h), h⟩

theorem says_map_expr {xs : List Typed} (h : ∀ x ∈ xs, V.Gives x) : ∀ s ∈ xs.map (·.expr), V.Says s :=
  List.forall_mem_map.mpr fun x hx => (h x hx).1

theorem says_conditionalOf {clauses : Nat} {tests : List Scalar} {bodies : List Typed} (htests : ∀ s ∈ tests, V.Says s)
    (hbodies : ∀ x ∈ bodies, V.Gives x) : V.Says (conditionalOf clauses tests bodies) := by
  have hexprs := says_map_expr hbodies
  refine says_conditional.mpr ⟨fun p hp => ?_, fun d hd => hexprs d (List.mem_of_getElem? hd)⟩
  exact ⟨htests _ (List.of_mem_zip hp).1, hexprs _ (List.mem_of_mem_take (List.of_mem_zip hp).2)⟩

namespace Elaborated

variable {Q : Type} {p : Position} {e : Expr Q} {x : Typed} {es : List (Expr Q)} {xs : List Typed}
  {t fallback : SqlType}

theorem of_gives (h : V.types p.fallback → V.Gives x) : V.Elaborated p [e] [x] := by
  cases p with
  | target target =>
    refine fun htarget => List.forall_mem_singleton.mpr (h ?_)
    cases target with
    | none => exact V.unknown
    | some t => exact (htarget t rfl).type
  | operands nulls =>
    have hx := h V.unknown
    exact ⟨fun _ => List.forall_mem_singleton.mpr hx, fun q hq _ => List.mem_singleton.mp hq ▸ hx⟩

theorem gives (h : V.Elaborated (.all t) es xs) (ht : V.types t) : ∀ x ∈ xs, V.Gives x := h.1 fun _ => ht

theorem shared (h : V.Elaborated (.all t) es xs) (hshared : SharedType fallback es xs t)
    (hfallback : V.types fallback) : V.types t ∧ ∀ x ∈ xs, V.Gives x := by
  obtain ⟨u, hu, rfl⟩ := hshared.given
  have hgiven : ∀ a ∈ givenTypes es xs, V.types a := by
    refine List.forall_mem_map.mpr fun q hq => ?_
    obtain ⟨hq, hnull⟩ := List.mem_filter.mp hq
    exact (h.2 q hq (by simpa using hnull)).2
  have ht : V.types (if u = .unknown ∧ es.any (·.isNull) = true then fallback else u) := by
    split
    · exact hfallback
    · exact unifyAll hgiven hu
  exact ⟨ht, h.gives ht⟩

theorem paired {l r : Expr Q} {y : Typed} (h : V.Elaborated (.all (pairedType l r x y)) [l, r] [x, y]) :
    V.Gives x ∧ V.Gives y := by
  have hpaired : V.types (pairedType l r x y) := by
    unfold pairedType
    split
    · split
      · exact V.unknown
      · rename_i hr
        exact (h.2 (r, y) (by simp) (by simpa using hr)).2
    · rename_i hl
      exact (h.2 (l, x) (by simp) (by simpa using hl)).2
  simpa using h.gives hpaired

end Elaborated

end Vocabulary

open Vocabulary

variable {V : Vocabulary} {env : Environment}

section Environments

variable (henv : V.OfEnvironment env)
include henv

theorem Literal.typed_gives {l : Literal} {target : Option Target} {x : Typed} (htarget : ∀ t ∈ target, V.OfTarget t)
    (hx : l.typed env.options target = .ok x) : V.Gives x := by
  have hconstant : ∀ l : Literal, (l.constant env.options).map (fun p => Typed.constant p.1 p.2) = .ok x →
      V.Gives x := by
    intro l hl
    cases hc : l.constant env.options with
    | error d => simp [hc, Except.map] at hl
    | ok p =>
      obtain ⟨v, t⟩ := p
      simp only [hc, Except.map, Except.ok.injEq] at hl
      obtain ⟨hv, ht⟩ := henv.literals l v t hc
      exact hl ▸ ⟨says_immediate.mpr hv, ht⟩
  by_cases hnull : l = .null
  · subst hnull
    rw [typed_null_eq hx]
    cases target with
    | some t => exact gives_null (htarget t rfl).type
    | none => exact gives_null V.unknown
  by_cases hdefault : l = .default
  · subst hdefault
    rcases target with _ | ⟨t, _ | v⟩
    · exact hconstant .default hx
    · exact hconstant .default hx
    · cases hx
      exact ⟨says_immediate.mpr ((htarget _ rfl).default v rfl), (htarget _ rfl).type⟩
  rw [typed_eq_map hnull hdefault] at hx
  cases hc : l.constant env.options with
  | error d => simp [hc, Except.map] at hx
  | ok p =>
    obtain ⟨v, t⟩ := p
    obtain ⟨hv, ht⟩ := henv.literals l v t hc
    simp only [hc, Except.map, Except.ok.injEq] at hx
    subst hx
    cases target with
    | none => exact ⟨says_immediate.mpr hv, ht⟩
    | some target =>
      simp only [Typed.placed]
      split
      · exact ⟨says_cast.mpr ⟨(htarget _ rfl).type, says_immediate.mpr hv⟩, (htarget _ rfl).type⟩
      · exact ⟨says_immediate.mpr hv, ht⟩

namespace Form

theorem resolveFunctions_ensures {σ : Type} {I : σ → Prop} (name : Name) (arity : Nat) :
    Step.Ensures env I (name.resolveFunctions arity) fun r =>
      ∀ f ∈ r.2, (∀ t ∈ f.parameters, V.types t) ∧ V.types f.result := by
  refine .bind (Name.lookUp_ensures_mem "" fun s hs key f hf => ?_) fun r hr =>
    .pure fun f hf => hr f (List.mem_filter.mp hf).1
  have hmem := Entries.mem_flatten hf
  exact ⟨(henv.schemas s hs).parameters f hmem, (henv.schemas s hs).results f hmem⟩

theorem resolveAggregates_ensures (name : Name) (suffix : String) (arity : Nat) (asterisk : Bool) :
    Analysis.Ensures env (name.resolveAggregates suffix arity asterisk) fun r =>
      ∀ f ∈ r.2, (∀ t ∈ f.parameters, V.types t) ∧ V.types f.result := by
  refine .bind (Name.lookUp_ensures_mem suffix fun s hs key f hf => ?_) fun r hr =>
    .pure fun f hf => hr f (List.mem_filter.mp hf).1
  have hmem := Entries.mem_flatten hf
  exact ⟨(henv.schemas s hs).aggregateParameters f hmem, (henv.schemas s hs).aggregateResults f hmem⟩

theorem scalarOverloads_ensures (name : Name) (arity : Nat) : Analysis.Ensures env (name.scalarOverloads arity) fun r =>
    ∀ f ∈ r, (∀ t ∈ f.parameters, V.types t) ∧ V.types f.result :=
  .bind (resolveFunctions_ensures henv name arity) fun _ hr => .pure fun f hf => hr f (List.mem_filter.mp hf).1

end Form

end Environments

theorem Vocabulary.Elaborated.arguments {Q D : Type} [Overloaded D] {candidates : List D} {es : List (Expr Q)}
    {xs : List Typed} (h : V.Elaborated (.arguments candidates) es xs)
    (hcandidates : ∀ d ∈ candidates, ∀ t ∈ Overloaded.parameters d, V.types t) : ∀ x ∈ xs, V.Gives x := by
  refine h.1 fun i => ?_
  dsimp only
  cases hp : Overload.commonParameter? candidates i with
  | none => exact V.unknown
  | some t =>
    obtain ⟨d, hd, ht⟩ := Overload.mem_of_commonParameter? hp
    exact hcandidates d hd t ht

variable {Q : Type} {scopes : Scopes}

theorem Elaborates.ofVocabulary (henv : V.OfEnvironment env) (hscopes : V.OfScopes scopes) {p : Position}
    {es : List (Expr Q)} {n m : Nat} {xs : List Typed} (h : Elaborates env scopes p es n xs m) :
    V.Elaborated p es xs := by
  induction h with
  | @nil p _ => cases p <;> simp [Elaborated]
  | @cons e es x xs _ _ _ p _ _ ih ih' =>
    cases p with
    | target t => exact fun ht => List.forall_mem_cons.mpr ⟨ih ht x (by simp), ih' ht⟩
    | operands nulls =>
      refine ⟨fun h => List.forall_mem_cons.mpr ⟨ih.1 h x (by simp), ih'.1 fun i => h (i + 1)⟩, ?_⟩
      exact List.forall_mem_cons.mpr ⟨ih.2 (e, x) (by simp), ih'.2⟩
  | @literal l x p n hx =>
    cases p with
    | target t => exact fun ht => List.forall_mem_singleton.mpr (Literal.typed_gives henv ht hx)
    | operands nulls =>
      cases hnull : (Expr.literal l : Expr Q).isNull with
      | true =>
        rw [hnull] at hx
        refine ⟨fun h => List.forall_mem_singleton.mpr (Literal.typed_gives henv ?_ hx), by simp [hnull]⟩
        rintro _ ⟨⟩
        exact ⟨h 0, by simp⟩
      | false =>
        rw [hnull] at hx
        exact .of_gives fun _ => Literal.typed_gives henv (by simp [Position.expected]) hx
  | negated _ _ hx => exact .of_gives fun _ => Literal.typed_gives henv (by simp) hx
  | @reference name r n m p hr =>
    refine .of_gives fun _ => ⟨says_var _, ?_⟩
    rcases Name.resolveVariable_cases hr with ⟨c, hc, rfl, -⟩ | ⟨decl, rfl, -, -, s, hs, hdecl⟩
    · exact hscopes c hc
    · exact (henv.schemas s (.inr hs)).externals decl hdecl
  | hostParameter hx =>
    obtain ⟨decl, rfl, -, hdecl⟩ | ⟨v, t, rfl, -, -, hplaceholder⟩ := Form.hostParameter_ok hx
    · exact .of_gives fun _ => ⟨says_var _, henv.hostParameters _ _ hdecl⟩
    · obtain ⟨hv, ht⟩ := henv.placeholders _ _ _ hplaceholder
      exact .of_gives fun _ => ⟨says_immediate.mpr hv, ht⟩
  | sign _ _ _ ih =>
    have hx := ih.gives V.unknown _ (List.mem_singleton_self _)
    exact .of_gives fun _ => ⟨says_unary.mpr hx.1, hx.2⟩
  | test _ _ ih | isTest _ _ _ ih =>
    have hx := ih.gives V.unknown _ (List.mem_singleton_self _)
    exact .of_gives fun _ => gives_truth (says_unary.mpr hx.1) _ _
  | logical _ _ ih =>
    have hxy := ih.gives V.boolean
    exact .of_gives fun _ => ⟨says_binary.mpr ⟨(hxy _ (by simp)).1, (hxy _ (by simp)).1⟩, V.boolean⟩
  | concat _ ht ih =>
    obtain ⟨hx, hy⟩ := ih.paired
    exact .of_gives fun _ => ⟨says_binary.mpr ⟨hx.1, hy.1⟩, Vocabulary.concat ht⟩
  | arithmetic _ _ hshared ih =>
    obtain ⟨ht, hxy⟩ := ih.shared hshared V.unknown
    exact .of_gives fun _ => ⟨says_binary.mpr ⟨(hxy _ (by simp)).1, (hxy _ (by simp)).1⟩, ht⟩
  | comparison _ hshared ih =>
    obtain ⟨-, hxy⟩ := ih.shared hshared V.unknown
    exact .of_gives fun _ => ⟨says_compare.mpr ⟨(hxy _ (by simp)).1, (hxy _ (by simp)).1⟩, V.boolean⟩
  | between _ hshared ih =>
    have hxs := says_map_expr (ih.shared hshared V.unknown).2
    simp only [List.map_cons, List.map_nil, List.forall_mem_cons] at hxs
    refine .of_gives fun _ => gives_truth ?_ _ _
    simp [Form.inRange, Scalar.conjunction, hxs]
  | betweenSymmetric _ hshared ih =>
    have hxs := says_map_expr (ih.shared hshared V.unknown).2
    refine .of_gives fun _ => gives_truth ?_ _ _
    simpa [Scalar.disjunction, Form.inRange, Scalar.conjunction] using hxs
  | @inList e values x y ys t negated n m p _ hshared ih =>
    obtain ⟨hx, hys⟩ := List.forall_mem_cons.mp (ih.shared hshared V.unknown).2
    refine .of_gives fun _ => gives_truth (says_letIn.mpr ⟨by simp [hx.1], says_anyOf fun s hs => ?_⟩) _ _
    rw [← List.map_cons, ← List.map_cons] at hs
    obtain ⟨s, hmem, rfl⟩ := List.mem_map.mp hs
    exact says_compare.mpr ⟨says_var _, says_map_expr hys s hmem⟩
  | pattern _ ih =>
    have hxs := ih.gives (V.string _ _ _)
    refine .of_gives fun _ => gives_truth ?_ _ _
    exact says_pattern.mpr ⟨(hxs _ (by simp)).1, (hxs _ (by simp)).1, says_immediate.mpr V.noEscape⟩
  | patternEscape _ ih =>
    have hxs := ih.gives (V.string _ _ _)
    refine .of_gives fun _ => gives_truth ?_ _ _
    exact says_pattern.mpr ⟨(hxs _ (by simp)).1, (hxs _ (by simp)).1, (hxs _ (by simp)).1⟩
  | searchedCase _ _ _ hshared ihw ihb =>
    refine .of_gives fun hfallback => ?_
    obtain ⟨ht, hbs⟩ := ihb.shared hshared hfallback
    exact ⟨says_conditionalOf (says_map_expr (ihw.gives V.unknown)) hbs, ht⟩
  | @simpleCase e clauses default x ws bs u t n k m p _ _ hwhens _ hshared ihw ihb =>
    refine .of_gives fun hfallback => ?_
    obtain ⟨hx, hws⟩ := List.forall_mem_cons.mp (ihw.shared hwhens V.unknown).2
    obtain ⟨ht, hbs⟩ := ihb.shared hshared hfallback
    refine ⟨says_letIn.mpr ⟨by simp [hx.1], says_conditionalOf (List.forall_mem_map.mpr fun s hs => ?_) hbs⟩, ht⟩
    exact says_compare.mpr ⟨says_var _, says_map_expr hws s hs⟩
  | nullif _ hshared ih =>
    obtain ⟨ht, hxy⟩ := ih.shared hshared V.unknown
    simp only [List.forall_mem_cons] at hxy
    refine .of_gives fun _ => ⟨?_, ht⟩
    simp [Form.equals, hxy.1.1, hxy.2.1.1, V.null ht]
  | cast ht _ ih =>
    have ht := henv.written _ _ ht
    exact .of_gives fun _ => ⟨says_cast.mpr ⟨ht, (ih.gives ht _ (List.mem_singleton_self _)).1⟩, ht⟩
  | call hoverloads hcheapest _ ih =>
    have hfound := (Form.scalarOverloads_ensures henv _ _ _ _ _ trivial hoverloads).2
    have hxs := ih.arguments fun f hf => (hfound f hf).1
    exact .of_gives fun _ => ⟨says_call.mpr (says_map_expr hxs), (hfound _ (Overload.mem_of_cheapest hcheapest)).2⟩
  | aggregate _ haggregates hcheapest _ ih =>
    have hfound := (Form.resolveAggregates_ensures henv _ _ _ _ _ _ _ trivial haggregates).2
    have hxs := ih.arguments fun f hf => (hfound f hf).1
    exact .of_gives fun _ =>
      ⟨says_aggregate.mpr (says_map_expr hxs), (hfound _ (Overload.mem_of_cheapest hcheapest)).2⟩

theorem Expr.gives_of_resolve (henv : V.OfEnvironment env) (hscopes : V.OfScopes scopes) {e : Expr Q}
    {target : Option Target} (htarget : ∀ t ∈ target, V.OfTarget t) {n m : Nat} {x : Typed}
    (h : e.resolve scopes target env n = (.ok x, m)) : V.Gives x :=
  (Expr.sound env scopes e target n x m h).ofVocabulary henv hscopes htarget x (List.mem_singleton_self x)

end SqlPlan
