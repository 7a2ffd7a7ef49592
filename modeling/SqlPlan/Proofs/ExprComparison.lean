import SqlPlan.Proofs.Comparison
import SqlPlan.Proofs.ElaborationTyped
import SqlPlan.Proofs.Mentions
import SqlPlan.Proofs.Renumbering

namespace SqlPlan

open List (Forall₂)

/-- Which vars and scalar expressions of two runs belong together. The constructors keep it. -/
structure Scalar.Matching where
  vars : Link Variable Variable
  scalars : Link Scalar Scalar
  immediate (value : Value) (t : SqlType) : scalars.Rel (.immediate value t) (.immediate value t)
  var {v v' : Variable} : vars.Rel v v' → scalars.Rel (.var v) (.var v')
  unary (op : UnaryOperator) {x x' : Scalar} : scalars.Rel x x' → scalars.Rel (.unary op x) (.unary op x')
  binary (op : BinaryOperator) {l l' r r' : Scalar} :
    scalars.Rel l l' → scalars.Rel r r' → scalars.Rel (.binary op l r) (.binary op l' r')
  compare (op : ComparisonOp) {l l' r r' : Scalar} :
    scalars.Rel l l' → scalars.Rel r r' → scalars.Rel (.compare op l r) (.compare op l' r')
  pattern (op : PatternOp) {x x' p p' e e' : Scalar} : scalars.Rel x x' → scalars.Rel p p' → scalars.Rel e e' →
    scalars.Rel (.pattern op x p e) (.pattern op x' p' e')
  conditional {as as' : List (Scalar × Scalar)} {d d' : Option Scalar} :
    (scalars.prod scalars).list.Rel as as' → scalars.option.Rel d d' →
      scalars.Rel (.conditional as d) (.conditional as' d')
  letIn {ds ds' : List (Variable × Scalar)} {x x' : Scalar} :
    (vars.prod scalars).list.Rel ds ds' → scalars.Rel x x' → scalars.Rel (.letIn ds x) (.letIn ds' x')
  cast (policy : LossPolicy) (t : SqlType) {x x' : Scalar} :
    scalars.Rel x x' → scalars.Rel (.cast policy t x) (.cast policy t x')
  call (f : FunctionDecl) {xs xs' : List Scalar} :
    scalars.list.Rel xs xs' → scalars.Rel (.call f xs) (.call f xs')
  aggregate (f : AggregateDecl) {xs xs' : List Scalar} :
    scalars.list.Rel xs xs' → scalars.Rel (.aggregate f xs) (.aggregate f xs')

def Typed.renumber (ν : Nat ↪ Nat) (x : Typed) : Typed := ⟨x.expr.renumber ν, x.type, x.aggregated⟩

namespace Scalar.Matching

variable (M : Matching)

def typed : Link Typed Typed where
  Rel x y := M.scalars.Rel x.expr y.expr ∧ x.type = y.type ∧ x.aggregated = y.aggregated
  total x := by
    obtain ⟨s, hs⟩ := M.scalars.total x.expr
    exact ⟨⟨s, x.type, x.aggregated⟩, hs, rfl, rfl⟩

def shared : Link Shared Shared where
  Rel x y := M.scalars.list.Rel x.exprs y.exprs ∧ x.type = y.type ∧ x.aggregated = y.aggregated
  total x := by
    obtain ⟨ss, hss⟩ := M.scalars.list.total x.exprs
    exact ⟨⟨ss, x.type, x.aggregated⟩, hss, rfl, rfl⟩

variable {s s' : Scalar}

theorem negatedIf (negated : Bool) (h : M.scalars.Rel s s') :
    M.scalars.Rel (s.negatedIf negated) (s'.negatedIf negated) := by
  cases negated with
  | true => exact M.unary _ h
  | false => exact h

theorem truth (negated aggregated : Bool) (h : M.scalars.Rel s s') :
    M.typed.Rel (.truth s negated aggregated) (.truth s' negated aggregated) :=
  ⟨M.negatedIf negated h, rfl, rfl⟩

theorem equals {v v' : Variable} (hv : M.vars.Rel v v') (h : M.scalars.Rel s s') :
    M.scalars.Rel (Form.equals v s) (Form.equals v' s') := M.compare _ (M.var hv) h

theorem map_equals {v v' : Variable} (hv : M.vars.Rel v v') {ss ss' : List Scalar}
    (h : M.scalars.list.Rel ss ss') :
    M.scalars.list.Rel (ss.map (Form.equals v)) (ss'.map (Form.equals v')) := by
  change Forall₂ _ _ _
  rw [List.forall₂_map_left_iff, List.forall₂_map_right_iff]
  exact h.imp fun _ _ h => M.equals hv h

theorem inRange {l l' h h' : Scalar} (hl : M.scalars.Rel l l') (hs : M.scalars.Rel s s')
    (hh : M.scalars.Rel h h') : M.scalars.Rel (Form.inRange l s h) (Form.inRange l' s' h') :=
  M.binary _ (M.compare _ hl hs) (M.compare _ hs hh)

theorem anyOf (hs : M.scalars.Rel s s') {ss ss' : List Scalar} (h : M.scalars.list.Rel ss ss') :
    M.scalars.Rel (Form.anyOf s ss) (Form.anyOf s' ss') := by
  unfold Form.anyOf
  induction h generalizing s s' with
  | nil => exact hs
  | cons h _ ih => exact ih (M.binary _ hs h)

theorem letAround {ds ds' : List (Variable × Scalar)} (hds : (M.vars.prod M.scalars).list.Rel ds ds')
    (hs : M.scalars.Rel s s') : M.scalars.Rel (Form.letAround ds s) (Form.letAround ds' s') := by
  cases hds with
  | nil => exact hs
  | cons hd hds => exact M.letIn (.cons hd hds) hs

theorem conditionalOf {tests tests' exprs exprs' : List Scalar} (ht : M.scalars.list.Rel tests tests')
    (he : M.scalars.list.Rel exprs exprs') (n : Nat) :
    M.scalars.Rel (.conditional (tests.zip (exprs.take n)) exprs[n]?)
      (.conditional (tests'.zip (exprs'.take n)) exprs'[n]?) := by
  refine M.conditional ?_ ?_
  · have hbodies : Forall₂ M.scalars.Rel (exprs.take n) (exprs'.take n) := List.forall₂_take n he
    generalize exprs.take n = bodies at *
    generalize exprs'.take n = bodies' at *
    clear he
    induction ht generalizing bodies bodies' with
    | nil => exact .nil
    | cons h _ ih =>
      cases hbodies with
      | nil => exact .nil
      | cons hb hbodies => exact .cons ⟨h, hb⟩ (ih _ _ hbodies)
  · induction he generalizing n with
    | nil => exact .none
    | cons h _ ih =>
      cases n with
      | zero => exact .some h
      | succ n => exact ih n

theorem types_eq {xs xs' : List Typed} (h : M.typed.list.Rel xs xs') :
    xs.map (·.type) = xs'.map (·.type) := by
  induction h with
  | nil => rfl
  | cons h _ ih => rw [List.map_cons, List.map_cons, ih, h.2.1]

theorem any_aggregated_eq {xs xs' : List Typed} (h : M.typed.list.Rel xs xs') :
    xs.any (·.aggregated) = xs'.any (·.aggregated) := by
  induction h with
  | nil => rfl
  | cons h _ ih => rw [List.any_cons, List.any_cons, ih, h.2.2]

theorem map_expr {xs xs' : List Typed} (h : M.typed.list.Rel xs xs') :
    M.scalars.list.Rel (xs.map (·.expr)) (xs'.map (·.expr)) := by
  change Forall₂ _ _ _
  rw [List.forall₂_map_left_iff, List.forall₂_map_right_iff]
  exact h.imp fun _ _ h => h.1

/-- Every scalar expression belongs to itself with the new numbers. -/
def renumbered (ν : Nat ↪ Nat) : Matching where
  vars := .map (Variable.renumber ν)
  scalars := .map (Scalar.renumber ν)
  immediate _ _ := rfl
  var := by rintro v _ rfl; rfl
  unary _ := by rintro x _ rfl; rfl
  binary _ := by rintro l _ r _ rfl rfl; rfl
  compare _ := by rintro l _ r _ rfl rfl; rfl
  pattern _ := by rintro x _ p _ e _ rfl rfl rfl; rfl
  conditional := by
    intro as as' d d' has hd
    rw [Link.prod_map, Link.list_map] at has
    rw [Link.option_map] at hd
    obtain rfl := has
    obtain rfl := hd
    exact congrArg₂ _ (renumberPairs_eq as) (renumberOption_eq d)
  letIn := by
    intro ds ds' x x' hds hx
    rw [Link.prod_map, Link.list_map] at hds
    obtain rfl := hds
    obtain rfl := hx
    exact congrArg₂ _ (renumberDeclarators_eq ds) rfl
  cast _ _ := by rintro x _ rfl; rfl
  call _ := by
    intro xs xs' h
    rw [Link.list_map] at h
    obtain rfl := h
    exact congrArg _ (renumberList_eq xs)
  aggregate _ := by
    intro xs xs' h
    rw [Link.list_map] at h
    obtain rfl := h
    exact congrArg _ (renumberList_eq xs)

theorem typed_renumbered (ν : Nat ↪ Nat) : (renumbered ν).typed = .map (Typed.renumber ν) := by
  ext x y
  change x.expr.renumber ν = y.expr ∧ x.type = y.type ∧ x.aggregated = y.aggregated ↔ x.renumber ν = y
  obtain ⟨e, t, g⟩ := y
  rw [Typed.renumber, Typed.mk.injEq]

def same : Matching := renumbered (.refl Nat)

theorem typed_same : same.typed = .eq := by
  rw [same, typed_renumbered]
  exact congrArg Link.map (funext fun x => congrArg (Typed.mk · x.type x.aggregated) x.expr.renumber_refl)

end Scalar.Matching

/-- A comparison of runs that analyse expressions, each in its scopes. -/
structure ExprComparison extends Comparison Nat, Scalar.Matching where
  scopes : Scopes
  scopes' : Scopes
  options : env'.options = env.options
  hostParameter? (key : String) : env'.hostParameter? key = env.hostParameter? key
  placeholder? (key : String) : env'.placeholder? key = env.placeholder? key
  mint (kind : VariableKind) : toComparison.Compares vars (Analysis.mint kind) (Analysis.mint kind)

variable {C : ExprComparison}

theorem Literal.resolve_compares {σ : Type} {C : Comparison σ} (M : Scalar.Matching)
    (ho : C.env'.options = C.env.options) {l : Literal} (h : l.panics C.env.options = true → C.Panics)
    (target : Option Target) : C.Compares M.typed (l.resolve target) (l.resolve target) := by
  refine .options ho ?_
  rcases hx : l.typed C.env.options target with (d | _) | x
  · exact .failWith (C.refl _)
  · exact .panic (h (panics_of_typed hx))
  · refine .pure ?_
    rcases typed_ok hx with ⟨v, t, rfl⟩ | ⟨v, t, u, rfl⟩
    · exact ⟨M.immediate v t, rfl, rfl⟩
    · exact ⟨M.cast _ _ (M.immediate v t), rfl, rfl⟩

theorem Literal.null_compares (target : Option Target) :
    C.Compares C.typed (Literal.null.resolve target) (Literal.null.resolve target) :=
  resolve_compares C.toMatching C.options (fun h => by cases h) target

theorem Overload.select_compares {σ D : Type} {C : Comparison σ} [Overloaded D] (key : String)
    (candidates : List D) (types : List SqlType) (location : Option Span) :
    C.Compares .eq (select key candidates types location) (select key candidates types location) := by
  unfold select
  rcases cheapest types candidates with _ | ⟨d, _ | ⟨e, rest⟩⟩
  · exact .fail _ _ _
  · exact .pure rfl
  · exact .fail _ _ _

namespace ExprComparison

abbrev Operands (C : ExprComparison) : Operand → Operand → Prop := Option.Rel (C.Compares C.typed)

end ExprComparison

namespace Operand

variable {x x' : Operand}

theorem resolve_compares (h : C.Operands x x') (target : Option Target) :
    C.Compares C.typed (x.resolve target) (x'.resolve target) := by
  cases h with
  | none => exact Literal.null_compares _
  | some h => exact h

theorem any_isNone_eq {xs xs' : List Operand} (h : Forall₂ C.Operands xs xs') :
    xs'.any Option.isNone = xs.any Option.isNone := by
  induction h with
  | nil => rfl
  | cons hx _ ih =>
    cases hx with
    | none => rfl
    | some _ => exact ih

end Operand

namespace Shared

theorem typedOperands_compares (location : Option Span) {xs xs' : List Operand} (h : Forall₂ C.Operands xs xs')
    (type : SqlType) :
    C.Compares (C.scalars.option.list.prod .eq) (typedOperands location xs type) (typedOperands location xs' type) := by
  induction h generalizing type with
  | nil => exact .pure ⟨.nil, rfl⟩
  | cons hx _ ih =>
    cases hx with
    | none =>
      refine .bind (ih type) ?_
      rintro ⟨exprs, t, g⟩ ⟨exprs', _⟩ ⟨hexprs, rfl⟩
      exact .pure ⟨.cons .none hexprs, rfl⟩
    | some hm =>
      refine .bind hm ?_
      rintro ⟨e, t, g⟩ ⟨e', _, _⟩ ⟨he, rfl, rfl⟩
      dsimp only
      cases type.unify t with
      | none => exact .fail _ _ _
      | some unified =>
        refine .bind (ih unified) ?_
        rintro ⟨exprs, t, g⟩ ⟨exprs', _⟩ ⟨hexprs, rfl⟩
        exact .pure ⟨.cons (.some he) hexprs, rfl⟩

theorem resolve_compares (location : Option Span) (fallback : Option Target) {xs xs' : List Operand}
    (h : Forall₂ C.Operands xs xs') :
    C.Compares C.shared (resolve location fallback xs) (resolve location fallback xs') := by
  rw [resolve, resolve, Operand.any_isNone_eq h]
  refine .bind (typedOperands_compares location h .unknown) ?_
  rintro ⟨exprs, t, g⟩ ⟨exprs', _⟩ ⟨hexprs, rfl⟩
  refine .ite (.bind (Literal.null_compares _) ?_) (.pure ⟨?_, rfl, rfl⟩)
  · rintro ⟨e, u, g'⟩ ⟨e', _, _⟩ ⟨he, rfl, rfl⟩
    refine .pure ⟨?_, rfl, rfl⟩
    change Forall₂ _ _ _
    rw [List.forall₂_map_left_iff, List.forall₂_map_right_iff]
    refine hexprs.imp fun x y hxy => ?_
    cases hxy with
    | none => exact he
    | some hx => exact hx
  · exact List.rel_filterMap (fun _ _ h => h) hexprs

end Shared

namespace Form

variable {x x' y y' z z' : Operand} {xs xs' : List Operand}

theorem hostParameter_compares (name : String) (span : Span) :
    C.Compares C.typed (hostParameter name span) (hostParameter name span) := by
  refine .environment ?_
  simp only [C.hostParameter?, C.placeholder?]
  cases C.env.hostParameter? _ with
  | some decl => exact .bind (C.mint _) fun v v' hv => .pure ⟨C.var hv, rfl, rfl⟩
  | none =>
    dsimp only
    cases C.env.placeholder? _ with
    | some p => exact .pure ⟨C.immediate _ _, rfl, rfl⟩
    | none => exact .fail _ _ _

theorem unary_compares (op : UnaryOp) (location : Option Span) (hx : C.Operands x x') :
    C.Compares C.typed (unary op location x) (unary op location x') := by
  refine .bind (Operand.resolve_compares hx _) ?_
  rintro ⟨e, t, g⟩ ⟨e', _, _⟩ ⟨he, rfl, rfl⟩
  refine .ite (.ite (.fail _ _ _) (.pure ⟨C.unary _ he, rfl, rfl⟩)) ?_
  exact .ite (.fail _ _ _) (.pure (C.truth _ _ (C.unary _ he)))

theorem isTest_compares (test : Option UnaryOperator) (negated : Bool) (location : Option Span)
    (hx : C.Operands x x') : C.Compares C.typed (isTest test negated location x) (isTest test negated location x') := by
  cases test with
  | none => exact .fail _ _ _
  | some test =>
    refine .bind (Operand.resolve_compares hx _) ?_
    rintro ⟨e, t, g⟩ ⟨e', _, _⟩ ⟨he, rfl, rfl⟩
    exact .ite (.fail _ _ _) (.pure (C.truth _ _ (C.unary _ he)))

theorem logical_compares (op : BinaryOperator) (location : Option Span) (hx : C.Operands x x')
    (hy : C.Operands y y') : C.Compares C.typed (logical op location x y) (logical op location x' y') := by
  refine .bind (Operand.resolve_compares hx _) ?_
  rintro ⟨e, t, g⟩ ⟨e', _, _⟩ ⟨he, rfl, rfl⟩
  refine .bind (Operand.resolve_compares hy _) ?_
  rintro ⟨f, u, k⟩ ⟨f', _, _⟩ ⟨hf, rfl, rfl⟩
  exact .ite (.fail _ _ _) (.pure ⟨C.binary _ he hf, rfl, rfl⟩)

theorem typedPair_compares (hx : C.Operands x x') (hy : C.Operands y y') :
    C.Compares (C.typed.prod C.typed) (typedPair x y) (typedPair x' y') := by
  have hnull : ∀ target, C.Compares C.typed (Operand.resolve target none) (Operand.resolve target none) :=
    Operand.resolve_compares .none
  cases hx with
  | none =>
    cases hy with
    | none => exact .bind (hnull none) fun _ _ hl => .bind (hnull none) fun _ _ hr => .pure ⟨hl, hr⟩
    | some hr =>
      refine .bind hr fun r r' hr => ?_
      rw [← hr.2.1]
      exact .bind (hnull _) fun _ _ hl => .pure ⟨hl, hr⟩
  | some hl =>
    cases hy with
    | none =>
      refine .bind hl fun l l' hl => ?_
      rw [← hl.2.1]
      exact .bind (hnull _) fun _ _ hr => .pure ⟨hl, hr⟩
    | some hr => exact .bind hl fun _ _ hl => .bind hr fun _ _ hr => .pure ⟨hl, hr⟩

theorem concat_compares (location : Option Span) (hx : C.Operands x x') (hy : C.Operands y y') :
    C.Compares C.typed (concat location x y) (concat location x' y') := by
  refine .bind (typedPair_compares hx hy) ?_
  rintro ⟨⟨e, t, g⟩, ⟨f, u, k⟩⟩ ⟨⟨e', _, _⟩, ⟨f', _, _⟩⟩ ⟨⟨he, rfl, rfl⟩, ⟨hf, rfl, rfl⟩⟩
  dsimp only
  cases t.concat u with
  | some type => exact .pure ⟨C.binary _ he hf, rfl, rfl⟩
  | none => exact .fail _ _ _

theorem sharedPair_compares (location : Option Span) (hx : C.Operands x x') (hy : C.Operands y y') :
    C.Compares (C.scalars.prod (C.scalars.prod .eq)) (sharedPair location x y) (sharedPair location x' y') := by
  refine .bind (Shared.resolve_compares location none (.cons hx (.cons hy .nil))) ?_
  rintro ⟨exprs, t, g⟩ ⟨exprs', _, _⟩ ⟨hexprs, rfl, rfl⟩
  rcases hexprs with _ | ⟨hl, _ | ⟨hr, _ | ⟨_, _⟩⟩⟩
  · exact .fail _ _ _
  · exact .fail _ _ _
  · exact .pure ⟨hl, hr, rfl⟩
  · exact .fail _ _ _

theorem arithmetic_compares (op : BinaryOperator) (location : Option Span) (hx : C.Operands x x')
    (hy : C.Operands y y') : C.Compares C.typed (arithmetic op location x y) (arithmetic op location x' y') := by
  refine .bind (sharedPair_compares location hx hy) ?_
  rintro ⟨l, r, t, g⟩ ⟨l', r', _⟩ ⟨hl, hr, rfl⟩
  exact .ite (.fail _ _ _) (.pure ⟨C.binary _ hl hr, rfl, rfl⟩)

theorem comparison_compares (op : ComparisonOp) (location : Option Span) (hx : C.Operands x x')
    (hy : C.Operands y y') : C.Compares C.typed (comparison op location x y) (comparison op location x' y') := by
  refine .bind (sharedPair_compares location hx hy) ?_
  rintro ⟨l, r, t, g⟩ ⟨l', r', _⟩ ⟨hl, hr, rfl⟩
  exact .pure ⟨C.compare _ hl hr, rfl, rfl⟩

theorem between_compares (symmetric negated : Bool) (hx : C.Operands x x') (hy : C.Operands y y')
    (hz : C.Operands z z') :
    C.Compares C.typed (between symmetric negated x y z) (between symmetric negated x' y' z') := by
  refine .bind (Shared.resolve_compares none none (.cons hx (.cons hy (.cons hz .nil)))) ?_
  rintro ⟨exprs, t, g⟩ ⟨exprs', _, _⟩ ⟨hexprs, rfl, rfl⟩
  rcases hexprs with _ | ⟨he, _ | ⟨hl, _ | ⟨hh, _ | ⟨_, _⟩⟩⟩⟩
  · exact .fail _ _ _
  · exact .fail _ _ _
  · exact .fail _ _ _
  · refine .bind (C.mint _) fun v v' hv => .ite ?_ ?_
    · refine .bind (C.mint _) fun l l' hl' => .bind (C.mint _) fun h h' hh' => .pure (C.truth _ _ ?_)
      refine C.letIn (.cons ⟨hv, he⟩ (.cons ⟨hl', hl⟩ (.cons ⟨hh', hh⟩ .nil))) (C.binary _ ?_ ?_)
      · exact C.inRange (C.var hl') (C.var hv) (C.var hh')
      · exact C.inRange (C.var hh') (C.var hv) (C.var hl')
    · exact .pure (C.truth _ _ (C.letIn (.cons ⟨hv, he⟩ .nil) (C.inRange hl (C.var hv) hh)))
  · exact .fail _ _ _

theorem inList_compares (negated : Bool) (hx : C.Operands x x') (h : Forall₂ C.Operands xs xs') :
    C.Compares C.typed (inList negated x xs) (inList negated x' xs') := by
  have hempty : xs'.isEmpty = xs.isEmpty := by cases h <;> rfl
  rw [inList, inList, hempty]
  refine .ite (.fail _ _ _) (.bind (Shared.resolve_compares none none (.cons hx h)) ?_)
  rintro ⟨exprs, t, g⟩ ⟨exprs', _, _⟩ ⟨hexprs, rfl, rfl⟩
  rcases hexprs with _ | ⟨he, _ | ⟨hfirst, hrest⟩⟩
  · exact .fail _ _ _
  · exact .fail _ _ _
  · refine .bind (C.mint _) fun v v' hv => .pure (C.truth _ _ ?_)
    exact C.letIn (.cons ⟨hv, he⟩ .nil) (C.anyOf (C.equals hv hfirst) (C.map_equals hv hrest))

theorem string_compares (hx : C.Operands x x') : C.Compares C.typed (string x) (string x') := by
  refine .bind (Operand.resolve_compares hx _) ?_
  rintro ⟨e, t, g⟩ ⟨e', _, _⟩ ⟨he, rfl, rfl⟩
  exact .ite (.fail _ _ _) (.pure ⟨he, rfl, rfl⟩)

theorem pattern_compares (op : PatternOp) (negated : Bool) {escape escape' : Option Operand}
    (hx : C.Operands x x') (hy : C.Operands y y') (hescape : Option.Rel C.Operands escape escape') :
    C.Compares C.typed (pattern op negated x y escape) (pattern op negated x' y' escape') := by
  refine .bind (string_compares hx) ?_
  rintro ⟨e, t, g⟩ ⟨e', _, _⟩ ⟨he, rfl, rfl⟩
  refine .bind (string_compares hy) ?_
  rintro ⟨p, u, k⟩ ⟨p', _, _⟩ ⟨hp, rfl, rfl⟩
  cases hescape with
  | none => exact .pure (C.truth _ _ (C.pattern _ he hp (C.immediate _ _)))
  | some h =>
    refine .bind (string_compares h) ?_
    rintro ⟨f, w, l⟩ ⟨f', _, _⟩ ⟨hf, rfl, rfl⟩
    exact .pure (C.truth _ _ (C.pattern _ he hp hf))

theorem conditions_compares {cs cs' : List (Option Span × Operand)}
    (h : Forall₂ (fun c c' => c.1 = c'.1 ∧ C.Operands c.2 c'.2) cs cs') :
    C.Compares (C.scalars.list.prod .eq) (conditions cs) (conditions cs') := by
  induction h with
  | nil => exact .pure ⟨.nil, rfl⟩
  | @cons c c' _ _ hc _ ih =>
    obtain ⟨location, x⟩ := c
    obtain ⟨_, x'⟩ := c'
    obtain ⟨rfl, hx⟩ := hc
    refine .bind (Operand.resolve_compares hx _) ?_
    rintro ⟨e, t, g⟩ ⟨e', _, _⟩ ⟨he, rfl, rfl⟩
    refine .ite (.fail _ _ _) (.bind ih ?_)
    rintro ⟨exprs, k⟩ ⟨exprs', _⟩ ⟨hexprs, rfl⟩
    exact .pure ⟨.cons he hexprs, rfl⟩

theorem caseTests_compares (hx : C.Operands x x') (h : Forall₂ C.Operands xs xs') :
    C.Compares (C.scalars.list.prod ((C.vars.prod C.scalars).list.prod .eq)) (caseTests x xs) (caseTests x' xs') := by
  refine .bind (Shared.resolve_compares none none (.cons hx h)) ?_
  rintro ⟨exprs, t, g⟩ ⟨exprs', _, _⟩ ⟨hexprs, rfl, rfl⟩
  refine .bind (C.mint _) fun v v' hv => ?_
  cases hexprs with
  | nil => exact .pure ⟨.nil, .nil, rfl⟩
  | cons he hwhens => exact .pure ⟨C.map_equals hv hwhens, .cons ⟨hv, he⟩ .nil, rfl⟩

theorem case_compares (target : Option Target) {operand operand' default default' : Option Operand}
    {cs cs' : List (Option Span × Operand × Operand)} (hoperand : Option.Rel C.Operands operand operand')
    (hcs : Forall₂ (fun c c' => c.1 = c'.1 ∧ C.Operands c.2.1 c'.2.1 ∧ C.Operands c.2.2 c'.2.2) cs cs')
    (hdefault : Option.Rel C.Operands default default') :
    C.Compares C.typed (case target operand cs default) (case target operand' cs' default') := by
  have hempty : cs'.isEmpty = cs.isEmpty := by cases hcs <;> rfl
  have hresults : Forall₂ C.Operands (cs.map (fun c => c.2.2) ++ default.toList)
      (cs'.map (fun c => c.2.2) ++ default'.toList) := by
    refine List.rel_append ?_ ?_
    · rw [List.forall₂_map_left_iff, List.forall₂_map_right_iff]
      exact hcs.imp fun _ _ h => h.2.2
    · cases hdefault with
      | none => exact .nil
      | some h => exact .cons h .nil
  have hbodies : ∀ {tests tests' : List Scalar} {ds ds' : List (Variable × Scalar)} (tested : Bool),
      C.scalars.list.Rel tests tests' → (C.vars.prod C.scalars).list.Rel ds ds' →
      C.Compares C.typed
        (do
          let shared ← Shared.resolve none target (cs.map (fun c => c.2.2) ++ default.toList)
          return ⟨letAround ds (.conditional (tests.zip (shared.exprs.take cs.length)) shared.exprs[cs.length]?),
            shared.type, tested || shared.aggregated⟩)
        (do
          let shared ← Shared.resolve none target (cs'.map (fun c => c.2.2) ++ default'.toList)
          return ⟨letAround ds' (.conditional (tests'.zip (shared.exprs.take cs'.length)) shared.exprs[cs'.length]?),
            shared.type, tested || shared.aggregated⟩) := by
    intro tests tests' ds ds' tested htests hds
    rw [← hcs.length_eq]
    refine .bind (Shared.resolve_compares none target hresults) ?_
    rintro ⟨exprs, t, g⟩ ⟨exprs', _, _⟩ ⟨hexprs, rfl, rfl⟩
    exact .pure ⟨C.letAround hds (C.conditionalOf htests hexprs _), rfl, rfl⟩
  rw [case, case, hempty]
  refine .ite (.fail _ _ _) ?_
  cases hoperand with
  | some hx =>
    refine .bind (caseTests_compares hx ?_) ?_
    · rw [List.forall₂_map_left_iff, List.forall₂_map_right_iff]
      exact hcs.imp fun _ _ h => h.2.1
    · rintro ⟨tests, ds, tested⟩ ⟨tests', ds', _⟩ ⟨htests, hds, rfl⟩
      exact hbodies tested htests hds
  | none =>
    refine .bind (L := C.scalars.list.prod .eq) (conditions_compares ?_) ?_
    · rw [List.forall₂_map_left_iff, List.forall₂_map_right_iff]
      exact hcs.imp fun _ _ h => ⟨h.1, h.2.1⟩
    · rintro ⟨tests, tested⟩ ⟨tests', _⟩ ⟨htests, rfl⟩
      exact hbodies tested htests .nil

theorem nullif_compares (hx : C.Operands x x') (hy : C.Operands y y') :
    C.Compares C.typed (nullif x y) (nullif x' y') := by
  refine .bind (sharedPair_compares none hx hy) ?_
  rintro ⟨l, r, t, g⟩ ⟨l', r', _⟩ ⟨hl, hr, rfl⟩
  refine .bind (C.mint _) fun v v' hv => .pure ⟨C.letIn (.cons ⟨hv, hl⟩ .nil) ?_, rfl, rfl⟩
  exact C.conditional (.cons ⟨C.equals hv hr, C.immediate _ _⟩ .nil) (.some (C.var hv))

theorem cast_compares {target target' : DataType} (ht : C.Compares .eq target.resolve target'.resolve)
    (hx : C.Operands x x') : C.Compares C.typed (cast target x) (cast target' x') := by
  refine .bind ht ?_
  rintro type _ rfl
  refine .bind (Operand.resolve_compares hx _) ?_
  rintro ⟨e, t, g⟩ ⟨e', _, _⟩ ⟨he, rfl, rfl⟩
  exact .pure ⟨C.cast _ _ he, rfl, rfl⟩

theorem arguments_compares (parameter? : Nat → Option SqlType) (position : Nat) (h : Forall₂ C.Operands xs xs') :
    C.Compares C.typed.list (arguments parameter? position xs) (arguments parameter? position xs') := by
  induction h generalizing position with
  | nil => exact .pure .nil
  | cons hx _ ih =>
    exact .bind (Operand.resolve_compares hx _) fun _ _ hy => .bind (ih _) fun _ _ hys => .pure (.cons hy hys)

theorem overload_compares {D : Type} [Overloaded D] (key : String) (candidates : List D) (location : Option Span)
    (h : Forall₂ C.Operands xs xs') :
    C.Compares (.prod .eq C.typed.list) (overload key candidates location xs)
      (overload key candidates location xs') := by
  refine .bind (arguments_compares _ _ h) fun ys ys' hys => ?_
  rw [← C.types_eq hys]
  exact .bind (Overload.select_compares _ _ _ _) fun _ _ hd => .pure ⟨hd, hys⟩

end Form

/-- Names of functions that stand at one place and denote the same aggregate functions in both runs. -/
structure ExprComparison.Aggregates (C : ExprComparison) (name name' : Name) : Prop where
  span : name.span = name'.span
  found (suffix : String) (arity : Nat) (asterisk : Bool) :
    C.Compares .eq (name.resolveAggregates suffix arity asterisk) (name'.resolveAggregates suffix arity asterisk)
  missing (location : Option Span) (message : Name → String) :
    C.Logs [⟨.functionNotFound, location, message name⟩] [⟨.functionNotFound, location, message name'⟩]

namespace Form

variable {xs xs' : List Operand} {name name' : Name}

theorem aggregateCall_compares (hname : C.Aggregates name name') (distinct asterisk : Bool)
    (h : Forall₂ C.Operands xs xs') :
    C.Compares C.typed (aggregateCall name distinct asterisk xs) (aggregateCall name' distinct asterisk xs') := by
  rw [aggregateCall, aggregateCall, ← h.length_eq, ← hname.span]
  refine .bind (hname.found _ _ _) ?_
  rintro ⟨key, candidates⟩ _ rfl
  refine .ite (.failWith (hname.missing _ fun name => "function '" ++ name.render ++ "' with " ++
    Text.ofNat xs.length ++ " argument(s) is not found")) (.bind (overload_compares _ _ _ h) ?_)
  rintro ⟨decl, ys⟩ ⟨_, ys'⟩ ⟨rfl, hys⟩
  exact .pure ⟨C.aggregate _ (C.map_expr hys), rfl, rfl⟩

theorem call_compares (hname : C.Aggregates name name')
    (hfound : ∀ arity, C.Compares .eq (name.resolveFunctions arity) (name'.resolveFunctions arity))
    (quantifier : Option SetQuantifier) {os os' : Option (List Operand)}
    (h : Option.Rel (Forall₂ C.Operands) os os') :
    C.Compares C.typed (call name quantifier os) (call name' quantifier os') := by
  have haggregate : C.Compares C.typed
      (aggregateCall name (decide (quantifier = some .distinct)) os.isNone (os.getD []))
      (aggregateCall name' (decide (quantifier = some .distinct)) os'.isNone (os'.getD [])) := by
    cases h with
    | none => exact aggregateCall_compares hname _ _ .nil
    | some h => exact aggregateCall_compares hname _ _ h
  cases h with
  | none => cases quantifier <;> exact haggregate
  | some h =>
    cases quantifier with
    | some _ => exact haggregate
    | none =>
      rw [call, call, ← h.length_eq, ← hname.span]
      refine .bind (hfound _) ?_
      rintro ⟨key, candidates⟩ _ rfl
      refine .ite haggregate (.bind (overload_compares _ _ _ h) ?_)
      rintro ⟨decl, ys⟩ ⟨_, ys'⟩ ⟨rfl, hys⟩
      exact .pure ⟨C.call _ (C.map_expr hys), rfl, C.any_aggregated_eq hys⟩

end Form

theorem DataType.resolve_compares {σ : Type} {C : Comparison σ} (ho : C.env'.options = C.env.options)
    (t : DataType) : C.Compares .eq t.resolve t.resolve := by
  refine .options ho ?_
  cases t.type C.env.options with
  | ok type => exact .pure rfl
  | error d => exact .failWith (C.refl _)

namespace Expr

variable {Q : Type}

def literal? : Expr Q → Option Literal
  | literal l => some l
  | _ => none

theorem eq_literal {e : Expr Q} {l : Literal} (h : e.literal? = some l) : e = literal l := by
  cases e <;> cases h
  rfl

theorem isNull_eq (e : Expr Q) : e.isNull = e.literal?.elim false fun l => (literal l : Expr Unit).isNull := by
  cases e with
  | literal l => cases l <;> rfl
  | _ => rfl

theorem truthTest?_eq (e : Expr Q) :
    Form.truthTest? e = e.literal?.bind fun l => Form.truthTest? (literal l : Expr Unit) := by
  cases e with
  | literal l =>
    cases l with
    | boolean value => cases value <;> rfl
    | _ => rfl
  | _ => rfl

end Expr

namespace ExprComparison

variable {Q Q' : Type}

structure Exprs (C : ExprComparison) (e : Expr Q) (e' : Expr Q') : Prop where
  span : e.span? = e'.span?
  literal? : e.literal? = e'.literal?
  resolves (target : Option Target) : C.Compares C.typed (e.resolve C.scopes target) (e'.resolve C.scopes' target)

namespace Exprs

open SqlPlan.Expr (eq_literal)

variable {e l r : Expr Q} {e' l' r' : Expr Q'} {es : List (Expr Q)} {es' : List (Expr Q')} {o : Option (Expr Q)}
  {o' : Option (Expr Q')} {cs : List (Expr Q × Expr Q)} {cs' : List (Expr Q' × Expr Q')}

theorem operand (h : C.Exprs e e') :
    C.Operands (.ofExpr e.isNull (e.resolve C.scopes none)) (.ofExpr e'.isNull (e'.resolve C.scopes' none)) := by
  rw [e.isNull_eq, h.literal?, ← e'.isNull_eq]
  cases e'.isNull with
  | true => exact .none
  | false => exact .some (h.resolves none)

theorem operands (h : Forall₂ C.Exprs es es') :
    Forall₂ C.Operands (Expr.operands C.scopes es) (Expr.operands C.scopes' es') := by
  induction h with
  | nil => exact .nil
  | cons h _ ih => exact .cons h.operand ih

theorem operand? (h : Option.Rel C.Exprs o o') :
    Option.Rel C.Operands (Expr.operand? C.scopes o) (Expr.operand? C.scopes' o') := by
  cases h with
  | none => exact .none
  | some h => exact .some h.operand

theorem literal {l : Literal} (h : l.panics C.env.options = true → C.Panics) :
    C.Exprs (.literal l : Expr Q) (.literal l : Expr Q') :=
  ⟨rfl, rfl, Literal.resolve_compares C.toMatching C.options h⟩

theorem hostParameter (name : String) (span : Span) :
    C.Exprs (.hostParameter name span : Expr Q) (.hostParameter name span : Expr Q') :=
  ⟨rfl, rfl, fun _ => Form.hostParameter_compares name span⟩

theorem unary (op : UnaryOp) (h : C.Exprs e e') : C.Exprs (.unary op e) (.unary op e') := by
  refine ⟨h.span, rfl, fun target => ?_⟩
  by_cases hsigned : op = .minus ∧ ∃ l, e = .literal l
  · obtain ⟨rfl, l, rfl⟩ := hsigned
    obtain rfl := eq_literal h.literal?.symm
    rw [Expr.resolve, Expr.resolve]
    cases hl : l.negated? with
    | some negated =>
      refine Literal.resolve_compares C.toMatching C.options (fun hpanics => ?_) none
      rw [Literal.panics_of_negated? hl] at hpanics
      cases hpanics
    | none => exact Form.unary_compares _ _ h.operand
  · have hplain : ∀ l, op = .minus → e = .literal l → False := fun l hop hl => hsigned ⟨hop, l, hl⟩
    have hplain' : ∀ l, op = .minus → e' = .literal l → False := by
      rintro l hop rfl
      exact hplain l hop (eq_literal h.literal?)
    rw [Expr.resolve, Expr.resolve, h.span]
    · exact Form.unary_compares _ _ h.operand
    · exact hplain'
    · exact hplain

theorem binary (op : BinaryOp) (hl : C.Exprs l l') (hr : C.Exprs r r') :
    C.Exprs (.binary op l r) (.binary op l' r') := by
  refine ⟨hl.span, rfl, fun target => ?_⟩
  cases op <;> simp only [Expr.resolve, hl.span, r.truthTest?_eq, hr.literal?, ← r'.truthTest?_eq]
  case is | isNot => exact Form.isTest_compares _ _ _ hl.operand
  case and | or => exact Form.logical_compares _ _ hl.operand hr.operand
  case concat => exact Form.concat_compares _ hl.operand hr.operand
  all_goals exact Form.arithmetic_compares _ _ hl.operand hr.operand

theorem comparison (op : ComparisonOp) (hl : C.Exprs l l') (hr : C.Exprs r r') :
    C.Exprs (.comparison op l r) (.comparison op l' r') := by
  refine ⟨hl.span, rfl, fun target => ?_⟩
  rw [Expr.resolve, Expr.resolve, hl.span]
  exact Form.comparison_compares op _ hl.operand hr.operand

theorem between (symmetric negated : Bool) (he : C.Exprs e e') (hl : C.Exprs l l') (hr : C.Exprs r r') :
    C.Exprs (.between e l r symmetric negated) (.between e' l' r' symmetric negated) :=
  ⟨rfl, rfl, fun _ => Form.between_compares _ _ he.operand hl.operand hr.operand⟩

theorem inList (negated : Bool) (he : C.Exprs e e') (hes : Forall₂ C.Exprs es es') :
    C.Exprs (.inList e es negated) (.inList e' es' negated) :=
  ⟨rfl, rfl, fun _ => Form.inList_compares _ he.operand (operands hes)⟩

theorem inQuery (q : Q) (q' : Q') (negated : Bool) : C.Exprs (.inQuery e q negated) (.inQuery e' q' negated) :=
  ⟨rfl, rfl, fun _ => .fail _ _ _⟩

theorem pattern (op : PatternOp) (negated : Bool) (he : C.Exprs e e') (hl : C.Exprs l l')
    (ho : Option.Rel C.Exprs o o') :
    C.Exprs (.pattern op e l o negated) (.pattern op e' l' o' negated) :=
  ⟨rfl, rfl, fun _ => Form.pattern_compares _ _ he.operand hl.operand (operand? ho)⟩

theorem case {d : Option (Expr Q)} {d' : Option (Expr Q')} (ho : Option.Rel C.Exprs o o')
    (hcs : Forall₂ (fun c c' => C.Exprs c.1 c'.1 ∧ C.Exprs c.2 c'.2) cs cs')
    (hd : Option.Rel C.Exprs d d') : C.Exprs (.case o cs d) (.case o' cs' d') := by
  refine ⟨rfl, rfl, fun target => Form.case_compares target (operand? ho) ?_ (operand? hd)⟩
  induction hcs with
  | nil => exact .nil
  | cons h _ ih => exact .cons ⟨h.1.span, h.1.operand, h.2.operand⟩ ih

theorem nullif (hl : C.Exprs l l') (hr : C.Exprs r r') : C.Exprs (.nullif l r) (.nullif l' r') :=
  ⟨rfl, rfl, fun _ => Form.nullif_compares hl.operand hr.operand⟩

theorem cast {t t' : DataType} (ht : C.Compares .eq t.resolve t'.resolve) (he : C.Exprs e e') :
    C.Exprs (.cast e t) (.cast e' t') :=
  ⟨rfl, rfl, fun _ => Form.cast_compares ht he.operand⟩

/-- The functions of the name are the same in both runs. -/
theorem call {name name' : Name} (hname : C.Aggregates name name')
    (hfound : ∀ arity, C.Compares .eq (name.resolveFunctions arity) (name'.resolveFunctions arity))
    (quantifier : Option SetQuantifier) {as : Option (List (Expr Q))} {as' : Option (List (Expr Q'))}
    (h : Option.Rel (Forall₂ C.Exprs) as as') :
    C.Exprs (.call name quantifier as) (.call name' quantifier as') := by
  refine ⟨congrArg some hname.span, rfl, fun target => ?_⟩
  cases h with
  | none => exact Form.call_compares hname hfound quantifier .none
  | some h => exact Form.call_compares hname hfound quantifier (.some (operands h))

theorem subquery (q : Q) (q' : Q') : C.Exprs (.subquery q) (.subquery q') :=
  ⟨rfl, rfl, fun _ => .fail _ _ _⟩

end Exprs

variable {Q : Type}

/-- A call ends alike if its arguments do. -/
def Calls (C : ExprComparison) (e : Expr Q) : Prop :=
  ∀ name quantifier arguments, e = .call name quantifier arguments →
    Option.Rel (Forall₂ C.Exprs) arguments arguments → C.Exprs e e

def References (C : ExprComparison) : Prop :=
  ∀ {Q : Type} (name : Name), C.Exprs (.reference name : Expr Q) (.reference name : Expr Q)

end ExprComparison

namespace Expr

variable {Q : Type}

mutual

/-- An expression ends alike in both runs if the columns that it names and the calls in it do. -/
theorem exprs_of_calls (hleaves : C.Panics ∧ C.References) : ∀ e : Expr Q,
    (∀ x ∈ e.subexpressions, C.Calls x) → C.Exprs e e
  | literal l, _ => .literal fun _ => hleaves.1
  | reference name, _ => hleaves.2 name
  | hostParameter name span, _ => .hostParameter name span
  | unary op e, h => .unary op (exprs_of_calls hleaves e (List.forall_mem_cons.mp h).2)
  | binary op l r, h => by
    obtain ⟨-, hl, hr⟩ := forall_mem_node.mp h
    exact .binary op (exprs_of_calls hleaves l hl) (exprs_of_calls hleaves r hr)
  | comparison op l r, h => by
    obtain ⟨-, hl, hr⟩ := forall_mem_node.mp h
    exact .comparison op (exprs_of_calls hleaves l hl) (exprs_of_calls hleaves r hr)
  | between e low high symmetric negated, h => by
    obtain ⟨-, he, h⟩ := forall_mem_node.mp h
    obtain ⟨hlow, hhigh⟩ := List.forall_mem_append.mp h
    exact .between _ _ (exprs_of_calls hleaves e he) (exprs_of_calls hleaves low hlow)
      (exprs_of_calls hleaves high hhigh)
  | inList e values negated, h => by
    obtain ⟨-, he, hvalues⟩ := forall_mem_node.mp h
    exact .inList _ (exprs_of_calls hleaves e he) (listExprs_of_calls hleaves values hvalues)
  | inQuery e q negated, _ => .inQuery q q negated
  | pattern op e p escape negated, h => by
    obtain ⟨-, he, h⟩ := forall_mem_node.mp h
    obtain ⟨hp, hescape⟩ := List.forall_mem_append.mp h
    exact .pattern _ _ (exprs_of_calls hleaves e he) (exprs_of_calls hleaves p hp)
      (optionExprs_of_calls hleaves escape hescape)
  | case operand clauses default, h => by
    obtain ⟨-, hoperand, h⟩ := forall_mem_node.mp h
    obtain ⟨hclauses, hdefault⟩ := List.forall_mem_append.mp h
    exact .case (optionExprs_of_calls hleaves operand hoperand) (clauseExprs_of_calls hleaves clauses hclauses)
      (optionExprs_of_calls hleaves default hdefault)
  | nullif l r, h => by
    obtain ⟨-, hl, hr⟩ := forall_mem_node.mp h
    exact .nullif (exprs_of_calls hleaves l hl) (exprs_of_calls hleaves r hr)
  | cast e target, h =>
    .cast (target.resolve_compares C.options) (exprs_of_calls hleaves e (List.forall_mem_cons.mp h).2)
  | call _ _ none, h => h _ (List.mem_singleton_self _) _ _ _ rfl .none
  | call name quantifier (some es), h => by
    obtain ⟨hcall, hes⟩ := List.forall_mem_cons.mp h
    exact hcall _ _ _ rfl (.some (listExprs_of_calls hleaves es hes))
  | subquery q, _ => .subquery q q

theorem listExprs_of_calls (hleaves : C.Panics ∧ C.References) :
    ∀ es : List (Expr Q), (∀ x ∈ listSubexpressions es, C.Calls x) → Forall₂ C.Exprs es es
  | [], _ => .nil
  | e :: es, h => by
    obtain ⟨he, hes⟩ := List.forall_mem_append.mp h
    exact .cons (exprs_of_calls hleaves e he) (listExprs_of_calls hleaves es hes)

theorem optionExprs_of_calls (hleaves : C.Panics ∧ C.References) :
    ∀ o : Option (Expr Q), (∀ x ∈ optionSubexpressions o, C.Calls x) → Option.Rel C.Exprs o o
  | none, _ => .none
  | some e, h => .some (exprs_of_calls hleaves e h)

theorem clauseExprs_of_calls (hleaves : C.Panics ∧ C.References) :
    ∀ cs : List (Expr Q × Expr Q), (∀ x ∈ pairSubexpressions cs, C.Calls x) →
      Forall₂ (fun c c' => C.Exprs c.1 c'.1 ∧ C.Exprs c.2 c'.2) cs cs
  | [], _ => .nil
  | (w, t) :: cs, h => by
    obtain ⟨hw, h⟩ := List.forall_mem_append.mp h
    obtain ⟨ht, hcs⟩ := List.forall_mem_append.mp h
    exact .cons ⟨exprs_of_calls hleaves w hw, exprs_of_calls hleaves t ht⟩ (clauseExprs_of_calls hleaves cs hcs)

end

end Expr

end SqlPlan
