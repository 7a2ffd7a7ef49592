import Mathlib.Data.List.Basic
import SqlPlan.Proofs.Lookup
import SqlPlan.Proofs.SharedOperands

namespace SqlPlan

variable {Q : Type} {env : Environment} {scopes : Scopes}
variable {y : Typed} {target : Option Target} {xs : List Typed} {op : BinaryOp} {location : Option Span}
  {negated aggregated : Bool} {p : Position} {name : Name} {key : String} {σ D : Type} {types : List SqlType}
  {d : D} {s s' : σ}
  {candidates : List D}

variable {l r : Expr Q}

theorem Elaborates.pair {t : SqlType} {x : Typed} {n k m : Nat} (hl : Elaborates env scopes (.all t) [l] n [x] k)
    (hr : Elaborates env scopes (.all t) [r] k [y] m) : Elaborates env scopes (.all t) [l, r] n [x, y] m :=
  .cons hl (.cons hr (.nil m))

variable {es : List (Expr Q)}

theorem Elaborates.length_eq {n m : Nat} (h : Elaborates env scopes p es n xs m) : es.length = xs.length := by
  induction h with
  | cons _ _ _ ih => simp [ih]
  | _ => rfl

namespace Form

variable {n m : Nat} {x : Typed}

def parameterKey (name : String) : String := String.ofList ((Text.stripStart? ':' name.toList).getD name.toList)

theorem hostParameter_ok {name : String} {span : Span} (h : hostParameter name span env n = (.ok x, m)) :
    (∃ decl : VariableDecl, x = ⟨.var ⟨n + 1, .host decl⟩, decl.type, false⟩ ∧ m = n + 1 ∧
      env.hostParameter? (parameterKey name) = some decl) ∨
    ∃ v t, x = .constant v t ∧ m = n ∧ env.hostParameter? (parameterKey name) = none ∧
      env.placeholder? (parameterKey name) = some (v, t) := by
  have hkey : String.ofList ((Text.stripStart? ':' name.toList).getD name.toList) = parameterKey name := rfl
  simp only [hostParameter, Step.bind_ok, Step.environment_ok, hkey] at h
  obtain ⟨_, _, ⟨rfl, rfl⟩, h⟩ := h
  rcases hd : env.hostParameter? (parameterKey name) with _ | decl
  · rcases hp : env.placeholder? (parameterKey name) with _ | ⟨v, t⟩
    · simp [hd, hp] at h
    · simp only [hd, hp, Step.pure_ok] at h
      obtain ⟨rfl, rfl⟩ := h
      exact .inr ⟨v, t, rfl, rfl, rfl, rfl⟩
  · simp only [hd, Step.bind_ok, Analysis.mint_ok, Step.pure_ok] at h
    obtain ⟨_, _, ⟨rfl, rfl⟩, rfl, rfl⟩ := h
    exact .inl ⟨decl, rfl, rfl, rfl⟩

variable {e : Expr Q}

theorem unary_ok {op : UnaryOp} (he : e.Sound env scopes)
    (hnumber : ∀ l, op = .minus → e = .literal l → l.negated? = none)
    (h : unary op location (.of scopes e) env n = (.ok x, m)) : Elaborates env scopes p [.unary op e] n [x] m := by
  simp only [unary, Step.bind_ok, Step.ite_ok, Step.fail_ok, Step.pure_ok, and_false, false_or] at h
  obtain ⟨y, k, hy, ⟨hsign, _, rfl, rfl⟩ | ⟨hsign, _, rfl, rfl⟩⟩ := h
  · exact .sign hsign (Operand.elaborates he hy fun _ => rfl) hnumber
  · exact .test (by simpa using hsign) (Operand.elaborates he hy fun _ => rfl)

theorem isTest_ok {right : Expr Q} (hop : (op = .is ∧ negated = false) ∨ (op = .isNot ∧ negated = true))
    (he : e.Sound env scopes) (h : isTest (truthTest? right) negated location (.of scopes e) env n = (.ok x, m)) :
    Elaborates env scopes p [.binary op e right] n [x] m := by
  rcases ht : truthTest? right with _ | test
  · simp [ht, isTest] at h
  · simp only [ht, isTest, Step.bind_ok, Step.ite_ok, Step.fail_ok, Step.pure_ok, and_false,
      false_or] at h
    obtain ⟨y, k, hy, _, rfl, rfl⟩ := h
    exact .isTest hop ht (Operand.elaborates he hy fun _ => rfl)

theorem logical_ok {op' : BinaryOperator}
    (hop : (op = .and ∧ op' = .conditionalAnd) ∨ (op = .or ∧ op' = .conditionalOr)) (hl : l.Sound env scopes)
    (hr : r.Sound env scopes) (h : logical op' location (.of scopes l) (.of scopes r) env n = (.ok x, m)) :
    Elaborates env scopes p [.binary op l r] n [x] m := by
  simp only [logical, Operand.resolveAs, Step.bind_ok, Step.ite_ok, Step.fail_ok, Step.pure_ok,
    and_false, false_or] at h
  obtain ⟨y, _, hy, z, _, hz, _, rfl, rfl⟩ := h
  exact .logical hop (.pair (Operand.elaborates hl hy fun _ => rfl) (Operand.elaborates hr hz fun _ => rfl))

theorem typedPair_ok (hl : l.Sound env scopes) (hr : r.Sound env scopes) {z : Typed}
    (h : typedPair (.of scopes l) (.of scopes r) env n = (.ok (y, z), m)) :
    Elaborates env scopes (.all (pairedType l r y z)) [l, r] n [y, z] m := by
  have hln := Operand.isNone_of scopes l
  have hrn := Operand.isNone_of scopes r
  have hel : ∀ {t k k'}, l.isNull = false → (Operand.of scopes l).resolve none env k = (.ok y, k') →
      Elaborates env scopes (.all t) [l] k [y] k' := fun hn hy => Operand.elaborates hl hy (by simp [hn])
  have her : ∀ {t k k'}, r.isNull = false → (Operand.of scopes r).resolve none env k = (.ok z, k') →
      Elaborates env scopes (.all t) [r] k [z] k' := fun hn hz => Operand.elaborates hr hz (by simp [hn])
  unfold pairedType
  generalize Operand.of scopes l = left at *
  generalize Operand.of scopes r = right at *
  rw [← hln, ← hrn]
  cases left with
  | none =>
    cases right with
    | none =>
      simp only [typedPair, Operand.resolve, Step.bind_ok, Literal.resolve_ok, Step.pure_ok, Prod.mk.injEq] at h
      obtain ⟨_, _, ⟨hy, rfl⟩, _, _, ⟨hz, rfl⟩, ⟨rfl, rfl⟩, rfl⟩ := h
      rw [Literal.typed_null_eq hy, Literal.typed_null_eq hz]
      exact .pair (.null hln.symm _ n) (.null hrn.symm _ n)
    | some right =>
      simp only [typedPair, Operand.resolveAs, Operand.resolve, Step.bind_ok, Literal.resolve_ok, Step.pure_ok,
        Prod.mk.injEq] at h
      obtain ⟨_, _, hz, _, _, ⟨hy, rfl⟩, ⟨rfl, rfl⟩, rfl⟩ := h
      rw [Literal.typed_null_eq hy]
      exact .pair (.null hln.symm _ n) (her hrn.symm hz)
  | some left =>
    cases right with
    | none =>
      simp only [typedPair, Operand.resolveAs, Operand.resolve, Step.bind_ok, Literal.resolve_ok, Step.pure_ok,
        Prod.mk.injEq] at h
      obtain ⟨_, _, hy, _, _, ⟨hz, rfl⟩, ⟨rfl, rfl⟩, rfl⟩ := h
      rw [Literal.typed_null_eq hz]
      exact .pair (hel hln.symm hy) (.null hrn.symm _ _)
    | some right =>
      simp only [typedPair, Step.bind_ok, Step.pure_ok, Prod.mk.injEq] at h
      obtain ⟨_, _, hy, _, _, hz, ⟨rfl, rfl⟩, rfl⟩ := h
      exact .pair (hel hln.symm hy) (her hrn.symm hz)

theorem concat_ok (hl : l.Sound env scopes) (hr : r.Sound env scopes)
    (h : concat location (.of scopes l) (.of scopes r) env n = (.ok x, m)) :
    Elaborates env scopes p [.binary .concat l r] n [x] m := by
  simp only [concat, Step.bind_ok, Prod.exists] at h
  obtain ⟨y, z, k, hpair, h⟩ := h
  rcases ht : y.type.concat z.type with _ | t
  · simp [ht] at h
  · simp only [ht, Step.pure_ok] at h
    obtain ⟨rfl, rfl⟩ := h
    exact .concat (typedPair_ok hl hr hpair) ht

theorem sharedPair_ok (hl : l.Sound env scopes) (hr : r.Sound env scopes) {a b : Scalar}
    {t : SqlType} (h : sharedPair location (.of scopes l) (.of scopes r) env n = (.ok (a, b, t, aggregated), m)) :
    ∃ y z : Typed, a = y.expr ∧ b = z.expr ∧ aggregated = [y, z].any (·.aggregated) ∧
      Elaborates env scopes (.all t) [l, r] n [y, z] m ∧ SharedType .unknown [l, r] [y, z] t := by
  simp only [sharedPair, Step.bind_ok] at h
  obtain ⟨shared, k, hshared, h⟩ := h
  have hs : ∀ e ∈ [l, r], e.Sound env scopes := by simp [hl, hr]
  obtain ⟨xs, hexprs, hagg, hel, htype⟩ := Shared.resolve_ok hs hshared
  obtain ⟨y, z, rfl⟩ := List.length_eq_two.mp hel.length_eq.symm
  simp only [hexprs, List.map_cons, List.map_nil, Step.pure_ok, Prod.mk.injEq] at h
  obtain ⟨⟨rfl, rfl, rfl, rfl⟩, rfl⟩ := h
  exact ⟨y, z, rfl, rfl, hagg, hel, htype⟩

theorem arithmetic_ok (hop : op.isArithmetic = true) (hl : l.Sound env scopes) (hr : r.Sound env scopes)
    (h : arithmetic op.arithmetic location (.of scopes l) (.of scopes r) env n = (.ok x, m)) :
    Elaborates env scopes p [.binary op l r] n [x] m := by
  simp only [arithmetic, Step.bind_ok, Prod.exists, Step.ite_ok, Step.fail_ok, Step.pure_ok, and_false,
    false_or] at h
  obtain ⟨_, _, t, _, k, hpair, _, rfl, rfl⟩ := h
  obtain ⟨y, z, rfl, rfl, rfl, hel, htype⟩ := sharedPair_ok hl hr hpair
  exact .arithmetic hop hel htype

theorem comparison_ok {op : ComparisonOp} (hl : l.Sound env scopes) (hr : r.Sound env scopes)
    (h : comparison op location (.of scopes l) (.of scopes r) env n = (.ok x, m)) :
    Elaborates env scopes p [.comparison op l r] n [x] m := by
  simp only [comparison, Step.bind_ok, Prod.exists, Step.pure_ok] at h
  obtain ⟨_, _, t, _, k, hpair, rfl, rfl⟩ := h
  obtain ⟨y, z, rfl, rfl, rfl, hel, htype⟩ := sharedPair_ok hl hr hpair
  exact .comparison hel htype

theorem nullif_ok (hl : l.Sound env scopes) (hr : r.Sound env scopes)
    (h : nullif (.of scopes l) (.of scopes r) env n = (.ok x, m)) : Elaborates env scopes p [.nullif l r] n [x] m := by
  simp only [nullif, Step.bind_ok, Prod.exists, Step.pure_ok, Analysis.temporary_ok] at h
  obtain ⟨_, _, t, _, k, hpair, _, _, ⟨rfl, rfl⟩, rfl, rfl⟩ := h
  obtain ⟨y, z, rfl, rfl, rfl, hel, htype⟩ := sharedPair_ok hl hr hpair
  exact .nullif hel htype

theorem between_ok {symmetric : Bool} {low high : Expr Q} (he : e.Sound env scopes) (hlow : low.Sound env scopes)
    (hhigh : high.Sound env scopes)
    (h : between symmetric negated (.of scopes e) (.of scopes low) (.of scopes high) env n = (.ok x, m)) :
    Elaborates env scopes p [.between e low high symmetric negated] n [x] m := by
  simp only [between, Step.bind_ok] at h
  obtain ⟨shared, k, hshared, h⟩ := h
  have hs : ∀ e' ∈ [e, low, high], e'.Sound env scopes := by simp [he, hlow, hhigh]
  obtain ⟨xs, hexprs, hagg, hel, htype⟩ := Shared.resolve_ok hs hshared
  obtain ⟨y, l, u, rfl⟩ := List.length_eq_three.mp hel.length_eq.symm
  simp only [hexprs, List.map_cons, List.map_nil, Step.bind_ok, Analysis.temporary_ok] at h
  obtain ⟨_, _, ⟨rfl, rfl⟩, h⟩ := h
  cases symmetric with
  | false =>
    simp only [Bool.false_eq_true, if_false, Step.pure_ok] at h
    obtain ⟨rfl, rfl⟩ := h
    rw [hagg]
    exact .between hel htype
  | true =>
    simp only [if_true, Step.bind_ok, Analysis.temporary_ok, Step.pure_ok] at h
    obtain ⟨_, _, ⟨rfl, rfl⟩, _, _, ⟨rfl, rfl⟩, rfl, rfl⟩ := h
    rw [hagg]
    exact .betweenSymmetric hel htype

theorem inList_ok {values : List (Expr Q)} (hs : ∀ e' ∈ e :: values, e'.Sound env scopes)
    (h : inList negated (.of scopes e) (values.map (.of scopes)) env n = (.ok x, m)) :
    Elaborates env scopes p [.inList e values negated] n [x] m := by
  simp only [inList, Step.ite_ok, Step.fail_ok, and_false, false_or, Step.bind_ok, List.isEmpty_iff,
    List.map_eq_nil_iff] at h
  obtain ⟨hne, shared, k, hshared, h⟩ := h
  rw [← List.map_cons] at hshared
  obtain ⟨xs, hexprs, hagg, hel, htype⟩ := Shared.resolve_ok hs hshared
  have hlen := hel.length_eq
  rcases xs with _ | ⟨y, _ | ⟨z, zs⟩⟩
  · cases hlen
  · simp only [List.length_cons, List.length_nil, Nat.add_eq_right, List.length_eq_zero_iff] at hlen
    exact absurd hlen hne
  · simp only [hexprs, List.map_cons, Step.bind_ok, Analysis.temporary_ok, Step.pure_ok] at h
    obtain ⟨_, _, ⟨rfl, rfl⟩, rfl, rfl⟩ := h
    rw [hagg]
    exact .inList hel htype

theorem string_ok (he : e.Sound env scopes) (h : string (.of scopes e) env n = (.ok x, m)) :
    Elaborates env scopes (.all .flexibleVarchar) [e] n [x] m := by
  simp only [string, Operand.resolveAs, Step.bind_ok, Step.ite_ok, Step.fail_ok, Step.pure_ok, and_false,
    false_or] at h
  obtain ⟨_, _, hx, _, rfl, rfl⟩ := h
  exact Operand.elaborates he hx fun _ => rfl

theorem pattern_ok {op : PatternOp} {e' : Expr Q} {escape : Option (Expr Q)} (he : e.Sound env scopes)
    (he' : e'.Sound env scopes) (hescape : ∀ z ∈ escape, z.Sound env scopes)
    (h : pattern op negated (.of scopes e) (.of scopes e') (escape.map (.of scopes)) env n = (.ok x, m)) :
    Elaborates env scopes p [.pattern op e e' escape negated] n [x] m := by
  cases escape with
  | none =>
    simp only [pattern, Option.map_none, Step.bind_ok, Step.pure_ok] at h
    obtain ⟨y, _, hy, z, _, hz, _, _, ⟨rfl, rfl⟩, rfl, rfl⟩ := h
    exact .pattern (.pair (string_ok he hy) (string_ok he' hz))
  | some escape =>
    simp only [pattern, Option.map_some, Step.bind_ok, Step.pure_ok] at h
    obtain ⟨y, _, hy, z, _, hz, w, _, hw, rfl, rfl⟩ := h
    have hw' := string_ok (hescape escape rfl) hw
    exact .patternEscape (.cons (string_ok he hy) (.pair (string_ok he' hz) hw'))

theorem conditions_ok (hs : ∀ e ∈ es, e.Sound env scopes) {tests : List Scalar}
    (h : conditions (es.map fun e => (e.span?, .of scopes e)) env n = (.ok (tests, aggregated), m)) :
    ∃ xs : List Typed, tests = xs.map (·.expr) ∧ aggregated = xs.any (·.aggregated) ∧
      Elaborates env scopes (.all .unknown) es n xs m := by
  induction es generalizing tests aggregated n with
  | nil =>
    simp only [List.map_nil, conditions, Step.pure_ok, Prod.mk.injEq] at h
    obtain ⟨⟨rfl, rfl⟩, rfl⟩ := h
    exact ⟨[], rfl, rfl, .nil n⟩
  | cons e es ih =>
    simp only [List.map_cons, conditions, Step.bind_ok, Step.ite_ok, Step.fail_ok, Step.pure_ok,
      Prod.exists, Prod.mk.injEq, and_false, false_or] at h
    obtain ⟨y, _, hy, _, tests', aggregated', _, h, ⟨rfl, rfl⟩, rfl⟩ := h
    obtain ⟨ys, rfl, rfl, hys⟩ := ih (fun e' he' => hs e' (by simp [he'])) h
    exact ⟨y :: ys, rfl, rfl, .cons (Operand.elaborates (hs e (by simp)) hy fun _ => rfl) hys⟩

theorem cast_ok {target : DataType} (he : e.Sound env scopes) (h : cast target (.of scopes e) env n = (.ok x, m)) :
    Elaborates env scopes p [.cast e target] n [x] m := by
  simp only [cast, DataType.resolve, Operand.resolveAs, Step.bind_ok, Step.options_ok, Step.ofExcept_ok,
    Step.pure_ok] at h
  obtain ⟨t, _, ⟨_, _, ⟨rfl, rfl⟩, ht, rfl⟩, y, _, hy, rfl, rfl⟩ := h
  exact .cast ht (Operand.elaborates he hy fun _ => rfl)

theorem results_eq (clauses : List (Expr Q × Expr Q)) (default : Option (Expr Q)) :
    (clauses.map fun c => (c.1.span?, Operand.of scopes c.1, Operand.of scopes c.2)).map
        (fun (_, _, t) => t) ++ (default.map (Operand.of scopes)).toList =
      (clauses.map (·.2) ++ default.toList).map (Operand.of scopes) := by
  cases default <;> simp

variable {clauses : List (Expr Q × Expr Q)} {default : Option (Expr Q)}

theorem forall_conditions_results {P : Expr Q → Prop}
    (hclauses : ∀ c ∈ clauses, P c.1 ∧ P c.2) (hdefault : ∀ e ∈ default, P e) :
    (∀ e ∈ clauses.map (·.1), P e) ∧ ∀ e ∈ clauses.map (·.2) ++ default.toList, P e := by
  refine ⟨fun e he => ?_, fun e he => ?_⟩
  · obtain ⟨c, hc, rfl⟩ := List.mem_map.mp he
    exact (hclauses c hc).1
  · rcases List.mem_append.mp he with he | he
    · obtain ⟨c, hc, rfl⟩ := List.mem_map.mp he
      exact (hclauses c hc).2
    · exact hdefault e (by simpa using he)

theorem case_ok {operand : Option (Expr Q)}
    (hoperand : ∀ e ∈ operand, e.Sound env scopes)
    (hclauses : ∀ c ∈ clauses, c.1.Sound env scopes ∧ c.2.Sound env scopes)
    (hdefault : ∀ e ∈ default, e.Sound env scopes)
    (h : case (p.expected false) (operand.map (.of scopes))
      (clauses.map fun c => (c.1.span?, .of scopes c.1, .of scopes c.2)) (default.map (.of scopes)) env n =
      (.ok x, m)) : Elaborates env scopes p [.case operand clauses default] n [x] m := by
  obtain ⟨hwhens, hresults⟩ := forall_conditions_results hclauses hdefault
  simp only [case, results_eq, Step.ite_ok, Step.fail_ok, and_false, false_or, List.isEmpty_iff,
    List.map_eq_nil_iff, List.length_map] at h
  obtain ⟨hne, h⟩ := h
  cases operand with
  | none =>
    simp only [Option.map_none, Step.bind_ok, Step.pure_ok, Prod.exists, Prod.mk.injEq, List.map_map,
      Function.comp_def] at h
    obtain ⟨tests, tested, _, hconditions, _, _, _, _, ⟨⟨rfl, rfl, rfl⟩, rfl⟩, shared, _, hshared, rfl,
      rfl⟩ := h
    have hmap : clauses.map (fun c => (c.1.span?, Operand.of scopes c.1)) =
        (clauses.map (·.1)).map fun e => (e.span?, Operand.of scopes e) := by simp
    rw [hmap] at hconditions
    obtain ⟨ws, rfl, rfl, hws⟩ := conditions_ok hwhens hconditions
    obtain ⟨bs, hexprs, hagg, hbs, htype⟩ := Shared.resolve_ok hresults hshared
    rw [hagg, hexprs]
    exact .searchedCase hne hws hbs htype
  | some e =>
    simp only [Option.map_some, caseTests, Step.bind_ok, Analysis.temporary_ok, Prod.exists, List.map_map,
      Function.comp_def] at h
    obtain ⟨_, _, _, _, ⟨tested, k, htested, _, _, ⟨rfl, rfl⟩, htests⟩, shared, _, hshared, h⟩ := h
    have hmap : Operand.of scopes e :: clauses.map (fun c => Operand.of scopes c.1) =
        (e :: clauses.map (·.1)).map (Operand.of scopes) := by simp
    rw [hmap] at htested
    have hs : ∀ e' ∈ e :: clauses.map (·.1), e'.Sound env scopes := by
      intro e' he'
      rcases List.mem_cons.mp he' with rfl | he'
      · exact hoperand e' rfl
      · exact hwhens e' he'
    obtain ⟨xs, hwexprs, hwagg, hxs, hwtype⟩ := Shared.resolve_ok hs htested
    obtain ⟨bs, hexprs, hagg, hbs, htype⟩ := Shared.resolve_ok hresults hshared
    obtain ⟨y, ws, rfl⟩ := List.exists_cons_of_length_eq_add_one hxs.length_eq.symm
    simp only [hwexprs, hwagg, List.map_cons, Step.pure_ok, Prod.mk.injEq] at htests
    obtain ⟨⟨rfl, rfl, rfl⟩, rfl⟩ := htests
    obtain ⟨rfl, rfl⟩ := Step.pure_ok.mp h
    rw [hagg, hexprs]
    exact .simpleCase hne hxs hwtype hbs htype

end Form

theorem Name.scalarOverloads_ok {arity : Nat} {candidates : List FunctionDecl} {n m : Nat}
    (h : name.resolveFunctions arity env n = (.ok (key, candidates), m)) :
    name.scalarOverloads arity env n = (.ok (candidates.filter fun f => !f.tableValued), m) := by
  simp only [scalarOverloads, Step.bind_ok, Prod.exists, Step.pure_ok]
  exact ⟨key, candidates, m, h, rfl, rfl⟩

theorem Overload.cheapest_of_select [Overloaded D]
    (h : (select key candidates types location : Step σ D) env s = (.ok d, s')) :
    cheapest types candidates = [d] ∧ s' = s := by
  rcases hcheapest : cheapest types candidates with _ | ⟨winner, _ | ⟨other, rest⟩⟩
  · simp [select, hcheapest] at h
  · simp only [select, hcheapest, Step.pure_ok] at h
    obtain ⟨rfl, rfl⟩ := h
    exact ⟨rfl, rfl⟩
  · simp [select, hcheapest] at h

theorem Overload.mem_of_cheapest [Overloaded D] (h : cheapest types candidates = [d]) : d ∈ candidates := by
  have hmem : d ∈ cheapest types candidates := by simp [h]
  unfold cheapest at hmem
  dsimp only at hmem
  split at hmem
  · simp at hmem
  · obtain ⟨p, hp, rfl⟩ := List.mem_map.mp hmem
    obtain ⟨d, hd, hcost⟩ := List.mem_filterMap.mp (List.mem_filter.mp hp).1
    obtain ⟨_, _, rfl⟩ := Option.map_eq_some_iff.mp hcost
    exact hd

theorem Overload.mem_of_select [Overloaded D]
    (h : (select key candidates types location : Step σ D) env s = (.ok d, s')) : d ∈ candidates ∧ s' = s := by
  obtain ⟨hcheapest, hs⟩ := cheapest_of_select h
  exact ⟨mem_of_cheapest hcheapest, hs⟩

namespace Form

variable {n m : Nat} {x : Typed}

theorem arguments_ok {parameter? : Nat → Option SqlType} {position : Nat} (hs : ∀ e ∈ es, e.Sound env scopes)
    (h : arguments parameter? position (es.map (.of scopes)) env n = (.ok xs, m)) :
    Elaborates env scopes (.operands fun i => (parameter? (position + i)).getD .unknown) es n xs m := by
  induction es generalizing position n xs with
  | nil =>
    simp only [List.map_nil, arguments, Step.pure_ok] at h
    obtain ⟨rfl, rfl⟩ := h
    exact .nil n
  | cons e es ih =>
    simp only [List.map_cons, arguments, Step.bind_ok, Step.pure_ok] at h
    obtain ⟨y, _, hy, ys, _, hys, rfl, rfl⟩ := h
    have hrest := ih (fun e' he' => hs e' (by simp [he'])) hys
    simp only [Nat.add_right_comm position 1, Nat.add_assoc] at hrest
    refine .cons (Operand.elaborates (hs e (by simp)) hy fun _ => ?_) hrest
    simp [Function.comp_def]

theorem overload_ok [Overloaded D] (hs : ∀ e ∈ es, e.Sound env scopes)
    (h : overload key candidates location (es.map (.of scopes)) env n = (.ok (d, xs), m)) :
    Overload.cheapest (xs.map (·.type)) candidates = [d] ∧ Elaborates env scopes (.arguments candidates) es n xs m := by
  simp only [overload, Step.bind_ok, Step.pure_ok, Prod.mk.injEq] at h
  obtain ⟨_, _, hxs, _, _, hd, ⟨rfl, rfl⟩, rfl⟩ := h
  obtain ⟨hcheapest, rfl⟩ := Overload.cheapest_of_select hd
  exact ⟨hcheapest, by simpa using arguments_ok hs hxs⟩

theorem aggregateCall_ok {distinct asterisk : Bool} (hs : ∀ e ∈ es, e.Sound env scopes)
    (h : aggregateCall name distinct asterisk (es.map (.of scopes)) env n = (.ok x, m)) :
    ∃ (key : String) (overloads : List AggregateDecl) (function : AggregateDecl) (xs : List Typed),
      x = ⟨.aggregate function (xs.map (·.expr)), function.result, true⟩ ∧
      (name.resolveAggregates (if distinct then distinctSuffix else "") es.length asterisk : Analysis _) env n =
        (.ok (key, overloads), n) ∧
      Overload.cheapest (xs.map (·.type)) overloads = [function] ∧
      Elaborates env scopes (.arguments overloads) es n xs m := by
  simp only [aggregateCall, Step.bind_ok, Prod.exists, Step.ite_ok, Step.fail_ok, Step.pure_ok, and_false,
    false_or, List.length_map] at h
  obtain ⟨key, candidates, k, hfound, _, function, xs, _, hxs, rfl, rfl⟩ := h
  have hk : k = n := by
    refine (Step.Reads.ok_iff ?_ hfound).1
    exact .bind (Name.lookUp_reads _ _ _ _) fun _ => .pure _
  subst hk
  obtain ⟨hcheapest, hel⟩ := overload_ok hs hxs
  exact ⟨key, candidates, function, xs, rfl, hfound, hcheapest, hel⟩

theorem call_ok {quantifier : Option SetQuantifier} {arguments : Option (List (Expr Q))}
    (hs : ∀ e ∈ arguments.getD [], e.Sound env scopes)
    (h : call name quantifier (arguments.map (·.map (.of scopes))) env n = (.ok x, m)) :
    Elaborates env scopes p [.call name quantifier arguments] n [x] m := by
  have haggregate : ∀ {k}, aggregateCall name (decide (quantifier = some .distinct))
      (arguments.map (·.map (Operand.of scopes))).isNone
      ((arguments.map (·.map (Operand.of scopes))).getD []) env k = (.ok x, m) →
      (∀ es, quantifier = none → arguments = some es → name.scalarOverloads es.length env k = (.ok [], k)) →
      Elaborates env scopes p [.call name quantifier arguments] k [x] m := by
    intro k hcall hscalar
    have hargs : (arguments.map (·.map (Operand.of scopes))).getD [] =
        (arguments.getD []).map (Operand.of scopes) := by cases arguments <;> rfl
    rw [hargs] at hcall
    obtain ⟨key, overloads, function, xs, rfl, hfound, hcheapest, hxs⟩ := aggregateCall_ok hs hcall
    simp only [decide_eq_true_eq, Option.isNone_map] at hfound
    exact .aggregate hscalar hfound hcheapest hxs
  unfold call at h
  cases quantifier with
  | some q => exact haggregate h (by simp)
  | none =>
    cases arguments with
    | none => exact haggregate h (by simp)
    | some es =>
      simp only [Option.map_some, Step.bind_ok, Prod.exists, Step.ite_ok, Step.pure_ok,
        List.length_map] at h
      obtain ⟨key, candidates, k, hfound, h⟩ := h
      have hoverloads := Name.scalarOverloads_ok hfound
      obtain ⟨rfl, _⟩ := (Name.scalarOverloads_reads name es.length).ok_iff hoverloads
      rcases h with ⟨hempty, h⟩ | ⟨_, function, xs, _, hxs, rfl, rfl⟩
      · refine haggregate h ?_
        rintro _ _ ⟨⟩
        rw [hoverloads, List.isEmpty_iff.mp hempty]
      · obtain ⟨hcheapest, hel⟩ := overload_ok hs hxs
        exact .call hoverloads hcheapest hel

end Form

namespace Expr

theorem clauseOperands_eq (clauses : List (Expr Q × Expr Q)) :
    clauseOperands scopes clauses =
      clauses.map fun c => (c.1.span?, Operand.of scopes c.1, Operand.of scopes c.2) := by
  induction clauses with
  | nil => rfl
  | cons c clauses ih => simp [clauseOperands, ih, Operand.of]

mutual

theorem elaborates (env : Environment) (scopes : Scopes) : ∀ e : Expr Q, e.Sound env scopes
  | literal l => by
    intro p n x m h
    obtain ⟨hx, rfl⟩ := Literal.resolve_ok.mp h
    exact .literal n hx
  | reference name => by
    intro p n x m h
    simp only [resolve, Step.bind_ok, Step.pure_ok] at h
    obtain ⟨r, _, hr, rfl, rfl⟩ := h
    exact .reference hr
  | hostParameter name span => fun _ _ _ _ h => .hostParameter h
  | unary op e => by
    intro p n x m h
    have he := elaborates env scopes e
    by_cases hsigned : ∃ l, op = .minus ∧ e = literal l
    · obtain ⟨l, rfl, rfl⟩ := hsigned
      rw [resolve] at h
      rcases hl : l.negated? with _ | l'
      · rw [hl] at h
        exact Form.unary_ok he (fun l' _ hl' => by cases hl'; exact hl) h
      · rw [hl] at h
        obtain ⟨hx, rfl⟩ := Literal.resolve_ok.mp h
        exact .negated n hl hx
    · rw [resolve] at h
      · exact Form.unary_ok he (fun l hop hl => (hsigned ⟨l, hop, hl⟩).elim) h
      · exact fun l hop hl => hsigned ⟨l, hop, hl⟩
  | binary op l r => by
    intro p n x m h
    have hl := elaborates env scopes l
    have hr := elaborates env scopes r
    cases op with
    | is => exact Form.isTest_ok (.inl ⟨rfl, rfl⟩) hl h
    | isNot => exact Form.isTest_ok (.inr ⟨rfl, rfl⟩) hl h
    | and => exact Form.logical_ok (.inl ⟨rfl, rfl⟩) hl hr h
    | or => exact Form.logical_ok (.inr ⟨rfl, rfl⟩) hl hr h
    | concat => exact Form.concat_ok hl hr h
    | add | subtract | multiply | divide | remainder => exact Form.arithmetic_ok rfl hl hr h
  | comparison op l r => fun _ _ _ _ h => Form.comparison_ok (elaborates env scopes l) (elaborates env scopes r) h
  | between e low high symmetric negated => fun _ _ _ _ h =>
    Form.between_ok (elaborates env scopes e) (elaborates env scopes low) (elaborates env scopes high) h
  | inList e values negated => by
    intro p n x m h
    have hs : ∀ e' ∈ e :: values, e'.Sound env scopes :=
      List.forall_mem_cons.mpr ⟨elaborates env scopes e, list_elaborates env scopes values⟩
    simp only [resolve, operands_eq] at h
    exact Form.inList_ok hs h
  | inQuery _ _ _ | subquery _ => by
    intro p n x m h
    simp [resolve] at h
  | pattern op e e' escape negated => by
    intro p n x m h
    have hescape := option_elaborates env scopes escape
    have hmap : operand? scopes escape = escape.map (.of scopes) := by cases escape <;> rfl
    simp only [resolve, hmap] at h
    exact Form.pattern_ok (elaborates env scopes e) (elaborates env scopes e') hescape h
  | case operand clauses default => by
    intro p n x m h
    have hoperand := option_elaborates env scopes operand
    have hdefault := option_elaborates env scopes default
    have hmap : ∀ o : Option (Expr Q), operand? scopes o = o.map (.of scopes) := by
      intro o
      cases o <;> rfl
    simp only [resolve, hmap, clauseOperands_eq] at h
    exact Form.case_ok hoperand (clauses_elaborates env scopes clauses) hdefault h
  | nullif l r => fun _ _ _ _ h => Form.nullif_ok (elaborates env scopes l) (elaborates env scopes r) h
  | cast e target => fun _ _ _ _ h => Form.cast_ok (elaborates env scopes e) h
  | call name quantifier none => by
    intro p n x m h
    exact Form.call_ok (by simp) h
  | call name quantifier (some es) => by
    intro p n x m h
    have hs := list_elaborates env scopes es
    simp only [resolve, operands_eq] at h
    exact Form.call_ok hs h

theorem list_elaborates (env : Environment) (scopes : Scopes) :
    ∀ es : List (Expr Q), ∀ e ∈ es, e.Sound env scopes
  | [] => by simp
  | e :: es => List.forall_mem_cons.mpr ⟨elaborates env scopes e, list_elaborates env scopes es⟩

theorem option_elaborates (env : Environment) (scopes : Scopes) :
    ∀ o : Option (Expr Q), ∀ e ∈ o, e.Sound env scopes
  | none => by simp
  | some e => by
    have he := elaborates env scopes e
    simpa using he

theorem clauses_elaborates (env : Environment) (scopes : Scopes) :
    ∀ cs : List (Expr Q × Expr Q), ∀ c ∈ cs, c.1.Sound env scopes ∧ c.2.Sound env scopes
  | [] => by simp
  | (w, t) :: cs => List.forall_mem_cons.mpr
    ⟨⟨elaborates env scopes w, elaborates env scopes t⟩, clauses_elaborates env scopes cs⟩

end

theorem sound (env : Environment) (scopes : Scopes) (e : Expr Q) (target : Option Target) (n : Nat) (x : Typed)
    (m : Nat) (h : e.resolve scopes target env n = (.ok x, m)) : Elaborates env scopes (.target target) [e] n [x] m :=
  elaborates env scopes e (.target target) n x m h

end Expr

end SqlPlan
