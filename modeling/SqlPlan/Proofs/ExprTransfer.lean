import SqlPlan.Proofs.ExprComparison
import SqlPlan.Proofs.ScopeTransfer

namespace SqlPlan

open List (Forall₂)

variable {Q : Type} {env : Environment} {T : Transfer env.options}
variable {σ : Type} {count : σ → Nat} {g : σ → σ}

def Transfer.exprComparison (T : Transfer env.options) (scopes scopes' : Scopes) : ExprComparison where
  toComparison := T.comparison (fun n => n) (· + T.offset)
  toMatching := .renumbered T.number
  scopes
  scopes'
  options := rfl
  hostParameter? _ := rfl
  placeholder? _ := rfl
  mint := Analysis.mint_transfers

theorem Transfer.exprCompares_iff {scopes scopes' : Scopes} {m m' : Analysis Typed} :
    (T.exprComparison scopes scopes').Compares (Scalar.Matching.renumbered T.number).typed m m' ↔
      Analysis.Transfers T (Typed.renumber T.number) m m' := by
  rw [Scalar.Matching.typed_renumbered]
  rfl

theorem Literal.resolve_transfers {l : Literal} (h : l.panics env.options = true → T.panics)
    (target : Option Target) :
    Step.Transfers T count g (Typed.renumber T.number) (l.resolve target) (l.resolve target) := by
  have hcompares := resolve_compares (C := T.comparison count g) (.renumbered T.number) rfl h target
  rwa [Scalar.Matching.typed_renumbered] at hcompares

theorem DataType.resolve_transfers (t : DataType) :
    Step.Transfers T count g (fun type => type) t.resolve (t.respell T.spell).resolve := by
  cases t with
  | userDefined name =>
    refine .options ?_
    rw [respell, type, type, Name.span_respell]
    exact .failText fun h => by rw [h.respell]
  | _ => exact resolve_compares rfl _

theorem Name.resolveAggregates_reads (name : Name) (suffix : String) (arity : Nat) (asterisk : Bool) :
    Step.Reads (name.resolveAggregates suffix arity asterisk : Step σ _) env :=
  .bind (lookUp_reads _ _ _ _) fun _ => .pure _

theorem Form.renumber_types (xs : List Typed) :
    (xs.map (Typed.renumber T.number)).map (·.type) = xs.map (·.type) := by
  rw [List.map_map]
  rfl

theorem Form.renumber_exprs (xs : List Typed) :
    (xs.map (Typed.renumber T.number)).map (·.expr) = (xs.map (·.expr)).map (Scalar.renumber T.number) := by
  rw [List.map_map, List.map_map]
  rfl

abbrev Transfer.AllowsIn (T : Transfer env.options) (es : List (Expr Q)) : Prop :=
  ∀ e ∈ es, ∀ m ∈ e.mention?, T.Allows m

namespace Expr

variable {scopes scopes' : Scopes}

theorem call_compares (name : Name) (hpath : T.further = []) (quantifier : Option SetQuantifier)
    {es : Option (List (Expr Q))} {es' : Option (List (Expr Unit))}
    (h : Option.Rel (Forall₂ (T.exprComparison scopes scopes').Exprs) es es') :
    (T.exprComparison scopes scopes').Exprs (.call name quantifier es)
      (.call (name.respell T.spell) quantifier es') := by
  have hlookUp : ∀ {α : Type} (suffix : String) (inSchema : Schema → String → α) (onPath : SearchPath → String → α)
      (n : Nat), (name.respell T.spell).lookUp suffix inSchema onPath env n =
        name.lookUp suffix inSchema onPath env n :=
    name.lookUp_respell T.spelling
  refine .call ⟨(name.span_respell T.spelling).symm, fun suffix arity asterisk => ?_, fun location message => ?_⟩
    (fun arity => ?_) _ h
  · exact Step.Transfers.reads_of_nil hpath (name.resolveAggregates_reads _ _ _) fun n =>
      Step.bind_congr (hlookUp _ _ _ n) _
  · exact ⟨rfl, fun hw => by rw [hw.respell]⟩
  · exact Step.Transfers.reads_of_nil hpath (name.resolveFunctions_reads _) fun n => Step.bind_congr (hlookUp _ _ _ n) _

mutual

theorem respell_compares (hscopes : Scopes.Transfers T scopes scopes') : ∀ e : Expr Q,
    T.AllowsIn e.subexpressions → (T.exprComparison scopes scopes').Exprs e (e.respell T.spell)
  | literal l, h => .literal (h _ (List.mem_singleton_self _) _ rfl)
  | reference name, _ => by
    refine ⟨congrArg some (name.span_respell T.spelling).symm, rfl, fun target => Transfer.exprCompares_iff.mpr ?_⟩
    exact .bind (name.resolveVariable_transfers hscopes) fun r => .pure (by cases r <;> rfl)
  | hostParameter name span, _ => .hostParameter name span
  | unary op e, h => .unary op (respell_compares hscopes e (List.forall_mem_cons.mp h).2)
  | binary op l r, h => by
    obtain ⟨-, hl, hr⟩ := forall_mem_node.mp h
    exact .binary op (respell_compares hscopes l hl) (respell_compares hscopes r hr)
  | comparison op l r, h => by
    obtain ⟨-, hl, hr⟩ := forall_mem_node.mp h
    exact .comparison op (respell_compares hscopes l hl) (respell_compares hscopes r hr)
  | between e low high symmetric negated, h => by
    obtain ⟨-, he, h⟩ := forall_mem_node.mp h
    obtain ⟨hlow, hhigh⟩ := List.forall_mem_append.mp h
    exact .between _ _ (respell_compares hscopes e he) (respell_compares hscopes low hlow)
      (respell_compares hscopes high hhigh)
  | inList e values negated, h => by
    obtain ⟨-, he, hvalues⟩ := forall_mem_node.mp h
    exact .inList _ (respell_compares hscopes e he) (respellList_compares hscopes values hvalues)
  | inQuery e q negated, _ => .inQuery _ _ _
  | pattern op e p escape negated, h => by
    obtain ⟨-, he, h⟩ := forall_mem_node.mp h
    obtain ⟨hp, hescape⟩ := List.forall_mem_append.mp h
    exact .pattern _ _ (respell_compares hscopes e he) (respell_compares hscopes p hp)
      (respellOption_compares hscopes escape hescape)
  | case operand clauses default, h => by
    obtain ⟨-, hoperand, h⟩ := forall_mem_node.mp h
    obtain ⟨hclauses, hdefault⟩ := List.forall_mem_append.mp h
    exact .case (respellOption_compares hscopes operand hoperand) (respellClauses_compares hscopes clauses hclauses)
      (respellOption_compares hscopes default hdefault)
  | nullif l r, h => by
    obtain ⟨-, hl, hr⟩ := forall_mem_node.mp h
    exact .nullif (respell_compares hscopes l hl) (respell_compares hscopes r hr)
  | cast e target, h =>
    .cast target.resolve_transfers (respell_compares hscopes e (List.forall_mem_cons.mp h).2)
  | call name quantifier none, h => call_compares name (h _ (List.mem_singleton_self _) _ rfl) quantifier .none
  | call name quantifier (some es), h => by
    obtain ⟨hpath, hes⟩ := List.forall_mem_cons.mp h
    exact call_compares name (hpath _ rfl) quantifier (.some (respellList_compares hscopes es hes))
  | subquery q, _ => .subquery _ _

theorem respellList_compares (hscopes : Scopes.Transfers T scopes scopes') : ∀ es : List (Expr Q),
    T.AllowsIn (listSubexpressions es) → Forall₂ (T.exprComparison scopes scopes').Exprs es (respellList T.spell es)
  | [], _ => .nil
  | e :: es, h => by
    obtain ⟨he, hes⟩ := List.forall_mem_append.mp h
    exact .cons (respell_compares hscopes e he) (respellList_compares hscopes es hes)

theorem respellOption_compares (hscopes : Scopes.Transfers T scopes scopes') : ∀ o : Option (Expr Q),
    T.AllowsIn (optionSubexpressions o) → Option.Rel (T.exprComparison scopes scopes').Exprs o (respellOption T.spell o)
  | none, _ => .none
  | some e, h => .some (respell_compares hscopes e h)

theorem respellClauses_compares (hscopes : Scopes.Transfers T scopes scopes') : ∀ cs : List (Expr Q × Expr Q),
    T.AllowsIn (pairSubexpressions cs) → Forall₂ (fun c c' => (T.exprComparison scopes scopes').Exprs c.1 c'.1 ∧
      (T.exprComparison scopes scopes').Exprs c.2 c'.2) cs (respellClauses T.spell cs)
  | [], _ => .nil
  | (c, t) :: cs, h => by
    obtain ⟨hc, h⟩ := List.forall_mem_append.mp h
    obtain ⟨ht, hcs⟩ := List.forall_mem_append.mp h
    exact .cons ⟨respell_compares hscopes c hc, respell_compares hscopes t ht⟩ (respellClauses_compares hscopes cs hcs)

end

theorem transfers (hscopes : Scopes.Transfers T scopes scopes') (e : Expr Q) (h : T.AllowsAll e.mentions)
    (target : Option Target) :
    Analysis.Transfers T (Typed.renumber T.number) (e.resolve scopes target)
      ((e.respell T.spell).resolve scopes' target) :=
  Transfer.exprCompares_iff.mp ((respell_compares hscopes e fun x hx m hm =>
    h m (List.mem_filterMap.mpr ⟨x, hx, hm⟩)).resolves target)

end Expr

end SqlPlan
