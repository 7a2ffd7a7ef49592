import SqlPlan.Proofs.ElaborationTyped
import SqlPlan.Proofs.Mentions
import SqlPlan.Proofs.ScalarTree

namespace SqlPlan

variable {Q : Type} {env : Environment} {scopes : Scopes} {p : Position}
variable {n m : Nat} {tests : List Scalar} {bodies xs : List Typed} {name : Name}

/-- Whether a call is one of an aggregate function: it has a quantifier or an asterisk, or no scalar
function takes that many arguments under its name. -/
def Name.callsAggregate (env : Environment) (name : Name) (quantifier : Option SetQuantifier)
    (arity : Option Nat) : Bool :=
  match quantifier, arity with
  | none, some arity =>
    match (name.scalarOverloads arity env 0).1.toOption with
    | some (_ :: _) => false
    | _ => true
  | _, _ => true

namespace Expr

/-- Whether the expression is a call of an aggregate function with such arguments. A call of an asterisk
has none. -/
def isCallOn (env : Environment) (test : List (Expr Q) → Bool) : Expr Q → Bool
  | call name quantifier arguments =>
    name.callsAggregate env quantifier (arguments.map List.length) && test (arguments.getD [])
  | _ => false

def someCall (env : Environment) (test : List (Expr Q) → Bool) (e : Expr Q) : Bool :=
  e.subexpressions.any (isCallOn env test)

def callsAggregate (env : Environment) : Expr Q → Bool := someCall env fun _ => true

variable {test : List (Expr Q) → Bool}

theorem any_listSubexpressions (es : List (Expr Q)) :
    (listSubexpressions es).any (isCallOn env test) = es.any (someCall env test) := by
  induction es with
  | nil => rfl
  | cons e es ih => rw [listSubexpressions, List.any_append, ih, List.any_cons, someCall]

theorem any_optionSubexpressions (o : Option (Expr Q)) :
    (optionSubexpressions o).any (isCallOn env test) = o.toList.any (someCall env test) := by
  cases o with
  | none => rfl
  | some e => simp [optionSubexpressions, someCall]

theorem any_pairSubexpressions (ps : List (Expr Q × Expr Q)) : (pairSubexpressions ps).any (isCallOn env test) =
    ((ps.map (·.1)).any (someCall env test) || (ps.map (·.2)).any (someCall env test)) := by
  induction ps with
  | nil => rfl
  | cons p ps ih =>
    obtain ⟨a, b⟩ := p
    simp only [pairSubexpressions, List.any_append, ih, List.map_cons, List.any_cons, someCall]
    ac_rfl

theorem someCall_call (name : Name) (quantifier : Option SetQuantifier) (arguments : Option (List (Expr Q))) :
    (call name quantifier arguments).someCall env test =
      (name.callsAggregate env quantifier (arguments.map List.length) && test (arguments.getD []) ||
        (arguments.getD []).any (someCall env test)) := by
  cases arguments <;> simp [someCall, subexpressions, isCallOn, any_listSubexpressions]

end Expr

namespace Scalar

theorem listHasAggregate_eq (ss : List Scalar) : listHasAggregate ss = ss.any hasAggregate := by
  induction ss with
  | nil => rfl
  | cons s ss ih => rw [listHasAggregate, ih, List.any_cons]

theorem declaratorsHaveAggregate_eq (ds : List (Variable × Scalar)) :
    declaratorsHaveAggregate ds = (ds.map (·.2)).any hasAggregate := by
  induction ds with
  | nil => rfl
  | cons p ds ih =>
    obtain ⟨v, s⟩ := p
    rw [declaratorsHaveAggregate, ih]
    rfl

theorem optionHasAggregate_eq (o : Option Scalar) : optionHasAggregate o = o.toList.any hasAggregate := by
  cases o with
  | none => rfl
  | some s => simp [optionHasAggregate]

theorem pairsHaveAggregate_eq (ps : List (Scalar × Scalar)) :
    pairsHaveAggregate ps = (flatPairs ps).any hasAggregate := by
  induction ps with
  | nil => rfl
  | cons p ps ih =>
    obtain ⟨a, b⟩ := p
    rw [pairsHaveAggregate, ih]
    simp [flatPairs, Bool.or_assoc]

theorem flatPairs_zip_perm {as bs : List Scalar} (h : as.length = bs.length) :
    (flatPairs (as.zip bs)).Perm (as ++ bs) := by
  induction as generalizing bs with
  | nil =>
    obtain rfl := List.length_eq_zero_iff.mp h.symm
    exact .nil
  | cons a as ih =>
    obtain ⟨b, bs, rfl⟩ := List.exists_cons_of_length_eq_add_one h.symm
    exact .cons a (((ih (Nat.succ.inj h)).cons b).trans List.perm_middle.symm)

variable {clauses : List (Expr Q × Expr Q)} {default : Option (Expr Q)}

/-- The subexpressions of an elaborated CASE are its tests and its bodies. -/
theorem children_conditionalOf_perm (hbodies : Elaborates env scopes p (clauses.map (·.2) ++ default.toList) n bodies m)
    (htests : tests.length = clauses.length) :
    (conditionalOf clauses.length tests bodies).children.Perm (tests ++ bodies.map (·.expr)) := by
  generalize hes : bodies.map (·.expr) = es
  have hlength : clauses.length + default.toList.length = es.length := by simpa [← hes] using hbodies.length_eq
  have hdefault : default.toList.length ≤ 1 := Option.length_toList_le
  have hlast : es[clauses.length]?.toList = es.drop clauses.length := by
    rcases Nat.lt_or_ge clauses.length es.length with hlt | hge
    · have hdrop : es.drop (clauses.length + 1) = [] := List.drop_eq_nil_of_le (by omega)
      rw [List.drop_eq_getElem_cons hlt, hdrop, List.getElem?_eq_getElem hlt]
      rfl
    · rw [List.getElem?_eq_none hge, List.drop_eq_nil_of_le hge]
      rfl
  have htake : tests.length = (es.take clauses.length).length := by
    rw [List.length_take]
    omega
  have hchildren : (conditionalOf clauses.length tests bodies).children =
      flatPairs (tests.zip (es.take clauses.length)) ++ es.drop clauses.length := by
    rw [← hlast, conditionalOf, hes]
    rfl
  rw [hchildren]
  refine ((flatPairs_zip_perm htake).append_right _).trans ?_
  rw [List.append_assoc, List.take_append_drop]

def someCall (test : List Scalar → Bool) (s : Scalar) : Bool :=
  (match s with
    | aggregate _ ss => test ss
    | _ => false) ||
  s.children.attach.any fun c => c.1.someCall test
termination_by sizeOf s
decreasing_by exact sizeOf_lt_of_mem_children c.2

variable {s : Scalar} {test : List Scalar → Bool}

theorem any_attach {α : Type} (f : α → Bool) (xs : List α) : (xs.attach.any fun x => f x.1) = xs.any f := by
  have hmap := List.any_map (f := Subtype.val) (l := xs.attach) (p := f)
  rw [List.attach_map_subtype_val] at hmap
  exact hmap.symm

theorem someCall_aggregate (f : AggregateDecl) (ss : List Scalar) :
    (aggregate f ss).someCall test = (test ss || ss.any (someCall test)) := by
  rw [someCall, any_attach]
  rfl

theorem someCall_node (h : ∀ f ss, s ≠ aggregate f ss) : s.someCall test = s.children.any (someCall test) := by
  rw [someCall, any_attach (someCall test)]
  · exact Bool.false_or _
  · exact h

theorem hasAggregate_node (h : ∀ f ss, s ≠ aggregate f ss) : s.hasAggregate = s.children.any hasAggregate := by
  cases s with
  | aggregate f ss => exact absurd rfl (h f ss)
  | conditional ps o =>
    rw [hasAggregate, pairsHaveAggregate_eq, optionHasAggregate_eq, children_conditional, List.any_append]
  | letIn ds b => simp [hasAggregate, declaratorsHaveAggregate_eq, children]
  | call f ss => rw [hasAggregate, listHasAggregate_eq, children]
  | _ => simp [hasAggregate, children, Bool.or_assoc]

theorem hasAggregate_eq_someCall (s : Scalar) : s.hasAggregate = s.someCall fun _ => true := by
  induction s using childInduction with
  | node s ih =>
    by_cases htop : ∃ f ss, s = aggregate f ss
    · obtain ⟨f, ss, rfl⟩ := htop
      rw [someCall_aggregate, Bool.true_or]
      rfl
    · have hnode : ∀ f ss, s ≠ aggregate f ss := fun f ss hs => htop ⟨f, ss, hs⟩
      rw [hasAggregate_node hnode, someCall_node hnode, Bool.eq_iff_iff, List.any_eq_true, List.any_eq_true]
      exact exists_congr fun c => and_congr_right fun hc => by rw [ih c hc]

theorem someCall_of_not_hasAggregate (h : s.hasAggregate = false) : s.someCall test = false := by
  induction s using childInduction with
  | node s ih =>
    have hnode : ∀ f ss, s ≠ aggregate f ss := by
      rintro f ss rfl
      cases h
    rw [hasAggregate_node hnode, List.any_eq_false] at h
    rw [someCall_node hnode, List.any_eq_false]
    exact fun c hc => by simp [ih c hc (by simpa using h c hc)]

@[simp] theorem someCall_negatedIf (negated : Bool) (s : Scalar) :
    (s.negatedIf negated).someCall test = s.someCall test := by
  cases negated with
  | false => rfl
  | true => simp [negatedIf, negation, someCall_node, children]

theorem someCall_letIn (v : Variable) (s body : Scalar) :
    (letIn [(v, s)] body).someCall test = (s.someCall test || body.someCall test) := by
  simp [someCall_node, children]

theorem any_someCall_equals (v : Variable) (ss : List Scalar) :
    (ss.map (Form.equals v)).any (someCall test) = ss.any (someCall test) := by
  simp [List.any_map, Function.comp_def, Form.equals, someCall_node, children]

theorem someCall_anyOf (first : Scalar) (rest : List Scalar) :
    (Form.anyOf first rest).someCall test = (first.someCall test || rest.any (someCall test)) := by
  unfold Form.anyOf
  induction rest generalizing first with
  | nil => simp
  | cons s rest ih =>
    rw [List.foldl_cons, ih, List.any_cons, ← Bool.or_assoc]
    simp [disjunction, someCall_node, children]

theorem someCall_conditionalOf (hbodies : Elaborates env scopes p (clauses.map (·.2) ++ default.toList) n bodies m)
    (htests : tests.length = clauses.length) : (conditionalOf clauses.length tests bodies).someCall test =
      (tests.any (someCall test) || (bodies.map (·.expr)).any (someCall test)) := by
  rw [someCall_node (by simp [conditionalOf]), (children_conditionalOf_perm hbodies htests).any_eq, List.any_append]

end Scalar

namespace Elaborates

theorem call_not_aggregate {arity : Nat} {overloads : List FunctionDecl} {function : FunctionDecl}
    {types : List SqlType} (h : name.scalarOverloads arity env n = (.ok overloads, n))
    (hf : Overload.cheapest types overloads = [function]) : name.callsAggregate env none (some arity) = false := by
  obtain ⟨-, h⟩ := (Name.scalarOverloads_reads name arity).ok_iff h
  obtain ⟨first, rest, rfl⟩ := List.exists_cons_of_ne_nil (List.ne_nil_of_mem (Overload.mem_of_cheapest hf))
  simp [Name.callsAggregate, h]

theorem call_aggregate {quantifier : Option SetQuantifier} {arguments : Option (List (Expr Q))}
    (h : ∀ es, quantifier = none → arguments = some es → name.scalarOverloads es.length env n = (.ok [], n)) :
    name.callsAggregate env quantifier (arguments.map List.length) = true := by
  cases quantifier with
  | some _ => rfl
  | none =>
    cases arguments with
    | none => rfl
    | some es =>
      obtain ⟨-, h⟩ := (Name.scalarOverloads_reads name es.length).ok_iff (h es rfl rfl)
      simp [Name.callsAggregate, h]

variable {test : List (Expr Q) → Bool} {test' : List Scalar → Bool}

variable {es : List (Expr Q)}

theorem any_someCall (h : xs.map (·.expr.someCall test') = es.map (Expr.someCall env test)) :
    (xs.map (·.expr)).any (Scalar.someCall test') = es.any (Expr.someCall env test) := by
  have hany := congrArg (List.any · id) h
  simpa [List.any_map, Function.comp_def] using hany

theorem any_of_truthTest {e : Expr Q} {op : UnaryOperator} (h : Form.truthTest? e = some op) :
    e.subexpressions.any (Expr.isCallOn env test) = false := by
  unfold Form.truthTest? at h
  split at h <;> first | rfl | cases h

/-- Elaboration keeps the aggregate calls with arguments of some kind, if it keeps the kind. -/
theorem someCall_eq
    (htest : ∀ (p : Position) (es : List (Expr Q)) (xs : List Typed) (n m : Nat),
      Elaborates env scopes p es n xs m → test' (xs.map (·.expr)) = test es) {n m : Nat}
    (h : Elaborates env scopes p es n xs m) : xs.map (·.expr.someCall test') = es.map (Expr.someCall env test) := by
  induction h with
  | nil => rfl
  | cons _ _ ih ih' => simpa using And.intro ih ih'
  | literal _ hx | negated _ _ hx =>
    rcases Literal.typed_ok hx with ⟨v, t, rfl⟩ | ⟨v, t, u, rfl⟩ <;>
      simp [Typed.constant, Scalar.someCall_node, Scalar.children, Expr.someCall, Expr.subexpressions, Expr.isCallOn]
  | reference _ => simp [Scalar.someCall_node, Scalar.children, Expr.someCall, Expr.subexpressions, Expr.isCallOn]
  | hostParameter hx =>
    rcases Form.hostParameter_ok hx with ⟨decl, rfl, _⟩ | ⟨v, t, rfl, _⟩ <;>
      simp [Typed.constant, Scalar.someCall_node, Scalar.children, Expr.someCall, Expr.subexpressions, Expr.isCallOn]
  | aggregate hoverloads _ _ hel ih =>
    simp only [List.map_cons, List.map_nil, Scalar.someCall_aggregate, htest _ _ _ _ _ hel, any_someCall ih,
      Expr.someCall_call, call_aggregate hoverloads, Bool.true_and]
  | call hoverloads hf _ ih =>
    rw [List.map_singleton, Scalar.someCall_node (by simp), Scalar.children, any_someCall ih]
    simp [Expr.someCall_call, call_not_aggregate hoverloads hf]
  | searchedCase _ hw hb _ ihw ihb =>
    rw [List.map_singleton, Scalar.someCall_conditionalOf hb (by simpa using hw.length_eq.symm), any_someCall ihw,
      any_someCall ihb]
    simp [Expr.someCall, Expr.subexpressions, Expr.isCallOn, Expr.any_optionSubexpressions,
      Expr.any_pairSubexpressions, Bool.or_assoc]
  | @simpleCase e clauses default x ws bs u t n k m _ _ hw _ hb _ ihw ihb =>
    obtain ⟨hx, hws⟩ : x.expr.someCall test' = e.someCall env test ∧ _ := List.cons.inj ihw
    rw [List.map_singleton, Scalar.someCall_letIn, Scalar.someCall_conditionalOf hb (by simpa using hw.length_eq.symm),
      Scalar.any_someCall_equals, hx, any_someCall hws, any_someCall ihb]
    simp [Expr.someCall, Expr.subexpressions, Expr.isCallOn, Expr.any_optionSubexpressions,
      Expr.any_pairSubexpressions, Bool.or_assoc]
  | @inList e values x y ys t negated n m _ _ _ ih =>
    obtain ⟨hx, hys⟩ : x.expr.someCall test' = e.someCall env test ∧ _ := List.cons.inj ih
    have hvalues : ((y.expr :: ys.map (·.expr)).map (Form.equals (temporaryAfter m))).any (Scalar.someCall test') =
        values.any (Expr.someCall env test) :=
      (Scalar.any_someCall_equals _ _).trans (any_someCall hys)
    rw [List.map_cons, List.any_cons] at hvalues
    rw [List.map_singleton, Typed.truth, Scalar.someCall_negatedIf, Scalar.someCall_letIn, Scalar.someCall_anyOf,
      hvalues, hx]
    simp [Expr.someCall, Expr.subexpressions, Expr.isCallOn, Expr.any_listSubexpressions]
  | isTest _ ht _ ih =>
    simp_all [Typed.truth, Scalar.someCall_node, Scalar.children, Expr.someCall, Expr.subexpressions, Expr.isCallOn,
      any_of_truthTest ht]
  | _ =>
    simp_all [Typed.truth, Scalar.someCall_node, Scalar.children, Scalar.disjunction,
      Scalar.conjunction, Form.inRange, Form.equals, Form.noEscape, Typed.constant, Expr.someCall,
      Expr.subexpressions, Expr.optionSubexpressions, Expr.isCallOn, Bool.or_assoc]

theorem any_aggregated (h : xs.map (·.aggregated) = es.map (Expr.someCall env test)) :
    xs.any (·.aggregated) = es.any (Expr.someCall env test) := by
  have hany := congrArg (List.any · id) h
  simpa [List.any_map, Function.comp_def] using hany

/-- The elaborated expressions with aggregate calls are those that were written with one. -/
theorem aggregated_eq (h : Elaborates env scopes p es n xs m) :
    xs.map (·.aggregated) = es.map (Expr.callsAggregate env) := by
  unfold Expr.callsAggregate
  induction h with
  | nil => rfl
  | cons _ _ ih ih' => simpa using And.intro ih ih'
  | literal _ hx | negated _ _ hx =>
    rcases Literal.typed_ok hx with ⟨v, t, rfl⟩ | ⟨v, t, u, rfl⟩ <;> rfl
  | reference _ => rfl
  | hostParameter hx =>
    rcases Form.hostParameter_ok hx with ⟨decl, rfl, _⟩ | ⟨v, t, rfl, _⟩ <;> rfl
  | isTest _ ht _ ih => simp_all [Expr.someCall, Expr.subexpressions, Expr.isCallOn, Typed.truth, any_of_truthTest ht]
  | searchedCase _ _ _ _ ihw ihb | simpleCase _ _ _ _ _ ihw ihb =>
    simp [any_aggregated ihw, any_aggregated ihb, Expr.someCall, Expr.subexpressions, Expr.isCallOn,
      Expr.any_optionSubexpressions, Expr.any_pairSubexpressions, Bool.or_assoc]
  | inList _ _ ih =>
    simp only [List.map_cons (f := Typed.aggregated), List.map_nil, Typed.truth, any_aggregated ih,
      List.any_cons, Expr.someCall, Expr.subexpressions, Expr.isCallOn, List.any_append, Bool.false_or,
      Expr.any_listSubexpressions, List.map_cons]
  | call hoverloads hf _ ih =>
    simp [Expr.someCall_call, call_not_aggregate hoverloads hf, any_aggregated ih]
  | aggregate hoverloads => simp [Expr.someCall_call, call_aggregate hoverloads]
  | _ =>
    simp_all [Expr.someCall, Expr.subexpressions, Expr.isCallOn, Expr.optionSubexpressions, Typed.truth, Bool.or_assoc]

theorem hasAggregate_eq (h : Elaborates env scopes p es n xs m) : ∀ x ∈ xs, x.expr.hasAggregate = x.aggregated := by
  have hcalls : xs.map (·.expr.someCall fun _ => true) = es.map (Expr.someCall env fun _ => true) :=
    h.someCall_eq fun _ _ _ _ _ _ => rfl
  rw [show Expr.someCall env (fun _ => true) = Expr.callsAggregate env from rfl, ← h.aggregated_eq] at hcalls
  simpa [Scalar.hasAggregate_eq_someCall] using hcalls

end Elaborates

def Aggregation.Flat (a : Aggregation) : Prop :=
  ∀ e ∈ a.entries, e.arguments.any Scalar.hasAggregate = false

theorem Regrouping.flat_of_register {r r' : Regrouping} {function : AggregateDecl} {ss : List Scalar}
    {v : Variable} (hr : r.aggregation.Flat) (hss : ss.any Scalar.hasAggregate = false)
    (h : r.register function ss = (v, r')) : r'.aggregation.Flat := by
  unfold register at h
  split at h
  · cases h
    exact hr
  · cases h
    exact List.forall_mem_append.mpr ⟨hr, List.forall_mem_singleton.mpr hss⟩

namespace Regroups

variable {ss ss' : List Scalar} {r r' : Regrouping}

theorem any_hasAggregate (h : Regroups ss r ss' r') : ss'.any Scalar.hasAggregate = false := by
  induction h with
  | conditional _ _ ih ih' =>
    simp_all [Scalar.hasAggregate, Scalar.pairsHaveAggregate_eq, Scalar.optionHasAggregate_eq]
  | letIn _ _ _ ih ih' =>
    simp only [List.any_cons, List.any_nil, Bool.or_false] at ih' ⊢
    rw [Scalar.hasAggregate, Scalar.declaratorsHaveAggregate_eq, ih, ih']
    rfl
  | call _ _ ih => simp_all [Scalar.hasAggregate, Scalar.listHasAggregate_eq]
  | _ => simp_all [Scalar.hasAggregate]

theorem flat (h : Regroups ss r ss' r') (hr : r.aggregation.Flat) : r'.aggregation.Flat := by
  induction h with
  | nil r | immediate v t r | var _ => exact hr
  | cons _ _ ih ih' | conditional _ _ ih ih' | letIn _ _ _ ih ih' => exact ih' (ih hr)
  | aggregate ha hregister =>
    rw [Scalar.listHasAggregate_eq] at ha
    exact Regrouping.flat_of_register hr ha hregister
  | unary _ _ ih | binary _ _ ih | compare _ _ ih | pattern _ _ ih | cast _ _ _ ih | call _ _ ih => exact ih hr

end Regroups

end SqlPlan
