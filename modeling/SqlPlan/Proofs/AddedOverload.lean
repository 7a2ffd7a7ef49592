import SqlPlan.Proofs.ChangedFunctions
import SqlPlan.Proofs.OverloadSelection
import SqlPlan.Proofs.SchemaInvariant

namespace SqlPlan

variable {f : FunctionDecl} {name : Name} {n m : Nat} {key : String} {xs : List Typed}

open Step (Related SameIn)

variable {Q : Type} {home grown : Schema} {function added : FunctionDecl}

theorem Schema.addFunction_eq (hadd : home.addFunction function = (.ok added, grown)) :
    grown = { home with
      functionMap := (home.functionMap.upsert function.name [] fun fs => fs).upsert function.name [] (· ++ [added])
      stored := home.stored + 1 } := by
  obtain ⟨_, rfl, ⟨e, he⟩ | ⟨-, f', -, heq⟩⟩ := addFunction_cases home function
  · rw [he] at hadd
    cases hadd
  · rw [heq] at hadd
    cases hadd
    rfl

/-- The second list holds the declarations of the first one, in their order, and the added one any number of times. -/
def FunctionDecl.Joins (added : FunctionDecl) (found found' : List FunctionDecl) : Prop :=
  found.Sublist found' ∧ found'.filter (· ≠ added) = found.filter (· ≠ added)

namespace FunctionDecl.Joins

variable {found found' others others' : List FunctionDecl}

theorem refl (found : List FunctionDecl) : added.Joins found found := ⟨.refl _, rfl⟩

theorem append (h : added.Joins found found') (h' : added.Joins others others') :
    added.Joins (found ++ others) (found' ++ others') := by
  refine ⟨h.1.append h'.1, ?_⟩
  rw [List.filter_append, List.filter_append, h.2, h'.2]

theorem snoc (found : List FunctionDecl) : added.Joins found (found ++ [added]) := by
  refine ⟨List.sublist_append_left _ _, ?_⟩
  simp

theorem flatMap {f f' : Schema → List FunctionDecl} (h : ∀ s, added.Joins (f s) (f' s)) (ss : List Schema) :
    added.Joins (ss.flatMap f) (ss.flatMap f') := by
  induction ss with
  | nil => exact refl _
  | cons s ss ih => exact (h s).append ih

theorem filter_eq (h : added.Joins found found') {p : FunctionDecl → Bool} (hp : p added = false) :
    found'.filter p = found.filter p := by
  have hne : ∀ fs : List FunctionDecl, fs.filter p = (fs.filter (· ≠ added)).filter p := by
    intro fs
    rw [List.filter_filter]
    refine List.filter_congr fun f _ => ?_
    by_cases hf : f = added
    · simp [hf, hp]
    · simp [hf]
  rw [hne, h.2, ← hne]

theorem filter (h : added.Joins found found') (p : FunctionDecl → Bool) :
    added.Joins (found.filter p) (found'.filter p) := by
  refine ⟨h.1.filter p, ?_⟩
  rw [List.filter_filter, List.filter_filter]
  exact h.filter_eq (by simp)

theorem eq_of_not_mem (h : added.Joins found found') (hmem : added ∉ found') : found' = found := by
  have hne : ∀ fs : List FunctionDecl, added ∉ fs → fs.filter (· ≠ added) = fs := by
    intro fs hfs
    rw [List.filter_eq_self]
    exact fun f hf => decide_eq_true fun heq => hfs (heq ▸ hf)
  rw [← hne found' hmem, h.2, hne found fun hf => hmem (h.1.subset hf)]

theorem eq_of_nil (h : added.Joins [] found') (hf : f ∈ found') : f = added := by
  by_contra hne
  have hmem : f ∈ found'.filter (· ≠ added) := List.mem_filter.2 ⟨hf, decide_eq_true hne⟩
  rw [h.2] at hmem
  cases hmem

end FunctionDecl.Joins

/-- What two schemas have in common stays as it is if the one takes the other's place. -/
theorem Schema.eq_of_replaced {α : Type} {f : Schema → α} (h : f grown = f home) (s : Schema) :
    f (if s = home then grown else s) = f s := by
  by_cases hs : s = home
  · rw [if_pos hs, h, hs]
  · rw [if_neg hs]

/-- The change by which a schema gets one more function. -/
def FunctionChange.adding (hadd : home.addFunction function = (.ok added, grown)) : FunctionChange where
  apply s := if s = home then grown else s
  name := Schema.eq_of_replaced (by rw [Schema.addFunction_eq hadd])
  tables := Schema.eq_of_replaced (by rw [Schema.addFunction_eq hadd])
  aggregates := Schema.eq_of_replaced (by rw [Schema.addFunction_eq hadd])
  externals := Schema.eq_of_replaced (by rw [Schema.addFunction_eq hadd])

variable (hadd : home.addFunction function = (.ok added, grown)) {env : Environment} {scopes : Scopes}

theorem Schema.functionsNamed_adding (s : Schema) (key : String) :
    added.Joins (s.functionsNamed key) (((FunctionChange.adding hadd).apply s).functionsNamed key) := by
  change added.Joins _ ((if s = home then grown else s).functionsNamed key)
  by_cases hs : s = home
  · rw [if_pos hs, addFunction_eq hadd, hs]
    unfold functionsNamed
    rw [Entries.lookup_upsert, Entries.lookup_touch]
    split
    · next hkey =>
      rw [hkey]
      exact .snoc _
    · rw [Entries.lookup_touch]
      exact .refl _
  · rw [if_neg hs]
    exact .refl _

theorem SearchPath.functionsNamed_adding (key : String) :
    added.Joins (env.searchPath.functionsNamed key)
      ((env.change (.adding hadd)).searchPath.functionsNamed key) := by
  simp only [functionsNamed, Environment.change, List.flatMap_map]
  exact .flatMap (fun s => Schema.functionsNamed_adding hadd s key) _

namespace Name

theorem resolveFunctions_adding (env : Environment) (name : Name) (arity : Nat) :
    Related (fun a b => a.1 = b.1 ∧ added.Joins a.2 b.2) env (env.change (.adding hadd))
      (name.resolveFunctions arity : Analysis (String × List FunctionDecl)) (name.resolveFunctions arity) := by
  refine .bind (name.lookUp_related "" (Schema.functionsNamed_adding hadd)
    (SearchPath.functionsNamed_adding hadd)) ?_
  rintro ⟨key, found⟩ ⟨_, found'⟩ ⟨rfl, hjoins⟩
  exact .pure ⟨rfl, hjoins.filter _⟩

/-- Whether the function is among the scalar ones that a call with so many arguments chooses from. -/
def Sees (name : Name) (arity : Nat) (env : Environment) (f : FunctionDecl) : Prop :=
  ∃ found, name.scalarOverloads arity env 0 = (.ok found, 0) ∧ f ∈ found

theorem sees_iff {arity : Nat} {found : List FunctionDecl}
    (h : name.resolveFunctions arity env n = (.ok (key, found), m)) :
    name.Sees arity env f ↔ f ∈ found.filter fun f => !f.tableValued := by
  obtain ⟨-, hreads⟩ := (resolveFunctions_reads name arity).ok_iff h
  have hscalar : name.scalarOverloads arity env 0 = (.ok (found.filter fun f => !f.tableValued), 0) :=
    Step.bind_eq_of_ok (hreads 0)
  constructor
  · rintro ⟨_, hfound, hf⟩
    rw [hscalar] at hfound
    cases hfound
    exact hf
  · exact fun hf => ⟨_, hscalar, hf⟩

end Name

/-- The function does not accept the types that the arguments are resolved to. -/
def FunctionDecl.Rejects (f : FunctionDecl) (env : Environment) (scopes : Scopes) (n : Nat) (es : List (Expr Q)) :
    Prop :=
  ∀ xs m, Step.each (fun e => e.resolve scopes none) es env n = (.ok xs, m) →
    ¬Overload.Accepts (xs.map (·.type)) f

variable {es : List (Expr Q)}

namespace Form

def callAmong (name : Name) (operands : List Operand) (key : String) (scalar : List FunctionDecl) :
    Analysis Typed :=
  if scalar.isEmpty then aggregateCall name false false operands
  else do
    let (decl, xs) ← overload key scalar (some name.span) operands
    return ⟨.call decl (xs.map (·.expr)), decl.result, xs.any (·.aggregated)⟩

theorem call_eq (name : Name) (operands : List Operand) :
    call name none (some operands) = (do
      let found ← name.resolveFunctions operands.length
      callAmong name operands found.1 (found.2.filter fun f => !f.tableValued)) := rfl

theorem arguments_of_plain (hplain : ∀ e ∈ es, e.isNull = false) (parameter? : Nat → Option SqlType) (position : Nat) :
    arguments parameter? position (Expr.operands scopes es) = Step.each (fun e => e.resolve scopes none) es := by
  induction es generalizing position with
  | nil => rfl
  | cons e es ih =>
    obtain ⟨he, hes⟩ := List.forall_mem_cons.1 hplain
    rw [Expr.operands, arguments, Step.each, ih hes, he]
    rfl

/-- The selection takes no notice of the added overload if that does not accept the arguments. -/
theorem overload_joins {found found' : List FunctionDecl} (hjoins : added.Joins found found') {location : Option Span}
    (hplain : ∀ e ∈ es, e.isNull = false)
    (hregular : (Step.each (fun e => e.resolve scopes none) es env n).1.Regular True)
    (hrejects : added.Rejects env scopes n es) :
    overload key found' location (Expr.operands scopes es) env n =
      overload key found location (Expr.operands scopes es) env n := by
  rw [overload, overload, arguments_of_plain hplain, arguments_of_plain hplain]
  rcases hargs : Step.each (fun e => e.resolve scopes none) es env n with ⟨o, m⟩
  rw [hargs] at hregular
  cases hregular with
  | error | panic => rw [Step.bind_of_failure hargs, Step.bind_of_failure hargs]
  | ok xs =>
    have haccepts : found'.filter (Overload.Accepts (xs.map (·.type)) ·) =
        found.filter (Overload.Accepts (xs.map (·.type)) ·) :=
      hjoins.filter_eq (decide_eq_false (hrejects xs m hargs))
    rw [Step.bind_eq_of_ok hargs, Step.bind_eq_of_ok hargs, Overload.select_congr haccepts]

variable {operands : List Operand}

theorem callAmong_sameIn (name : Name) {c : FunctionChange} (h : ∀ x ∈ operands, x.SameIn env (env.change c))
    (key : String) (scalar : List FunctionDecl) : SameIn env (env.change c) (callAmong name operands key scalar) := by
  have hoperands : List.Forall₂ (c.exprComparison env []).Operands operands operands :=
    List.forall₂_same.2 fun x hx => (Operand.sameIn_iff []).1 (h x hx)
  refine FunctionChange.exprCompares_iff.1 (.ite ?_ (.bind (overload_compares _ _ _ hoperands) ?_))
  · exact aggregateCall_compares (FunctionChange.aggregates_compare [] name) _ _ hoperands
  · rintro ⟨decl, xs⟩ ⟨_, ys⟩ ⟨rfl, hys⟩
    exact .pure ⟨Scalar.Matching.same.call _ (Scalar.Matching.same.map_expr hys), rfl,
      Scalar.Matching.same.any_aggregated_eq hys⟩

theorem callAmong_joins {found found' : List FunctionDecl} (hjoins : added.Joins found found') (hne : found ≠ [])
    (name : Name) (hplain : ∀ e ∈ es, e.isNull = false)
    (hregular : (Step.each (fun e => e.resolve scopes none) es env n).1.Regular True)
    (hrejects : added.Rejects env scopes n es) :
    callAmong name (Expr.operands scopes es) key found' env n =
      callAmong name (Expr.operands scopes es) key found env n := by
  have hne' : found' ≠ [] := fun hnil => hne (List.sublist_nil.1 (hnil ▸ hjoins.1))
  rw [callAmong, callAmong, if_neg (by simpa using hne'), if_neg (by simpa using hne)]
  exact Step.bind_congr (overload_joins hjoins hplain hregular hrejects) _

/-- Where scalar functions were found and none accepts the arguments, aggregate functions are not tried. -/
theorem callAmong_rejected {found : List FunctionDecl} (hne : found ≠ []) (hplain : ∀ e ∈ es, e.isNull = false)
    (hargs : Step.each (fun e => e.resolve scopes none) es env n = (.ok xs, m))
    (hrejects : ∀ f ∈ found, ¬Overload.Accepts (xs.map (·.type)) f) :
    (callAmong name (Expr.operands scopes es) key found).verdict env n = .error .functionNotFound := by
  rw [callAmong, if_neg (by simpa using hne), overload, arguments_of_plain hplain, Step.verdict, Step.bind_assoc,
    Step.bind_eq_of_ok hargs, Overload.select, Overload.cheapest_eq_nil hrejects]
  rfl

theorem callAmong_ok {scalar : List FunctionDecl} {x : Typed}
    (h : callAmong name operands key scalar env n = (.ok x, m)) :
    (scalar ≠ [] ∧ ∃ decl ss, x.expr = .call decl ss) ∨ (scalar = [] ∧ ∃ decl ss, x.expr = .aggregate decl ss) := by
  simp only [callAmong, aggregateCall, Step.ite_ok, Step.bind_ok, Step.pure_ok, Step.fail_ok, List.isEmpty_iff,
    Prod.exists, and_false, false_or] at h
  obtain ⟨hnil, _, _, _, _, _, decl, xs, _, _, rfl, -⟩ | ⟨hne, decl, xs, _, _, rfl, -⟩ := h
  · exact .inr ⟨hnil, decl, _, rfl⟩
  · exact .inl ⟨hne, decl, _, rfl⟩

end Form

namespace Expr

/-- The call takes no notice of an overload: it chooses from others too, none of its arguments is a bare NULL, and
the overload does not accept them. -/
structure Spares (env : Environment) (scopes : Scopes) (added : FunctionDecl) (n : Nat)
    (call : Name × List (Expr Q)) : Prop where
  scalar : ∃ f, call.1.Sees call.2.length env f
  plain : ∀ e ∈ call.2, e.isNull = false
  rejects : added.Rejects env scopes n call.2

theorem length_operands (es : List (Expr Q)) : (operands scopes es).length = es.length := by
  rw [operands_eq, List.length_map]

theorem call_adding (hes : ∀ x ∈ operands scopes es, x.SameIn env (env.change (.adding hadd)))
    (h : name.Sees es.length (env.change (.adding hadd)) added → Spares env scopes added n (name, es)) :
    Step.EndsWith Eq (Form.call name none (some (operands scopes es)) env n)
      (Form.call name none (some (operands scopes es)) (env.change (.adding hadd)) n) := by
  rw [Form.call_eq, length_operands]
  refine Related.bind_of_ok (name.resolveFunctions_adding hadd env es.length n) ?_
  rintro ⟨key, found⟩ ⟨_, found'⟩ m hfound hfound' ⟨rfl, hjoins⟩
  obtain ⟨rfl, -⟩ := (name.resolveFunctions_reads es.length).ok_iff hfound
  dsimp only
  -- Among given candidates the call does the same in both environments, so only the candidates are left to compare.
  suffices hsame : Form.callAmong name (operands scopes es) key (found'.filter fun f => !f.tableValued) env m =
      Form.callAmong name (operands scopes es) key (found.filter fun f => !f.tableValued) env m from
    hsame ▸ Form.callAmong_sameIn name hes key _ m
  have hscalar := hjoins.filter fun f => !f.tableValued
  by_cases hadded : added ∈ found'.filter fun f => !f.tableValued
  · obtain ⟨⟨f, hf⟩, hplain, hrejects⟩ := h ((Name.sees_iff hfound').2 hadded)
    have hne := List.ne_nil_of_mem ((Name.sees_iff hfound).1 hf)
    have hargs : Step.SameIn env (env.change (.adding hadd)) (Step.each (fun e => e.resolve scopes none) es) := by
      rw [operands_eq] at hes
      refine .each fun e he => hes _ (List.mem_map_of_mem he) _ ?_
      rw [Operand.of, hplain e he]
      rfl
    exact Form.callAmong_joins hscalar hne name hplain (hargs _).regular hrejects
  · rw [hscalar.eq_of_not_mem hadded]

theorem sameIn_adding {e : Expr Q}
    (h : ∀ p ∈ e.plainCalls, p.1.Sees p.2.length (env.change (.adding hadd)) added →
      ∀ n, Spares env scopes added n p) :
    e.SameIn env (env.change (.adding hadd)) scopes :=
  e.sameIn fun p hp hes _ => call_adding hadd hes fun hsees => h p hp hsees _

/-- An overload of its own name hides an aggregate function. -/
theorem call_hidden {k : Nat} {found : List FunctionDecl}
    (hfound : name.resolveFunctions es.length env n = (.ok (key, found), m))
    (hnil : (found.filter fun f => !f.tableValued) = [])
    (hsees : name.Sees es.length (env.change (.adding hadd)) added) (hplain : ∀ e ∈ es, e.isNull = false)
    (hargs : Step.each (fun e => e.resolve scopes none) es (env.change (.adding hadd)) n = (.ok xs, k))
    (hrejects : ¬Overload.Accepts (xs.map (·.type)) added) :
    (Form.call name none (some (operands scopes es))).verdict (env.change (.adding hadd)) n =
      .error .functionNotFound := by
  obtain ⟨rfl, -⟩ := (name.resolveFunctions_reads es.length).ok_iff hfound
  have hends := name.resolveFunctions_adding hadd env es.length m
  rw [hfound] at hends
  generalize hfound' : name.resolveFunctions es.length (env.change (.adding hadd)) m = r at hends
  cases hends with
  | @ok _ b hab =>
    obtain ⟨key', found'⟩ := b
    -- There was no candidate, so every candidate is the added one now.
    have hscalar := hab.2.filter fun f => !f.tableValued
    rw [hnil] at hscalar
    have hadded := (Name.sees_iff hfound').1 hsees
    rw [Step.verdict, Form.call_eq, length_operands, Step.bind_eq_of_ok hfound']
    refine Form.callAmong_rejected (List.ne_nil_of_mem hadded) hplain hargs fun f hf => ?_
    rwa [hscalar.eq_of_nil hf]

/-- A call of a scalar function does not change when a schema gets one more overload that does not accept its
arguments, provided that the calls in the arguments spare it as well. A call of an aggregate function does not change
if the overload is not found under its name, and only then: otherwise no function is found. -/
theorem resolve_call_adding {env' : Environment} (henv : env' = env.change (.adding hadd)) {name : Name}
    {args : List (Expr Q)} {target : Option Target} {n m k : Nat} {x : Typed} {xs : List Typed}
    (hplain : ∀ e ∈ args, e.isNull = false)
    (hcalls : ∀ e ∈ args, ∀ p ∈ e.plainCalls, p.1.Sees p.2.length env' added → ∀ i, Spares env scopes added i p)
    (hargs : Step.each (fun e => e.resolve scopes none) args env n = (.ok xs, k))
    (hrejects : ¬Overload.Accepts (xs.map (·.type)) added)
    (hcall : (call name none (some args)).resolve scopes target env n = (.ok x, m)) :
    (∃ decl ss, x.expr = .call decl ss ∧
      (call name none (some args)).resolve scopes target env' n = (.ok x, m)) ∨
    (∃ decl ss, x.expr = .aggregate decl ss ∧
      ((call name none (some args)).resolve scopes target env' n = (.ok x, m) ↔ ¬name.Sees args.length env' added) ∧
      (name.Sees args.length env' added →
        ((call name none (some args)).resolve scopes target).verdict env' n = .error .functionNotFound)) := by
  subst henv
  have hsame : ∀ e ∈ args, e.SameIn env (env.change (.adding hadd)) scopes :=
    fun e he => sameIn_adding hadd (hcalls e he)
  have hoperands : ∀ o ∈ operands scopes args, o.SameIn env (env.change (.adding hadd)) := by
    rw [operands_eq]
    exact List.forall_mem_map.2 fun e he => (hsame e he).operand
  have hargs' : Step.each (fun e => e.resolve scopes none) args (env.change (.adding hadd)) n = (.ok xs, k) :=
    ((SameIn.each fun e he => hsame e he none) n).eq.trans hargs
  have hspared : (name.Sees args.length (env.change (.adding hadd)) added → ∃ f, name.Sees args.length env f) →
      (call name none (some args)).resolve scopes target (env.change (.adding hadd)) n = (.ok x, m) := by
    intro hseen
    rw [← hcall]
    refine (call_adding hadd hoperands fun hsees => ⟨hseen hsees, hplain, fun ys i hys => ?_⟩).eq
    rw [hargs] at hys
    cases hys
    exact hrejects
  have hfound := hcall
  rw [resolve, Form.call_eq, length_operands] at hfound
  obtain ⟨⟨key, found⟩, t, hfound, hamong⟩ := Step.bind_ok.1 hfound
  rcases Form.callAmong_ok hamong with ⟨hne, decl, ss, hx⟩ | ⟨hnil, decl, ss, hx⟩
  · obtain ⟨f, hf⟩ := List.exists_mem_of_ne_nil _ hne
    exact .inl ⟨decl, ss, hx, hspared fun _ => ⟨f, (Name.sees_iff hfound).2 hf⟩⟩
  · have hhidden : name.Sees args.length (env.change (.adding hadd)) added →
        ((call name none (some args)).resolve scopes target).verdict (env.change (.adding hadd)) n =
          .error .functionNotFound :=
      fun hsees => call_hidden hadd hfound hnil hsees hplain hargs' hrejects
    refine .inr ⟨decl, ss, hx, ⟨fun hkept hsees => ?_, fun hsees => hspared fun h => absurd h hsees⟩, hhidden⟩
    have hlost := hhidden hsees
    rw [Step.verdict, hkept] at hlost
    cases hlost

end Expr

namespace Sample

def flip : FunctionDecl where
  oid := ⟨0, 1⟩
  id := 1
  name := "flip"
  parameters := [.boolean]
  result := .boolean

def every : AggregateDecl where
  oid := ⟨0, 2⟩
  id := 2
  name := "every"
  parameters := [.boolean]
  result := .boolean

def logic : Schema where
  name := "s"
  functionMap := [("flip", [flip])]
  aggregateMap := [("every", [every])]
  stored := 2

def ofInteger (name : String) : FunctionDecl where
  oid := ⟨0, 3⟩
  id := 3
  name
  parameters := [.int8]
  result := .int8

theorem addFunction_ofInteger (name : String) : logic.addFunction (ofInteger name) =
    (.ok (ofInteger name), { logic with
      functionMap := (logic.functionMap.upsert name [] fun fs => fs).upsert name [] (· ++ [ofInteger name])
      stored := 3 }) := by
  have hnamed : ∀ f ∈ logic.functionsNamed name, f = flip := by
    intro f hf
    simpa [Schema.functions, Entries.values, logic] using Entries.mem_flatten hf
  have htouch : ({ logic with functionMap := logic.functionMap.upsert name [] fun fs => fs } :
      Schema).functionsNamed name = logic.functionsNamed name := Entries.lookup_touch
  have hnew : ((({ logic with functionMap := logic.functionMap.upsert name [] fun fs => fs } :
      Schema).functionsNamed name).any fun f => f.parameters == [.int8]) = false := by
    rw [htouch, List.any_eq_false]
    intro f hf
    rw [hnamed f hf]
    decide
  exact if_neg (by simpa [ofInteger] using hnew)

def logical : Environment where
  catalog := { name := "db", schemas := [logic] }

/-- The environment with one more overload of the name. -/
def logicalWith (name : String) : Environment := logical.change (.adding (addFunction_ofInteger name))

def isTrue : Expr Unit := .literal (.boolean .isTrue)

def called (name : String) (e : Expr Unit) : Expr Unit := .call ⟨[.quoted name]⟩ none (some [e])

end Sample

/-- `flip(flip(TRUE))` is resolved as before when there is a second `flip`, of an integer. -/
theorem Expr.resolve_call_adding_flip :
    ∃ x, (Sample.called "flip" (Sample.called "flip" Sample.isTrue)).resolve [] none Sample.logical 0 = (.ok x, 0) ∧
      (Sample.called "flip" (Sample.called "flip" Sample.isTrue)).resolve [] none (Sample.logicalWith "flip") 0 =
        (.ok x, 0) := by
  have hspares : ∀ i, Spares Sample.logical [] (Sample.ofInteger "flip") i
      (⟨[.quoted "flip"]⟩, [Sample.isTrue]) := by
    refine fun i => ⟨⟨Sample.flip, [Sample.flip], rfl, by simp⟩, by simp [Sample.isTrue, isNull], ?_⟩
    rintro xs m ⟨⟩
    decide
  have hcalls : ∀ e ∈ [Sample.called "flip" Sample.isTrue], ∀ p ∈ e.plainCalls,
      p.1.Sees p.2.length (Sample.logicalWith "flip") (Sample.ofInteger "flip") →
        ∀ i, Spares Sample.logical [] (Sample.ofInteger "flip") i p := by
    intro e he p hp _
    rw [List.mem_singleton.1 he] at hp
    rw [List.mem_singleton.1 hp]
    exact hspares
  obtain ⟨xs, hargs, hrejects⟩ : ∃ xs,
      Step.each (fun e => e.resolve [] none) [Sample.called "flip" Sample.isTrue] Sample.logical 0 = (.ok xs, 0) ∧
        ¬Overload.Accepts (xs.map (·.type)) (Sample.ofInteger "flip") := ⟨_, rfl, by decide⟩
  obtain ⟨x, ss, hcall, hx⟩ : ∃ x ss,
      (Sample.called "flip" (Sample.called "flip" Sample.isTrue)).resolve [] none Sample.logical 0 = (.ok x, 0) ∧
        x.expr = .call Sample.flip ss := ⟨_, _, rfl, rfl⟩
  refine ⟨x, hcall, ?_⟩
  obtain ⟨_, _, -, hsame⟩ | ⟨_, _, haggregate, -⟩ := resolve_call_adding (Sample.addFunction_ofInteger "flip") rfl
    (by simp [Sample.called, isNull]) hcalls hargs hrejects hcall
  · exact hsame
  · rw [hx] at haggregate
    cases haggregate

/-- `every(TRUE)` is no longer found when there is a scalar function `every` of an integer. -/
theorem Expr.resolve_call_adding_every :
    (∃ ss, ((Sample.called "every" Sample.isTrue).resolve [] none).verdict Sample.logical 0 =
      .ok ⟨.aggregate Sample.every ss, .boolean, true⟩) ∧
    ¬Overload.Accepts [.boolean] (Sample.ofInteger "every") ∧
    ((Sample.called "every" Sample.isTrue).resolve [] none).verdict (Sample.logicalWith "every") 0 =
      .error .functionNotFound := by
  refine ⟨⟨_, rfl⟩, by decide, ?_⟩
  rfl

end SqlPlan
