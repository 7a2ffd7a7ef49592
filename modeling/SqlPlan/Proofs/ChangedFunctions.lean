import SqlPlan.Proofs.ExprComparison

namespace SqlPlan

variable {Q : Type}

namespace Step

variable {σ α α' β β' : Type}

/-- Two ends of a run in the same state: related results, or the same failure with the same diagnostics. -/
inductive EndsWith (R : α → β → Prop) : Outcome α × σ → Outcome β × σ → Prop where
  | ok {a : α} {b : β} (h : R a b) (s : σ) : EndsWith R (.ok a, s) (.ok b, s)
  | error (d : Diagnostic) (ds : List Diagnostic) (s : σ) :
    EndsWith R (⟨.error .reported, d :: ds⟩, s) (⟨.error .reported, d :: ds⟩, s)
  | panic (log : List Diagnostic) (s : σ) : EndsWith R (⟨.error .panic, log⟩, s) (⟨.error .panic, log⟩, s)

theorem EndsWith.eq {x x' : Outcome α × σ} (h : EndsWith Eq x x') : x' = x := by
  cases h with
  | ok h => rw [h]
  | error | panic => rfl

theorem EndsWith.regular {R : α → β → Prop} {x : Outcome α × σ} {x' : Outcome β × σ} (h : EndsWith R x x') :
    x.1.Regular True := by
  cases h with
  | ok _ s => exact .ok _
  | error d ds s => exact .error d ds
  | panic log s => exact .panic trivial log

/-- From every state the first step ends in the one environment as the second one does in the other. -/
def Related (R : α → β → Prop) (env env' : Environment) (m : Step σ α) (m' : Step σ β) : Prop :=
  ∀ s, EndsWith R (m env s) (m' env' s)

def SameIn (env env' : Environment) (m : Step σ α) : Prop := Related Eq env env' m m

variable {env env' : Environment}

variable {m : Step σ α} {n : α → Step σ β}

namespace Related

variable {R : α → α' → Prop} {S : β → β' → Prop}

theorem pure {a : α} {b : α'} (h : R a b) : Related R env env' (pure a : Step σ α) (pure b) := .ok h

theorem fail (code : DiagnosticCode) (location : Option Span) (message : String) :
    Related R env env' (fail code location message : Step σ α) (fail code location message) := .error _ _

theorem environment : Related (fun e e' => env = e ∧ env' = e') env env' (Step.environment : Step σ Environment)
    Step.environment := .ok ⟨rfl, rfl⟩

theorem bind_of_ok {m' : Step σ α'} {n' : α' → Step σ β'} {s : σ} (hm : EndsWith R (m env s) (m' env' s))
    (hn : ∀ a b t, m env s = (.ok a, t) → m' env' s = (.ok b, t) → R a b →
      EndsWith S (n a env t) (n' b env' t)) :
    EndsWith S ((m >>= n) env s) ((m' >>= n') env' s) := by
  generalize hx : m env s = x at *
  generalize hx' : m' env' s = x' at *
  cases hm with
  | ok hab t =>
    rw [bind_eq_of_ok hx, bind_eq_of_ok hx']
    exact hn _ _ t rfl rfl hab
  | error d ds t =>
    rw [bind_of_failure hx, bind_of_failure hx']
    exact .error d ds t
  | panic log t =>
    rw [bind_of_failure hx, bind_of_failure hx']
    exact .panic log t

theorem bind {m' : Step σ α'} {n' : α' → Step σ β'} (hm : Related R env env' m m')
    (hn : ∀ a b, R a b → Related S env env' (n a) (n' b)) : Related S env env' (m >>= n) (m' >>= n') :=
  fun s => bind_of_ok (hm s) fun a b t _ _ hab => hn a b hab t

theorem ite {p : Prop} [Decidable p] {n : Step σ α} {m' n' : Step σ α'} (hm : Related R env env' m m')
    (hn : Related R env env' n n') : Related R env env' (if p then m else n) (if p then m' else n') := by
  by_cases h : p
  · rwa [if_pos h, if_pos h]
  · rwa [if_neg h, if_neg h]

end Related

namespace SameIn

theorem pure (a : α) : SameIn env env' (pure a : Step σ α) := Related.pure rfl

theorem fail (code : DiagnosticCode) (location : Option Span) (message : String) :
    SameIn env env' (fail code location message : Step σ α) := Related.fail code location message

theorem bind (hm : SameIn env env' m) (hn : ∀ a, SameIn env env' (n a)) : SameIn env env' (m >>= n) :=
  Related.bind hm fun a _ hab => hab ▸ hn a

theorem options {n : Options → Step σ β} (ho : env'.options = env.options) (hn : SameIn env env' (n env.options)) :
    SameIn env env' (Step.options >>= n) := by
  intro s
  change EndsWith Eq (n env.options env s) (n env'.options env' s)
  rw [ho]
  exact hn s

theorem each {f : α → Step σ β} {xs : List α} (h : ∀ x ∈ xs, SameIn env env' (f x)) :
    SameIn env env' (Step.each f xs) := by
  induction xs with
  | nil => exact .pure _
  | cons x xs ih =>
    obtain ⟨hx, hxs⟩ := List.forall_mem_cons.1 h
    exact .bind hx fun _ => .bind (ih hxs) fun _ => .pure _

end SameIn

end Step

open Step (Related SameIn)

/-- A change of schemas that leaves their names, tables, variables and aggregate functions as they are. -/
structure FunctionChange where
  apply : Schema → Schema
  name : ∀ s, (apply s).name = s.name
  tables : ∀ s, (apply s).tableMap = s.tableMap
  aggregates : ∀ s, (apply s).aggregateMap = s.aggregateMap
  externals : ∀ s, (apply s).externalMap = s.externalMap

def Environment.change (env : Environment) (c : FunctionChange) : Environment :=
  { env with
    catalog := { env.catalog with schemas := env.catalog.schemas.map c.apply }
    searchPath := ⟨env.searchPath.schemas.map c.apply⟩
    defaultSchema := env.defaultSchema.map c.apply }

namespace FunctionChange

variable (c : FunctionChange) {env : Environment}

theorem options_change : (env.change c).options = env.options := rfl

theorem catalogName_change : (env.change c).catalog.name = env.catalog.name := rfl

theorem schema?_change (key : String) :
    (env.change c).catalog.schema? key = (env.catalog.schema? key).map c.apply := by
  simp only [Catalog.schema?, Environment.change, List.find?_map, Function.comp_def, c.name]

theorem aggregatesNamed_apply (s : Schema) (key : String) :
    (c.apply s).aggregatesNamed key = s.aggregatesNamed key := by
  rw [Schema.aggregatesNamed, c.aggregates, Schema.aggregatesNamed]

theorem aggregatesNamed_change (key : String) :
    (env.change c).searchPath.aggregatesNamed key = env.searchPath.aggregatesNamed key := by
  simp only [SearchPath.aggregatesNamed, Environment.change, List.flatMap_map, c.aggregatesNamed_apply]

theorem findVariable?_change (key : String) :
    (env.change c).searchPath.findVariable? key = env.searchPath.findVariable? key := by
  simp only [SearchPath.findVariable?, Environment.change, List.findSome?_map, Function.comp_def,
    Schema.findVariable?, c.externals]

def apply₁ (found : Schema × TableDecl) : Schema × TableDecl := (c.apply found.1, found.2)

theorem table?_apply (s : Schema) (key : String) :
    ((c.apply s).table? key).map (c.apply s, ·) = ((s.table? key).map (s, ·)).map c.apply₁ := by
  rw [Schema.table?, c.tables, Option.map_map]
  rfl

theorem table?_change (key : String) :
    (env.change c).searchPath.table? key = (env.searchPath.table? key).map c.apply₁ := by
  simp only [SearchPath.table?, Environment.change, List.findSome?_map, Function.comp_def, c.table?_apply,
    List.map_findSome?]

end FunctionChange

variable {env : Environment} {c : FunctionChange} {σ : Type}

namespace Name

theorem objectKey_sameIn (name : Name) : SameIn env (env.change c) (name.objectKey : Step σ String) := by
  refine .options rfl ?_
  cases name.last? with
  | some i => exact .pure _
  | none => exact .fail _ _ _

theorem resolveSchema_related (qualifier : List Identifier) (location : Option Span) :
    Related (fun s s' => s' = s.map c.apply) env (env.change c)
      (resolveSchema qualifier location : Step σ (Option Schema)) (resolveSchema qualifier location) := by
  refine .bind .environment ?_
  rintro _ _ ⟨rfl, rfl⟩
  simp only [FunctionChange.options_change, FunctionChange.catalogName_change, FunctionChange.schema?_change]
  rcases qualifier with _ | ⟨a, _ | ⟨b, _ | ⟨d, rest⟩⟩⟩
  · exact .pure rfl
  · dsimp only
    cases env.catalog.schema? (env.options.key a) with
    | none => exact .fail _ _ _
    | some s => exact .pure rfl
  · refine .ite (.fail _ _ _) ?_
    cases env.catalog.schema? (env.options.key b) with
    | none => exact .fail _ _ _
    | some s => exact .pure rfl
  · exact .fail _ _ _

/-- What is looked up in a schema or on the path is related if it is for each schema and path. -/
theorem lookUp_related {α : Type} {R : α → α → Prop} (name : Name) (suffix : String)
    {inSchema : Schema → String → α} {onPath : SearchPath → String → α}
    (hschema : ∀ s key, R (inSchema s key) (inSchema (c.apply s) key))
    (hpath : ∀ key, R (onPath env.searchPath key) (onPath (env.change c).searchPath key)) :
    Related (fun a b => a.1 = b.1 ∧ R a.2 b.2) env (env.change c)
      (name.lookUp suffix inSchema onPath : Step σ (String × α)) (name.lookUp suffix inSchema onPath) := by
  refine .bind name.objectKey_sameIn ?_
  rintro key _ rfl
  refine .bind .environment ?_
  rintro _ _ ⟨rfl, rfl⟩
  refine .bind (resolveSchema_related _ _) ?_
  rintro schema _ rfl
  cases schema with
  | none => exact .pure ⟨rfl, hpath _⟩
  | some s => exact .pure ⟨rfl, hschema s _⟩

theorem resolveAggregates_sameIn (name : Name) (suffix : String) (arity : Nat) (asterisk : Bool) :
    SameIn env (env.change c)
      (name.resolveAggregates suffix arity asterisk : Step σ (String × List AggregateDecl)) := by
  refine Related.bind (name.lookUp_related suffix (fun s key => (c.aggregatesNamed_apply s key).symm)
    fun key => (c.aggregatesNamed_change key).symm) ?_
  rintro ⟨key, found⟩ ⟨_, _⟩ ⟨rfl, rfl⟩
  exact .pure rfl

theorem resolveTable_related (name : Name) :
    Related (fun t t' => t' = c.apply₁ t) env (env.change c) (name.resolveTable : Step σ (Schema × TableDecl))
      name.resolveTable := by
  have hfind : Related (fun t t' => t' = t.map c.apply₁) env (env.change c)
      (name.findTable : Step σ (Option (Schema × TableDecl))) name.findTable := by
    refine .bind (name.lookUp_related (R := fun t t' => t' = Option.map c.apply₁ t) "" c.table?_apply
      c.table?_change) ?_
    rintro ⟨key, found⟩ ⟨_, _⟩ ⟨rfl, rfl⟩
    exact .pure rfl
  refine .bind hfind ?_
  rintro found _ rfl
  cases found with
  | none => exact .fail _ _ _
  | some found => exact .pure rfl

variable (name : Name) (scopes : Scopes)

theorem resolveBare_sameIn : SameIn env (env.change c) (name.resolveBare scopes) := by
  refine .bind name.objectKey_sameIn fun key => ?_
  cases scopes.column key with
  | one c => exact .pure _
  | several => exact .fail _ _ _
  | nothing =>
    refine Related.bind .environment ?_
    rintro _ _ ⟨rfl, rfl⟩
    rw [c.findVariable?_change]
    cases env.searchPath.findVariable? key with
    | some decl => exact fun s => .ok rfl _
    | none => exact .fail _ _ _

theorem resolveInRelation_sameIn (relation column : Identifier) :
    SameIn env (env.change c) (name.resolveInRelation relation column scopes : Step σ ResolvedVariable) := by
  refine .options rfl ?_
  dsimp only
  cases scopes.relation (env.options.key relation) with
  | several | nothing => exact .fail _ _ _
  | one r =>
    dsimp only
    cases r.column (env.options.key column) with
    | one c => exact .pure _
    | several | nothing => exact .fail _ _ _

theorem resolveInTable_sameIn : SameIn env (env.change c) (name.resolveInTable scopes : Step σ ResolvedVariable) := by
  refine Related.bind (resolveTable_related _) ?_
  rintro found _ rfl
  refine SameIn.bind name.objectKey_sameIn fun key => ?_
  cases scopes.scanOf? found.2 with
  | none => exact .fail _ _ _
  | some r =>
    dsimp only
    cases r.column key with
    | one c => exact .pure _
    | several | nothing => exact .fail _ _ _

theorem resolveVariable_sameIn : SameIn env (env.change c) (name.resolveVariable scopes) := by
  obtain ⟨segments⟩ := name
  rcases segments with _ | ⟨a, _ | ⟨b, _ | ⟨d, _ | ⟨e, _ | ⟨f, rest⟩⟩⟩⟩⟩
  · exact .fail _ _ _
  · exact resolveBare_sameIn _ scopes
  · exact resolveInRelation_sameIn _ scopes _ _
  · exact resolveInTable_sameIn _ scopes
  · exact resolveInTable_sameIn _ scopes
  · exact .fail _ _ _

end Name

namespace FunctionChange

/-- The runs in the two environments, which are to end with the same results and reports. -/
def comparison (c : FunctionChange) (env : Environment) : Comparison Nat :=
  .strict env (env.change c) (fun _ => 0) .eq

theorem compares_iff {α : Type} {m : Analysis α} :
    (c.comparison env).Compares .eq m m ↔ SameIn env (env.change c) m := by
  constructor
  · intro h n
    have hends : (c.comparison env).Ends .eq (m env n) (m (env.change c) n) := (h n n rfl).2 trivial
    generalize m env n = x at *
    generalize m (env.change c) n = x' at *
    cases hends with
    | ok ha hs => cases ha; cases hs; exact .ok rfl _
    | error hlog hs => cases hlog; cases hs; exact .error _ _ _
    | panic _ hlog hs => cases hlog; cases hs; exact .panic _ _
    | refused h => exact h.elim
  · rintro h n _ rfl
    have hends := h n
    change (c.comparison env).Goes n (m env n) ∧ (_ → (c.comparison env).Ends .eq (m env n) (m (env.change c) n))
    generalize m env n = x at *
    generalize m (env.change c) n = x' at *
    cases hends with
    | ok h t => exact ⟨⟨Nat.le_refl _, .ok _⟩, fun _ => .ok h rfl⟩
    | error d ds t => exact ⟨⟨Nat.le_refl _, .error d ds⟩, fun _ => .error rfl rfl⟩
    | panic log t => exact ⟨⟨Nat.le_refl _, .panic trivial log⟩, fun _ => .panic trivial rfl rfl⟩

def exprComparison (c : FunctionChange) (env : Environment) (scopes : Scopes) : ExprComparison where
  toComparison := c.comparison env
  toMatching := .same
  scopes
  scopes' := scopes
  options := rfl
  hostParameter? _ := rfl
  placeholder? _ := rfl
  mint _ := compares_iff.2 fun _ => .ok rfl _

theorem exprCompares_iff {m : Analysis Typed} :
    (c.comparison env).Compares Scalar.Matching.same.typed m m ↔ SameIn env (env.change c) m := by
  rw [Scalar.Matching.typed_same, compares_iff]

theorem aggregates_compare (scopes : Scopes) (name : Name) : (c.exprComparison env scopes).Aggregates name name :=
  ⟨rfl, fun _ _ _ => compares_iff.2 (name.resolveAggregates_sameIn _ _ _), fun _ _ => rfl⟩

end FunctionChange

def Operand.SameIn (env env' : Environment) (x : Operand) : Prop := ∀ m, x = some m → Step.SameIn env env' m

namespace Operand

variable {x : Operand}

theorem ofExpr_sameIn (isNull : Bool) {m : Analysis Typed} {env' : Environment} (h : Step.SameIn env env' m) :
    SameIn env env' (.ofExpr isNull m) := by
  intro m' hm'
  cases isNull <;> cases hm'
  exact h

theorem sameIn_iff (scopes : Scopes) : x.SameIn env (env.change c) ↔ (c.exprComparison env scopes).Operands x x := by
  cases x with
  | none => exact ⟨fun _ => .none, fun _ m hm => by cases hm⟩
  | some m =>
    constructor
    · exact fun h => .some (FunctionChange.exprCompares_iff.2 (h m rfl))
    · rintro ⟨h⟩ _ ⟨⟩
      exact FunctionChange.exprCompares_iff.1 h

end Operand

namespace Expr

def plainCall? : Expr Q → Option (Name × List (Expr Q))
  | call name none (some es) => some (name, es)
  | _ => none

/-- The calls without quantifier in an expression, each with its arguments. -/
def plainCalls (e : Expr Q) : List (Name × List (Expr Q)) := e.subexpressions.filterMap plainCall?

def SameIn (env env' : Environment) (scopes : Scopes) (e : Expr Q) : Prop :=
  ∀ target, Step.SameIn env env' (e.resolve scopes target)

theorem SameIn.operand {scopes : Scopes} {env' : Environment} {e : Expr Q} (h : e.SameIn env env' scopes) :
    Operand.SameIn env env' (.ofExpr e.isNull (e.resolve scopes none)) :=
  Operand.ofExpr_sameIn _ (h none)

/-- The call does the same in both environments if its arguments do. -/
def CallSameIn (env env' : Environment) (scopes : Scopes) (call : Name × List (Expr Q)) : Prop :=
  (∀ x ∈ operands scopes call.2, x.SameIn env env') →
    Step.SameIn env env' (Form.call call.1 none (some (operands scopes call.2)))

variable {scopes : Scopes}

theorem sameIn (e : Expr Q) (h : ∀ p ∈ e.plainCalls, CallSameIn env (env.change c) scopes p) :
    e.SameIn env (env.change c) scopes := by
  intro target
  have hcompared : (c.exprComparison env scopes).Exprs e e := by
    refine exprs_of_calls ⟨trivial, fun name => ?_⟩ e ?_
    · refine ⟨rfl, rfl, fun _ => FunctionChange.exprCompares_iff.2 ?_⟩
      exact .bind (name.resolveVariable_sameIn scopes) fun _ => .pure _
    · rintro _ hmem name quantifier arguments rfl harguments
      have haggregates : (c.exprComparison env scopes).Aggregates name name := FunctionChange.aggregates_compare _ _
      refine ⟨rfl, rfl, fun target => ?_⟩
      rcases harguments with @⟨es, _, harguments⟩ | _
      · have hoperands : List.Forall₂ (c.exprComparison env scopes).Operands (operands scopes es)
            (operands scopes es) := ExprComparison.Exprs.operands harguments
        rcases quantifier with _ | q
        · have hplain : (name, es) ∈ e.plainCalls := List.mem_filterMap.2 ⟨_, hmem, rfl⟩
          have hsame (x : Operand) (hx : x ∈ operands scopes es) : x.SameIn env (env.change c) :=
            (Operand.sameIn_iff scopes).2 (List.forall₂_same.1 hoperands x hx)
          have hcall : Step.SameIn env (env.change c) (Form.call name none (some (operands scopes es))) :=
            h (name, es) hplain hsame
          exact FunctionChange.exprCompares_iff.2 hcall
        · exact Form.aggregateCall_compares haggregates _ _ hoperands
      · cases quantifier <;> exact Form.aggregateCall_compares haggregates _ _ .nil
  exact FunctionChange.exprCompares_iff.1 (hcompared.resolves target)

end Expr

end SqlPlan
