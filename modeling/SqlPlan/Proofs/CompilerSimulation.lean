import SqlPlan.Analysis.Session
import SqlPlan.Proofs.Success

namespace SqlPlan

variable {α β Q : Type}

namespace ScopeArena

variable {a : ScopeArena} {p : Option Nat} {s : Scope}

/-- Numbers go down on the way, so as many steps as the first of them are enough. -/
theorem climb_of_le {id steps : Nat} (h : id ≤ steps) : a.climb steps id = a.chain id := by
  induction id using Nat.strongRecOn generalizing steps with
  | ind id ih =>
    rw [chain]
    rcases hslot : a.slots[id]? with _ | ⟨_ | parent, scope⟩
    · cases steps <;> cases id <;> simp [climb, hslot]
    · cases steps <;> cases id <;> simp [climb, hslot]
    · by_cases hparent : parent < id
      · obtain ⟨n, rfl⟩ := Nat.exists_eq_succ_of_ne_zero (Nat.ne_zero_of_lt (Nat.lt_of_lt_of_le hparent h))
        obtain ⟨k, rfl⟩ := Nat.exists_eq_succ_of_ne_zero (Nat.ne_zero_of_lt hparent)
        rw [climb, climb, hslot]
        simp only [hparent, if_true]
        rw [ih parent hparent (Nat.le_of_lt_succ (Nat.lt_of_lt_of_le hparent h)),
          ih parent hparent (Nat.le_of_lt_succ hparent)]
      · cases steps <;> cases id <;> simp [climb, hslot, hparent]

/-- What is seen from a scope: its contents, and what is seen from the scope around it. -/
theorem scopes_eq (a : ScopeArena) (id : Nat) : a.scopes id = match a.slots[id]? with
    | some (some parent, scope) => scope :: if parent < id then a.scopes parent else []
    | some (none, scope) => [scope]
    | none => [] := by
  rw [scopes, ← climb_of_le (Nat.le_succ id), climb]
  rcases hslot : a.slots[id]? with _ | ⟨_ | parent, scope⟩
  · simp [scope?, hslot]
  · simp [scope?, hslot]
  · by_cases hparent : parent < id
    · simp [scope?, hslot, hparent, climb_of_le (Nat.le_of_lt hparent), scopes]
    · simp [scope?, hslot, hparent]

/-- The scope is open, if one is given. -/
def Opens (a : ScopeArena) (p : Option Nat) : Prop := ∀ id ∈ p, id < a.size

theorem opens_none : a.Opens none := fun _ h => by cases h

theorem opens_push : (a.push p s).2.Opens (some a.size) := by
  rintro _ ⟨⟩
  simp [push, size]

theorem Opens.push (h : a.Opens p) {q : Option Nat} : (a.push q s).2.Opens p := by
  intro id hid
  have hlt := h id hid
  simp only [ScopeArena.push, size, List.length_append, List.length_singleton] at hlt ⊢
  omega

theorem scopes_push {id : Nat} (h : id < a.size) : (a.push p s).2.scopes id = a.scopes id := by
  induction id using Nat.strongRecOn with
  | ind id ih =>
    have hslot : (a.push p s).2.slots[id]? = a.slots[id]? := List.getElem?_append_left h
    rw [scopes_eq, scopes_eq, hslot]
    rcases a.slots[id]? with _ | ⟨_ | parent, scope⟩
    · rfl
    · rfl
    · by_cases hparent : parent < id
      · simp [hparent, ih parent hparent (Nat.lt_trans hparent h)]
      · simp [hparent]

theorem visible_push_outer {q : Option Nat} (h : a.Opens p) : (a.push q s).2.visible p = a.visible p := by
  cases p with
  | none => rfl
  | some id => exact scopes_push (h id rfl)

theorem visible_push (h : a.Opens p) : (a.push p s).2.visible (some a.size) = s :: a.visible p := by
  have hslot : (a.push p s).2.slots[a.size]? = some (p, s) := List.getElem?_concat_length
  rw [visible, scopes_eq, hslot]
  cases p with
  | none => rfl
  | some id =>
    have hid := h id rfl
    simp [hid, scopes_push hid, visible]

theorem update_push (f : Scope → Scope) : (a.push p s).2.update a.size f = (a.push p (f s)).2 := by
  refine congrArg ScopeArena.mk (List.ext_getElem? fun i => ?_)
  simp only [push, size, List.getElem?_modify]
  rcases Nat.lt_trichotomy i a.slots.length with hi | rfl | hi
  · simp [List.getElem?_append_left hi, Nat.ne_of_gt hi]
  · simp
  · rw [List.getElem?_eq_none (by simp; omega), List.getElem?_eq_none (by simp; omega)]
    rfl

theorem pop_push : (a.push p s).2.pop a.size = a := by
  simp [push, pop, size]

end ScopeArena

open ScopeArena (Opens opens_none opens_push visible_push visible_push_outer)

namespace Compiling

variable {a : ScopeArena} {p : Option Nat} {s : Scope}

/-- Among the given scopes the step does what the planning does, and it leaves the scopes as they are. -/
def Simulates (a : ScopeArena) (x : Compiling α) (m : Planning α) : Prop :=
  ∀ env d, x env ⟨d, a⟩ = ((m env d).1, ⟨(m env d).2, a⟩)

/-- The step does what the planning does where one more scope is open, and leaves all scopes but the new one as
they are. -/
def SimulatesWithin (a : ScopeArena) (p : Option Nat) (s : Scope) (x : Compiling α) (m : Planning α) : Prop :=
  ∀ env d, ∃ s', x env ⟨d, (a.push p s).2⟩ = ((m env d).1, ⟨(m env d).2, (a.push p s').2⟩)

variable {x : Compiling α} {m : Planning α} {f : α → Compiling β} {g : α → Planning β}

namespace Simulates

theorem lift (m : Planning α) : Simulates a (ofPlanning m) m := fun _ _ => rfl

theorem pure (v : α) : Simulates a (pure v) (pure v) := fun _ _ => rfl

theorem fail (code : DiagnosticCode) (location : Option Span) (message : String) :
    Simulates a (Step.fail code location message : Compiling α) (Step.fail code location message) := fun _ _ => rfl

theorem bind (hx : Simulates a x m) (hf : ∀ v, Simulates a (f v) (g v)) : Simulates a (x >>= f) (m >>= g) := by
  intro env d
  have hrun := hx env d
  rcases hm : m env d with ⟨⟨failure | v, log⟩, t⟩ <;> rw [hm] at hrun
  · rw [Step.bind_of_failure hm, Step.bind_of_failure hrun]
  · rw [Step.bind_of_result hm, Step.bind_of_result hrun, hf v env t]

theorem visible {k : Scopes → Compiling α} (h : Simulates a (k (a.visible p)) m) :
    Simulates a (Compiling.visible p >>= k) m := h

theorem separately (h : Simulates a x m) : Simulates a (Compiling.separately x) (Planning.separately m) := by
  intro env d
  rw [Compiling.separately, h]
  rfl

theorem inScope {f : Nat → Compiling α} (h : SimulatesWithin a p {} (f a.size) m) :
    Simulates a (Compiling.inScope p f) m := by
  intro env d
  obtain ⟨s', hrun⟩ := h env d
  let inner := f a.size env ⟨d, (a.push p).2⟩
  change (inner.1, Workspace.mk inner.2.draft (inner.2.scopes.pop a.size)) = _
  rw [show inner = _ from hrun, ScopeArena.pop_push]

end Simulates

namespace SimulatesWithin

theorem of (h : Simulates (a.push p s).2 x m) : SimulatesWithin a p s x m := fun env d => ⟨s, h env d⟩

theorem bind (hx : Simulates (a.push p s).2 x m) (hf : ∀ v, SimulatesWithin a p s (f v) (g v)) :
    SimulatesWithin a p s (x >>= f) (m >>= g) := by
  intro env d
  have hrun := hx env d
  rcases hm : m env d with ⟨⟨failure | v, log⟩, t⟩ <;> rw [hm] at hrun
  · exact ⟨s, by rw [Step.bind_of_failure hm, Step.bind_of_failure hrun]⟩
  · obtain ⟨s', hf⟩ := hf v env t
    exact ⟨s', by rw [Step.bind_of_result hm, Step.bind_of_result hrun, hf]⟩

theorem update {f : Scope → Scope} {k : Unit → Compiling α} (h : SimulatesWithin a p (f s) (k ()) m) :
    SimulatesWithin a p s (Compiling.update a.size f >>= k) m := by
  intro env d
  rw [Step.bind_eq_of_ok rfl, ScopeArena.update_push]
  exact h env d

theorem visible {k : Scopes → Compiling α} (hp : a.Opens p) (h : SimulatesWithin a p s (k (s :: a.visible p)) m) :
    SimulatesWithin a p s (Compiling.visible (some a.size) >>= k) m := by
  intro env d
  rw [Step.bind_eq_of_ok rfl, visible_push hp]
  exact h env d

end SimulatesWithin

end Compiling

open Compiling (Simulates SimulatesWithin)

namespace Expr

variable {scopes scopes' : Scopes}

abbrev SameNames (scopes' scopes : Scopes) : Prop :=
  ∀ name : Name, name.resolveVariable scopes' = name.resolveVariable scopes

mutual

/-- Scopes matter to an expression only by the columns that names have in them. -/
theorem resolve_congr (h : SameNames scopes' scopes) :
    ∀ (e : Expr Q) (target : Option Target), e.resolve scopes' target = e.resolve scopes target
  | literal _, _ | hostParameter _ _, _ | inQuery _ _ _, _ | subquery _, _ | call _ _ none, _ => rfl
  | reference name, _ => by rw [resolve, resolve, h]
  | unary op e, _ => by
    have he := resolve_congr h e none
    cases op <;> cases e <;> simp only [resolve] at he ⊢ <;> simp only [he]
  | binary op l r, _ => by
    have hl := resolve_congr h l none
    have hr := resolve_congr h r none
    cases op <;> simp only [resolve, hl, hr]
  | comparison _ l r, _ | nullif l r, _ => by rw [resolve, resolve, resolve_congr h l, resolve_congr h r]
  | between e low high _ _, _ => by
    rw [resolve, resolve, resolve_congr h e, resolve_congr h low, resolve_congr h high]
  | inList e es _, _ => by rw [resolve, resolve, resolve_congr h e, operands_congr h es]
  | pattern _ e p escape _, _ => by
    rw [resolve, resolve, resolve_congr h e, resolve_congr h p, operand?_congr h escape]
  | case o cs d, _ => by rw [resolve, resolve, operand?_congr h o, clauseOperands_congr h cs, operand?_congr h d]
  | cast e _, _ => by rw [resolve, resolve, resolve_congr h e]
  | call _ _ (some es), _ => by rw [resolve, resolve, operands_congr h es]

theorem operands_congr (h : SameNames scopes' scopes) : ∀ es : List (Expr Q), operands scopes' es = operands scopes es
  | [] => rfl
  | e :: es => by rw [operands, operands, resolve_congr h e, operands_congr h es]

theorem operand?_congr (h : SameNames scopes' scopes) : ∀ o : Option (Expr Q), operand? scopes' o = operand? scopes o
  | none => rfl
  | some e => by rw [operand?, operand?, resolve_congr h e]

theorem clauseOperands_congr (h : SameNames scopes' scopes) :
    ∀ cs : List (Expr Q × Expr Q), clauseOperands scopes' cs = clauseOperands scopes cs
  | [] => rfl
  | (w, t) :: cs => by
    rw [clauseOperands, clauseOperands, resolve_congr h w, resolve_congr h t, clauseOperands_congr h cs]

end

theorem resolve_empty (e : Expr Q) (outer : Scopes) (target : Option Target) :
    e.resolve ({} :: outer) target = e.resolve outer target := by
  have hnames : SameNames ({} :: outer) outer := fun _ => rfl
  exact resolve_congr hnames e target

end Expr

variable {a : ScopeArena} {p : Option Nat}

theorem Expr.compile_simulates (e : Expr Q) (scope : Option Nat) (target : Option Target) :
    Simulates a (e.compile scope target) (Planning.ofAnalysis (e.resolve (a.visible scope) target)) := by
  cases scope with
  | some id => exact .visible (.lift _)
  | none =>
    rw [compile]
    refine .inScope (.visible opens_none (.of ?_))
    rw [e.resolve_empty]
    exact .lift _

theorem Join.compile_simulates (hp : a.Opens p) (kind : JoinKind) (swapped : Bool) (left right : Source)
    (on? : Option (JoinCondition (Expr Q))) :
    Simulates a (compile p kind swapped left right on?) (plan (a.visible p) kind swapped left right on?) := by
  rcases on? with _ | (e | columns)
  · cases kind <;> exact .bind (.lift _) fun _ => .lift _
  · cases kind
    case cross => exact .bind (.lift _) fun _ => .lift _
    all_goals exact .bind (.inScope (.update (.visible hp (.of (.lift _))))) fun _ => .lift _
  · cases kind <;> exact .bind (.lift _) fun _ => .lift _

theorem Apply.compile_simulates (hp : a.Opens p) (kind : ApplyKind) (operand : Source) (function : Name)
    (es : List (Expr Q)) (correlation : Option Correlation) :
    Simulates a (compile p kind operand function es correlation)
      (plan (a.visible p) kind operand function es correlation) :=
  .bind (.lift _) fun _ => .bind (.inScope (.update (.visible hp (.of (.lift _))))) fun _ => .lift _

theorem Values.plan_checked (outer : Scopes) (rows : List (List (Expr Q))) :
    plan outer rows = ((arity rows : Planning Nat) >>= fun _ => plan outer rows) := by
  funext env d
  cases rows with
  | nil => rfl
  | cons first rest =>
    simp only [plan, Values.rows, arity]
    split <;> rfl

theorem Values.plan_empty (outer : Scopes) (rows : List (List (Expr Q))) :
    plan ({} :: outer) rows = plan outer rows := by
  have hcell : (cell ({} :: outer) : Expr Q → _) = cell outer := by
    funext e
    rw [cell, cell, e.resolve_empty]
  simp only [plan, Values.rows, cells, hcell]

mutual

theorem Query.compile_simulates : ∀ (q : Query (Expr Q)) {a : ScopeArena} {p : Option Nat}, a.Opens p →
    Simulates a (q.compile p) (q.plan (a.visible p))
  | .select tables clauses, a, p, hp => by
    rw [Query.compile, Query.plan]
    refine .inScope (.bind ?_ fun source => .update (.visible hp (.of (.lift _))))
    have hfrom := compileFrom_simulates tables (hp.push (s := {}) (q := p))
    rwa [visible_push_outer hp] at hfrom
  | .values rows, a, p, hp => by
    rw [Query.compile, Query.plan, Values.plan_checked]
    refine .bind (.lift _) fun _ => .inScope (.visible hp (.of ?_))
    rw [Values.plan_empty]
    exact .lift _
  | .setOperation op quantifier corresponding left right, a, p, hp => by
    rw [Query.compile, Query.plan]
    split
    · exact .fail _ _ _
    · exact .bind (left.compile_simulates hp) fun _ => .bind (right.compile_simulates hp) fun _ => .lift _
  | .withClause recursive elements body, a, p, hp => by
    rw [Query.compile, Query.plan]
    split
    · exact .fail _ _ _
    · refine .inScope (compileNamed_simulates elements hp [] fun named => .of ?_)
      have hbody := body.compile_simulates (opens_push (a := a) (p := p) (s := { named }))
      rwa [visible_push hp] at hbody

theorem compileNamed_simulates : ∀ (elements : List (WithElement (Query (Expr Q)))) {a : ScopeArena}
    {p : Option Nat}, a.Opens p → ∀ (named : List (String × NamedQuery)) {k : Unit → Compiling Planned}
      {g : List (String × NamedQuery) → Planning Planned}, (∀ named, SimulatesWithin a p { named } (k ()) (g named)) →
        SimulatesWithin a p { named } (compileNamed a.size elements >>= k)
          (planNamed (a.visible p) named elements >>= g)
  | [], _, _, _, named, _, _, h => h named
  | ⟨name, columns, query⟩ :: rest, a, p, hp, named, k, g, h => by
    rw [compileNamed, planNamed, Step.bind_assoc, Step.bind_assoc]
    refine .visible hp ?_
    rw [Step.bind_assoc]
    refine .bind (.lift _) fun key => ?_
    rw [Step.bind_assoc, Step.bind_assoc]
    have hquery := query.compile_simulates (opens_push (a := a) (p := p) (s := { named }))
    rw [visible_push hp] at hquery
    refine .bind (.separately hquery) ?_
    rintro ⟨planned, graph⟩
    dsimp only
    rw [Step.bind_assoc, Step.bind_assoc]
    refine .bind (.lift _) fun element => ?_
    rw [Step.bind_assoc]
    exact .update (compileNamed_simulates rest hp _ h)

theorem TableRef.compile_simulates : ∀ (t : TableRef (Expr Q)) {a : ScopeArena} {p : Option Nat}, a.Opens p →
    Simulates a (t.compile p) (t.plan (a.visible p))
  | .table name correlation, _, _, _ => .visible (.bind (.lift _) fun _ => .pure _)
  | .derived query correlation, _, _, hp => .bind (query.compile_simulates hp) fun _ => .lift _
  | .join kind left right condition, _, _, hp => by
    rw [TableRef.compile, TableRef.plan]
    rcases kind.kind? with _ | ⟨kind, swapped⟩
    · exact .fail _ _ _
    · exact .bind (left.compile_simulates hp) fun _ => .bind (right.compile_simulates hp) fun _ =>
        Join.compile_simulates hp _ _ _ _ _
  | .apply kind operand function arguments correlation, _, _, hp =>
    .bind (operand.compile_simulates hp) fun _ => Apply.compile_simulates hp _ _ _ _ _

theorem compileFrom_simulates : ∀ (tables : List (TableRef (Expr Q))) {a : ScopeArena} {p : Option Nat}, a.Opens p →
    Simulates a (compileFrom p tables) (planFrom (a.visible p) tables)
  | [], _, _, _ => .lift _
  | first :: rest, _, _, hp => .bind (first.compile_simulates hp) fun source => compileCross_simulates rest hp source

theorem compileCross_simulates : ∀ (tables : List (TableRef (Expr Q))) {a : ScopeArena} {p : Option Nat}, a.Opens p →
    ∀ left : Source, Simulates a (compileCross p left tables) (planCross (a.visible p) left tables)
  | [], _, _, _, left => .pure left
  | next :: rest, _, _, hp, _ =>
    .bind (next.compile_simulates hp) fun _ => .bind (.lift _) fun source => compileCross_simulates rest hp source

end

theorem Query.compileAs_simulates (q : Query (Expr Q)) (hp : a.Opens p) (correlation : Option Correlation) :
    Simulates a (q.compileAs p correlation) (q.planAs (a.visible p) correlation) :=
  .bind (q.compile_simulates hp) fun _ => .bind (.lift _) fun _ => .pure _

namespace Insert

theorem compileValues_simulates (table : TableDecl) (targets : List Nat) (rows : List (List (Expr Q))) :
    Simulates a (compileValues table targets rows) (values table targets rows) := by
  have hrow : (row [{}] table targets : List (Expr Q) × Nat → _) = row [] table targets := by
    funext numbered
    have hcell : cell [{}] targets numbered.1 = cell [] targets numbered.1 := by
      funext ref
      simp only [cell, ColumnDecl.resolveCell, Expr.resolve_empty]
    simp only [row, hcell]
  refine .bind (.inScope (.visible opens_none (.of ?_))) fun _ => .lift _
  rw [show ({} : Scope) :: a.visible none = [{}] from rfl, hrow]
  exact .lift _

theorem compile_simulates (i : Insert (Expr Q)) : Simulates a i.compile i.plan := by
  refine .bind (.lift _) ?_
  rintro ⟨schema, table⟩
  refine .bind (.lift _) fun targets => .bind ?_ fun _ => .lift _
  unfold compileRows rows
  cases i.source with
  | values rows => exact compileValues_simulates table targets rows
  | defaultValues => exact compileValues_simulates (Q := Q) table [] [[]]
  | query q => exact .bind (q.compile_simulates opens_none) fun _ => .lift _

end Insert

theorem compileRows_simulates (name : Name) (condition : Option (Expr Q)) {k : Socket × RelationInfo → Compiling α}
    {g : Socket × RelationInfo → Planning α}
    (h : ∀ output r, SimulatesWithin a none { relations := [r] } (k (output, r)) (g (output, r))) :
    SimulatesWithin a none {} (compileRows a.size name condition >>= k) (writtenRows name condition >>= g) := by
  rw [compileRows, writtenRows, Step.bind_assoc, Step.bind_assoc]
  refine .bind (.lift _) fun planned => ?_
  rw [Step.bind_assoc, Step.bind_assoc]
  refine .update ?_
  rw [Step.bind_assoc]
  refine .visible opens_none ?_
  rw [Step.bind_assoc]
  exact .bind (.lift _) fun output => h output planned.relation

theorem Update.compile_simulates (u : Update (Expr Q)) : Simulates a u.compile u.plan := by
  refine .bind (.lift _) ?_
  rintro ⟨schema, table⟩
  refine .bind (.lift _) fun positions => ?_
  have hrest : (writtenRows u.table u.condition >>= fun rows =>
      Planning.ofAnalysis (u.assigned [{ relations := [rows.2] }] table positions) >>= addWrite schema table rows) =
        (writtenRows u.table u.condition >>= fun rows =>
          Planning.ofAnalysis (u.assigned [{ relations := [rows.2] }] table positions) >>= fun assigned =>
            pure (rows, assigned)) >>= fun p => addWrite schema table p.1 p.2 := by
    simp only [Step.bind_assoc]
    rfl
  refine hrest ▸ .bind (.inScope ?_) fun _ => .lift _
  exact compileRows_simulates _ _ fun _ _ => .visible opens_none (.of (.bind (.lift _) fun _ => .pure _))

theorem Delete.compile_simulates (d : Delete (Expr Q)) : Simulates a d.compile d.plan := by
  refine .bind (.lift _) ?_
  rintro ⟨schema, table⟩
  refine .bind (.inScope ?_) fun _ => .lift _
  have hrows := compileRows_simulates (a := a) d.table d.condition fun _ _ => .of (.pure _)
  rwa [Step.bind_pure, Step.bind_pure] at hrows

namespace CreateTable

theorem compileColumn_simulates (taken : List ColumnDecl) (d : ColumnDefinition (Expr Q)) :
    Simulates a (compileColumn taken d) (Planning.ofAnalysis (column taken d)) := by
  rw [compileColumn, column, Planning.ofAnalysis_bind]
  refine .bind (.lift _) fun c => ?_
  cases d.default with
  | none => exact .pure c
  | some e =>
    dsimp only
    rw [columnDefault, Planning.ofAnalysis_bind, Planning.ofAnalysis_bind, Step.bind_assoc]
    exact .bind (e.compile_simulates none _) fun x => .bind (.lift _) fun value => .pure _

theorem compileColumns_simulates (defined : List ColumnDecl) (ds : List (ColumnDefinition (Expr Q))) :
    Simulates a (compileColumns defined ds) (Planning.ofAnalysis (resolveColumns defined ds)) := by
  induction ds generalizing defined with
  | nil => exact .pure defined
  | cons d ds ih =>
    rw [compileColumns, resolveColumns, Planning.ofAnalysis_bind]
    exact .bind (compileColumn_simulates defined d) fun c => ih (defined ++ [c])

theorem compile_simulates (c : CreateTable (Expr Q)) : Simulates a c.compile (Planning.ofAnalysis c.resolve) := by
  rw [compile, resolve, Planning.ofAnalysis_bind]
  refine .bind (.lift _) fun place => ?_
  rcases place with _ | ⟨schema, name⟩
  · exact .pure _
  · dsimp only
    rw [Planning.ofAnalysis_bind]
    exact .bind (compileColumns_simulates [] c.columns) fun columns => .lift _

end CreateTable

theorem Compiling.complete_simulates (kind : PlanKind) {x : Compiling Nat} {m : Planning Nat} (h : Simulates a x m) :
    Simulates a (complete kind x) (Planning.ofAnalysis (Planning.complete kind m)) := by
  intro env d
  have hrun := h.separately env d
  rw [complete, Planning.ofAnalysis, Planning.complete]
  rcases hm : m env ⟨d.minted, .empty⟩ with ⟨⟨failure | terminal, log⟩, t⟩
  · rw [Planning.separately, hm] at hrun
    rw [Step.bind_of_failure hrun]
    rfl
  · rw [Planning.separately, hm] at hrun
    rw [Step.bind_of_result hrun]
    exact Prod.ext (Outcome.ext rfl (List.append_nil log)) rfl

theorem Statement.compile_simulates (statement : Statement (Expr Q)) :
    Simulates a statement.compile (Planning.ofAnalysis statement.resolve) := by
  cases statement with
  | select q => exact Compiling.complete_simulates _ (.bind (q.compile_simulates opens_none) fun _ => .lift _)
  | insert i => exact Compiling.complete_simulates _ i.compile_simulates
  | update u => exact Compiling.complete_simulates _ u.compile_simulates
  | delete d => exact Compiling.complete_simulates _ d.compile_simulates
  | createTable c =>
    rw [compile, resolve, Resolution.ofChange, Planning.ofAnalysis_bind]
    exact .bind c.compile_simulates fun _ => .pure _
  | dropTable | createIndex | dropIndex => exact .lift _

namespace Session

variable (s : Session)

theorem run_eq {x : Compiling α} {m : Planning α} (h : Simulates s.scopes x m) (graph : Graph) :
    s.run graph x =
      let inner := m s.environment ⟨s.minted, graph⟩
      (inner.1.result, inner.2.graph, { s with minted := inner.2.minted, log := s.log ++ inner.1.log }) := by
  rw [run, h]

/-- Where a scope is not open nothing is seen. -/
theorem visible_filter (a : ScopeArena) (scope : Option Nat) :
    a.Opens (scope.filter (· < a.size)) ∧ a.visible (scope.filter (· < a.size)) = a.visible scope := by
  cases scope with
  | none => exact ⟨opens_none, rfl⟩
  | some id =>
    by_cases hid : id < a.size
    · rw [Option.filter_some_pos (by simpa using hid)]
      exact ⟨fun _ h => by cases h; exact hid, rfl⟩
    · rw [Option.filter_some_neg (by simpa using hid)]
      refine ⟨opens_none, ?_⟩
      rw [ScopeArena.visible, ScopeArena.visible, ScopeArena.scopes_eq, List.getElem?_eq_none (Nat.le_of_not_lt hid)]

theorem planQuery_eq (graph : Graph) (q : Query (Expr Q)) (scope : Option Nat) (correlation : Option Correlation) :
    s.planQuery graph q scope correlation =
      let inner := q.planAs (s.scopes.visible scope) correlation s.environment ⟨s.minted, graph⟩
      (inner.1.result, inner.2.graph, { s with minted := inner.2.minted, log := s.log ++ inner.1.log }) := by
  obtain ⟨hopens, hvisible⟩ := visible_filter s.scopes scope
  rw [planQuery, s.run_eq (q.compileAs_simulates hopens correlation), hvisible]

theorem resolveExpr_eq (e : Expr Q) (scope : Option Nat) (target : Option Target) :
    s.resolveExpr e scope target =
      let inner := e.resolve (s.scopes.visible scope) target s.environment s.minted
      (inner.1.result, { s with minted := inner.2, log := s.log ++ inner.1.log }) := by
  rw [resolveExpr, runAlone, s.run_eq (e.compile_simulates scope target)]
  rfl

theorem resolveStatement_eq (statement : Statement (Expr Q)) :
    s.resolveStatement statement =
      let inner := statement.resolve s.environment s.minted
      match inner.1.result with
      | .ok r => (.ok r, { s with minted := inner.2, log := s.log ++ inner.1.log })
      | .error .reported => (.error (.diagnostics (s.log ++ inner.1.log)), { s with minted := inner.2, log := [] })
      | .error .panic => (.error .panic, { s with minted := inner.2, log := [] }) := by
  rw [resolveStatement, runAlone, s.run_eq statement.compile_simulates, Planning.ofAnalysis]
  dsimp only
  rcases statement.resolve s.environment s.minted with ⟨⟨(_ | _) | r, log⟩, n⟩ <;> rfl

end Session

end SqlPlan
