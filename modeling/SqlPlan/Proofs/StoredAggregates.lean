import SqlPlan.Proofs.AggregateFree
import SqlPlan.Proofs.GroupingFaults
import SqlPlan.Proofs.PlanSoundness

namespace SqlPlan

variable {scopes : Scopes} {s : Scalar} {p : Planned} {name : Name} {terminal : Nat} {ref : ColumnRef}

open List (Forall₂)

variable {Q : Type} {env : Environment} {outer : Scopes} {d d' d₁ d₂ : Draft} {n m : Nat}

/-- The flag of a resolved expression is set if and only if an aggregate call stands somewhere in it, and no call that
is written gets lost on the way. -/
theorem Expr.resolve_aggregated {e : Expr Q} {target : Option Target} {x : Typed}
    (h : e.resolve scopes target env n = (.ok x, m)) :
    (x.aggregated = true ↔ ∃ path function arguments, x.expr.at? path = some (.aggregate function arguments)) ∧
      x.aggregated = e.callsAggregate env := by
  have hel := Expr.sound env scopes e target n x m h
  have hflag := hel.hasAggregate_eq x (List.mem_singleton_self x)
  refine ⟨?_, List.head_eq_of_cons_eq hel.aggregated_eq⟩
  rw [← hflag]
  exact Scalar.hasAggregate_iff

/-- `NULLIF(count(*), NULL)`, where the call is bound by a let. -/
theorem Expr.resolve_aggregated_nullif : ∃ x m,
    (Expr.nullif Sample.count (.literal .null)).resolve [] none Sample.tables.environment 0 = (.ok x, m) ∧
      x.aggregated = true ∧ ∃ path function arguments, x.expr.at? path = some (.aggregate function arguments) := by
  obtain ⟨x, m, h⟩ := Step.exists_ok (show ((Expr.nullif Sample.count (.literal .null)).resolve [] none
    Sample.tables.environment 0).1.isOk = true by decide +kernel)
  obtain ⟨hiff, hwritten⟩ := resolve_aggregated h
  have hflag : x.aggregated = true := hwritten.trans (by decide +kernel)
  exact ⟨x, m, h, hflag, hiff.mp hflag⟩

mutual

/-- Whether a table value constructor that a query reads has a cell with an aggregate call. `named` tells
this of the named queries around the query. -/
def Query.leaks (env : Environment) (named : String → Bool) : Query (Expr Q) → Bool
  | .select tables _ => TableRef.anyLeaks env named tables
  | .values rows => rows.any (·.any (Expr.callsAggregate env))
  | .setOperation _ _ _ left right => left.leaks env named || right.leaks env named
  | .withClause _ elements body => body.leaks env (WithElement.leaks env named elements)

def WithElement.leaks (env : Environment) (named : String → Bool) :
    List (WithElement (Query (Expr Q))) → String → Bool
  | [] => named
  | ⟨name, _, query⟩ :: rest => WithElement.leaks env
    (fun key => if key = env.options.key name then query.leaks env named else named key) rest

def TableRef.leaks (env : Environment) (named : String → Bool) : TableRef (Expr Q) → Bool
  | .table name _ =>
    match name.segments with
    | [identifier] => named (env.options.key identifier)
    | _ => false
  | .derived query _ => query.leaks env named
  | .join _ left right _ => left.leaks env named || right.leaks env named
  | .apply _ operand _ _ _ => operand.leaks env named

def TableRef.anyLeaks (env : Environment) (named : String → Bool) : List (TableRef (Expr Q)) → Bool
  | [] => false
  | table :: rest => table.leaks env named || TableRef.anyLeaks env named rest

end

/-- Whether an aggregate call is stored in the named query that a key stands for. -/
def Scopes.leaks (scopes : Scopes) (key : String) : Bool := (scopes.named? key).any (·.graph.hasAggregate)

def Task.leaks (env : Environment) (outer : Scopes) : Task Q → Bool
  | .query q => q.leaks env outer.leaks
  | .table t => t.leaks env outer.leaks
  | .tables ts => TableRef.anyLeaks env outer.leaks ts
  | .within named elements body =>
    body.leaks env (WithElement.leaks env (Scopes.leaks ({ named } :: outer)) elements)

theorem TableRef.anyLeaks_append (named : String → Bool) (tables : List (TableRef (Expr Q)))
    (next : TableRef (Expr Q)) : TableRef.anyLeaks env named (tables ++ [next]) =
      (TableRef.anyLeaks env named tables || next.leaks env named) := by
  induction tables with
  | nil => simp [TableRef.anyLeaks]
  | cons table tables ih =>
    rw [List.cons_append, TableRef.anyLeaks, ih, TableRef.anyLeaks, Bool.or_assoc]

namespace Scopes

theorem named?_cons (scope : Scope) (outer : Scopes) (key : String) :
    Scopes.named? (scope :: outer) key = (scope.named.lookup key).or (outer.named? key) := by
  rw [named?, List.findSome?_cons, Scope.named?]
  cases scope.named.lookup key with
  | none => rfl
  | some q => rfl

theorem leaks_empty_cons (outer : Scopes) : Scopes.leaks ({ named := [] } :: outer) = outer.leaks := by
  funext key
  simp [leaks, named?_cons]

/-- A named query is seen after the others of its WITH clause, and before those around. -/
theorem leaks_define {named : List (String × NamedQuery)} {key : String} {element : NamedQuery}
    (h : named.lookup key = none) (outer : Scopes) :
    Scopes.leaks ({ named := named ++ [(key, element)] } :: outer) = fun k =>
      if k = key then element.graph.hasAggregate else Scopes.leaks ({ named } :: outer) k := by
  funext k
  by_cases hk : k = key
  · subst hk
    simp [leaks, named?_cons, List.lookup_append, h]
  · simp [leaks, named?_cons, List.lookup_append, List.lookup_cons, hk, beq_false_of_ne]

end Scopes

namespace Values

theorem any_eq_of_forall₂ {α β : Type} {f : α → Bool} {g : β → Bool} {xs : List α} {ys : List β}
    (h : Forall₂ (fun x y => g y = f x) xs ys) : ys.any g = xs.any f := by
  induction h with
  | nil => rfl
  | cons hy _ ih => rw [List.any_cons, List.any_cons, hy, ih]

theorem CellOf.hasAggregate {e : Expr Q} {t : SqlType} (h : CellOf env scopes e t s) :
    s.hasAggregate = e.callsAggregate env := by
  have hresolve : ∀ {x : Typed} {n m : Nat}, e.resolve scopes none env n = (.ok x, m) →
      x.expr.hasAggregate = e.callsAggregate env := by
    intro x n m hx
    have hel := Expr.sound env scopes e none n x m hx
    rw [hel.hasAggregate_eq x (List.mem_singleton_self x)]
    simpa using hel.aggregated_eq
  cases h with
  | null h =>
    obtain rfl := Expr.eq_null h
    rfl
  | kept _ h _ | cast _ h _ _ => exact hresolve h

theorem rows_hasAggregate {source : List (List (Expr Q))} {exprs : List (List Scalar)} {types : List SqlType}
    (h : rows scopes source env n = (.ok (exprs, types), m)) :
    exprs.any (·.any Scalar.hasAggregate) = source.any (·.any (Expr.callsAggregate env)) := by
  obtain ⟨-, haccepts, htable⟩ := rows_accepts h
  refine any_eq_of_forall₂ (((List.forall₂_and_left _ _).mpr ⟨haccepts.width, htable⟩).imp ?_)
  rintro row cells ⟨hwidth, hcells⟩
  rw [any_eq_of_forall₂ (hcells.imp fun _ _ hcell => hcell.hasAggregate)]
  calc (row.zip types).any (fun p => p.1.callsAggregate env)
    _ = ((row.zip types).map Prod.fst).any (Expr.callsAggregate env) := by
      rw [List.any_map, Function.comp_def]
    _ = row.any (Expr.callsAggregate env) := by rw [List.map_fst_zip (Nat.le_of_eq hwidth)]

theorem plan_hasAggregate {source : List (List (Expr Q))} (h : plan outer source env d = (.ok p, d')) :
    d'.graph.hasAggregate = (d.graph.hasAggregate || source.any (·.any (Expr.callsAggregate env))) := by
  obtain ⟨exprs, types, _, columns, hrows, -, -, hg⟩ := plan_ok.mp h
  rw [hg, Graph.hasAggregate_insert, Operator.hasAggregate, rows_hasAggregate hrows]

end Values

namespace Source

variable {correlation : Option Correlation}

theorem scan_hasAggregate (h : scan name correlation env d = (.ok p, d')) :
    d'.graph.hasAggregate = d.graph.hasAggregate := Storing.hasAggregate_eq (fun _ => Storing.scan name correlation) h

theorem instantiate_hasAggregate {key : String} {query : NamedQuery}
    (h : instantiate key query correlation env d = (.ok p, d')) :
    d'.graph.hasAggregate = (d.graph.hasAggregate || query.graph.hasAggregate) := by
  simp only [instantiate, Step.bind_ok, Planning.lift_ok, Planning.add_ok, Step.pure_ok] at h
  obtain ⟨columns, d₂, ⟨-, hg₂⟩, _, d₃, ⟨-, -, hg₃⟩, info, _, hinfo, -, rfl⟩ := h
  obtain ⟨-, rfl⟩ := RelationInfo.correlate_ok hinfo
  rw [hg₃, Graph.hasAggregate_insert, hg₂]
  rfl

theorem named_hasAggregate (h : named outer name correlation env d = (.ok p, d')) : d'.graph.hasAggregate =
    (d.graph.hasAggregate || (TableRef.table name correlation : TableRef (Expr Q)).leaks env outer.leaks) := by
  rw [TableRef.leaks]
  rcases named_cases h with ⟨hnone, h⟩ | ⟨identifier, query, hsegments, hq, h⟩
  · rw [scan_hasAggregate h]
    split
    · next identifier hsegments => simp [Scopes.leaks, hnone identifier hsegments]
    · rw [Bool.or_false]
  · simp [instantiate_hasAggregate h, hsegments, Scopes.leaks, hq]

end Source

/-- Planning stores an aggregate call exactly if the task reads a table value constructor with one. -/
theorem Plans.hasAggregate_eq {task : Task Q} {s : Source} (h : Plans env outer task d s d') :
    d'.graph.hasAggregate = (d.graph.hasAggregate || task.leaks env outer) := by
  induction h with
  | select _ hp ih =>
    rw [Storing.hasAggregate_eq (fun _ => Storing.block (fun _ _ => trivial) (fun _ _ => trivial) _) hp, ih, Task.leaks,
      Task.leaks, Query.leaks]
  | values hp => rw [Values.plan_hasAggregate hp, Task.leaks, Query.leaks]
  | setOperation _ _ hp ihl ihr =>
    rw [Storing.hasAggregate_eq (fun _ => Storing.setOperation (fun _ _ => trivial) (fun _ _ => trivial) _ _) hp,
      ihr, ihl, Bool.or_assoc]
    rfl
  | withClause _ ih =>
    rw [ih]
    simp only [Task.leaks, Scopes.leaks_empty_cons, Query.leaks]
  | body _ ih => rw [ih, Task.leaks, Task.leaks, WithElement.leaks]
  | element hkey _ hg helement _ ih ih' =>
    obtain ⟨rfl, hnone⟩ := NamedQuery.newKey_ok hkey
    obtain ⟨_, rfl, -, rfl⟩ := NamedQuery.ofPlanned_ok helement
    have hquery : Graph.empty.hasAggregate = false := rfl
    rw [ih', hg, Task.leaks, Task.leaks, Scopes.leaks_define hnone, WithElement.leaks, ih, hquery,
      Bool.false_or, Task.leaks]
  | table hp =>
    rw [Task.leaks]
    exact Source.named_hasAggregate hp
  | derived _ hs ih =>
    rw [Storing.hasAggregate_eq (fun _ => Storing.derived (fun _ _ => trivial) _) hs, ih, Task.leaks, Task.leaks,
      TableRef.leaks]
  | join _ _ hs ihl ihr =>
    rw [Storing.hasAggregate_eq (fun _ => Storing.join (fun _ _ => trivial) (fun _ _ => trivial) (fun _ _ => trivial)
      _ _ _) hs, ihr, ihl, Bool.or_assoc]
    rfl
  | apply _ hs ih =>
    rw [Storing.hasAggregate_eq (fun _ => Storing.apply (fun _ _ => trivial) (fun _ _ => trivial) _ _ _ _) hs, ih,
      Task.leaks, Task.leaks, TableRef.leaks]
  | noTable hs =>
    rw [Storing.hasAggregate_eq (fun _ => Storing.singleRow) hs, Task.leaks, TableRef.anyLeaks, Bool.or_false]
  | firstTable _ ih => rw [ih, Task.leaks, Task.leaks, TableRef.anyLeaks, TableRef.anyLeaks, Bool.or_false]
  | nextTable _ _ hs ihl ihr =>
    rw [Storing.hasAggregate_eq (fun _ => Storing.join (fun _ _ => trivial) (fun _ _ => trivial) (fun _ _ => trivial)
      _ _ _) (Source.join_of_cross [] hs), ihr, ihl, Task.leaks, Task.leaks, Task.leaks, TableRef.anyLeaks_append,
      Bool.or_assoc]

theorem Query.plan_hasAggregate {q : Query (Expr Q)} (h : q.plan outer env d = (.ok p, d')) :
    d'.graph.hasAggregate = (d.graph.hasAggregate || q.leaks env outer.leaks) :=
  (Query.plans outer q h).hasAggregate_eq

/-- Whether a statement reads a table value constructor that has a cell with an aggregate call. The rows of
INSERT ... VALUES are none: their cells are checked. -/
def Statement.leaks (env : Environment) : Statement (Expr Q) → Bool
  | .select q => q.leaks env fun _ => false
  | .insert i =>
    match i.source with
    | .query q => q.leaks env fun _ => false
    | _ => false
  | _ => false

theorem Planning.addSink_hasAggregate {operator : Operator} {input : Socket}
    (hoperator : operator.hasAggregate = false) (h : Planning.addSink operator input env d = (.ok terminal, d')) :
    d'.graph.hasAggregate = d.graph.hasAggregate :=
  hasAggregate_of_insert (Planning.addSink_ok.mp h).2.2 hoperator

theorem ColumnDecl.resolveCell_hasAggregate {c : ColumnDecl} {e : Expr Q}
    (h : c.resolveCell scopes e env n = (.ok s, m)) : s.hasAggregate = false := by
  obtain ⟨x, hel, hagg, hs⟩ := resolveCell_ok h
  have hx : x.expr.hasAggregate = false := by
    rw [hel.hasAggregate_eq x (List.mem_singleton_self x), hagg]
  rcases hs with ⟨rfl, -⟩ | rfl
  · exact hx
  · exact hx

namespace Insert

variable {table : TableDecl} {targets : List Nat} {output : Socket} {vs : List Variable}

theorem cell_hasAggregate {row : List (Expr Q)} (h : cell [] targets row ref env n = (.ok s, m)) :
    s.hasAggregate = false := by
  unfold cell at h
  rcases hslot : (targets.idxOf? ref.position).bind fun slot => row[slot]? with _ | e
  · simp only [hslot, Step.pure_ok] at h
    obtain ⟨rfl, -⟩ := h
    rfl
  · rw [hslot] at h
    exact ColumnDecl.resolveCell_hasAggregate h

theorem row_hasAggregate {p : List (Expr Q) × Nat} {ss : List Scalar}
    (h : row [] table targets p env n = (.ok ss, m)) : ∀ s ∈ ss, s.hasAggregate = false := by
  obtain ⟨es, i⟩ := p
  simp only [row, Step.ite_ok, Step.fail_ok, and_false, false_or] at h
  exact forall_of_collect (fun _ _ _ _ => cell_hasAggregate) (collect_of_each h.2)

theorem values_hasAggregate {rows : List (List (Expr Q))}
    (h : values table targets rows env d = (.ok (output, vs), d')) :
    d'.graph.hasAggregate = d.graph.hasAggregate := by
  simp only [values, addValues, Step.bind_ok, Planning.lift_ok, Planning.add_ok, Step.pure_ok, Prod.mk.injEq] at h
  obtain ⟨cells, d₂, ⟨hcells, hg₂⟩, columns, d₃, ⟨-, hg₃⟩, _, _, ⟨-, -, hg⟩, -, rfl⟩ := h
  have hall := forall_of_collect (fun _ _ _ _ => row_hasAggregate) (collect_of_each hcells)
  have hfree : (Operator.values columns cells).hasAggregate = false := by
    simp only [Operator.hasAggregate, List.any_eq_false, Bool.not_eq_true]
    exact hall
  rw [hasAggregate_of_insert hg hfree, hg₃, hg₂]

theorem writtenColumn_hasAggregate {columns : List ColumnInfo} {y : Variable × Option (Variable × Scalar)}
    (h : writtenColumn targets columns ref env n = (.ok y, m)) : ∀ p ∈ y.2, p.2.hasAggregate = false := by
  obtain ⟨v, computed⟩ := y
  intro p hp
  rcases writtenColumn_cases h with ⟨c, -, -, rfl, -⟩ | ⟨value, -, rfl, -, hvalue⟩
  · cases hp
  · cases hp
    rcases hvalue with ⟨c, -, rfl⟩ | rfl
    · rfl
    · rfl

theorem query_hasAggregate {q : Query (Expr Q)} (h : query table targets q env d = (.ok (output, vs), d')) :
    d'.graph.hasAggregate = (d.graph.hasAggregate || q.leaks env fun _ => false) := by
  simp only [query, written, Step.bind_ok, Step.ite_ok, Step.fail_ok, Planning.lift_ok, Step.pure_ok, Prod.mk.injEq,
    and_false, false_or] at h
  obtain ⟨p, d₂, hp, -, sources, d₃, ⟨hsources, hg₃⟩, o, _, ho, -, rfl⟩ := h
  have hall := forall_of_collect (fun _ _ _ _ => writtenColumn_hasAggregate) (collect_of_each hsources)
  have hproject : ∀ s ∈ (Operator.project (sources.filterMap (·.2))).scalars, s.hasAggregate = false := by
    refine List.forall_mem_map.mpr fun p hp => ?_
    obtain ⟨y, hy, hp⟩ := List.mem_filterMap.mp hp
    exact hall y hy p hp
  rw [Storing.hasAggregate_eq (fun _ => Storing.addIf _ rfl hproject _) ho, hg₃]
  exact Query.plan_hasAggregate hp

theorem plan_hasAggregate {i : Insert (Expr Q)} (h : i.plan env d = (.ok terminal, d')) :
    d'.graph.hasAggregate = (d.graph.hasAggregate || (Statement.insert i).leaks env) := by
  obtain ⟨schema, table, targets, output, vs, d₂, columns, d₃, hrows, -, hg, hsink⟩ := plan_ok h
  rw [Planning.addSink_hasAggregate rfl hsink, hg, Statement.leaks]
  unfold rows at hrows
  rcases hsource : i.source with source | q | _
  all_goals rw [hsource] at hrows
  · simp [values_hasAggregate hrows]
  · exact query_hasAggregate hrows
  · simp [values_hasAggregate hrows]

end Insert

theorem writtenRows_hasAggregate {condition : Option (Expr Q)} {output : Socket} {r : RelationInfo}
    (h : writtenRows name condition env d = (.ok (output, r), d')) :
    d'.graph.hasAggregate = d.graph.hasAggregate := by
  obtain ⟨p, d₂, hp, -, ⟨-, rfl⟩ | ⟨e, x, k, hel, hagg, -, -, hg⟩⟩ := writtenRows_ok h
  · exact Source.scan_hasAggregate hp
  · have hx : x.expr.hasAggregate = false := by
      rw [hel.hasAggregate_eq x (List.mem_singleton_self x), hagg]
    rw [hasAggregate_of_insert hg hx]
    exact Source.scan_hasAggregate hp

theorem Update.assignment_hasAggregate {p : Assignment (Expr Q) × ColumnRef}
    {y : (Variable × Scalar) × (Variable × Variable)} (h : assignment scopes p env n = (.ok y, m)) :
    y.1.2.hasAggregate = false := by
  obtain ⟨a, ref⟩ := p
  simp only [assignment, Step.bind_ok, Step.pure_ok] at h
  obtain ⟨value, k, hvalue, _, _, -, _, _, -, rfl, -⟩ := h
  exact ColumnDecl.resolveCell_hasAggregate hvalue

theorem Update.plan_hasAggregate {u : Update (Expr Q)} (h : u.plan env d = (.ok terminal, d')) :
    d'.graph.hasAggregate = d.graph.hasAggregate := by
  obtain ⟨schema, table, positions, output, r, d₂, assigned, d₃, o, d₄, keys, d₅, -, hrows, hassigned, hg₃, ho, -, hg₅,
    hsink⟩ := plan_ok h
  obtain ⟨-, -, hg₄⟩ := Planning.add_ok.mp ho
  have hall := forall_of_collect (fun _ _ _ _ => assignment_hasAggregate) (collect_of_each hassigned)
  have hproject : (Operator.project (assigned.map (·.1))).hasAggregate = false := by
    refine project_not_hasAggregate fun p hp => ?_
    obtain ⟨y, hy, rfl⟩ := List.mem_map.mp hp
    exact hall y hy
  rw [Planning.addSink_hasAggregate rfl hsink, hg₅, hasAggregate_of_insert hg₄ hproject, hg₃,
    writtenRows_hasAggregate hrows]

theorem Delete.plan_hasAggregate {q : Delete (Expr Q)} (h : q.plan env d = (.ok terminal, d')) :
    d'.graph.hasAggregate = d.graph.hasAggregate := by
  obtain ⟨schema, table, output, r, d₂, keys, d₃, -, hrows, -, hg, hsink⟩ := plan_ok h
  rw [Planning.addSink_hasAggregate rfl hsink, hg, writtenRows_hasAggregate hrows]

theorem Query.planStatement_hasAggregate {q : Query (Expr Q)} (h : q.planStatement env d = (.ok terminal, d')) :
    d'.graph.hasAggregate = (d.graph.hasAggregate || q.leaks env fun _ => false) := by
  simp only [planStatement, Planned.addEmit, Step.bind_ok] at h
  obtain ⟨p, d₂, hp, hsink⟩ := h
  rw [Planning.addSink_hasAggregate rfl hsink]
  exact Query.plan_hasAggregate hp

theorem Statement.resolve_hasAggregate {statement : Statement (Expr Q)} {p : ExecutionPlan}
    (h : statement.resolve env n = (.ok (.plan p), m)) : p.graph.hasAggregate = statement.leaks env := by
  obtain ⟨planning, d, hplanning, hd, hg⟩ := resolve_plan h
  rw [hg]
  cases statement <;> cases hplanning
  case select => exact Query.planStatement_hasAggregate hd
  case insert => exact Insert.plan_hasAggregate hd
  case update => exact Update.plan_hasAggregate hd
  case delete => exact Delete.plan_hasAggregate hd

/-- An aggregate call is stored in the plan of a query or a statement exactly if it reads a table value
constructor that has one in a cell. -/
theorem Session.hasAggregate_eq_leaks (s : Session) :
    (∀ (outer : Scopes) (q : Query (Expr Q)) (d d' : Draft) (p : Planned),
      q.plan outer s.environment d = (.ok p, d') →
        d'.graph.hasAggregate = (d.graph.hasAggregate || q.leaks s.environment outer.leaks)) ∧
    ∀ (statement : Statement (Expr Q)) (p : ExecutionPlan) (s' : Session),
      s.resolveStatement statement = (.ok (.plan p), s') →
        p.graph.hasAggregate = statement.leaks s.environment := by
  constructor
  · intro outer q d d' p h
    exact Query.plan_hasAggregate h
  · intro statement p s' h
    obtain ⟨m, hm⟩ := resolveStatement_ok h
    exact Statement.resolve_hasAggregate hm

namespace Sample

/-- `VALUES (count(*))` -/
def valuesCount : Query (Expr Unit) := .values [[count]]

end Sample

/-- The call in a cell is stored as it is, in the plan of the query and in that of the statement. -/
theorem Session.hasAggregate_valuesCount :
    (∃ p d', Sample.valuesCount.plan [] Sample.tables.environment ⟨0, .empty⟩ = (.ok p, d') ∧
      d'.graph.hasAggregate = true) ∧
    ∃ p s', Sample.tables.resolveStatement (.select Sample.valuesCount) = (.ok (.plan p), s') ∧
      p.graph.hasAggregate = true := by
  constructor
  · have hok : (Sample.valuesCount.plan [] Sample.tables.environment ⟨0, .empty⟩).1.isOk = true := by
      decide +kernel
    have hstored : (Sample.valuesCount.plan [] Sample.tables.environment ⟨0, .empty⟩).2.graph.hasAggregate =
        true := by
      decide +kernel
    obtain ⟨p, d', h⟩ := Step.exists_ok hok
    rw [h] at hstored
    exact ⟨p, d', h, hstored⟩
  · have hplan : Sample.tables.planMeets (.select Sample.valuesCount) (·.graph.hasAggregate) = true := by
      decide +kernel
    exact exists_plan _ hplan

/-- The calls in the select list and in ORDER BY are not stored. -/
theorem Session.hasAggregate_eq_leaks_countMatches :
    (∃ p d', Sample.valuesCount.plan [] Sample.tables.environment ⟨0, .empty⟩ = (.ok p, d') ∧
      d'.graph.hasAggregate = Sample.valuesCount.leaks Sample.tables.environment (Scopes.leaks [])) ∧
    ∃ p s', Sample.tables.resolveStatement Sample.countMatches = (.ok (.plan p), s') ∧
      p.graph.hasAggregate = false := by
  obtain ⟨hquery, hstatement⟩ := hasAggregate_eq_leaks (Q := Unit) Sample.tables
  constructor
  · have hok : (Sample.valuesCount.plan [] Sample.tables.environment ⟨0, .empty⟩).1.isOk = true := by
      decide +kernel
    obtain ⟨p, d', h⟩ := Step.exists_ok hok
    exact ⟨p, d', h, hquery [] Sample.valuesCount ⟨0, .empty⟩ d' p h⟩
  · have hplan : Sample.tables.planMeets Sample.countMatches (fun _ => true) = true := by decide +kernel
    obtain ⟨p, s', h, -⟩ := exists_plan _ hplan
    exact ⟨p, s', h, (hstatement Sample.countMatches p s' h).trans (by decide +kernel)⟩

end SqlPlan
