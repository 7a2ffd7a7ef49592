import SqlPlan.Proofs.SessionFrame
import Mathlib.Data.List.Nodup

namespace SqlPlan

variable {Q : Type} {env : Environment} {n m : Nat}
variable {r : Resolution} {p : ExecutionPlan} {g : Graph} {node : Node}

structure ExecutionPlan.Sound (p : ExecutionPlan) : Prop where
  connected : p.graph.Connected
  closed : ∀ s, s ∉ p.graph.frontier
  last : p.graph.size = p.terminal + 1
  flowing : ∀ n < p.terminal, p.graph.outputAt ⟨n, 0⟩ ≠ none
  ending : ∀ i, p.graph.outputAt ⟨p.terminal, i⟩ = none
  typed : none ∉ p.graph.columns .both
  streams : ∀ s Γ, p.graph.columnsAt .both s = some Γ → ∀ v ∈ Γ.carriers, v.isStream = true
  subqueries : ∀ q ∈ p.graph.subqueries, q.1.EndsIn q.2

theorem Finishes.sound {terminal : Nat} {d : Draft} (h : Finishes ⟨n, .empty⟩ terminal d) (kind : PlanKind) :
    ExecutionPlan.Sound ⟨kind, d.graph, terminal⟩ := by
  obtain ⟨d₁, output, Γ, operator, hb, rfl, hg, hc, hs⟩ := h
  have hsound : d₁.graph.Sound := hb.sound Graph.sound_empty
  have hfrontier : ∀ s, s ∈ d₁.graph.frontier ↔ s = output := by
    intro s
    rw [hb.frontier]
    simp [Graph.frontier, Graph.empty]
  have hd : [output].Nodup := List.nodup_singleton output
  have hf : ∀ s ∈ [output], s ∈ d₁.graph.frontier := by
    intro s hs
    exact (hfrontier s).mpr (List.mem_singleton.mp hs)
  have hcolumns : ([output].mapM (d₁.graph.columnsAt .both)).bind (operator.columns .both) = some [] := by
    simp [hb.columns _ (List.mem_singleton_self _), hc]
  rw [hg]
  refine ⟨hsound.connected.insert hd hf, ?_, Graph.size_insert, Graph.flowing_insert hsound.flowing hd hf,
    ?_, Graph.typed_insert hsound.typed hcolumns,
    Graph.streams_insert hsound.streams hcolumns (by simp [Columns.carriers]), ?_⟩
  · intro s
    rw [Graph.mem_frontier_insert hd hf, hfrontier]
    simp
  · intro i
    rw [Graph.outputAt_insert_new]
    simp
  · intro q hq
    rw [Graph.subqueries_insert, hs, List.append_nil] at hq
    rcases hb.subqueries q hq with hq | hq
    · simp [Graph.empty, Graph.subqueries, Node.subqueriesOf] at hq
    · exact hq

theorem Planning.complete_ok {kind : PlanKind} {plan : Planning Nat} (h : plan.complete kind env n = (.ok r, m)) :
    ∃ terminal d, plan env ⟨n, .empty⟩ = (.ok terminal, d) ∧ r = .plan ⟨kind, d.graph, terminal⟩ := by
  obtain ⟨terminal, hplan, hr⟩ := Outcome.map_eq_ok.1 (congrArg Prod.fst h)
  exact ⟨terminal, _, Prod.ext hplan rfl, hr.symm⟩

theorem Resolution.ofChange_ne_plan {change : Analysis CatalogChange} :
    ofChange change env n ≠ (.ok (.plan p), m) := by
  intro h
  simp [ofChange] at h

/-- The planning behind a statement that asks for a plan. -/
def Statement.planning? : Statement (Expr Q) → Option (Planning Nat)
  | .select q => some q.planStatement
  | .insert i => some i.plan
  | .update u => some u.plan
  | .delete q => some q.plan
  | _ => none

theorem Statement.resolve_plan {statement : Statement (Expr Q)} (h : statement.resolve env n = (.ok (.plan p), m)) :
    ∃ planning d, statement.planning? = some planning ∧ planning env ⟨n, .empty⟩ = (.ok p.terminal, d) ∧
      p.graph = d.graph := by
  cases statement with
  | select q | insert q | update q | delete q =>
    obtain ⟨terminal, d, hd, hp⟩ := Planning.complete_ok h
    cases hp
    exact ⟨_, d, rfl, hd, rfl⟩
  | _ => exact absurd h Resolution.ofChange_ne_plan

theorem Statement.resolve_finishes {statement : Statement (Expr Q)}
    (h : statement.resolve env n = (.ok (.plan p), m)) :
    ∃ d, Finishes ⟨n, .empty⟩ p.terminal d ∧ p.graph = d.graph := by
  obtain ⟨planning, d, hplanning, hd, hg⟩ := resolve_plan h
  refine ⟨d, ?_, hg⟩
  cases statement <;> cases hplanning
  case select => exact Query.planStatement_finishes hd
  case insert => exact Insert.plan_finishes hd
  case update => exact Update.plan_finishes hd
  case delete => exact Delete.plan_finishes hd

namespace Session

variable {s s' : Session} {statement : Statement (Expr Q)}

theorem plan_sound (h : s.resolveStatement statement = (.ok (.plan p), s')) : p.Sound := by
  obtain ⟨m, hm⟩ := resolveStatement_ok h
  obtain ⟨d, hd, hg⟩ := Statement.resolve_finishes hm
  have hsound := hd.sound p.kind
  rwa [← hg] at hsound

def planMeets (s : Session) (statement : Statement (Expr Q)) (test : ExecutionPlan → Bool) : Bool :=
  match (s.resolveStatement statement).1 with
  | .ok (.plan p) => test p
  | _ => false

theorem exists_plan (test : ExecutionPlan → Bool) (h : s.planMeets statement test = true) :
    ∃ p s', s.resolveStatement statement = (.ok (.plan p), s') ∧ test p = true := by
  unfold planMeets at h
  rcases hr : s.resolveStatement statement with ⟨_ | p | _, s₁⟩
  · simp [hr] at h
  · rw [hr] at h
    exact ⟨p, s₁, rfl, h⟩
  · simp [hr] at h

def isRefused (s : Session) (statement : Statement (Expr Q)) : Bool :=
  match (s.resolveStatement statement).1 with
  | .error (.diagnostics _) => true
  | _ => false

theorem exists_diagnostics (h : s.isRefused statement = true) :
    ∃ log, (s.resolveStatement statement).1 = .error (.diagnostics log) := by
  unfold isRefused at h
  generalize (s.resolveStatement statement).1 = x at *
  rcases x with (log | _) | _
  · exact ⟨log, rfl⟩
  · cases h
  · cases h

end Session

namespace Graph

theorem nodup_frontier (g : Graph) : g.frontier.Nodup := by
  have hdistinct : ∀ {α : Type} (xs : List α), xs.zipIdx.Pairwise fun a b => a.2 ≠ b.2 := by
    intro α xs
    rw [← List.pairwise_map (f := Prod.snd), List.zipIdx_map_snd]
    exact List.nodup_range'
  unfold frontier
  rw [List.nodup_flatMap]
  constructor
  · intro n _
    refine List.pairwise_map.mpr (((hdistinct n.1.outputs).filter _).imp ?_)
    intro a b hne heq
    exact hne (congrArg Socket.index heq)
  · refine (hdistinct g.nodes).imp ?_
    intro a b hne s ha hb
    obtain ⟨_, -, rfl⟩ := List.mem_map.mp ha
    obtain ⟨_, -, heq⟩ := List.mem_map.mp hb
    exact hne (congrArg Socket.node heq).symm

theorem EndsIn.frontier_eq {output : Socket} (h : g.EndsIn output) : g.frontier = [output] := by
  refine List.perm_singleton.mp ?_
  refine (List.perm_ext_iff_of_nodup g.nodup_frontier (List.nodup_singleton output)).mpr ?_
  intro s
  rw [h.frontier, List.mem_singleton]

theorem outputs_eq_nil_iff {n : Nat} (h : g.nodes[n]? = some node) :
    node.outputs = [] ↔ g.outputAt ⟨n, 0⟩ = none := by
  simp [outputAt, h]

end Graph

theorem ExecutionPlan.Sound.outputs_eq_nil_iff (h : p.Sound) {n : Nat} (hn : p.graph.nodes[n]? = some node) :
    node.outputs = [] ↔ n = p.terminal := by
  rw [Graph.outputs_eq_nil_iff hn]
  constructor
  · intro hnone
    have hlt : n < p.graph.size := (List.getElem?_eq_some_iff.mp hn).1
    rw [h.last] at hlt
    by_contra hne
    exact h.flowing n (by omega) hnone
  · rintro rfl
    exact h.ending 0

/-- A plan is a connected graph without open outputs, its terminal is the last node and the only one
without outputs, and the graphs inside are connected too, each open at the one output that is read. -/
theorem Session.plan_connected {s s' : Session} {statement : Statement (Expr Q)} {p : ExecutionPlan}
    (h : s.resolveStatement statement = (.ok (.plan p), s')) :
    p.graph.Connected ∧ p.graph.frontier = [] ∧ p.graph.size = p.terminal + 1 ∧
      (∀ n node, p.graph.nodes[n]? = some node → (node.outputs = [] ↔ n = p.terminal)) ∧
      ∀ q ∈ p.graph.subqueries, q.1.Connected ∧ q.1.frontier = [q.2] := by
  have hsound := plan_sound h
  refine ⟨hsound.connected, ?_, hsound.last, fun n node hn => hsound.outputs_eq_nil_iff hn, fun q hq => ?_⟩
  · exact List.eq_nil_iff_forall_not_mem.mpr hsound.closed
  · have hends := hsound.subqueries q hq
    exact ⟨hends.sound.connected, hends.frontier_eq⟩

namespace Sample

/-- A schema with a table `a` of two columns and an aggregate function. -/
def schema (x y : SqlType) (f : AggregateDecl) : Schema where
  name := "s"
  stored := 2
  tableMap := [("a", {
    oid := ⟨0, 1⟩, name := "a", schema := "s", columns := [{ name := "x", type := x }, { name := "y", type := y }] })]
  aggregateMap := [(f.name, [{ f with oid := ⟨0, 2⟩ }])]

def tables : Session where
  environment.catalog := { name := "db", schemas := [schema .int4 .int8
    { id := 1, name := "count", parameters := [], result := .int8, asterisk := true }] }

def column (path : List String) : Expr Unit := .reference ⟨path.map .quoted⟩

def count : Expr Unit := .call ⟨[.quoted "count"]⟩ none none

def relation (name : String) (label : Option String := none) : TableRef (Expr Unit) :=
  .table ⟨[.quoted name]⟩ (label.map fun l => { name := .quoted l })

/-- `WITH w AS (SELECT y, x FROM a)
SELECT v.x, count(*) FROM w JOIN w AS v ON w.x = v.y GROUP BY v.x ORDER BY count(*)` -/
def countMatches : Statement (Expr Unit) :=
  let named : Query (Expr Unit) :=
    .select [relation "a"] { items := [.expr (column ["y"]) none, .expr (column ["x"]) none] }
  let matching := .comparison .equal (column ["w", "x"]) (column ["v", "y"])
  .select (.withClause false [{ name := .quoted "w", query := named }]
    (.select [.join .inner (relation "w") (relation "w" "v") (some (.predicate matching))]
      { items := [.expr (column ["v", "x"]) none, .expr count none]
        groupBy := [column ["v", "x"]]
        orderBy := [⟨count, none⟩] }))

end Sample

/-- Both references to the named query run a graph of their own. -/
theorem Session.plan_connected_countMatches : ∃ p s',
    Sample.tables.resolveStatement Sample.countMatches = (.ok (.plan p), s') ∧
      p.graph.subqueries.length = 2 ∧ p.graph.Connected ∧ p.graph.frontier = [] ∧
      ∀ q ∈ p.graph.subqueries, q.1.Connected ∧ q.1.frontier = [q.2] := by
  have hplan : Sample.tables.planMeets Sample.countMatches (·.graph.subqueries.length == 2) = true := by
    decide +kernel
  obtain ⟨p, s', h, hlength⟩ := exists_plan _ hplan
  obtain ⟨hconnected, hfrontier, -, -, hinside⟩ := plan_connected h
  exact ⟨p, s', h, beq_iff_eq.mp hlength, hconnected, hfrontier, hinside⟩

end SqlPlan
