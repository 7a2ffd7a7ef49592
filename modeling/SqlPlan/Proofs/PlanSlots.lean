import SqlPlan.Proofs.ColumnSlots
import SqlPlan.Proofs.DataFlow

namespace SqlPlan

variable {Q : Type} {env : Environment} {d d' : Draft} {n m : Nat} {fed : Prop}
variable {p : ExecutionPlan} {terminal : Nat} {output : Socket} {vs : List Variable} {Γ : ColumnTypes} {meet : Meet}

theorem Query.plan_readsColumns {q : Query (Expr Q)} {p : Planned}
    (hfed : ∀ c ∈ q.blocks, c.feedsConstant env [] = true → fed) (hd : d.graph.ReadsColumns fed)
    (h : q.plan [] env d = (.ok p, d')) : d'.graph.ReadsColumns fed := by
  have hsound : Scopes.Sound [] := fun scope hscope => absurd hscope List.not_mem_nil
  have hscopes : Scopes.ReadsColumns fed [] := fun scope hscope => absurd hscope List.not_mem_nil
  exact (Query.plans [] q h).readsColumns hsound hscopes (by simp [Task.named]) hfed hd

theorem Query.planStatement_readsColumns {q : Query (Expr Q)}
    (hfed : ∀ c ∈ q.blocks, c.feedsConstant env [] = true → fed) (hd : d.graph.ReadsColumns fed)
    (h : q.planStatement env d = (.ok terminal, d')) : d'.graph.ReadsColumns fed := by
  simp only [planStatement, Planned.addEmit, Step.bind_ok, Planning.addSink_ok] at h
  obtain ⟨p, d₁, hp, -, -, hg⟩ := h
  refine (Query.plan_readsColumns hfed hd hp).insert_flat hg ⟨fun v hv => ?_, by simp [Operator.argumentSlots]⟩ rfl
  simp only [Operator.columnSlots, List.map_map, List.mem_map, Function.comp_apply] at hv
  obtain ⟨c, hc, rfl⟩ := hv
  exact (Query.plans [] q hp).yields.streams c (List.mem_filter.mp hc).1

theorem Insert.rows_readsColumns {i : Insert (Expr Q)} {table : TableDecl} {targets : List Nat}
    (hfed : ∀ c ∈ (Statement.insert i).blocks, c.feedsConstant env [] = true → fed) (hd : d.graph.ReadsColumns fed)
    (h : i.rows table targets env d = (.ok (output, vs), d')) : d'.graph.ReadsColumns fed := by
  have hvalues : ∀ {targets : List Nat} {rows : List (List (Expr Q))},
      values table targets rows env d = (.ok (output, vs), d') → d'.graph.ReadsColumns fed := by
    intro targets rows h
    simp only [values, addValues, Step.bind_ok, Planning.lift_ok, Planning.add_ok, Step.pure_ok] at h
    obtain ⟨cells, d₂, ⟨-, hg₂⟩, columns, d₃, ⟨-, hg₃⟩, _, _, ⟨-, -, hg⟩, -, rfl⟩ := h
    rw [hg₃, hg₂] at hg
    exact hd.insert_flat hg (.of_nil rfl rfl) rfl
  rw [Statement.blocks] at hfed
  unfold rows at h
  rcases hsource : i.source with source | q | _
  all_goals rw [hsource] at h hfed
  · exact hvalues h
  · simp only [query, written, Step.bind_ok, Step.ite_ok, Step.fail_ok, Planning.lift_ok, Step.pure_ok, and_false,
      false_or] at h
    obtain ⟨p, d₂, hp, -, sources, d₃, ⟨-, hg₃⟩, o, _, ho, -, rfl⟩ := h
    have hquery := Query.plan_readsColumns hfed hd hp
    have hchain := Block.addIf_chain ho
    rw [hg₃] at hchain
    refine hquery.addChain hchain fun operator hoperator => ?_
    obtain ⟨_, -, rfl⟩ := Option.map_eq_some_iff.mp (Option.mem_toList.mp hoperator)
    exact ⟨.of_nil rfl rfl, rfl⟩
  · exact hvalues h

theorem Graph.ReadsColumns.write {kind : WriteKind} {destination : Relation}
    {keys columns : List (Variable × Variable)} {input : Socket} (hd : d.graph.ReadsColumns fed)
    (hkeys : ∀ v ∈ keys.map (·.1), v.isStream = true) (hcolumns : ∀ v ∈ columns.map (·.1), v.isStream = true)
    (h : Planning.addSink (.write kind destination keys columns) input env d = (.ok terminal, d')) :
    d'.graph.ReadsColumns fed := by
  obtain ⟨-, -, hg⟩ := Planning.addSink_ok.mp h
  exact hd.insert_flat hg ⟨List.forall_mem_append.mpr ⟨hkeys, hcolumns⟩, by simp [Operator.argumentSlots]⟩ rfl

theorem Insert.plan_readsColumns {i : Insert (Expr Q)}
    (hfed : ∀ c ∈ (Statement.insert i).blocks, c.feedsConstant env [] = true → fed) (hd : d.graph.ReadsColumns fed)
    (h : i.plan env d = (.ok terminal, d')) : d'.graph.ReadsColumns fed := by
  obtain ⟨schema, table, targets, output, vs, d₂, columns, d₃, hrows, hcolumns, hg, hsink⟩ := plan_ok h
  have hread := rows_readsColumns hfed hd hrows
  rw [← hg] at hread
  refine hread.write (by simp) (fun v hv => ?_) hsink
  rw [(writeColumns_ok hcolumns).2] at hv
  obtain ⟨pair, hpair, rfl⟩ := List.mem_map.mp hv
  obtain ⟨Γ, -, hvs⟩ := rows_supplies hrows
  exact (hvs _ (List.of_mem_zip hpair).1).1

theorem writtenRows_readsColumns {name : Name} {condition : Option (Expr Q)} {r : RelationInfo}
    (hd : d.graph.ReadsColumns fed) (h : writtenRows name condition env d = (.ok (output, r), d')) :
    d'.graph.ReadsColumns fed ∧ ∀ v ∈ r.carriers, v.isStream = true := by
  obtain ⟨p, d₂, hp, rfl, hrows⟩ := writtenRows_ok h
  have hscan := Source.scan_readsColumns hd hp
  refine ⟨?_, fun v hv => ?_⟩
  · rcases hrows with ⟨-, rfl⟩ | ⟨e, x, k, -, -, -, -, hg⟩
    · exact hscan
    · exact hscan.insert_flat hg (.of_nil rfl rfl) rfl
  · obtain ⟨c, hc, rfl⟩ := List.mem_map.mp hv
    exact (Source.scan_yields hp).streams c hc

theorem Update.assignment_stream {scopes : Scopes} {p : Assignment (Expr Q) × ColumnRef}
    {y : (Variable × Scalar) × (Variable × Variable)} (h : assignment scopes p env n = (.ok y, m)) :
    y.2.1.isStream = true := by
  obtain ⟨a, ref⟩ := p
  simp only [assignment, Step.bind_ok, Analysis.stream_ok, Step.pure_ok] at h
  obtain ⟨value, _, -, _, _, ⟨rfl, -⟩, _, _, -, rfl, -⟩ := h
  rfl

theorem Update.plan_readsColumns {u : Update (Expr Q)} (hd : d.graph.ReadsColumns fed)
    (h : u.plan env d = (.ok terminal, d')) : d'.graph.ReadsColumns fed := by
  obtain ⟨schema, table, positions, output, r, d₂, assigned, d₃, o, d₄, keys, d₅, -, hrows, hassigned, hg₃, ho, hkeys,
    hg₅, hsink⟩ := plan_ok h
  obtain ⟨-, -, hg₄⟩ := Planning.add_ok.mp ho
  obtain ⟨hread, hcarriers⟩ := writtenRows_readsColumns hd hrows
  rw [hg₃] at hg₄
  have hproject := hread.insert_flat hg₄ (.of_nil rfl rfl) rfl
  rw [← hg₅] at hproject
  refine hproject.write (fun v hv => hcarriers v ((writeKeys_ok hkeys).2 v hv)) (fun v hv => ?_) hsink
  rw [List.map_map] at hv
  obtain ⟨y, hy, rfl⟩ := List.mem_map.mp hv
  exact forall_of_collect (fun _ _ _ _ => assignment_stream) (collect_of_each hassigned) y hy

theorem Delete.plan_readsColumns {q : Delete (Expr Q)} (hd : d.graph.ReadsColumns fed)
    (h : q.plan env d = (.ok terminal, d')) : d'.graph.ReadsColumns fed := by
  obtain ⟨schema, table, output, r, d₂, keys, d₃, -, hrows, hkeys, hg, hsink⟩ := plan_ok h
  obtain ⟨hread, hcarriers⟩ := writtenRows_readsColumns hd hrows
  rw [← hg] at hread
  exact hread.write (fun v hv => hcarriers v ((writeKeys_ok hkeys).2 v hv)) (by simp) hsink

theorem Statement.resolve_readsColumns {statement : Statement (Expr Q)}
    (hfed : ∀ c ∈ statement.blocks, c.feedsConstant env [] = true → fed)
    (h : statement.resolve env n = (.ok (.plan p), m)) : p.graph.ReadsColumns fed := by
  obtain ⟨planning, d, hplanning, hd, hg⟩ := resolve_plan h
  have hempty : Graph.empty.ReadsColumns fed := Graph.readsColumns_empty
  rw [hg]
  cases statement <;> cases hplanning
  case select => exact Query.planStatement_readsColumns hfed hempty hd
  case insert => exact Insert.plan_readsColumns hfed hempty hd
  case update => exact Update.plan_readsColumns hempty hd
  case delete => exact Delete.plan_readsColumns hempty hd

/-- A variable that has a type outside of let expressions is a stream column or a constant. -/
theorem Variable.cases_of_typeIn {v : Variable} {t : SqlType} (h : v.typeIn Γ [] = some t) :
    v.isStream = true ∨ v.isConstant = true := by
  obtain ⟨id, kind⟩ := v
  cases kind with
  | column _ => cases h
  | stream _ => exact .inl rfl
  | temporary => cases h
  | host _ => exact .inr rfl
  | external _ => exact .inr rfl

theorem Variable.cases_of_listTypes {ts : List SqlType} (h : Scalar.listTypes Γ [] (vs.map .var) = some ts) :
    ∀ v ∈ vs, v.isStream = true ∨ v.isConstant = true := by
  induction vs generalizing ts with
  | nil => simp
  | cons v vs ih =>
    simp only [List.map_cons, Scalar.listTypes, Option.bind_eq_bind, Option.bind_eq_some_iff] at h
    obtain ⟨t, ht, ts, hts, -⟩ := h
    exact List.forall_mem_cons.mpr ⟨cases_of_typeIn ht, ih hts⟩

theorem Operator.argumentSlots_cases {operator : Operator} {Γs : List Columns} {Γ : Columns}
    (h : operator.columns meet Γs = some Γ) :
    ∀ v ∈ operator.argumentSlots, v.isStream = true ∨ v.isConstant = true := by
  cases operator with
  | aggregate keys columns =>
    rcases Γs with _ | ⟨Γ₁, _ | ⟨Γ₂, Γs⟩⟩
    · cases h
    · simp only [Operator.columns, Option.bind_eq_bind, Option.bind_eq_some_iff] at h
      obtain ⟨_, -, computed, hcomputed, -⟩ := h
      intro v hv
      obtain ⟨c, hc, hv⟩ := List.mem_flatMap.mp hv
      obtain ⟨_, hp⟩ := exists_of_mapM hcomputed hc
      obtain ⟨ts, hts, -⟩ := Option.map_eq_some_iff.mp hp
      exact Variable.cases_of_listTypes hts v hv
    · cases h
  | _ => simp [argumentSlots]

theorem Graph.argumentSlots_cases {g : Graph} (h : none ∉ g.columns meet) :
    ∀ operator ∈ g.operators, ∀ v ∈ operator.argumentSlots, v.isStream = true ∨ v.isConstant = true := by
  intro operator hoperator
  obtain ⟨node, hnode, rfl⟩ := List.mem_map.mp hoperator
  obtain ⟨Γ, hΓ⟩ := exists_columnsFrom h hnode
  obtain ⟨Γs, -, hcolumns⟩ := Option.bind_eq_some_iff.mp hΓ
  exact Operator.argumentSlots_cases hcolumns

theorem ExecutionPlan.Sound.argumentSlots_cases (h : p.Sound) :
    ∀ operator ∈ p.graph.operatorsWithin, ∀ v ∈ operator.argumentSlots, v.isStream = true ∨ v.isConstant = true := by
  intro operator hoperator
  rcases Graph.mem_operatorsWithin.mp hoperator with hoperator | ⟨q, hq, hoperator⟩
  · exact Graph.argumentSlots_cases h.typed operator hoperator
  · exact Graph.argumentSlots_cases (h.subqueries q hq).sound.typed operator hoperator

theorem BlockOperators.any_argumentSlots (o : BlockOperators) (test : Variable → Bool) :
    o.operators.any (fun operator => operator.argumentSlots.any test) =
      o.grouping.any fun g => g.2.any fun a => a.arguments.any test := by
  have hnone : ∀ {α : Type} (x : Option α) (f : α → Operator), (∀ a, (f a).argumentSlots = []) →
      ((x.map f).toList.any fun operator => operator.argumentSlots.any test) = false := by
    intro α x f hf
    cases x with
    | none => rfl
    | some a => simp [hf]
  have hgrouping : ((o.grouping.map fun g => Operator.aggregate g.1 g.2).toList.any fun operator =>
      operator.argumentSlots.any test) = o.grouping.any fun g => g.2.any fun a => a.arguments.any test := by
    cases o.grouping with
    | none => rfl
    | some g => simp [Operator.argumentSlots, List.any_flatMap]
  rw [operators]
  simp only [List.any_append, hgrouping, hnone _ Operator.filter fun _ => rfl,
    hnone _ Operator.project fun _ => rfl, hnone _ Operator.distinct fun _ => rfl,
    hnone _ (fun l : Option Nat × List SortKey => Operator.limit l.1 l.2) fun _ => rfl, Bool.false_or, Bool.or_false]

/-- What operators read. In every plan and in every graph inside of one, the variables that operators hold are
stream columns, but for the arguments of aggregate calls, which can also be constants. There is one of them only
if a call of the statement has a bare host parameter or the bare name of a variable of a schema for an argument.
A SELECT block has one exactly if such a name is that of no column in the scopes of the block. -/
theorem Session.plan_slots (s : Session) :
    (∀ (statement : Statement (Expr Q)) (p : ExecutionPlan) (s' : Session),
      s.resolveStatement statement = (.ok (.plan p), s') →
        ∀ operator ∈ p.graph.operatorsWithin, (∀ v ∈ operator.columnSlots, v.isStream = true) ∧
          ∀ v ∈ operator.argumentSlots, v.isStream = true ∨
            v.isConstant = true ∧ statement.blocks.any (·.feedsConstant s.environment []) = true) ∧
    ∀ (outer : Scopes) (tables : List (TableRef (Expr Q))) (c : SelectClauses (Expr Q)) (d d' : Draft)
      (q : Planned), (∀ col ∈ outer.visible, col.carrier.isStream = true) →
      (Query.select tables c).plan outer s.environment d = (.ok q, d') →
        ∃ source d₁ operators, planFrom outer tables s.environment d = (.ok source, d₁) ∧
          d₁.graph.addChain source.output operators = (q.output, d'.graph) ∧
          (operators.any fun operator => operator.argumentSlots.any Variable.isConstant) =
            c.feedsConstant s.environment ({ relations := source.relations } :: outer) := by
  constructor
  · intro statement p s' h operator hoperator
    obtain ⟨m, hm⟩ := resolveStatement_ok h
    have hreads := Statement.resolve_readsColumns (fun c hc hfed => List.any_eq_true.mpr ⟨c, hc, hfed⟩) hm operator
      hoperator
    refine ⟨hreads.columns, fun v hv => ?_⟩
    refine ((plan_sound h).argumentSlots_cases operator hoperator v hv).imp_right fun hconstant => ?_
    exact ⟨hconstant, hreads.arguments v hv hconstant⟩
  · intro outer tables c d d' q houter h
    simp only [Query.plan, Step.bind_ok] at h
    obtain ⟨source, d₁, hsource, h⟩ := h
    obtain ⟨o, -, hreads, hchain⟩ := Block.plan_shape (planFrom_plans outer tables hsource).yields h
    refine ⟨source, d₁, o.operators, hsource, hchain, ?_⟩
    exact (o.any_argumentSlots _).trans (hreads houter).arguments

namespace Sample

/-- Like `sums`, with a variable `tenant` in the schema. -/
def tenants : Session where
  environment.catalog := { name := "db", schemas := [{ sumSchema with
    stored := 3
    externalMap := [("tenant", { oid := ⟨0, 3⟩, name := "tenant", type := .int4 })] }] }

/-- `sum(tenant)` -/
def sumTenant : SelectClauses (Expr Unit) where
  items := [.expr (sum (column ["tenant"])) none]

end Sample

/-- The operators of a plan with two named queries hold stream columns only. In the block of `sum(tenant)`, for
which no column is called `tenant`, the argument is a constant. -/
theorem Session.plan_slots_countMatches :
    (∃ p s', Sample.tables.resolveStatement Sample.countMatches = (.ok (.plan p), s') ∧
      p.graph.operatorsWithin.length = 11 ∧
      ∀ operator ∈ p.graph.operatorsWithin, ∀ v ∈ operator.columnSlots ++ operator.argumentSlots,
        v.isStream = true) ∧
    ∃ (q : Planned) (d' d₁ : Draft) (source : Source) (operators : List Operator),
      (Query.select [Sample.relation "a"] Sample.sumTenant).plan [] Sample.tenants.environment ⟨0, .empty⟩ =
        (.ok q, d') ∧ d₁.graph.addChain source.output operators = (q.output, d'.graph) ∧
      (operators.any fun operator => operator.argumentSlots.any Variable.isConstant) = true := by
  constructor
  · have hplan : Sample.tables.planMeets Sample.countMatches (·.graph.operatorsWithin.length == 11) = true := by
      decide +kernel
    have hfed : Sample.countMatches.blocks.any (·.feedsConstant Sample.tables.environment []) = false := by
      decide +kernel
    obtain ⟨p, s', h, hlength⟩ := exists_plan _ hplan
    refine ⟨p, s', h, beq_iff_eq.mp hlength, fun operator hoperator v hv => ?_⟩
    obtain ⟨hcolumns, harguments⟩ := (plan_slots Sample.tables).1 Sample.countMatches p s' h operator hoperator
    rcases List.mem_append.mp hv with hv | hv
    · exact hcolumns v hv
    · exact (harguments v hv).resolve_right (by simp [hfed])
  · have hok : ((Query.select [Sample.relation "a"] Sample.sumTenant).plan [] Sample.tenants.environment
        ⟨0, .empty⟩).1.isOk = true := by
      decide +kernel
    have hfeeds : ((planFrom [] [Sample.relation "a"] Sample.tenants.environment ⟨0, .empty⟩).1.toOption.any
        fun source => Sample.sumTenant.feedsConstant Sample.tenants.environment
          [{ relations := source.relations }]) = true := by
      decide +kernel
    obtain ⟨q, d', h⟩ := Step.exists_ok hok
    obtain ⟨source, d₁, operators, hsource, hchain, hconstant⟩ :=
      (plan_slots Sample.tenants).2 [] _ _ _ _ _ (fun _ hcol => absurd hcol List.not_mem_nil) h
    rw [hsource] at hfeeds
    exact ⟨q, d', d₁, source, operators, h, hchain, hconstant.trans hfeeds⟩

/-- `SELECT sum(tenant) FROM a` is planned with an aggregate operator whose argument is no column. -/
theorem Session.plan_slots_sumTenant : ∃ p s',
    Sample.tenants.resolveStatement (.select (.select [Sample.relation "a"] Sample.sumTenant)) =
      (.ok (.plan p), s') ∧
      ∃ operator ∈ p.graph.operatorsWithin, ∃ v ∈ operator.argumentSlots, v.isStream = false := by
  have hplan : Sample.tenants.planMeets (.select (.select [Sample.relation "a"] Sample.sumTenant)) (fun p =>
      p.graph.operatorsWithin.any fun operator => operator.argumentSlots.any fun v => !v.isStream) = true := by
    decide +kernel
  obtain ⟨p, s', h, htest⟩ := exists_plan _ hplan
  obtain ⟨operator, hoperator, hslots⟩ := List.any_eq_true.mp htest
  obtain ⟨v, hv, hstream⟩ := List.any_eq_true.mp hslots
  exact ⟨p, s', h, operator, hoperator, v, hv, by simpa using hstream⟩

end SqlPlan
