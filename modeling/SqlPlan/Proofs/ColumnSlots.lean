import SqlPlan.Proofs.BlockShape
import SqlPlan.Proofs.StoredAggregates

namespace SqlPlan

variable {Q : Type} {env : Environment} {outer : Scopes} {d d' d₁ d₂ : Draft} {n m : Nat} {fed : Prop}
variable {name : Name} {correlation : Option Correlation} {p : Planned} {op : SetOperator}

/-- The variables that an operator holds for the columns that it reads, but for the arguments of aggregate calls. -/
def Operator.columnSlots : Operator → List Variable
  | .aggregate keys _ => keys
  | .union _ mappings => mappings.filterMap (·.left) ++ mappings.filterMap (·.right)
  | .intersection _ keys => keys.map (·.1) ++ keys.map (·.2)
  | .difference _ keys => keys.map (·.1) ++ keys.map (·.2)
  | .distinct keys => keys
  | .limit _ sortKeys => sortKeys.map (·.column)
  | .write _ _ keys columns => keys.map (·.1) ++ columns.map (·.1)
  | .emit columns => columns.map (·.1)
  | .subquery _ _ mappings => mappings.map (·.1)
  | .scan _ _ => []
  | .values _ _ => []
  | .filter _ => []
  | .project _ => []
  | .join _ _ => []
  | .apply _ _ _ _ => []

def Operator.argumentSlots : Operator → List Variable
  | .aggregate _ columns => columns.flatMap (·.arguments)
  | _ => []

/-- The operators of a graph and of the graphs inside of it. -/
def Graph.operatorsWithin (g : Graph) : List Operator := g.operators ++ g.subqueries.flatMap (·.1.operators)

mutual

def Query.blocks : Query (Expr Q) → List (SelectClauses (Expr Q))
  | .select tables clauses => clauses :: TableRef.listBlocks tables
  | .values _ => []
  | .setOperation _ _ _ left right => left.blocks ++ right.blocks
  | .withClause _ elements body => WithElement.listBlocks elements ++ body.blocks

def WithElement.listBlocks : List (WithElement (Query (Expr Q))) → List (SelectClauses (Expr Q))
  | [] => []
  | ⟨_, _, query⟩ :: rest => query.blocks ++ WithElement.listBlocks rest

def TableRef.blocks : TableRef (Expr Q) → List (SelectClauses (Expr Q))
  | .table _ _ => []
  | .derived query _ => query.blocks
  | .join _ left right _ => left.blocks ++ right.blocks
  | .apply _ operand _ _ _ => operand.blocks

def TableRef.listBlocks : List (TableRef (Expr Q)) → List (SelectClauses (Expr Q))
  | [] => []
  | table :: rest => table.blocks ++ TableRef.listBlocks rest

end

def Statement.blocks : Statement (Expr Q) → List (SelectClauses (Expr Q))
  | .select q => q.blocks
  | .insert i =>
    match i.source with
    | .query q => q.blocks
    | _ => []
  | _ => []

def Task.blocks : Task Q → List (SelectClauses (Expr Q))
  | .query q => q.blocks
  | .table t => t.blocks
  | .tables ts => TableRef.listBlocks ts
  | .within _ elements body => WithElement.listBlocks elements ++ body.blocks

theorem TableRef.listBlocks_append (tables : List (TableRef (Expr Q))) (next : TableRef (Expr Q)) :
    TableRef.listBlocks (tables ++ [next]) = TableRef.listBlocks tables ++ next.blocks := by
  induction tables with
  | nil => simp [TableRef.listBlocks]
  | cons table tables ih =>
    rw [List.cons_append, TableRef.listBlocks, ih, TableRef.listBlocks, List.append_assoc]

/-- A block that feeds a constant to a call does so where no column has the name of the constant. -/
theorem SelectClauses.feedsConstant_nil {c : SelectClauses (Expr Q)} {scopes : Scopes}
    (h : c.feedsConstant env scopes = true) : c.feedsConstant env [] = true := by
  have hname : ∀ name : Name, name.isExternal env scopes = true → name.isExternal env [] = true := by
    intro name hname
    unfold Name.isExternal at hname ⊢
    split at hname
    · split at hname
      · exact hname
      · cases hname
    · cases hname
  have hconstant : ∀ e : Expr Q, e.isConstant env scopes = true → e.isConstant env [] = true := by
    intro e he
    cases e with
    | reference name => exact hname name he
    | _ => exact he
  obtain ⟨e, he, hcall⟩ := List.any_eq_true.mp h
  refine List.any_eq_true.mpr ⟨e, he, Expr.someCall_mono (fun es hes => ?_) e hcall⟩
  obtain ⟨e, he, hes⟩ := List.any_eq_true.mp hes
  exact List.any_eq_true.mpr ⟨e, he, hconstant e hes⟩

/-- An operator that reads stream columns. If some aggregate call of the task is `fed` a constant, its operators
may have one as an argument. -/
structure Operator.ReadsColumns (fed : Prop) (operator : Operator) : Prop where
  columns : ∀ v ∈ operator.columnSlots, v.isStream = true
  arguments : ∀ v ∈ operator.argumentSlots, v.isConstant = true → fed

theorem Operator.ReadsColumns.of_nil {operator : Operator} (hcolumns : operator.columnSlots = [])
    (harguments : operator.argumentSlots = []) : operator.ReadsColumns fed := by
  constructor
  · simp [hcolumns]
  · simp [harguments]

def Graph.ReadsColumns (fed : Prop) (g : Graph) : Prop := ∀ operator ∈ g.operatorsWithin, operator.ReadsColumns fed

namespace Graph

theorem operatorsWithin_empty : Graph.empty.operatorsWithin = [] := rfl

theorem readsColumns_empty : Graph.empty.ReadsColumns fed := by
  simp [ReadsColumns, operatorsWithin_empty]

theorem mem_operatorsWithin {g : Graph} {operator : Operator} : operator ∈ g.operatorsWithin ↔
    operator ∈ g.operators ∨ ∃ q ∈ g.subqueries, operator ∈ q.1.operators := by
  simp [operatorsWithin]

theorem mem_operatorsWithin_subquery {g : Graph} {output : Socket} {columns : List (Variable × Variable)}
    {o : Operator} : o ∈ g.operatorsWithin ↔
      ∃ q ∈ (Operator.subquery g output columns).subqueries, o ∈ q.1.operators := by
  rw [mem_operatorsWithin, Operator.subqueries, List.exists_mem_cons_iff]

variable {g g' : Graph} {operator : Operator} {inputs : List Socket} {k : Nat}

theorem mem_operatorsWithin_insert {o : Operator} : o ∈ (g.insert operator inputs k).operatorsWithin ↔
    o ∈ g.operatorsWithin ∨ o = operator ∨ ∃ q ∈ operator.subqueries, o ∈ q.1.operators := by
  simp only [mem_operatorsWithin, operators_insert, subqueries_insert, List.mem_append, List.mem_singleton,
    or_and_right, exists_or]
  exact or_or_or_comm

namespace ReadsColumns

theorem insert (hg : g.ReadsColumns fed) (h : g' = g.insert operator inputs k) (hnew : operator.ReadsColumns fed)
    (hinside : ∀ q ∈ operator.subqueries, ∀ o ∈ q.1.operators, o.ReadsColumns fed) : g'.ReadsColumns fed := by
  intro o ho
  rw [h, mem_operatorsWithin_insert] at ho
  rcases ho with ho | rfl | ⟨q, hq, ho⟩
  · exact hg o ho
  · exact hnew
  · exact hinside q hq o ho

theorem insert_flat (hg : g.ReadsColumns fed) (h : g' = g.insert operator inputs k)
    (hnew : operator.ReadsColumns fed) (hflat : operator.subqueries = []) : g'.ReadsColumns fed :=
  hg.insert h hnew (by simp [hflat])

theorem addChain (hg : g.ReadsColumns fed) {input output : Socket} {ops : List Operator}
    (h : g.addChain input ops = (output, g')) (hops : ∀ o ∈ ops, o.ReadsColumns fed ∧ o.subqueries = []) :
    g'.ReadsColumns fed := by
  induction ops generalizing g input with
  | nil =>
    cases h
    exact hg
  | cons o ops ih =>
    obtain ⟨⟨hnew, hflat⟩, hops⟩ := List.forall_mem_cons.mp hops
    exact ih (hg.insert_flat rfl hnew hflat) h hops

end ReadsColumns

end Graph

namespace Source

theorem scan_readsColumns (hd : d.graph.ReadsColumns fed) (h : scan name correlation env d = (.ok p, d₁)) :
    d₁.graph.ReadsColumns fed := by
  simp only [scan, Step.bind_ok, Planning.lift_ok, Planning.add_ok, Step.pure_ok, Prod.exists] at h
  obtain ⟨schema, table, _, htable, columns, d₂, ⟨-, hg₂⟩, _, d₃, ⟨-, -, hg₃⟩, info, _, hinfo, -, rfl⟩ := h
  obtain ⟨rfl, -⟩ := (Name.resolveTable_reads name).ok_iff htable
  obtain ⟨-, rfl⟩ := RelationInfo.correlate_ok hinfo
  rw [hg₂] at hg₃
  exact hd.insert_flat hg₃ (.of_nil rfl rfl) rfl

theorem instantiate_readsColumns {name : String} {query : NamedQuery} (hgraph : query.graph.ReadsColumns fed)
    (hrelation : ∀ c ∈ query.relation.columns, c.carrier.isStream = true) (hd : d.graph.ReadsColumns fed)
    (h : instantiate name query correlation env d = (.ok p, d₁)) : d₁.graph.ReadsColumns fed := by
  simp only [instantiate, Step.bind_ok, Planning.lift_ok, Planning.add_ok, Step.pure_ok] at h
  obtain ⟨columns, d₂, ⟨hcolumns, hg₂⟩, _, d₃, ⟨-, -, hg₃⟩, info, _, hinfo, -, rfl⟩ := h
  obtain ⟨-, rfl⟩ := RelationInfo.correlate_ok hinfo
  rw [hg₂] at hg₃
  refine hd.insert hg₃ ⟨fun v hv => ?_, by simp [Operator.argumentSlots]⟩ fun q hq o ho => ?_
  · simp only [Operator.columnSlots, List.map_map, List.mem_map, Function.comp_apply] at hv
    obtain ⟨c, hc, rfl⟩ := hv
    obtain ⟨column, hcolumn, _, _, hcopy⟩ :=
      exists_of_forall₂ (collect_forall₂ (collect_of_each hcolumns)) c hc
    rw [(copyColumn_ok hcopy).2.2.1]
    exact hrelation column hcolumn
  · exact hgraph o (Graph.mem_operatorsWithin_subquery.mpr ⟨q, hq, ho⟩)

end Source

/-- In all named queries of the scopes operators read stream columns. -/
def Scopes.ReadsColumns (fed : Prop) (scopes : Scopes) : Prop :=
  ∀ scope ∈ scopes, ∀ p ∈ scope.named, p.2.graph.ReadsColumns fed

theorem NamedQuery.Sound.streams {q : NamedQuery} (h : q.Sound) :
    ∀ c ∈ q.relation.columns, c.carrier.isStream = true := by
  intro c hc
  obtain ⟨Γ, -, hcarries⟩ := h.carries
  exact (hcarries.typed _ (List.mem_map_of_mem hc)).1

theorem Source.named_readsColumns (houter : outer.Sound) (hnamed : outer.ReadsColumns fed)
    (hd : d.graph.ReadsColumns fed) (h : named outer name correlation env d = (.ok p, d₁)) :
    d₁.graph.ReadsColumns fed := by
  rcases named_cases h with ⟨-, h⟩ | ⟨_, _, -, hq, h⟩
  · exact scan_readsColumns hd h
  · obtain ⟨scope, hscope, hmem⟩ := Scopes.mem_of_named? hq
    exact instantiate_readsColumns (hnamed scope hscope _ hmem) (houter.named hq).streams hd h

theorem SetOperation.operator_readsColumns {q : SetQuantifier} {pairs : List (ColumnInfo × ColumnInfo)}
    {types : List SqlType} {o : Operator} {columns : List ColumnInfo}
    (hpairs : ∀ p ∈ pairs, p.1.carrier.isStream = true ∧ p.2.carrier.isStream = true)
    (h : operator op q pairs types env n = (.ok (o, columns), m)) : o.ReadsColumns fed ∧ o.subqueries = [] := by
  have hkeys : ∀ v ∈ (pairs.map fun p => (p.1.carrier, p.2.carrier)).map (·.1) ++
      (pairs.map fun p => (p.1.carrier, p.2.carrier)).map (·.2), v.isStream = true := by
    intro v hv
    simp only [List.map_map, List.mem_append, List.mem_map, Function.comp_apply] at hv
    rcases hv with ⟨p, hp, rfl⟩ | ⟨p, hp, rfl⟩
    · exact (hpairs p hp).1
    · exact (hpairs p hp).2
  cases op with
  | union =>
    simp only [operator, Step.bind_ok, Step.pure_ok, Prod.mk.injEq] at h
    obtain ⟨cs, _, hcs, ⟨rfl, -⟩, -⟩ := h
    have hmappings : ∀ mapping ∈ cs.map (·.1), ∀ v,
        mapping.left = some v ∨ mapping.right = some v → v.isStream = true := by
      intro mapping hmapping v hv
      obtain ⟨c, hc, rfl⟩ := List.mem_map.mp hmapping
      obtain ⟨pair, hpair, _, _, hcolumn⟩ := exists_of_forall₂ (collect_forall₂ (collect_of_each hcs)) c hc
      rw [(unionColumn_ok hcolumn).2.2.1] at hv
      have hstreams := hpairs _ (List.of_mem_zip hpair).1
      rcases hv with hv | hv
      · cases hv
        exact hstreams.1
      · cases hv
        exact hstreams.2
    refine ⟨⟨fun v hv => ?_, by simp [Operator.argumentSlots]⟩, rfl⟩
    rcases List.mem_append.mp hv with hv | hv
    · obtain ⟨mapping, hmapping, hv⟩ := List.mem_filterMap.mp hv
      exact hmappings mapping hmapping v (.inl hv)
    · obtain ⟨mapping, hmapping, hv⟩ := List.mem_filterMap.mp hv
      exact hmappings mapping hmapping v (.inr hv)
  | intersect | except =>
    simp only [operator, Step.pure_ok, Prod.mk.injEq] at h
    obtain ⟨⟨rfl, -⟩, -⟩ := h
    exact ⟨⟨hkeys, by simp [Operator.argumentSlots]⟩, rfl⟩

theorem Yields.streams (h : Yields d p.source d₁) : ∀ c ∈ p.relation.columns, c.carrier.isStream = true :=
  fun c hc => (h.within _ (mem_bindings (by simpa [Planned.source] using hc))).1

theorem SetOperation.plan_readsColumns {written : Option SetQuantifier} {left right : Planned}
    (hleft : ∀ c ∈ left.relation.columns, c.carrier.isStream = true)
    (hright : ∀ c ∈ right.relation.columns, c.carrier.isStream = true) (hd : d.graph.ReadsColumns fed)
    (h : plan op written left right env d = (.ok p, d₁)) : d₁.graph.ReadsColumns fed := by
  obtain ⟨pairs, types, o, columns, hlefts, hrights, -, hoperator, -, hg⟩ := plan_ok h
  have hstreams : ∀ pair ∈ pairs, pair.1.carrier.isStream = true ∧ pair.2.carrier.isStream = true := by
    intro pair hpair
    have hexported : pair.1 ∈ left.relation.exportedColumns := hlefts ▸ List.mem_map_of_mem hpair
    exact ⟨hleft _ (List.mem_filter.mp hexported).1, hright _ (hrights pair hpair)⟩
  obtain ⟨hnew, hflat⟩ := operator_readsColumns hstreams hoperator
  exact hd.insert_flat hg hnew hflat

/-- The operators of a block read stream columns, and a constant only if a call of the block is fed one. -/
theorem Block.plan_readsColumns {source : Source} (hsource : Yields d source d₁)
    (houter : ∀ col ∈ outer.visible, col.carrier.isStream = true) {c : SelectClauses (Expr Q)}
    (hfed : c.feedsConstant env [] = true → fed) (hd : d₁.graph.ReadsColumns fed)
    (h : Block.plan outer source c env d₁ = (.ok p, d₂)) : d₂.graph.ReadsColumns fed := by
  obtain ⟨o, hshape, hreads, hchain⟩ := plan_shape hsource h
  have hresult := (plan_yields hsource h).streams
  replace hreads := hreads houter
  refine hd.addChain hchain fun operator hoperator => ?_
  simp only [BlockOperators.operators, List.mem_append, Option.mem_toList, Option.map_eq_some_iff] at hoperator
  rcases hoperator with ⟨_, -, rfl⟩ | (⟨_, -, rfl⟩ | ⟨g, hg, rfl⟩) | ⟨_, -, rfl⟩ | ⟨_, -, rfl⟩ |
    ⟨keys, hkeys, rfl⟩ | ⟨l, hl, rfl⟩
  · exact ⟨.of_nil rfl rfl, rfl⟩
  · exact ⟨.of_nil rfl rfl, rfl⟩
  · refine ⟨⟨hreads.keys g hg, fun v hv hconstant => ?_⟩, rfl⟩
    obtain ⟨a, ha, hv⟩ := List.mem_flatMap.mp hv
    refine hfed (SelectClauses.feedsConstant_nil (hreads.arguments.symm.trans ?_))
    rw [hg]
    exact List.any_eq_true.mpr ⟨a, ha, List.any_eq_true.mpr ⟨v, hv, hconstant⟩⟩
  · exact ⟨.of_nil rfl rfl, rfl⟩
  · exact ⟨.of_nil rfl rfl, rfl⟩
  · rw [hshape.distinct] at hkeys
    obtain ⟨-, hkeys⟩ := Option.ite_none_right_eq_some.mp hkeys
    cases hkeys
    refine ⟨⟨fun v hv => ?_, by simp [Operator.argumentSlots]⟩, rfl⟩
    obtain ⟨col, hcol, rfl⟩ := List.mem_map.mp hv
    exact hresult col hcol
  · refine ⟨⟨fun v hv => ?_, by simp [Operator.argumentSlots]⟩, rfl⟩
    obtain ⟨key, hkey, rfl⟩ := List.mem_map.mp hv
    refine hreads.sortKeys key ?_
    rw [BlockOperators.sortKeys, hl]
    exact hkey

theorem Plans.readsColumns {task : Task Q} {s : Source} (h : Plans env outer task d s d')
    (houter : outer.Sound) (hscopes : outer.ReadsColumns fed)
    (hnamed : ∀ p ∈ task.named, p.2.Sound ∧ p.2.graph.ReadsColumns fed)
    (hfed : ∀ c ∈ task.blocks, c.feedsConstant env [] = true → fed) (hd : d.graph.ReadsColumns fed) :
    d'.graph.ReadsColumns fed := by
  have hnone : ∀ p ∈ ([] : List (String × NamedQuery)), p.2.Sound ∧ p.2.graph.ReadsColumns fed := by simp
  induction h with
  | select hs hp ih =>
    rw [Task.blocks, Query.blocks] at hfed
    obtain ⟨hblock, hfed⟩ := List.forall_mem_cons.mp hfed
    refine Block.plan_readsColumns hs.yields ?_ hblock (ih houter hscopes hnone hfed hd) hp
    simp [houter.visible_eq_nil]
  | values hp =>
    obtain ⟨_, _, _, _, -, -, -, hg⟩ := Values.plan_ok.mp hp
    exact hd.insert_flat hg (.of_nil rfl rfl) rfl
  | setOperation hl hr hp ihl ihr =>
    rw [Task.blocks, Query.blocks] at hfed
    obtain ⟨hfedl, hfedr⟩ := List.forall_mem_append.mp hfed
    exact SetOperation.plan_readsColumns hl.yields.streams hr.yields.streams
      (ihr houter hscopes hnone hfedr (ihl houter hscopes hnone hfedl hd)) hp
  | withClause _ ih => exact ih houter hscopes hnone hfed hd
  | body _ ih =>
    refine ih (houter.cons fun p hp => (hnamed p hp).1) ?_ hnone hfed hd
    exact List.forall_mem_cons.mpr ⟨fun p hp => (hnamed p hp).2, hscopes⟩
  | element _ hquery hg helement _ ih ih' =>
    rw [Task.blocks, WithElement.listBlocks, List.append_assoc] at hfed
    obtain ⟨hfedq, hfed⟩ := List.forall_mem_append.mp hfed
    have hsound := houter.cons fun p hp => (hnamed p hp).1
    have hgraph := ih hsound (List.forall_mem_cons.mpr ⟨fun p hp => (hnamed p hp).2, hscopes⟩) hnone hfedq
      Graph.readsColumns_empty
    have hdelivers := hquery.delivers hsound (by simp [Task.named])
    obtain ⟨hq, -⟩ := NamedQuery.ofPlanned_sound hdelivers helement
    obtain ⟨_, rfl, -, rfl⟩ := NamedQuery.ofPlanned_ok helement
    refine ih' houter hscopes ?_ hfed (hg ▸ hd)
    exact List.forall_mem_append.mpr ⟨hnamed, List.forall_mem_singleton.mpr ⟨hq, hgraph⟩⟩
  | table hp => exact Source.named_readsColumns houter hscopes hd hp
  | derived _ hs ih =>
    simp only [Source.derived, Step.bind_ok, Step.pure_ok] at hs
    obtain ⟨info, _, hinfo, -, rfl⟩ := hs
    obtain ⟨-, rfl⟩ := RelationInfo.correlate_ok hinfo
    exact ih houter hscopes hnone hfed hd
  | join _ _ hs ihl ihr =>
    rw [Task.blocks, TableRef.blocks] at hfed
    obtain ⟨hfedl, hfedr⟩ := List.forall_mem_append.mp hfed
    obtain ⟨_, _, -, -, hg⟩ := Join.plan_ok hs
    exact (ihr houter hscopes hnone hfedr (ihl houter hscopes hnone hfedl hd)).insert_flat hg (.of_nil rfl rfl) rfl
  | apply _ hs ih =>
    obtain ⟨_, -, -, -, _, _, _, _, hg⟩ := Apply.plan_applies hs
    exact (ih houter hscopes hnone hfed hd).insert_flat hg (.of_nil rfl rfl) rfl
  | noTable hs =>
    simp only [Source.singleRow, Step.bind_ok, Planning.add_ok, Step.pure_ok] at hs
    obtain ⟨_, _, ⟨-, -, hg⟩, -, rfl⟩ := hs
    exact hd.insert_flat hg (.of_nil rfl rfl) rfl
  | firstTable _ ih =>
    rw [Task.blocks, TableRef.listBlocks, TableRef.listBlocks, List.append_nil] at hfed
    exact ih houter hscopes hnone hfed hd
  | nextTable _ _ hs ihl ihr =>
    rw [Task.blocks, TableRef.listBlocks_append] at hfed
    obtain ⟨hfedl, hfedr⟩ := List.forall_mem_append.mp hfed
    simp only [Source.cross, Step.bind_ok, Planning.add_ok, Step.pure_ok] at hs
    obtain ⟨_, _, ⟨-, -, hg⟩, -, rfl⟩ := hs
    exact (ihr houter hscopes hnone hfedr (ihl houter hscopes hnone hfedl hd)).insert_flat hg (.of_nil rfl rfl) rfl

end SqlPlan
