import SqlPlan.Proofs.BlockTransfer
import SqlPlan.Proofs.StatementDelivery

namespace SqlPlan

variable {k : Nat} {Q σ : Type} {count : σ → Nat} {g : σ → σ} {env : Environment} {T : Transfer env.options}

namespace NamedQuery

theorem newKey_transfers {named named' : List (String × NamedQuery)} {name : Identifier}
    (h : (named'.lookup (env.options.key name)).isSome = (named.lookup (env.options.key name)).isSome) :
    Step.Transfers T count g (fun key => key) (newKey named name) (newKey named' (T.spell name)) := by
  refine .options ?_
  dsimp only
  rw [T.spelling.key_spell, T.spelling.span_spell, h]
  exact .ite (.fail _ _ _) (.pure rfl)

theorem ofPlanned_transfers (name : Identifier) (columns : List Identifier) (planned : Planned) (graph : Graph) :
    Planning.Transfers T (renumber T.number) (ofPlanned name columns planned graph)
      (ofPlanned (T.spell name) (columns.map T.spell) (T.inner.planned planned) (graph.renumber T.number)) :=
  .bind (RelationInfo.correlate_transfers planned.relation (some ⟨name, columns⟩)) fun _ => .pure rfl

end NamedQuery

theorem Transfer.respellElements_head (T : Transfer env.options) (elements : List (WithElement (Query (Expr Q)))) :
    (respellElements T.spell elements).head?.map (·.name.span) = elements.head?.map (·.name.span) := by
  cases elements with
  | nil => rfl
  | cons element rest => exact congrArg some (T.spelling.span_spell element.name)

theorem Scopes.Transfers.inner {outer outer' : Scopes} (h : Scopes.Transfers T outer outer') :
    Scopes.Transfers T.inner outer outer' :=
  h.imp fun _ _ hscope => ⟨hscope.relations, hscope.named⟩

mutual

theorem Query.plan_transfers : ∀ (query : Query (Expr Q)) {T : Transfer env.options} {outer outer' : Scopes},
    Scopes.Transfers T outer outer' → T.AllowsAll query.mentions →
      Planning.Transfers T T.planned (query.plan outer) ((query.respell T.spell).plan outer')
  | .select tables clauses, _, _, _, hscopes, h => by
    obtain ⟨htables, hclauses⟩ := List.forall_mem_append.mp h
    exact .bind (planFrom_transfers tables hscopes htables) fun source =>
      Block.plan_transfers hscopes source clauses hclauses
  | .values rows, _, _, _, hscopes, h => Values.plan_transfers hscopes rows h
  | .setOperation op quantifier corresponding left right, _, _, _, hscopes, h => by
    obtain ⟨hleft, hright⟩ := List.forall_mem_append.mp h
    rw [Query.respell, Query.plan, Query.plan, Option.isSome_map]
    refine .ite (.fail _ _ _) ?_
    refine .bind (left.plan_transfers hscopes hleft) fun l => .bind (right.plan_transfers hscopes hright) fun r => ?_
    exact SetOperation.plan_transfers op quantifier l r
  | .withClause recursive elements body, T, _, _, hscopes, h => by
    obtain ⟨helements, hbody⟩ := List.forall_mem_append.mp h
    rw [Query.respell, Query.plan, Query.plan, T.respellElements_head]
    refine .ite (.fail _ _ _) ?_
    refine .bind (planNamed_transfers elements hscopes helements []) fun named => ?_
    exact body.plan_transfers (.cons (.ofNamed named) hscopes) hbody

theorem planNamed_transfers : ∀ (elements : List (WithElement (Query (Expr Q)))) {T : Transfer env.options}
    {outer outer' : Scopes}, Scopes.Transfers T outer outer' → T.AllowsAll (WithElement.listMentions elements) →
      ∀ named : List (String × NamedQuery),
        Planning.Transfers T (NamedQuery.renumberAll T.number) (planNamed outer named elements)
          (planNamed outer' (NamedQuery.renumberAll T.number named) (respellElements T.spell elements))
  | [], _, _, _, _, _, _ => .pure rfl
  | ⟨name, columns, query⟩ :: rest, _, _, _, hscopes, h, named => by
    obtain ⟨hquery, hrest⟩ := List.forall_mem_append.mp h
    refine .bind (NamedQuery.newKey_transfers ?_) fun key => ?_
    · rw [NamedQuery.renumberAll, lookup_map, Option.isSome_map]
    refine .bind (Planning.separately_transfers
      (query.plan_transfers (.cons (.ofNamed named) hscopes.inner) hquery)) ?_
    rintro ⟨planned, graph⟩
    refine .bind (NamedQuery.ofPlanned_transfers name columns planned graph) fun element => ?_
    have hnamed := planNamed_transfers rest hscopes hrest (named ++ [(key, element)])
    rwa [NamedQuery.renumberAll, List.map_append] at hnamed

theorem TableRef.plan_transfers : ∀ (table : TableRef (Expr Q)) {T : Transfer env.options} {outer outer' : Scopes},
    Scopes.Transfers T outer outer' → T.AllowsAll table.mentions →
      Planning.Transfers T T.source (table.plan outer) ((table.respell T.spell).plan outer')
  | .table name correlation, _, _, _, hscopes, h =>
    .bind (Source.named_transfers hscopes name (h _ (List.mem_singleton.mpr rfl)) correlation) fun _ => .pure rfl
  | .derived query correlation, _, _, _, hscopes, h =>
    .bind (query.plan_transfers hscopes h) fun planned => Source.derived_transfers planned correlation
  | .join written left right condition, _, _, _, hscopes, h => by
    obtain ⟨hleft, h⟩ := List.forall_mem_append.mp h
    obtain ⟨hright, hcondition⟩ := List.forall_mem_append.mp h
    rw [TableRef.respell, TableRef.plan, TableRef.plan]
    match written.kind? with
    | none => exact .fail _ _ _
    | some (kind, swapped) =>
      refine .bind (left.plan_transfers hscopes hleft) fun l => .bind (right.plan_transfers hscopes hright) fun r => ?_
      exact Join.plan_transfers hscopes kind swapped l r condition hcondition
  | .apply kind operand function arguments correlation, _, _, _, hscopes, h => by
    obtain ⟨hoperand, h⟩ := List.forall_mem_append.mp h
    obtain ⟨hpath, harguments⟩ := List.forall_mem_cons.mp h
    exact .bind (operand.plan_transfers hscopes hoperand) fun source =>
      Apply.plan_transfers hscopes kind source function arguments correlation hpath harguments

theorem planFrom_transfers : ∀ (tables : List (TableRef (Expr Q))) {T : Transfer env.options}
    {outer outer' : Scopes}, Scopes.Transfers T outer outer' → T.AllowsAll (TableRef.listMentions tables) →
      Planning.Transfers T T.source (planFrom outer tables) (planFrom outer' (respellTables T.spell tables))
  | [], _, _, _, _, _ => Source.singleRow_transfers
  | first :: rest, _, _, _, hscopes, h => by
    obtain ⟨hfirst, hrest⟩ := List.forall_mem_append.mp h
    exact .bind (first.plan_transfers hscopes hfirst) fun source => planCross_transfers rest hscopes hrest source

theorem planCross_transfers : ∀ (tables : List (TableRef (Expr Q))) {T : Transfer env.options}
    {outer outer' : Scopes}, Scopes.Transfers T outer outer' → T.AllowsAll (TableRef.listMentions tables) →
      ∀ left : Source, Planning.Transfers T T.source (planCross outer left tables)
        (planCross outer' (T.source left) (respellTables T.spell tables))
  | [], _, _, _, _, _, _ => .pure rfl
  | next :: rest, _, _, _, hscopes, h, left => by
    obtain ⟨hnext, hrest⟩ := List.forall_mem_append.mp h
    exact .bind (next.plan_transfers hscopes hnext) fun right =>
      .bind (Source.cross_transfers left right) fun source => planCross_transfers rest hscopes hrest source

end

theorem Query.planAs_transfers (query : Query (Expr Q)) {outer outer' : Scopes}
    (hscopes : Scopes.Transfers T outer outer') (h : T.AllowsAll query.mentions) (correlation : Option Correlation) :
    Planning.Transfers T T.planned (query.planAs outer correlation)
      ((query.respell T.spell).planAs outer' (T.correlation? correlation)) :=
  .bind (query.plan_transfers hscopes h) fun planned =>
    .bind (RelationInfo.correlate_transfers planned.relation correlation) fun _ => .pure rfl

theorem Transfer.correlation?_id (h : T.spell = id) (correlation : Option Correlation) :
    T.correlation? correlation = correlation := by
  rw [correlation?, h]
  cases correlation with
  | none => rfl
  | some c => exact congrArg (fun columns => some (Correlation.mk c.name columns)) (List.map_id _)

theorem Transfer.allowsAll_refl (env : Environment) (mentions : List Mention) :
    ({ number := .refl Nat } : Transfer env.options).AllowsAll mentions :=
  allowsAll_of_visible rfl (fun _ => not_false) trivial _

theorem Planned.transfer_refl (p : Planned) : ({ number := .refl Nat } : Transfer env.options).planned p = p :=
  congrArg (Planned.mk p.output) p.relation.renumber_refl

theorem Query.plan_respell_id (query : Query (Expr Q)) (outer : Scopes) :
    (query.respell id).plan outer = query.plan outer := by
  funext env d
  exact (query.plan_transfers (outer.transfers_refl rfl) (Transfer.allowsAll_refl _ _)).eq_of_same
    Planned.transfer_refl Draft.renumber_refl d

theorem Query.planAs_respell_id (query : Query (Expr Q)) (outer : Scopes) (correlation : Option Correlation) :
    (query.respell id).planAs outer correlation = query.planAs outer correlation := by
  rw [planAs, planAs, plan_respell_id]

theorem planNamed_respell_id (elements : List (WithElement (Query (Expr Q)))) (outer : Scopes)
    (named : List (String × NamedQuery)) :
    planNamed outer named (respellElements id elements) = planNamed outer named elements := by
  funext env d
  have htransfers := planNamed_transfers elements (outer.transfers_refl rfl)
    (Transfer.allowsAll_refl env _) named
  rw [NamedQuery.renumberAll_refl] at htransfers
  exact htransfers.eq_of_same NamedQuery.renumberAll_refl Draft.renumber_refl d

section AsWritten

variable (hspell : T.spell = id) {outer outer' : Scopes} (hscopes : Scopes.Transfers T outer outer')
include hspell hscopes

theorem Query.planAs_transfers_id (query : Query (Expr Q)) (h : T.AllowsAll query.mentions)
    (correlation : Option Correlation) :
    Planning.Transfers T T.planned (query.planAs outer correlation) (query.planAs outer' correlation) := by
  have htransfers := query.planAs_transfers hscopes h correlation
  rwa [T.correlation?_id hspell, hspell, query.planAs_respell_id] at htransfers

theorem planNamed_transfers_id (elements : List (WithElement (Query (Expr Q))))
    (h : T.AllowsAll (WithElement.listMentions elements)) (named : List (String × NamedQuery)) :
    Planning.Transfers T (NamedQuery.renumberAll T.number) (planNamed outer named elements)
      (planNamed outer' (NamedQuery.renumberAll T.number named) elements) := by
  have htransfers := planNamed_transfers elements hscopes h named
  rwa [hspell, planNamed_respell_id] at htransfers

end AsWritten

/-- Planning into a graph is planning into an empty one, put after the nodes of the graph. -/
theorem Query.planAs_onto {base : Graph} (query : Query (Expr Q)) (outer : Scopes) (correlation : Option Correlation)
    (n : Nat) : query.planAs outer correlation env ⟨n, base⟩ =
      ((query.planAs outer correlation env ⟨n, .empty⟩).1.map (Planned.relocate base.size),
        (query.planAs outer correlation env ⟨n, .empty⟩).2.onto base) := by
  let T : Transfer env.options := { number := .refl Nat, base }
  have hplanned : T.planned = Planned.relocate base.size := by
    funext p
    exact congrArg (Planned.mk (p.output.relocate base.size)) p.relation.renumber_refl
  have hdraft : Draft.renumber T = Draft.onto base := by
    funext d
    rw [Draft.renumber, Graph.renumber_refl]
    rfl
  have hrun := (query.planAs_transfers_id (T := T) rfl (outer.transfers_refl rfl)
    (Transfer.allowsAll_of_visible rfl (fun _ => not_false) trivial _) correlation).run_eq
      (s := ⟨n, .empty⟩) rfl (fun _ => rfl) fun _ _ _ => rfl
  rwa [hplanned, hdraft, Draft.onto, Graph.onto_empty] at hrun

namespace TableDecl

variable (table : TableDecl)

theorem resolveColumn_transfers (identifier : Identifier) :
    Step.Transfers T count g (fun found => found) (table.resolveColumn identifier)
      (table.resolveColumn (T.spell identifier)) := by
  refine .options ?_
  dsimp only
  rw [T.spelling.key_spell, T.spelling.span_spell]
  cases table.column? (env.options.key identifier) with
  | none => exact .fail _ _ _
  | some found => exact .ite (.pure rfl) (.fail _ _ _)

theorem resolveColumns_transfers (seen : List Nat) (columns : List Identifier) :
    Step.Transfers T count g (fun positions => positions) (table.resolveColumns seen columns)
      (table.resolveColumns seen (columns.map T.spell)) := by
  induction columns generalizing seen with
  | nil => exact .pure rfl
  | cons identifier rest ih =>
    rw [List.map_cons, resolveColumns, resolveColumns, T.spelling.span_spell]
    refine .bind (table.resolveColumn_transfers identifier) fun found => .ite (.fail _ _ _) ?_
    exact .bind (ih _) fun _ => .pure rfl

end TableDecl

namespace ColumnDecl

variable (c : ColumnDecl)

theorem assign_transfers (value : Scalar) (type : SqlType) (location : Option Span) :
    Step.Transfers T count g (Scalar.renumber T.number) (c.assign value type location)
      (c.assign (value.renumber T.number) type location) :=
  .ite (.fail _ _ _) (.ite (.pure rfl) (.pure rfl))

theorem resolveCell_transfers {scopes scopes' : Scopes} (hscopes : Scopes.Transfers T scopes scopes') (e : Expr Q)
    (h : T.AllowsAll e.mentions) :
    Analysis.Transfers T (Scalar.renumber T.number) (c.resolveCell scopes e)
      (c.resolveCell scopes' (e.respell T.spell)) := by
  unfold resolveCell
  rw [Expr.span?_respell]
  exact .bind (e.transfers hscopes h _) fun x => .ite (.fail _ _ _) (c.assign_transfers x.expr x.type _)

end ColumnDecl

theorem writeColumns_transfers (pairs : List (Variable × ColumnRef)) :
    Analysis.Transfers T (List.map (Variable.renumberPair T.number)) (writeColumns pairs)
      (writeColumns (pairs.map fun p => (p.1.renumber T.number, p.2))) := by
  unfold writeColumns
  refine .each pairs fun p _ => ?_
  exact .bind (Analysis.mint_transfers _) fun _ => .pure rfl

def Transfer.rows {o : Options} (T : Transfer o) (p : Socket × List Variable) : Socket × List Variable :=
  (T.socket p.1, p.2.map (Variable.renumber T.number))

namespace Insert

theorem cell_transfers (targets : List Nat) (row : List (Expr Q)) (ref : ColumnRef)
    (h : T.AllowsAll (row.flatMap Expr.mentions)) :
    Analysis.Transfers T (Scalar.renumber T.number) (cell [] targets row ref)
      (cell [] targets (row.map (Expr.respell T.spell)) ref) := by
  have hslot : ((targets.idxOf? ref.position).bind fun slot => (row.map (Expr.respell T.spell))[slot]?) =
      ((targets.idxOf? ref.position).bind fun slot => row[slot]?).map (Expr.respell T.spell) := by
    simp only [List.getElem?_map, Option.map_bind, Function.comp_def]
  unfold cell
  rw [hslot]
  cases he : (targets.idxOf? ref.position).bind fun slot => row[slot]? with
  | some e =>
    obtain ⟨slot, -, hslot⟩ := Option.bind_eq_some_iff.mp he
    refine ref.column.resolveCell_transfers .nil e fun x hx => ?_
    exact h x (List.mem_flatMap.mpr ⟨e, List.mem_of_getElem? hslot, hx⟩)
  | none => exact .pure rfl

theorem row_transfers (table : TableDecl) (targets : List Nat) (numbered : List (Expr Q) × Nat)
    (h : T.AllowsAll (numbered.1.flatMap Expr.mentions)) :
    Analysis.Transfers T (List.map (Scalar.renumber T.number)) (row [] table targets numbered)
      (row [] table targets (Prod.map (List.map (Expr.respell T.spell)) id numbered)) := by
  unfold row
  dsimp only [Prod.map]
  rw [List.length_map, Values.head_span?_respell]
  exact .ite (.fail _ _ _) (.each_same _ fun ref _ => cell_transfers targets numbered.1 ref h)

theorem values_transfers (table : TableDecl) (targets : List Nat) (rows : List (List (Expr Q)))
    (h : T.AllowsAll (rows.flatten.flatMap Expr.mentions)) :
    Planning.Transfers T T.rows (values table targets rows)
      (values table targets (rows.map (List.map (Expr.respell T.spell)))) := by
  have hrow : ∀ numbered ∈ rows.zipIdx, T.AllowsAll (numbered.1.flatMap Expr.mentions) := by
    intro numbered hmem x hx
    obtain ⟨e, he, hx⟩ := List.mem_flatMap.mp hx
    have hrow : numbered.1 ∈ rows := List.fst_mem_of_mem_zipIdx hmem
    exact h x (List.mem_flatMap.mpr ⟨e, List.mem_flatten.mpr ⟨_, hrow, he⟩, hx⟩)
  unfold values
  rw [List.zipIdx_map]
  refine .bind (Planning.lift_transfers (.each rows.zipIdx fun numbered hmem =>
    row_transfers table targets numbered (hrow numbered hmem))) fun cells => ?_
  refine .bind (Planning.lift_transfers (.each_same _ fun _ _ => Analysis.mint_transfers _)) fun columns => ?_
  exact .bind (Planning.add_transfers (.values columns cells) []) fun _ => .pure rfl

theorem writtenColumn_transfers (targets : List Nat) (columns : List ColumnInfo) (ref : ColumnRef) :
    Analysis.Transfers T (fun p => (p.1.renumber T.number, p.2.map (Scalar.renumberDefinition T.number)))
      (writtenColumn targets columns ref)
      (writtenColumn targets (columns.map (ColumnInfo.renumber T.number)) ref) := by
  have hslot : ((targets.idxOf? ref.position).bind fun slot => (columns.map (ColumnInfo.renumber T.number))[slot]?) =
      ((targets.idxOf? ref.position).bind fun slot => columns[slot]?).map (ColumnInfo.renumber T.number) := by
    simp only [List.getElem?_map, Option.map_bind]
    rfl
  unfold writtenColumn
  rw [hslot]
  generalize ((targets.idxOf? ref.position).bind fun slot => columns[slot]?) = found
  cases found with
  | none =>
    simp only [Option.map_none, Step.pure_bind]
    exact .bind (Analysis.mint_transfers _) fun _ => .pure rfl
  | some c =>
    refine .bind (ref.column.assign_transfers (.var c.carrier) c.type none) fun value => ?_
    dsimp only
    rw [Scalar.asVariable?_renumber]
    cases value.asVariable? with
    | some v => exact .pure rfl
    | none => exact .bind (Analysis.mint_transfers _) fun _ => .pure rfl

theorem written_transfers (table : TableDecl) (targets : List Nat) (planned : Planned) :
    Planning.Transfers T T.rows (written table targets planned) (written table targets (T.planned planned)) := by
  unfold written
  dsimp only [Transfer.planned]
  rw [RelationInfo.exportedColumns_renumber, List.length_map]
  refine .ite (.fail _ _ _) ?_
  refine .bind (Planning.lift_transfers (.each_same _ fun ref _ => writtenColumn_transfers targets _ ref))
    fun sources => ?_
  have hproject : (sources.map fun p => (p.1.renumber T.number, p.2.map (Scalar.renumberDefinition T.number))).filterMap
      (·.2) = (sources.filterMap (·.2)).map (Scalar.renumberDefinition T.number) := by
    rw [List.filterMap_map, List.map_filterMap]
    rfl
  rw [hproject, List.isEmpty_map]
  refine .bind (Block.addIf_transfers _ (.project (sources.filterMap (·.2))) planned.output) fun output => .pure ?_
  simp only [Transfer.rows, List.map_map]
  rfl

theorem addWrite_transfers (schema : Schema) (table : TableDecl) (rows : Socket × List Variable) :
    Planning.Transfers T (· + T.base.size) (addWrite schema table rows) (addWrite schema table (T.rows rows)) := by
  unfold addWrite
  dsimp only [Transfer.rows]
  rw [List.zip_map_left]
  refine .bind (Planning.lift_transfers (writeColumns_transfers (rows.2.zip table.exportedRefs))) fun columns => ?_
  exact Planning.addSink_transfers (.write .insert (schema.writeTarget table) [] columns) rows.1

theorem targets_transfers (i : Insert (Expr Q)) (table : TableDecl) :
    Planning.Transfers T (fun targets => targets) (i.targets table) ((i.respell T.spell).targets table) := by
  simp only [targets, respell, List.isEmpty_map]
  exact .ite (.pure rfl) (table.resolveColumns_transfers [] i.columns)

theorem rows_transfers (i : Insert (Expr Q)) (h : T.AllowsAll i.source.mentions) (table : TableDecl)
    (targets : List Nat) :
    Planning.Transfers T T.rows (i.rows table targets) ((i.respell T.spell).rows table targets) := by
  simp only [rows, respell]
  cases hsource : i.source with
  | values rows =>
    rw [hsource] at h
    exact values_transfers table targets rows h
  | defaultValues => exact values_transfers (Q := Q) table [] [[]] (List.forall_mem_nil _)
  | query q =>
    rw [hsource] at h
    exact .bind (q.plan_transfers .nil h) fun planned => written_transfers table targets planned

theorem plan_transfers (i : Insert (Expr Q)) (h : T.AllowsAll i.source.mentions) :
    Planning.Transfers T (· + T.base.size) i.plan (i.respell T.spell).plan := by
  refine .bind (Name.resolveTable_transfers i.table) ?_
  rintro ⟨schema, table⟩
  exact .bind (i.targets_transfers table) fun targets => .bind (i.rows_transfers h table targets) fun rows =>
    addWrite_transfers schema table rows

end Insert

theorem writtenRows_transfers (name : Name) (condition : Option (Expr Q))
    (h : ∀ e ∈ condition, T.AllowsAll e.mentions) :
    Planning.Transfers T (fun p => (T.socket p.1, p.2.renumber T.number)) (writtenRows name condition)
      (writtenRows (name.respell T.spell) (condition.map (Expr.respell T.spell))) := by
  refine .bind (Source.scan_transfers name none) fun planned => .bind ?_ fun output => .pure rfl
  cases condition with
  | none => exact .pure rfl
  | some e =>
    have hscopes : Scopes.Transfers T [{ relations := [planned.relation] }] _ :=
      .cons (.ofRelations [planned.relation]) .nil
    unfold addCondition
    dsimp only [Option.map_some]
    rw [Expr.span?_respell]
    refine .bind (Planning.lift_transfers (e.transfers hscopes (h e rfl) none)) fun x => ?_
    refine .ite (.fail _ _ _) (.ite (.fail _ _ _) ?_)
    exact Planning.add_transfers (.filter x.expr) [planned.output]

theorem RelationInfo.scanned?_renumber (r : RelationInfo) (position : Nat) :
    (r.renumber T.number).scanned? position = (r.scanned? position).map (Variable.renumber T.number) := by
  simp only [scanned?, renumber, List.find?_map, Option.map_map]
  rfl

theorem writeKeys_transfers (schema : Schema) (table : TableDecl) (r : RelationInfo) :
    Analysis.Transfers T (List.map (Variable.renumberPair T.number)) (writeKeys schema table r)
      (writeKeys schema table (r.renumber T.number)) := by
  unfold writeKeys
  cases schema.primaryIndex? table with
  | none => exact .pure rfl
  | some index =>
    have hkeys : (index.keys.filterMap fun key => do
          let source ← (r.renumber T.number).scanned? key.position
          let ref ← ColumnRef.of? table key.position
          return (source, ref)) =
        (index.keys.filterMap fun key => do
          let source ← r.scanned? key.position
          let ref ← ColumnRef.of? table key.position
          return (source, ref)).map fun p => (p.1.renumber T.number, p.2) := by
      rw [List.map_filterMap]
      congr 1
      funext key
      rw [RelationInfo.scanned?_renumber]
      cases r.scanned? key.position with
      | none => rfl
      | some source => cases ColumnRef.of? table key.position <;> rfl
    dsimp only
    rw [hkeys]
    exact writeColumns_transfers _

namespace Update

theorem assignment_transfers {scopes scopes' : Scopes} (hscopes : Scopes.Transfers T scopes scopes')
    (pair : Assignment (Expr Q) × ColumnRef) (h : T.AllowsAll pair.1.value.mentions) :
    Analysis.Transfers T
      (fun p => (Scalar.renumberDefinition T.number p.1, Variable.renumberPair T.number p.2))
      (assignment scopes pair) (assignment scopes' (Prod.map (Assignment.respell T.spell) id pair)) :=
  .bind (pair.2.column.resolveCell_transfers hscopes pair.1.value h) fun _ =>
    .bind (Analysis.mint_transfers _) fun _ => .bind (Analysis.mint_transfers _) fun _ => .pure rfl

theorem plan_transfers (u : Update (Expr Q))
    (h : T.AllowsAll ((u.assignments.map (·.value) ++ u.condition.toList).flatMap Expr.mentions)) :
    Planning.Transfers T (· + T.base.size) u.plan (u.respell T.spell).plan := by
  have he : ∀ e ∈ u.assignments.map (·.value) ++ u.condition.toList, T.AllowsAll e.mentions :=
    fun e he x hx => h x (List.mem_flatMap.mpr ⟨e, he, hx⟩)
  obtain ⟨hvalues, hcondition⟩ := List.forall_mem_append.mp he
  have hcolumns : (u.respell T.spell).assignments.map (·.column) = (u.assignments.map (·.column)).map T.spell := by
    simp only [respell, List.map_map]
    rfl
  unfold plan
  rw [hcolumns]
  refine .bind (Name.resolveTable_transfers u.table) ?_
  rintro ⟨schema, table⟩
  refine .bind (table.resolveColumns_transfers [] _) fun positions => ?_
  refine .bind (writtenRows_transfers u.table u.condition fun e he => hcondition e (Option.mem_toList.mpr he)) ?_
  rintro ⟨output, relation⟩
  have hscopes : Scopes.Transfers T [{ relations := [relation] }] _ := .cons (.ofRelations [relation]) .nil
  dsimp only [respell, assigned, addWrite]
  rw [List.zip_map_left]
  refine .bind (Planning.lift_transfers (.each _ fun pair hpair => assignment_transfers hscopes pair ?_))
    fun assigned => ?_
  · exact hvalues _ (List.mem_map_of_mem (List.of_mem_zip hpair).1)
  rw [map_fst_map, map_snd_map]
  refine .bind (Planning.add_transfers (.project (assigned.map (·.1))) [output]) fun output => ?_
  refine .bind (Planning.lift_transfers (writeKeys_transfers schema table relation)) fun keys => ?_
  exact Planning.addSink_transfers (.write .update (schema.writeTarget table) keys (assigned.map (·.2))) output

end Update

theorem Delete.plan_transfers (d : Delete (Expr Q)) (h : T.AllowsAll (d.condition.toList.flatMap Expr.mentions)) :
    Planning.Transfers T (· + T.base.size) d.plan (d.respell T.spell).plan := by
  refine .bind (Name.resolveTable_transfers d.table) ?_
  rintro ⟨schema, table⟩
  refine .bind (writtenRows_transfers d.table d.condition fun e he x hx => ?_) ?_
  · exact h x (List.mem_flatMap.mpr ⟨e, Option.mem_toList.mpr he, hx⟩)
  rintro ⟨output, relation⟩
  refine .bind (Planning.lift_transfers (writeKeys_transfers schema table relation)) fun keys => ?_
  exact Planning.addSink_transfers (.write .delete (schema.writeTarget table) keys []) output

theorem Name.targetSchema_reads (name : Name) : Step.Reads (name.targetSchema : Step σ Schema) env := by
  refine .bind (Name.resolveSchema_reads _ _) fun schema => ?_
  cases schema with
  | some schema => exact .pure _
  | none =>
    refine .bind .environment fun env => ?_
    cases env.defaultSchema with
    | some schema => exact .pure _
    | none => exact .fail _ _ _

theorem Name.targetSchema_transfers (hpath : T.further = []) (name : Name) :
    Analysis.Transfers T (fun schema => schema) name.targetSchema (name.respell T.spell).targetSchema := by
  refine .reads_of_nil hpath name.targetSchema_reads fun n => ?_
  rw [targetSchema, qualifier_respell, span_respell]
  exact Step.bind_congr (resolveSchema_respell T.spelling _ _ n) _

namespace CreateTable

theorem columnDefault_transfers (column : String) (type : SqlType) (e : Expr Q) (h : T.AllowsAll e.mentions) :
    Analysis.Transfers T (fun v => v) (columnDefault column type e)
      (columnDefault column type (e.respell T.spell)) := by
  refine .bind (e.transfers .nil h _) fun x => ?_
  unfold defaultValue
  rw [Expr.span?_respell]
  simp only [Typed.renumber, Scalar.constant?_renumber]
  cases x.expr.constant? with
  | none => exact .fail _ _ _
  | some p => exact .ite (.fail _ _ _) (.pure rfl)

theorem column_transfers (taken : List ColumnDecl) (d : ColumnDefinition (Expr Q))
    (h : ∀ e, d.default = some e → T.AllowsAll e.mentions) :
    Analysis.Transfers T (fun c => c) (column taken d) (column taken (d.respell T.spell)) := by
  have hbare : Analysis.Transfers T (fun c => c) (bareColumn taken d) (bareColumn taken (d.respell T.spell)) := by
    refine .options ?_
    dsimp only [ColumnDefinition.respell]
    rw [T.spelling.key_spell, T.spelling.span_spell]
    exact .ite (.fail _ _ _) (.bind d.dataType.resolve_transfers fun type => .pure rfl)
  refine .bind hbare fun c => ?_
  dsimp only [ColumnDefinition.respell]
  cases hdefault : d.default with
  | none => exact .pure rfl
  | some e => exact .bind (columnDefault_transfers c.name c.type e (h e hdefault)) fun _ => .pure rfl

theorem resolveColumns_transfers (defined : List ColumnDecl) (columns : List (ColumnDefinition (Expr Q)))
    (h : T.AllowsAll ((columns.filterMap (·.default)).flatMap Expr.mentions)) :
    Analysis.Transfers T (fun c => c) (resolveColumns defined columns)
      (resolveColumns defined (columns.map (ColumnDefinition.respell T.spell))) := by
  have hdefault : ∀ d ∈ columns, ∀ e, d.default = some e → T.AllowsAll e.mentions := fun d hd e he x hx =>
    h x (List.mem_flatMap.mpr ⟨e, List.mem_filterMap.mpr ⟨d, hd, he⟩, hx⟩)
  clear h
  induction columns generalizing defined with
  | nil => exact .pure rfl
  | cons d columns ih =>
    obtain ⟨hd, hcolumns⟩ := List.forall_mem_cons.mp hdefault
    exact .bind (column_transfers defined d hd) fun c => ih (defined ++ [c]) hcolumns

theorem keyLists_respell (f : Identifier → Identifier) (c : CreateTable (Expr Q)) :
    (c.respell f).keyLists = c.keyLists.map (List.map f) := by
  simp only [keyLists, respell, List.filter_map, List.map_append, List.map_map]
  rfl

theorem resolve_transfers (c : CreateTable (Expr Q)) (hpath : T.further = [])
    (h : T.AllowsAll ((c.columns.filterMap (·.default)).flatMap Expr.mentions)) :
    Analysis.Transfers T (fun c => c) c.resolve (c.respell T.spell).resolve := by
  have hplace : Analysis.Transfers T (fun place => place) c.place (c.respell T.spell).place := by
    unfold place
    dsimp only [respell]
    rw [Name.span_respell]
    refine .bind (c.name.targetSchema_transfers hpath) fun schema => .bind c.name.objectKey_transfers fun name => ?_
    exact .ite (.ite (.pure rfl) (.fail _ _ _)) (.pure rfl)
  refine .bind hplace fun place => ?_
  rcases place with _ | ⟨schema, name⟩
  · exact .pure rfl
  refine .bind (resolveColumns_transfers [] c.columns h) fun columns => ?_
  unfold build
  rw [keyLists_respell, List.length_map]
  dsimp only [respell]
  rw [Name.span_respell]
  refine .ite (.fail _ _ _) ?_
  cases c.keyLists with
  | nil => exact .pure rfl
  | cons key _ => exact .bind (TableDecl.resolveColumns_transfers _ [] key) fun _ => .pure rfl

end CreateTable

theorem CreateIndex.resolve_transfers (c : CreateIndex) (hpath : T.further = []) :
    Analysis.Transfers T (fun c => c) c.resolve (c.respell T.spell).resolve := by
  have hcolumns : (c.respell T.spell).keys.map (·.column) = (c.keys.map (·.column)).map T.spell := by
    simp only [respell, List.map_map]
    rfl
  unfold resolve
  rw [hcolumns]
  dsimp only [respell]
  rw [Name.span_respell]
  refine .bind (c.name.targetSchema_transfers hpath) fun schema => .bind c.name.objectKey_transfers fun name => ?_
  refine .ite (.ite (.pure rfl) (.fail _ _ _)) (.bind c.table.resolveTable_transfers ?_)
  rintro ⟨schema, table⟩
  refine .bind (table.resolveColumns_transfers [] _) fun positions => ?_
  rw [List.zip_map_right, List.map_map]
  exact .pure rfl

namespace CatalogChange

variable (hpath : T.further = []) (name : Name) (ifExists : Bool)
include hpath

theorem ofDropTable_transfers : Analysis.Transfers T (fun c => c) (ofDropTable name ifExists)
    (ofDropTable (name.respell T.spell) ifExists) := by
  unfold ofDropTable
  rw [Name.span_respell]
  refine .bind (.reads_of_nil hpath name.findTable_reads (name.findTable_respell T.spelling)) fun found => ?_
  cases found with
  | some found => exact .pure rfl
  | none => exact .ite (.pure rfl) (.failText fun hw => by rw [hw.respell])

theorem ofDropIndex_transfers : Analysis.Transfers T (fun c => c) (ofDropIndex name ifExists)
    (ofDropIndex (name.respell T.spell) ifExists) := by
  have hfound : ∀ n : Nat, (name.respell T.spell).findIndex env n = name.findIndex env n := fun n =>
    Step.bind_congr (name.lookUp_respell T.spelling _ _ _ n) _
  unfold ofDropIndex
  rw [Name.span_respell]
  refine .bind (.reads_of_nil hpath (.bind (name.lookUp_reads _ _ _) fun _ => .pure _) hfound) fun found => ?_
  cases found with
  | some found => exact .pure rfl
  | none => exact .ite (.pure rfl) (.failText fun hw => by rw [hw.respell])

end CatalogChange

theorem Query.planStatement_transfers (q : Query (Expr Q)) (h : T.AllowsAll q.mentions) :
    Planning.Transfers T (· + T.base.size) q.planStatement (q.respell T.spell).planStatement := by
  refine .bind (q.plan_transfers .nil h) fun planned => ?_
  dsimp only [Planned.addEmit, Transfer.planned]
  have hcolumns : ((planned.relation.exportedColumns.map (ColumnInfo.renumber T.number)).map
      fun c => (c.carrier, c.name)) =
        (planned.relation.exportedColumns.map fun c => (c.carrier, c.name)).map
          fun p => (p.1.renumber T.number, p.2) := by
    rw [List.map_map, List.map_map]
    rfl
  rw [RelationInfo.exportedColumns_renumber, hcolumns]
  exact Planning.addSink_transfers (.emit _) planned.output

def ExecutionPlan.renumber (ν : Nat ↪ Nat) (p : ExecutionPlan) : ExecutionPlan :=
  { p with graph := p.graph.renumber ν }

def Resolution.renumber (ν : Nat ↪ Nat) : Resolution → Resolution
  | plan p => plan (p.renumber ν)
  | change c => change c

theorem Planning.complete_runs (kind : PlanKind) (m : Planning Nat) : Step.Runs m (fun n => ⟨n, .empty⟩)
    (fun _ d => d.minted) (fun terminal d => Resolution.plan ⟨kind, d.graph, terminal⟩) (complete kind m) := by
  intro env n
  unfold complete
  rcases m env ⟨n, .empty⟩ with ⟨_ | _, _⟩ <;> rfl

theorem Planning.complete_transfers (kind : PlanKind) {m m' : Planning Nat}
    (h : Transfers T.inner (· + T.inner.base.size) m m') :
    Analysis.Transfers T (Resolution.renumber T.number) (complete kind m) (complete kind m') :=
  .within .empty h (complete_runs kind m) (complete_runs kind m') (fun _ => rfl) (fun _ => rfl) (fun _ _ => rfl)
    (fun _ _ => rfl) fun a _ => congrArg (fun g => Resolution.plan ⟨kind, g, a⟩) (Graph.empty_onto _)

theorem Resolution.ofChange_transfers {m m' : Analysis CatalogChange} (h : Analysis.Transfers T (fun c => c) m m') :
    Analysis.Transfers T (renumber T.number) (ofChange m) (ofChange m') :=
  .bind h fun _ => .pure rfl

def Statement.changesCatalog : Statement (Expr Q) → Bool
  | .select _ | .insert _ | .update _ | .delete _ => false
  | .createTable _ | .dropTable _ _ | .createIndex _ | .dropIndex _ _ => true

/-- A second analysis of a statement ends like the first one. What a change of the catalog does depends on what
is not there yet, so a change is analysed along the same path. -/
theorem Statement.resolve_transfers (statement : Statement (Expr Q)) (h : T.AllowsAll statement.mentions)
    (hpath : statement.changesCatalog = true → T.further = []) :
    Analysis.Transfers T (Resolution.renumber T.number) statement.resolve (statement.respell T.spell).resolve := by
  cases statement with
  | select q => exact Planning.complete_transfers _ (q.planStatement_transfers h)
  | insert i => exact Planning.complete_transfers _ (i.plan_transfers (List.forall_mem_cons.mp h).2)
  | update u => exact Planning.complete_transfers _ (u.plan_transfers (List.forall_mem_cons.mp h).2)
  | delete d => exact Planning.complete_transfers _ (d.plan_transfers (List.forall_mem_cons.mp h).2)
  | createTable c => exact Resolution.ofChange_transfers (c.resolve_transfers (hpath rfl) h)
  | dropTable name ifExists =>
    exact Resolution.ofChange_transfers (CatalogChange.ofDropTable_transfers (hpath rfl) name ifExists)
  | createIndex c => exact Resolution.ofChange_transfers (c.resolve_transfers (hpath rfl))
  | dropIndex name ifExists =>
    exact Resolution.ofChange_transfers (CatalogChange.ofDropIndex_transfers (hpath rfl) name ifExists)

def Resolution.shift (k : Nat) (r : Resolution) : Resolution := r.renumber (raise k)

theorem Resolution.renumber_refl (r : Resolution) : r.renumber (.refl Nat) = r := by
  cases r with
  | plan p => exact congrArg (fun g => plan { p with graph := g }) p.graph.renumber_refl
  | change c => rfl

theorem Statement.resolve_respell_id (statement : Statement (Expr Q)) :
    (statement.respell id).resolve = statement.resolve := by
  funext env n
  exact (statement.resolve_transfers (Transfer.allowsAll_refl _ _) fun _ => rfl).eq_of_same Resolution.renumber_refl
    (fun _ => rfl) n

theorem Statement.resolve_shifts (statement : Statement (Expr Q)) (n : Nat) :
    statement.resolve env (n + k) =
      ((statement.resolve env n).1.map (Resolution.shift k), (statement.resolve env n).2 + k) := by
  let T : Transfer env.options := { number := raise k, offset := k }
  have hallows : T.AllowsAll statement.mentions := Transfer.allowsAll_of_visible rfl (fun _ => not_false) trivial _
  have htransfers := (statement.resolve_transfers hallows fun _ => rfl).run_eq rfl (fun _ => rfl) (s := n)
    fun _ _ _ => rfl
  rw [show (statement.respell T.spell).resolve = statement.resolve from statement.resolve_respell_id] at htransfers
  exact htransfers

end SqlPlan
