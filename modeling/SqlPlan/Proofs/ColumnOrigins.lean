import SqlPlan.Proofs.SingleAssignment
import SqlPlan.Proofs.WriteKeys

namespace SqlPlan

variable {ref : ColumnRef} {α : Type} {key : α → Variable} {xs : List α} {before : Variable → Option ColumnRef}
  {op : Operator} {relations : List RelationInfo} {p : Planned} {correlation : Option Correlation} {name : Name}
  {left right : Source} {kind : JoinKind}

open List (Forall₂)

/-- The table column that a variable comes from after an operator, given those from which variables come
before it. -/
def Operator.origin? (before : Variable → Option ColumnRef) (v : Variable) : Operator → Option ColumnRef
  | .scan relation columns =>
    match columns.find? (·.2 == v) with
    | some c => c.1.columnRef?.filter fun ref => relation.tableDecl.sameObject ref.table
    | none => before v
  | .project columns =>
    match columns.find? (·.1 == v) with
    | some c => c.2.asVariable?.bind before
    | none => before v
  | _ => before v

/-- The table column that a variable comes from in a series of operators. -/
def originIn (ops : List Operator) : Variable → Option ColumnRef :=
  ops.foldl (fun before op v => op.origin? before v) fun _ => none

/-- From the variable one gets, by projections that pass a column on, to where a scan of the table yields
the table column. -/
inductive TracesTo (ops : List Operator) (ref : ColumnRef) : Variable → Prop where
  | scan {relation columns source v} : .scan relation columns ∈ ops →
      relation.tableDecl.sameObject ref.table = true → (source, v) ∈ columns → source.columnRef? = some ref →
      TracesTo ops ref v
  | project {columns v w} : .project columns ∈ ops → (v, .var w) ∈ columns → TracesTo ops ref w →
      TracesTo ops ref v

theorem TracesTo.mono {ops ops' : List Operator} (hops : ops ⊆ ops') {v : Variable} (h : TracesTo ops ref v) :
    TracesTo ops' ref v := by
  induction h with
  | scan hop htable hmem hsource => exact .scan (hops hop) htable hmem hsource
  | project hop hmem _ ih => exact .project (hops hop) hmem ih

section Origins

variable {ops new : List Operator} {v : Variable}

theorem originIn_concat (op : Operator) : originIn (ops ++ [op]) v = op.origin? (originIn ops) v := by
  rw [originIn, List.foldl_append]
  rfl

theorem find?_of_not_mem (h : v ∉ xs.map key) : xs.find? (fun x => key x == v) = none := by
  rw [List.find?_eq_none]
  intro x hx heq
  exact h (List.mem_map.mpr ⟨x, hx, eq_of_beq heq⟩)

theorem Operator.origin?_of_not_mem (h : v ∉ op.introduced) : op.origin? before v = before v := by
  cases op with
  | scan relation columns | project columns => simp only [origin?, find?_of_not_mem h]
  | _ => rfl

theorem originIn_append (h : v ∉ new.flatMap Operator.introduced) : originIn (ops ++ new) v = originIn ops v := by
  induction new generalizing ops with
  | nil => rw [List.append_nil]
  | cons op new ih =>
    rw [List.flatMap_cons, List.mem_append, not_or] at h
    rw [List.append_cons, ih h.2, originIn_concat, Operator.origin?_of_not_mem h.1]

theorem Operator.tracesTo_of_origin? (hop : op ∈ ops) (hbefore : ∀ w ref, before w = some ref → TracesTo ops ref w)
    (h : op.origin? before v = some ref) : TracesTo ops ref v := by
  cases op with
  | scan relation columns =>
    cases hfind : columns.find? (·.2 == v) with
    | none =>
      simp only [origin?, hfind] at h
      exact hbefore v ref h
    | some c =>
      simp only [origin?, hfind, Option.filter_eq_some_iff] at h
      obtain ⟨hsource, htable⟩ := h
      have hv : c.2 = v := by simpa using List.find?_some hfind
      subst hv
      exact .scan hop htable (List.mem_of_find?_eq_some hfind) hsource
  | project columns =>
    cases hfind : columns.find? (·.1 == v) with
    | none =>
      simp only [origin?, hfind] at h
      exact hbefore v ref h
    | some c =>
      simp only [origin?, hfind] at h
      obtain ⟨w, hvalue, hw⟩ := Option.bind_eq_some_iff.mp h
      have hv : c.1 = v := by simpa using List.find?_some hfind
      have hmem := List.mem_of_find?_eq_some hfind
      subst hv
      refine .project (w := w) hop ?_ (hbefore w ref hw)
      rwa [← Scalar.eq_var_of_asVariable? hvalue]
  | _ => exact hbefore v ref h

theorem tracesTo_of_originIn (h : originIn ops v = some ref) : TracesTo ops ref v := by
  have hrun : ∀ (rest : List Operator) (before : Variable → Option ColumnRef), rest ⊆ ops →
      (∀ w ref, before w = some ref → TracesTo ops ref w) →
      ∀ w ref, rest.foldl (fun before op v => op.origin? before v) before w = some ref → TracesTo ops ref w := by
    intro rest
    induction rest with
    | nil => exact fun _ _ hbefore => hbefore
    | cons op rest ih =>
      intro before hrest hbefore
      obtain ⟨hop, hrest⟩ := List.cons_subset.mp hrest
      exact ih _ hrest fun w ref hw => Operator.tracesTo_of_origin? hop hbefore hw
  exact hrun ops _ (List.Subset.refl _) (fun _ _ hnone => by cases hnone) v ref h

theorem find?_of_fresh {n m : Nat} (h : Fresh n (xs.map key) m) {x : α} (hx : x ∈ xs) :
    xs.find? (fun y => key y == key x) = some x := by
  have hincreasing := List.pairwise_map.mp h.increasing
  clear h
  induction hincreasing with
  | nil => cases hx
  | @cons y ys hy _ ih =>
    cases hx with
    | head => exact List.find?_cons_of_pos (beq_self_eq_true (key x))
    | tail _ hx =>
      have hne : key y ≠ key x := by
        intro heq
        have hlt := hy x hx
        rw [heq] at hlt
        exact Nat.lt_irrefl _ hlt
      rw [List.find?_cons_of_neg (by simpa using hne)]
      exact ih hx

theorem Operator.origin?_scan {relation : Relation} {columns : List (Variable × Variable)} {n m : Nat}
    (h : Fresh n (columns.map (·.2)) m) {c : Variable × Variable} (hc : c ∈ columns)
    (hsource : c.1.columnRef? = some ref) (htable : relation.tableDecl.sameObject ref.table = true) :
    Operator.origin? before c.2 (.scan relation columns) = some ref := by
  simp only [origin?, find?_of_fresh h hc, hsource]
  exact Option.filter_eq_some_iff.mpr ⟨rfl, htable⟩

theorem Operator.origin?_project {columns : List (Variable × Scalar)} {n m : Nat}
    (h : Fresh n (columns.map (·.1)) m) {c : Variable × Scalar} (hc : c ∈ columns) :
    Operator.origin? before c.1 (.project columns) = c.2.asVariable?.bind before := by
  simp only [origin?, find?_of_fresh h hc]

end Origins

def Graph.origin? (g : Graph) : Variable → Option ColumnRef := originIn g.operators

theorem Graph.origin?_insert (g : Graph) (operator : Operator) (inputs : List Socket) (k : Nat) (v : Variable) :
    (g.insert operator inputs k).origin? v = operator.origin? g.origin? v := by
  rw [origin?, operators_insert, originIn_concat]
  rfl

/-- The operators introduce stream columns that are minted. -/
def Draft.Settled (d : Draft) : Prop :=
  ∀ v ∈ d.graph.operators.flatMap Operator.introduced, v.isStream = true ∧ v.id ≤ d.minted

variable {Q : Type} {env : Environment} {outer : Scopes} {d d₁ d₂ d₃ : Draft} {n m : Nat} {v : Variable}

theorem Draft.Settled.origin?_eq_none (hd : d.Settled) (hv : v.isStream = true → d.minted < v.id) :
    d.graph.origin? v = none := by
  have hnot : v ∉ d.graph.operators.flatMap Operator.introduced := by
    intro hmem
    obtain ⟨hs, hle⟩ := hd v hmem
    have hlt := hv hs
    omega
  have hempty : originIn ([] ++ d.graph.operators) v = originIn [] v := originIn_append hnot
  exact hempty

namespace Introduces

theorem settled (h : Introduces d d₁) (hd : d.Settled) : d₁.Settled := by
  obtain ⟨new, vs, hops, hperm, hfresh⟩ := h.fresh
  intro v hv
  rw [hops, List.flatMap_append] at hv
  rcases List.mem_append.mp hv with hold | hnew
  · obtain ⟨hs, hle⟩ := hd v hold
    exact ⟨hs, Nat.le_trans hle h.minted_le⟩
  · have hmem := hperm.mem_iff.mpr hnew
    exact ⟨hfresh.stream v hmem, hfresh.upTo v hmem⟩

theorem origin?_eq (h : Introduces d d₁) (hv : v.isStream = true → v.id ≤ d.minted) :
    d₁.graph.origin? v = d.graph.origin? v := by
  obtain ⟨new, vs, hops, hperm, hfresh⟩ := h.fresh
  have hnot : v ∉ new.flatMap Operator.introduced := by
    intro hmem
    have hmem := hperm.mem_iff.mpr hmem
    have hlt := hfresh.above v hmem
    have hle := hv (hfresh.stream v hmem)
    omega
  rw [Graph.origin?, hops, originIn_append hnot]
  rfl

end Introduces

def RelationInfo.lineage (r : RelationInfo) : List (Variable × Option ColumnRef) :=
  r.columns.map fun c => (c.carrier, c.source)

def lineage (relations : List RelationInfo) : List (Variable × Option ColumnRef) :=
  relations.flatMap RelationInfo.lineage

theorem lineage_singleton (r : RelationInfo) : lineage [r] = r.lineage := List.flatMap_singleton ..

theorem lineage_append (rs rs' : List RelationInfo) : lineage (rs ++ rs') = lineage rs ++ lineage rs' :=
  List.flatMap_append

theorem mem_lineage {p : Variable × Option ColumnRef} :
    p ∈ lineage relations ↔ ∃ c ∈ relations.flatMap (·.columns), (c.carrier, c.source) = p := by
  have hcolumns : lineage relations = (relations.flatMap (·.columns)).map fun c => (c.carrier, c.source) := by
    rw [List.map_flatMap]
    rfl
  rw [hcolumns, List.mem_map]

/-- The relations tell of each column where it comes from in the graph. -/
def Draft.Tracks (d : Draft) (relations : List RelationInfo) : Prop :=
  ∀ p ∈ lineage relations, p.2 = d.graph.origin? p.1

namespace Draft.Tracks

variable {s l r : Source}

theorem mono {lo : Nat} (h : d.Tracks relations) (hw : Columns.Within lo (bindings relations) d.minted)
    (hnew : Introduces d d₁) : d₁.Tracks relations := by
  intro p hp
  obtain ⟨c, hc, rfl⟩ := mem_lineage.mp hp
  rw [h _ hp, hnew.origin?_eq]
  exact fun _ => (hw _ (mem_bindings hc)).2.2

theorem append (hl : d₁.Tracks l.relations) (hyl : Yields d l d₁) (hr : d₂.Tracks r.relations)
    (hyr : Yields d₁ r d₂) (hnew : Introduces d₂ d₃)
    (hs : lineage s.relations = lineage l.relations ++ lineage r.relations) : d₃.Tracks s.relations := by
  intro p hp
  rw [hs] at hp
  rcases List.mem_append.mp hp with hp | hp
  · exact hl.mono hyl.within (hyr.introduces.trans hnew) p hp
  · exact hr.mono hyr.within hnew p hp

/-- New columns come from no table, unless they are those of a scan or a projection. -/
theorem insert {operator : Operator} {inputs : List Socket} (hd : d.Settled) (hs : Yields d s d₁)
    (hsources : ∀ c ∈ s.relations.flatMap (·.columns), c.source = none)
    (hg : d₁.graph = d.graph.insert operator inputs 1)
    (hop : ∀ before v, operator.origin? before v = before v) : d₁.Tracks s.relations := by
  intro p hp
  obtain ⟨c, hc, rfl⟩ := mem_lineage.mp hp
  rw [hsources c hc, hg, Graph.origin?_insert, hop, hd.origin?_eq_none]
  exact fun _ => (hs.within _ (mem_bindings hc)).2.1

end Draft.Tracks

theorem RelationInfo.lineage_correlate {σ : Type} {r r' : RelationInfo} {s s' : σ}
    (h : (r.correlate correlation : Step σ _) env s = (.ok r', s')) : r'.lineage = r.lineage :=
  (map_correlate (fun _ _ => rfl) h).1

namespace Source

theorem singleRow_tracks {s : Source} (h : singleRow env d = (.ok s, d₁)) : d₁.Tracks s.relations := by
  simp only [singleRow, Step.bind_ok, Step.pure_ok] at h
  obtain ⟨_, _, -, rfl, -⟩ := h
  simp [Draft.Tracks, lineage]

theorem sameObject_writeTarget (schema : Schema) (table : TableDecl) :
    (schema.writeTarget table).tableDecl.sameObject table = true := by
  unfold Schema.writeTarget
  cases hindex : schema.primaryIndex? table with
  | none => simp [Relation.tableDecl, TableDecl.sameObject]
  | some index =>
    have hfound := List.find?_some hindex
    exact (Bool.and_eq_true_iff.mp hfound).2

theorem table_of_mem_exportedRefs {table : TableDecl} (h : ref ∈ table.exportedRefs) : ref.table = table := by
  obtain ⟨c, -, rfl⟩ := List.mem_map.mp h
  rfl

theorem scan_tracks (h : scan name correlation env d = (.ok p, d₁)) : d₁.Tracks p.source.relations := by
  simp only [scan, Step.bind_ok, Planning.lift_ok, Planning.add_ok, Step.pure_ok, Prod.exists] at h
  obtain ⟨schema, table, _, -, columns, d₂, ⟨hcolumns, -⟩, _, d₃, ⟨-, -, hg⟩, info, _, hinfo, rfl, rfl⟩ := h
  obtain ⟨-, rfl⟩ := RelationInfo.correlate_ok hinfo
  obtain ⟨-, hfresh, -⟩ := each_minted (fun c => c.2.carrier) (fun _ _ _ _ => scanColumn_ok) hcolumns
  obtain ⟨-, hall⟩ := collect_map_ok (fun _ _ _ _ _ => scanColumn_scans) (collect_of_each hcolumns)
  have hscanned : ((columns.map (·.1)).map (·.2)) = columns.map fun c => c.2.carrier := by
    rw [List.map_map]
    refine List.map_congr_left fun c hc => ?_
    obtain ⟨_, -, -, hcarrier, -⟩ := exists_of_forall₂ hall c hc
    exact hcarrier
  rw [← hscanned] at hfresh
  intro p hp
  rw [Planned.source, lineage_singleton, RelationInfo.lineage_correlate hinfo, RelationInfo.lineage, List.map_map] at hp
  obtain ⟨c, hc, rfl⟩ := List.mem_map.mp hp
  obtain ⟨ref, href, hsource, hcarrier, hknown⟩ := exists_of_forall₂ hall c hc
  have htable : (schema.writeTarget table).tableDecl.sameObject ref.table = true := by
    rw [table_of_mem_exportedRefs href]
    exact sameObject_writeTarget schema table
  have horigin : Operator.origin? d₂.graph.origin? c.1.2 (.scan (schema.writeTarget table) (columns.map (·.1))) =
      some ref := Operator.origin?_scan hfresh (List.mem_map_of_mem hc) hsource htable
  rw [hcarrier] at horigin
  rw [hg, Graph.origin?_insert]
  exact hknown.trans horigin.symm

theorem copyColumn_source {column : ColumnInfo} {c : (Variable × Variable) × ColumnInfo}
    (h : copyColumn column env n = (.ok c, m)) : c.2.source = none := by
  simp only [copyColumn, Step.bind_ok, Step.pure_ok] at h
  obtain ⟨_, _, -, rfl, -⟩ := h
  rfl

theorem instantiate_tracks (hd : d.Settled) {name : String} {query : NamedQuery}
    (h : instantiate name query correlation env d = (.ok p, d₁)) : d₁.Tracks p.source.relations := by
  have hyields := instantiate_yields h
  simp only [instantiate, Step.bind_ok, Planning.lift_ok, Planning.add_ok, Step.pure_ok] at h
  obtain ⟨columns, d₂, ⟨hcolumns, hg₂⟩, _, d₃, ⟨-, -, hg₃⟩, info, _, hinfo, rfl, rfl⟩ := h
  obtain ⟨-, rfl⟩ := RelationInfo.correlate_ok hinfo
  have hsources : ∀ c ∈ info.columns, c.source = none := by
    refine RelationInfo.source_correlate hinfo fun c hc => ?_
    obtain ⟨column, hmem, rfl⟩ := List.mem_map.mp hc
    obtain ⟨_, -, _, _, hcolumn⟩ := exists_of_forall₂ (collect_forall₂ (collect_of_each hcolumns)) column hmem
    exact copyColumn_source hcolumn
  rw [hg₂] at hg₃
  refine .insert hd hyields ?_ hg₃ fun _ _ => rfl
  simpa [Planned.source] using hsources

theorem named_tracks (hd : d.Settled) (h : named outer name correlation env d = (.ok p, d₁)) :
    d₁.Tracks p.source.relations := by
  rcases named_cases h with ⟨-, h⟩ | ⟨_, _, -, -, h⟩
  · exact scan_tracks h
  · exact instantiate_tracks hd h

theorem derived_tracks {query : Planned} (hquery : d.Tracks query.source.relations) {s : Source}
    (h : derived query correlation env d = (.ok s, d₁)) : d₁.Tracks s.relations := by
  simp only [derived, Step.bind_ok, Step.pure_ok] at h
  obtain ⟨info, _, hinfo, rfl, rfl⟩ := h
  obtain ⟨-, rfl⟩ := RelationInfo.correlate_ok hinfo
  have hlineage : lineage [{ info with table := none, index := none }] = lineage [query.relation] := by
    rw [lineage_singleton, lineage_singleton, ← RelationInfo.lineage_correlate hinfo]
    rfl
  rw [Draft.Tracks, hlineage]
  exact hquery

end Source

namespace Join

theorem condition_lineage {right' : Source} {on? : Option (JoinCondition (Expr Q))} {c : Option Scalar}
    (h : condition scopes kind left right on? env n = (.ok (c, right'), m)) :
    lineage right'.relations = lineage right.relations := by
  rcases condition_cases h with ⟨-, rfl, -⟩ | ⟨e, s, -, -, rfl⟩ | ⟨columns, s, relations, hs, -, rfl⟩
  · rfl
  · rfl
  · obtain ⟨_, _, -, -, rfl, -⟩ := shared_ok hs
    exact flatMap_conceal (fun _ _ => rfl) _ _

theorem plan_tracks {swapped : Bool} {s : Source} {on? : Option (JoinCondition (Expr Q))}
    (hl : d₁.Tracks left.relations) (hyl : Yields d left d₁) (hr : d₂.Tracks right.relations)
    (hyr : Yields d₁ right d₂) (h : plan outer kind swapped left right on? env d₂ = (.ok s, d₃)) :
    d₃.Tracks s.relations := by
  obtain ⟨c, right', hcondition, rfl, hg⟩ := plan_ok h
  obtain ⟨hle, -⟩ := condition_bindings hcondition
  refine hl.append hyl hr hyr (.insert hle hg (.nil _ _)) ?_
  rw [lineage_append, condition_lineage hcondition]

end Join

theorem Apply.plan_tracks {kind : ApplyKind} {operand s : Source} {function : Name} {arguments : List (Expr Q)}
    (hd : d₁.Settled) (ho : d₁.Tracks operand.relations) (hyo : Yields d operand d₁)
    (h : plan outer kind operand function arguments correlation env d₁ = (.ok s, d₂)) : d₂.Tracks s.relations := by
  obtain ⟨info, hrelations, hyields, hsources, _, _, _, _, hg⟩ := plan_applies h
  have hinfo : d₂.Tracks [info] :=
    Draft.Tracks.insert (s := ⟨s.output, [info]⟩) hd hyields (by simpa using hsources) hg fun _ _ => rfl
  refine ho.append hyo hinfo hyields (.mint (Nat.le_refl _) rfl) ?_
  rw [hrelations, lineage_append]

theorem Values.column_source {type : SqlType} {c : ColumnInfo} (h : column type env n = (.ok c, m)) :
    c.source = none := by
  simp only [column, Step.bind_ok, Step.pure_ok] at h
  obtain ⟨_, _, -, rfl, -⟩ := h
  rfl

theorem Values.plan_tracks {source : List (List (Expr Q))} (hd : d.Settled)
    (h : plan outer source env d = (.ok p, d₁)) : d₁.Tracks p.source.relations := by
  have hyields := plan_yields h
  obtain ⟨exprs, types, _, columns, -, hcolumns, rfl, hg⟩ := plan_ok.mp h
  have hsources : ∀ c ∈ columns, c.source = none := by
    intro c hc
    obtain ⟨_, -, _, _, hcolumn⟩ := exists_of_forall₂ (collect_forall₂ (collect_of_each hcolumns)) c hc
    exact column_source hcolumn
  refine .insert hd hyields ?_ hg fun _ _ => rfl
  simpa [Planned.source] using hsources

theorem SetOperation.plan_tracks {op : SetOperator} {written : Option SetQuantifier} {left right : Planned}
    (hd : d.Settled) (hl : d₁.Tracks left.source.relations) (hyl : Yields d left.source d₁)
    (hyr : Yields d₁ right.source d₂) (h : plan op written left right env d₂ = (.ok p, d₃)) :
    d₃.Tracks p.source.relations := by
  rcases plan_cases h with ⟨hyields, hsources, _, _, _, hg⟩ | ⟨hnew, hkept⟩
  · have hd₂ := (hyl.introduces.trans hyr.introduces).settled hd
    refine .insert hd₂ hyields ?_ hg fun _ _ => rfl
    simpa [Planned.source] using hsources
  · have hsublist : p.relation.lineage.Sublist left.relation.lineage := hkept _ _ fun _ _ => rfl
    intro q hq
    rw [Planned.source, lineage_singleton] at hq
    refine hl.mono hyl.within (hyr.introduces.trans hnew) q ?_
    rw [Planned.source, lineage_singleton]
    exact hsublist.subset hq

end SqlPlan
