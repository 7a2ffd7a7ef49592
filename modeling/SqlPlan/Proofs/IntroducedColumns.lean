import SqlPlan.Proofs.FromDelivery
import SqlPlan.Proofs.PlanDerivation
import SqlPlan.Proofs.SetOperationDelivery
import SqlPlan.Proofs.ValuesDelivery

namespace SqlPlan

variable {v w : Variable} {α : Type} {i j : Nat} {operator : Operator} {inputs : List Socket} {r : RelationInfo}
  {output : Socket} {name function : Name} {correlation : Option Correlation} {p : Planned}
  {left right operand : Source} {kind : JoinKind} {op : SetOperator} {written : Option SetQuantifier}

open List (Forall₂)

def Operator.introduced : Operator → List Variable
  | .scan _ columns => columns.map (·.2)
  | .values columns _ => columns
  | .project columns => columns.map (·.1)
  | .aggregate _ columns => columns.map (·.destination)
  | .union _ mappings => mappings.map (·.destination)
  | .apply _ _ _ columns => columns.map (·.2)
  | .subquery _ _ mappings => mappings.map (·.2)
  | .filter _ => []
  | .join _ _ => []
  | .intersection _ _ => []
  | .difference _ _ => []
  | .distinct _ => []
  | .limit _ _ => []
  | .write _ _ _ _ => []
  | .emit _ => []

def Graph.introducedAt (g : Graph) (node place : Nat) : Option Variable :=
  g.operators[node]?.bind (·.introduced[place]?)

theorem Variable.id_eq_of_same (hv : v.isStream = true) (h : w.same v = true) : w.id = v.id := by
  obtain ⟨label, hkind⟩ := kind_of_stream hv
  unfold same at h
  rw [hkind] at h
  cases hw : w.kind <;> simp_all [isMinted]

theorem eq_of_pairwise {R : α → α → Prop} (hR : ∀ a b, R a b → R b a) {xs : List α} (h : xs.Pairwise R) {x y : α}
    (hx : xs[i]? = some x) (hy : xs[j]? = some y) (hne : ¬R x y) : i = j := by
  obtain ⟨hi, rfl⟩ := List.getElem?_eq_some_iff.mp hx
  obtain ⟨hj, rfl⟩ := List.getElem?_eq_some_iff.mp hy
  rcases Nat.lt_trichotomy i j with hij | hij | hij
  · exact absurd (List.pairwise_iff_getElem.mp h i j hi hj hij) hne
  · exact hij
  · exact absurd (hR _ _ (List.pairwise_iff_getElem.mp h j i hj hi hij)) hne

/-- Operators that introduce columns with different numbers introduce each at one place. -/
theorem place_eq_of_id {ops : List Operator} (h : (ops.flatMap Operator.introduced).Pairwise fun v w => v.id ≠ w.id)
    {i' j' : Nat} (hv : ops[i]?.bind (·.introduced[j]?) = some v) (hw : ops[i']?.bind (·.introduced[j']?) = some w)
    (hid : w.id = v.id) : i' = i ∧ j' = j := by
  obtain ⟨hwithin, hacross⟩ := List.pairwise_flatMap.mp h
  obtain ⟨op, hop, hplace⟩ := Option.bind_eq_some_iff.mp hv
  obtain ⟨op', hop', hplace'⟩ := Option.bind_eq_some_iff.mp hw
  have hsymm : ∀ a b : Operator, (∀ x ∈ a.introduced, ∀ y ∈ b.introduced, x.id ≠ y.id) →
      ∀ x ∈ b.introduced, ∀ y ∈ a.introduced, x.id ≠ y.id :=
    fun a b hab x hx y hy => (hab y hy x hx).symm
  have hi : i' = i := eq_of_pairwise hsymm hacross hop' hop fun hdisjoint =>
    hdisjoint w (List.mem_of_getElem? hplace') v (List.mem_of_getElem? hplace) hid
  subst hi
  cases hop.symm.trans hop'
  refine ⟨rfl, ?_⟩
  exact eq_of_pairwise (fun _ _ => Ne.symm) (hwithin op (List.mem_of_getElem? hop)) hplace' hplace
    fun hne => hne hid

/-- Planning has added operators that introduce new columns, each of them once. -/
structure Introduces (d d' : Draft) : Prop where
  minted_le : d.minted ≤ d'.minted
  fresh : ∃ new vs, d'.graph.operators = d.graph.operators ++ new ∧
    vs.Perm (new.flatMap Operator.introduced) ∧ Fresh d.minted vs d'.minted

namespace Introduces

variable {d d₁ d₂ : Draft}

theorem mint (hle : d.minted ≤ d₁.minted) (hg : d₁.graph = d.graph) : Introduces d d₁ :=
  ⟨hle, [], [], by rw [hg, List.append_nil], .nil, .nil _ _⟩

theorem trans (h : Introduces d d₁) (h' : Introduces d₁ d₂) : Introduces d d₂ := by
  obtain ⟨new, vs, hops, hperm, hfresh⟩ := h.fresh
  obtain ⟨new', vs', hops', hperm', hfresh'⟩ := h'.fresh
  refine ⟨Nat.le_trans h.minted_le h'.minted_le, new ++ new', vs ++ vs', ?_, ?_, ?_⟩
  · rw [hops', hops, List.append_assoc]
  · rw [List.flatMap_append]
    exact hperm.append hperm'
  · exact hfresh.append hfresh' h.minted_le h'.minted_le

theorem insert {k : Nat} (hle : d.minted ≤ d₁.minted) (hg : d₁.graph = d.graph.insert operator inputs k)
    (hfresh : Fresh d.minted operator.introduced d₁.minted) : Introduces d d₁ := by
  refine ⟨hle, [operator], operator.introduced, ?_, ?_, hfresh⟩
  · rw [hg, Graph.operators_insert]
  · rw [List.flatMap_singleton]

theorem place_eq (h : Introduces d d₁) (hold : ∀ i j v, d.graph.introducedAt i j = some v → v.id ≤ d.minted)
    (hi : d.graph.size ≤ i) (hv : d₁.graph.introducedAt i j = some v) :
    v.isStream = true ∧ d.minted < v.id ∧ ∀ i' j' w, d₁.graph.introducedAt i' j' = some w →
      w.same v = true → i' = i ∧ j' = j := by
  obtain ⟨new, vs, hops, hperm, hfresh⟩ := h.fresh
  rw [← Graph.length_operators] at hi
  have hnew : ∀ i j, d.graph.operators.length ≤ i → d₁.graph.introducedAt i j =
      new[i - d.graph.operators.length]?.bind (·.introduced[j]?) := by
    intro i j hi
    rw [Graph.introducedAt, hops, List.getElem?_append_right hi]
  have hdistinct : (new.flatMap Operator.introduced).Pairwise fun v w => v.id ≠ w.id :=
    (hperm.pairwise_iff fun h => h.symm).mp (hfresh.increasing.imp Nat.ne_of_lt)
  rw [hnew i j hi] at hv
  have hmem : v ∈ vs := by
    obtain ⟨op, hop, hv⟩ := Option.bind_eq_some_iff.mp hv
    exact hperm.mem_iff.mpr (List.mem_flatMap.mpr ⟨op, List.mem_of_getElem? hop, List.mem_of_getElem? hv⟩)
  refine ⟨hfresh.stream v hmem, hfresh.above v hmem, fun i' j' w hw hsame => ?_⟩
  have hid := Variable.id_eq_of_same (hfresh.stream v hmem) hsame
  rcases Nat.lt_or_ge i' d.graph.operators.length with hlt | hge
  · have hle : w.id ≤ d.minted := by
      refine hold i' j' w ?_
      rw [Graph.introducedAt, hops, List.getElem?_append_left hlt] at hw
      exact hw
    have habove := hfresh.above v hmem
    omega
  · rw [hnew i' j' hge] at hw
    obtain ⟨hnode, hplace⟩ := place_eq_of_id hdistinct hv hw hid
    exact ⟨by omega, hplace⟩

end Introduces

/-- Planning a table expression has introduced new columns, and those of its relations are different ones
among them. -/
structure Yields (d : Draft) (s : Source) (d' : Draft) : Prop where
  introduces : Introduces d d'
  within : Columns.Within d.minted (bindings s.relations) d'.minted
  distinct : Columns.Distinct (bindings s.relations)

variable {Q : Type} {env : Environment} {outer : Scopes} {d d₁ d₂ d₃ : Draft} {n m : Nat}

namespace Yields

variable {s t : Source}

theorem mono (h : Yields d s d₁) (h' : Introduces d₁ d₂) : Yields d s d₂ :=
  ⟨h.introduces.trans h', h.within.mono (Nat.le_refl _) h'.minted_le, h.distinct⟩

theorem after (h : Introduces d d₁) (h' : Yields d₁ s d₂) : Yields d s d₂ :=
  ⟨h.trans h'.introduces, h'.within.mono h.minted_le (Nat.le_refl _), h'.distinct⟩

theorem sublist (h : Yields d s d₁)
    (hsub : (bindings t.relations).carriers.Sublist (bindings s.relations).carriers) : Yields d t d₁ := by
  refine ⟨h.introduces, fun p hp => ?_, ?_⟩
  · obtain ⟨q, hq, hqp⟩ := List.mem_map.mp (hsub.subset (List.mem_map_of_mem hp))
    rw [← hqp]
    exact h.within q hq
  · have hdistinct : (bindings s.relations).carriers.Pairwise fun v w => w.same v = false :=
      List.pairwise_map.mpr h.distinct
    exact List.pairwise_map.mp (hdistinct.sublist hsub)

theorem append {l r : Source} (hl : Yields d l d₁) (hr : Yields d₁ r d₂)
    (hb : bindings s.relations = bindings l.relations ++ bindings r.relations) : Yields d s d₂ := by
  have hle := hl.introduces.minted_le
  have hle' := hr.introduces.minted_le
  refine ⟨hl.introduces.trans hr.introduces, ?_, ?_⟩
  · rw [hb]
    exact (hl.within.mono (Nat.le_refl _) hle').append (hr.within.mono hle (Nat.le_refl _))
  · rw [hb]
    exact Columns.distinct_append hl.distinct hr.distinct hl.within hr.within

theorem insert (hle : d.minted ≤ d₁.minted) (hg : d₁.graph = d.graph.insert operator inputs 1)
    (hfresh : Fresh d.minted r.bindings.carriers d₁.minted) (hop : operator.introduced = r.bindings.carriers) :
    Yields d ⟨output, [r]⟩ d₁ := by
  refine ⟨.insert hle hg (hop ▸ hfresh), ?_, ?_⟩
  · rw [bindings_singleton]
    exact Columns.within_of_fresh hfresh
  · rw [bindings_singleton]
    exact Columns.distinct_of_fresh hfresh

end Yields

theorem RelationInfo.carriers_bindings (r : RelationInfo) : r.bindings.carriers = r.carriers := by
  rw [Columns.carriers, bindings, List.map_map]
  rfl

theorem Yields.copy {cs : List ((Variable × Variable) × ColumnInfo)} {info : RelationInfo}
    (hr : r.columns = cs.map (·.2)) (hb : info.bindings = r.bindings) (hcs : ∀ c ∈ cs, c.1.2 = c.2.carrier)
    (hop : operator.introduced = (cs.map (·.1)).map (·.2)) (hle : d.minted ≤ d₁.minted)
    (hg : d₁.graph = d.graph.insert operator [] 1) (hfresh : Fresh d.minted (cs.map fun c => c.2.carrier) d₁.minted) :
    Yields d ⟨output, [info]⟩ d₁ := by
  have hcarriers : info.bindings.carriers = cs.map fun c => c.2.carrier := by
    rw [hb, RelationInfo.carriers_bindings, RelationInfo.carriers, hr, List.map_map]
    rfl
  refine .insert hle hg (hcarriers ▸ hfresh) ?_
  rw [hop, hcarriers, List.map_map]
  exact List.map_congr_left hcs

namespace Source

theorem singleRow_yields {s : Source} (h : singleRow env d = (.ok s, d₁)) : Yields d s d₁ := by
  simp only [singleRow, Step.bind_ok, Planning.add_ok, Step.pure_ok] at h
  obtain ⟨_, _, ⟨-, hm, hg⟩, rfl, rfl⟩ := h
  exact ⟨.insert (Nat.le_of_eq hm.symm) hg (.nil _ _), by simp [bindings, Columns.Within], .nil⟩

theorem scan_yields (h : scan name correlation env d = (.ok p, d₁)) : Yields d p.source d₁ := by
  simp only [scan, Step.bind_ok, Planning.lift_ok, Planning.add_ok, Step.pure_ok, Prod.exists] at h
  obtain ⟨schema, table, _, htable, columns, d₂, ⟨hcolumns, hg₂⟩, _, d₃, ⟨-, hm, hg₃⟩, info, _, hinfo, rfl, rfl⟩ := h
  obtain ⟨rfl, -⟩ := (Name.resolveTable_reads name).ok_iff htable
  obtain ⟨hbindings, rfl⟩ := RelationInfo.correlate_ok hinfo
  obtain ⟨hle, hfresh, hall⟩ := each_minted (fun c => c.2.carrier) (fun _ _ _ _ => scanColumn_ok) hcolumns
  refine .copy rfl hbindings (fun c hc => ?_) rfl (hm ▸ hle) (by rw [hg₃, hg₂]) (hm ▸ hfresh)
  obtain ⟨ref, -, -, hdestination, -⟩ := exists_of_forall₂ hall c hc
  exact hdestination

theorem instantiate_yields {name : String} {query : NamedQuery}
    (h : instantiate name query correlation env d = (.ok p, d₁)) : Yields d p.source d₁ := by
  simp only [instantiate, Step.bind_ok, Planning.lift_ok, Planning.add_ok, Step.pure_ok] at h
  obtain ⟨columns, d₂, ⟨hcolumns, hg₂⟩, _, d₃, ⟨-, hm, hg₃⟩, info, _, hinfo, rfl, rfl⟩ := h
  obtain ⟨hbindings, rfl⟩ := RelationInfo.correlate_ok hinfo
  obtain ⟨hle, hfresh, hall⟩ := each_minted (fun c => c.2.carrier) (fun _ _ _ _ => copyColumn_ok) hcolumns
  refine .copy rfl hbindings (fun c hc => ?_) rfl (hm ▸ hle) (by rw [hg₃, hg₂]) (hm ▸ hfresh)
  obtain ⟨column, -, hpair, -⟩ := exists_of_forall₂ hall c hc
  rw [hpair]

theorem named_yields (h : named outer name correlation env d = (.ok p, d₁)) : Yields d p.source d₁ := by
  rcases named_cases h with ⟨-, h⟩ | ⟨_, _, -, -, h⟩
  · exact scan_yields h
  · exact instantiate_yields h

theorem derived_yields {query : Planned} (hquery : Yields d query.source d₁) {s : Source}
    (h : derived query correlation env d₁ = (.ok s, d₂)) : Yields d s d₂ := by
  simp only [derived, Step.bind_ok, Step.pure_ok] at h
  obtain ⟨info, _, hinfo, rfl, rfl⟩ := h
  obtain ⟨hbindings, rfl⟩ := RelationInfo.correlate_ok hinfo
  refine hquery.sublist ?_
  rw [Planned.source, bindings_singleton, bindings_singleton, ← hbindings]
  exact .refl _

end Source

namespace Join

theorem condition_bindings {right' : Source} {on? : Option (JoinCondition (Expr Q))} {c : Option Scalar}
    (h : condition scopes kind left right on? env n = (.ok (c, right'), m)) :
    n ≤ m ∧ bindings right'.relations = bindings right.relations := by
  rcases condition_cases h with ⟨-, rfl, rfl⟩ | ⟨e, s, hs, -, rfl⟩ | ⟨columns, s, relations, hs, -, rfl⟩
  · exact ⟨Nat.le_refl _, rfl⟩
  · simp only [predicate, Step.bind_ok, Step.ite_ok, Step.fail_ok, Step.pure_ok, and_false, false_or] at hs
    obtain ⟨x, _, hx, -, -, -, rfl⟩ := hs
    exact ⟨(Expr.sound env _ e none n x _ hx).minted_le, rfl⟩
  · obtain ⟨_, _, -, -, rfl, rfl⟩ := shared_ok hs
    exact ⟨Nat.le_refl _, flatMap_conceal (fun _ _ => rfl) _ _⟩

theorem plan_yields {swapped : Bool} {s : Source} {on? : Option (JoinCondition (Expr Q))} (hl : Yields d left d₁)
    (hr : Yields d₁ right d₂) (h : plan outer kind swapped left right on? env d₂ = (.ok s, d₃)) : Yields d s d₃ := by
  obtain ⟨c, right', hcondition, rfl, hg⟩ := plan_ok h
  obtain ⟨hle, hb⟩ := condition_bindings hcondition
  have happend : bindings (left.relations ++ right'.relations) =
      bindings left.relations ++ bindings right.relations := by
    rw [bindings_append, hb]
  exact (hl.append hr happend).mono (.insert hle hg (.nil _ _))

end Join

theorem Apply.argument_minted_le {scopes : Scopes} {candidates : List FunctionDecl} {position : Nat} {e : Expr Q}
    {x : Typed} (h : argument scopes candidates position e env n = (.ok x, m)) : n ≤ m := by
  simp only [argument, Step.bind_ok, Step.ite_ok, Step.fail_ok, Step.pure_ok, and_false, false_or] at h
  obtain ⟨x, _, hx, -, -, rfl⟩ := h
  exact (Expr.sound env scopes e _ n x _ hx).minted_le

theorem RelationInfo.source_correlate {σ : Type} {r' : RelationInfo} {s s' : σ}
    (h : (r.correlate correlation : Step σ _) env s = (.ok r', s')) (hr : ∀ c ∈ r.columns, c.source = none) :
    ∀ c ∈ r'.columns, c.source = none := by
  intro c hc
  have hsource := List.mem_map_of_mem (f := ColumnInfo.source) hc
  rw [(map_correlate (fun _ _ => rfl) h).1] at hsource
  obtain ⟨column, hmem, hsame⟩ := List.mem_map.mp hsource
  exact hsame.symm.trans (hr column hmem)

theorem Apply.resultColumn_source {field : String × SqlType} {c : ColumnInfo}
    (h : resultColumn field env n = (.ok c, m)) : c.source = none := by
  simp only [resultColumn, Step.bind_ok, Step.pure_ok] at h
  obtain ⟨_, _, -, rfl, -⟩ := h
  rfl

theorem Apply.plan_applies {kind : ApplyKind} {s : Source} {arguments : List (Expr Q)}
    (h : plan outer kind operand function arguments correlation env d = (.ok s, d₁)) :
    ∃ info, s.relations = operand.relations ++ [info] ∧ Yields d ⟨s.output, [info]⟩ d₁ ∧
      (∀ c ∈ info.columns, c.source = none) ∧
      ∃ decl xs placed inputs, d₁.graph = d.graph.insert (.apply kind decl xs placed) inputs 1 := by
  simp only [plan, add, Step.bind_ok, Planning.lift_ok, Planning.add_ok, Step.pure_ok, Prod.exists] at h
  obtain ⟨key, candidates, d₃, hcandidates, xs, d₄, ⟨hxs, hg₄⟩, decl, _, hdecl, fields, d₅, ⟨hfields, hg₅⟩,
    columns, d₆, ⟨hcolumns, hg₆⟩, output, _, ⟨-, hm, hg⟩, info, _, hinfo, rfl, rfl⟩ := h
  obtain rfl := candidates_ok hcandidates
  obtain ⟨-, rfl⟩ := Overload.mem_of_select hdecl
  obtain ⟨hbindings, rfl⟩ := RelationInfo.correlate_ok hinfo
  obtain ⟨hm₅, -⟩ := resultColumns_ok hfields
  obtain ⟨hle₄, -⟩ := collect_map_ok (P := fun _ _ => True)
    (fun _ _ _ _ _ hx => ⟨argument_minted_le hx, trivial⟩) hxs
  obtain ⟨hle₆, hfresh, -⟩ := each_minted (·.carrier) (fun _ _ _ _ => resultColumn_ok) hcolumns
  have hcarriers : info.bindings.carriers = columns.map (·.carrier) := by
    rw [hbindings, RelationInfo.carriers_bindings, RelationInfo.carriers]
  rw [hg₆, hg₅, hg₄] at hg
  refine ⟨info, rfl, .insert (by omega) hg ?_ ?_, RelationInfo.source_correlate hinfo fun c hc => ?_, _, _, _, _, hg⟩
  · rw [hcarriers, hm]
    exact hfresh.mono (by omega) (Nat.le_refl _)
  · have hplaced : (columns.zipIdx.map (·.1)).map (·.carrier) = columns.map (·.carrier) := by
      rw [List.zipIdx_map_fst]
    rw [hcarriers, ← hplaced, Operator.introduced, List.map_map, List.map_map]
    rfl
  · obtain ⟨_, -, _, _, hcolumn⟩ := exists_of_forall₂ (collect_forall₂ (collect_of_each hcolumns)) c hc
    exact resultColumn_source hcolumn

theorem Apply.plan_yields {kind : ApplyKind} {s : Source} {arguments : List (Expr Q)} (ho : Yields d operand d₁)
    (h : plan outer kind operand function arguments correlation env d₁ = (.ok s, d₂)) : Yields d s d₂ := by
  obtain ⟨info, hrelations, hinfo, -, -⟩ := plan_applies h
  exact ho.append hinfo (by rw [hrelations, bindings_append])

theorem Values.plan_yields {source : List (List (Expr Q))} (h : plan outer source env d = (.ok p, d₁)) :
    Yields d p.source d₁ := by
  obtain ⟨exprs, types, _, columns, hrows, hcolumns, rfl, hg⟩ := plan_ok.mp h
  obtain ⟨hle, -⟩ := rows_accepts hrows
  obtain ⟨hle', hfresh, -⟩ := each_minted (·.carrier) (fun _ _ _ _ => column_ok) hcolumns
  refine .insert (Nat.le_trans hle hle') hg ?_ (RelationInfo.carriers_bindings _).symm
  rw [RelationInfo.carriers_bindings]
  exact hfresh.mono hle (Nat.le_refl _)

namespace SetOperation

theorem unionColumn_source {pair : (ColumnInfo × ColumnInfo) × SqlType} {c : UnionMapping × ColumnInfo}
    (h : unionColumn pair env n = (.ok c, m)) : c.2.source = none := by
  obtain ⟨⟨l, r⟩, type⟩ := pair
  simp only [unionColumn, Step.bind_ok, Step.pure_ok] at h
  obtain ⟨_, _, -, rfl, -⟩ := h
  rfl

theorem union_yields {pairs : List ((ColumnInfo × ColumnInfo) × SqlType)} {cs : List (UnionMapping × ColumnInfo)}
    {q : SetQuantifier} (hcs : Step.each unionColumn pairs env d.minted = (.ok cs, d₁.minted))
    (hg : d₁.graph = d.graph.insert (.union q (cs.map (·.1))) inputs 1) :
    Yields d ⟨output, [{ columns := cs.map (·.2) }]⟩ d₁ ∧ ∀ c ∈ cs.map (·.2), c.source = none := by
  obtain ⟨hle, hfresh, hmappings⟩ := each_minted (fun c => c.2.carrier) (fun _ _ _ _ => unionColumn_ok) hcs
  have hcarriers : RelationInfo.carriers { columns := cs.map (·.2) } = cs.map fun c => c.2.carrier := by
    rw [RelationInfo.carriers, List.map_map]
    rfl
  refine ⟨.insert hle hg ?_ ?_, fun c hc => ?_⟩
  · rw [RelationInfo.carriers_bindings, hcarriers]
    exact hfresh
  · rw [RelationInfo.carriers_bindings, hcarriers, Operator.introduced, List.map_map]
    refine List.map_congr_left fun c hc => ?_
    obtain ⟨p, -, hmapping, -⟩ := exists_of_forall₂ hmappings c hc
    exact congrArg UnionMapping.destination hmapping
  · obtain ⟨column, hmem, rfl⟩ := List.mem_map.mp hc
    obtain ⟨_, -, _, _, hcolumn⟩ := exists_of_forall₂ (collect_forall₂ (collect_of_each hcs)) column hmem
    exact unionColumn_source hcolumn

/-- The columns that are kept are exported left columns with other types. -/
theorem kept_sublist {left : Planned} {pairs : List (ColumnInfo × ColumnInfo)} {types : List SqlType}
    (hleft : pairs.map (·.1) = left.relation.exportedColumns) (hlength : pairs.length = types.length)
    {f : ColumnInfo → α} (hf : ∀ (c : ColumnInfo) type, f { c with type } = f c) :
    (((pairs.zip types).map fun p => { p.1.1 with type := p.2 }).map f).Sublist (left.relation.columns.map f) := by
  have hsame : (f ∘ fun p : (ColumnInfo × ColumnInfo) × SqlType => { p.1.1 with type := p.2 }) =
      fun p => f p.1.1 := by
    funext p
    exact hf p.1.1 p.2
  have hzip := map_zip_fst hlength fun p : ColumnInfo × ColumnInfo => f p.1
  have hexported : (left.relation.exportedColumns.map f).Sublist (left.relation.columns.map f) :=
    List.filter_sublist.map _
  rw [← hleft, List.map_map] at hexported
  rw [List.map_map, hsame, hzip]
  exact hexported

/-- The columns of a union are new, and those of the other set operations are exported left columns with
other types. -/
theorem plan_cases {left right : Planned} (h : plan op written left right env d = (.ok p, d₁)) :
    (Yields d p.source d₁ ∧ (∀ c ∈ p.relation.columns, c.source = none) ∧
        ∃ q mappings inputs, d₁.graph = d.graph.insert (.union q mappings) inputs 1) ∨
      Introduces d d₁ ∧ ∀ (α : Type) (f : ColumnInfo → α), (∀ (c : ColumnInfo) type, f { c with type } = f c) →
        (p.relation.columns.map f).Sublist (left.relation.columns.map f) := by
  obtain ⟨pairs, types, o, columns, hleft, -, htypes, hoperator, rfl, hg⟩ := plan_ok h
  cases op with
  | union =>
    simp only [SetOperation.operator, Step.bind_ok, Step.pure_ok, Prod.mk.injEq] at hoperator
    obtain ⟨cs, _, hcs, ⟨rfl, rfl⟩, rfl⟩ := hoperator
    obtain ⟨hyields, hsources⟩ := union_yields hcs hg
    exact .inl ⟨hyields, hsources, _, _, _, hg⟩
  | intersect | except =>
    simp only [SetOperation.operator, Step.pure_ok, Prod.mk.injEq] at hoperator
    obtain ⟨⟨rfl, rfl⟩, hm⟩ := hoperator
    exact .inr ⟨.insert (Nat.le_of_eq hm) hg (.nil _ _), fun _ _ => kept_sublist hleft htypes.length_eq⟩

theorem plan_yields {left right : Planned} (hl : Yields d left.source d₁) (hr : Yields d₁ right.source d₂)
    (h : plan op written left right env d₂ = (.ok p, d₃)) : Yields d p.source d₃ := by
  rcases plan_cases h with ⟨hnew, -, -⟩ | ⟨hintroduces, hkept⟩
  · exact .after (hl.introduces.trans hr.introduces) hnew
  · refine (hl.mono (hr.introduces.trans hintroduces)).sublist ?_
    rw [Planned.source, Planned.source, bindings_singleton, bindings_singleton,
      RelationInfo.carriers_bindings, RelationInfo.carriers_bindings]
    exact hkept _ (·.carrier) fun _ _ => rfl

end SetOperation

end SqlPlan
