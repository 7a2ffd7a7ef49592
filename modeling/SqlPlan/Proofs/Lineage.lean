import SqlPlan.Proofs.ColumnOrigins
import SqlPlan.Proofs.StatementTransfer

namespace SqlPlan

variable {p : Planned} {a : Aggregation} {input output : Socket} {x x' : SelectColumn} {g g' : GroupingState}
  {c' : Clauses}

open List (Forall₂)

variable {Q : Type} {env : Environment} {outer : Scopes} {d d₀ d₁ d₂ d₃ : Draft} {n m : Nat} {v : Variable}

theorem Regroups.keeps_variable {ss ss' : List Scalar} {r r' : Regrouping} (h : Regroups ss r ss' r') :
    Forall₂ (fun s s' => ∀ v, s.asVariable? = some v → s' = s) ss ss' := by
  induction h with
  | nil => exact .nil
  | cons _ _ ih ih' =>
    cases ih with
    | cons hs _ => exact .cons hs ih'
  | var _ => exact .cons (fun _ _ => rfl) .nil
  | _ => exact .cons (by simp [Scalar.asVariable?]) .nil

theorem Columns.Distinct.eq_of_same {Γ : Columns} (h : Γ.Distinct) (hs : ∀ p ∈ Γ, p.1.isStream = true)
    {p q : Variable × SqlType} (hp : p ∈ Γ) (hq : q ∈ Γ) (hsame : p.1.same q.1 = true) : p = q := by
  obtain ⟨i, hi⟩ := List.mem_iff_getElem?.mp hp
  obtain ⟨j, hj⟩ := List.mem_iff_getElem?.mp hq
  have hids : Γ.Pairwise fun a b => a.1.id ≠ b.1.id := by
    refine List.Pairwise.imp_of_mem (fun ha hb hab => ?_) h
    rw [Variable.same_of_stream (hs _ hb) (hs _ ha), beq_eq_false_iff_ne] at hab
    exact hab.symm
  have hplace : i = j := by
    refine eq_of_pairwise (fun _ _ => Ne.symm) hids hi hj fun hne => hne ?_
    exact Variable.id_eq_of_same (hs q hq) hsame
  subst hplace
  exact Option.some.inj (hi.symm.trans hj)

theorem Variable.isMinted_of_same {w : Variable} (hw : w.isStream = true) (h : w.same v = true) :
    v.isMinted = true := by
  obtain ⟨label, hkind⟩ := kind_of_stream hw
  unfold same at h
  rw [hkind] at h
  cases hv : v.kind <;> simp_all [isMinted]

/-- A select column tells where its value comes from in the graph, and is a column minted so far if it is
one at all. -/
structure SelectColumn.Tracked (d : Draft) (c : SelectColumn) : Prop where
  source_eq : c.source = c.value.asVariable?.bind d.graph.origin?
  old : ∀ v, c.value.asVariable? = some v → v.isStream = true → v.id ≤ d.minted

theorem SelectColumn.Tracked.mono {c : SelectColumn} (h : c.Tracked d) (hnew : Introduces d d₁) : c.Tracked d₁ := by
  refine ⟨?_, fun v hv hs => Nat.le_trans (h.old v hv hs) hnew.minted_le⟩
  rw [h.source_eq]
  cases hvar : c.value.asVariable? with
  | none => rfl
  | some v => exact (hnew.origin?_eq (h.old v hvar)).symm

theorem Aggregation.install_origin? (hd : d.Settled) (hg : d₁.graph = d.graph)
    (hfresh : Fresh d.minted (a.entries.map (·.destination)) d₁.minted)
    (h : a.install input env d₁ = (.ok output, d₂)) : ∀ e ∈ a.entries, d₂.graph.origin? e.destination = none := by
  intro e he
  have hmem : e.destination ∈ a.entries.map (·.destination) := List.mem_map_of_mem he
  obtain ⟨columns, computed, d₃, o, d₄, hcolumns, hg₃, ho, -, -, hg₂⟩ := install_ok h
  obtain ⟨hle₃, hfresh₃, -, -⟩ := aggregateColumns_cases hcolumns
  -- what is computed for the arguments is newer than the columns of the calls
  obtain ⟨hnew, -⟩ := Block.addIf_introduces ho hle₃ hg₃ hfresh₃
  calc d₂.graph.origin? e.destination = d₄.graph.origin? e.destination := by
        rw [hg₂, Graph.origin?_insert]
        rfl
    _ = d₁.graph.origin? e.destination := hnew.origin?_eq fun _ => hfresh.upTo _ hmem
    _ = none := by
        rw [hg]
        exact hd.origin?_eq_none fun _ => hfresh.above _ hmem

namespace Block

theorem mem_of_columnOf? {b : Block} {c : ColumnInfo} (h : b.columnOf? v = some c) :
    c ∈ b.relations.flatMap (·.columns) ∧ c.carrier.same v = true := by
  obtain ⟨r, hr, hfind⟩ := List.exists_of_findSome?_eq_some h
  have hsame := List.find?_some (p := fun c : ColumnInfo => c.carrier.same v) hfind
  exact ⟨List.mem_flatMap.mpr ⟨r, hr, List.mem_of_find?_eq_some hfind⟩, hsame⟩

section FromClause

variable {b : Block} {o : Socket} (hd : d.Settled) (hb : d.Tracks b.relations)
  (hyields : Yields d₀ ⟨o, b.relations⟩ d)
include hd hb hyields

theorem columnOf?_source (hv : v.isMinted = true → ∃ c ∈ b.relations.flatMap (·.columns), v = c.carrier) :
    ((b.columnOf? v).bind fun c => c.source) = d.graph.origin? v := by
  have hstreams : ∀ p ∈ bindings b.relations, p.1.isStream = true := fun p hp => (hyields.within p hp).1
  by_cases hminted : v.isMinted = true
  · obtain ⟨c, hc, rfl⟩ := hv hminted
    cases hcolumn : b.columnOf? c.carrier with
    | none =>
      obtain ⟨r, hr, hmem⟩ := List.mem_flatMap.mp hc
      have hnone := List.find?_eq_none.mp (List.findSome?_eq_none_iff.mp hcolumn r hr) c hmem
      exact absurd (Variable.same_self _) hnone
    | some found =>
      obtain ⟨hmem, hsame⟩ := mem_of_columnOf? hcolumn
      have heq := hyields.distinct.eq_of_same hstreams (mem_bindings hmem) (mem_bindings hc) hsame
      rw [← (Prod.mk.inj heq).1]
      exact hb _ (mem_lineage.mpr ⟨found, hmem, rfl⟩)
  · have hnone : b.columnOf? v = none := by
      rw [Option.eq_none_iff_forall_ne_some]
      intro c hc
      obtain ⟨hmem, hsame⟩ := mem_of_columnOf? hc
      exact hminted (Variable.isMinted_of_same (hstreams _ (mem_bindings hmem)) hsame)
    rw [hnone, hd.origin?_eq_none]
    · rfl
    · exact fun hs => absurd (Variable.isMinted_of_stream hs) hminted

theorem selectItem_tracked (hvisible : b.outer.visible = []) {item : SelectItem (Expr Q)} {p : List SelectColumn × Bool}
    (h : b.selectItem item env n = (.ok p, m)) : ∀ x ∈ p.1, x.Tracked d := by
  have hcolumns : ∀ c ∈ b.scopes.visible, c ∈ b.relations.flatMap (·.columns) := by
    intro c hc
    have hscopes : b.scopes.visible = b.relations.flatMap (·.columns) ++ b.outer.visible := rfl
    rwa [hscopes, hvisible, List.append_nil] at hc
  have hold : ∀ c ∈ b.relations.flatMap (·.columns), c.carrier.id ≤ d.minted :=
    fun c hc => (hyields.within _ (mem_bindings hc)).2.2
  rcases selectItem_cases h with ⟨-, -, -, hpassed⟩ | ⟨e, -, x, column, -, hel, rfl, hvalue, -, hsource⟩
  · intro x hx
    obtain ⟨c, hc, rfl⟩ := hpassed x hx
    refine ⟨hb _ (mem_lineage.mpr ⟨c, hc, rfl⟩), fun v hv _ => ?_⟩
    cases hv
    exact hold c hc
  · have hlocal : ∀ v, x.expr.asVariable? = some v → v.isMinted = true →
        ∃ c ∈ b.relations.flatMap (·.columns), v = c.carrier := by
      intro v hv hminted
      obtain ⟨c, hc, hcarrier⟩ := (hel.variable_cases (List.mem_singleton_self _) hv).resolve_right
        (by simp [Variable.isConstant_of_isMinted hminted])
      exact ⟨c, hcolumns c hc, hcarrier⟩
    refine List.forall_mem_singleton.mpr ⟨?_, fun v hv hs => ?_⟩
    · rw [hsource, hvalue]
      cases hvar : x.expr.asVariable? with
      | none => rfl
      | some v => exact columnOf?_source hd hb hyields (hlocal v hvar)
    · rw [hvalue] at hv
      obtain ⟨c, hc, rfl⟩ := hlocal v hv (Variable.isMinted_of_stream hs)
      exact hold c hc

theorem clauses_tracked (hvisible : b.outer.visible = []) {c : SelectClauses (Expr Q)} {cl : Clauses}
    (h : b.clauses c env n = (.ok cl, m)) : ∀ x ∈ cl.columns, x.Tracked d := by
  simp only [clauses, Step.bind_ok, Step.pure_ok] at h
  obtain ⟨_, _, -, items, _, hitems, _, _, -, _, _, -, _, _, -, rfl, -⟩ := h
  intro x hx
  obtain ⟨p, hp, hx⟩ := List.mem_flatMap.mp hx
  obtain ⟨item, -, _, _, hitem⟩ := exists_of_forall₂ (collect_forall₂ hitems) p hp
  exact selectItem_tracked hd hb hyields hvisible hitem x hx

end FromClause

/-- A select column over grouped rows is the variable that it was, or the column of an aggregate call if it
becomes one. -/
def Regrouped (a : Aggregation) (x x' : SelectColumn) : Prop :=
  x'.source = x.source ∧ (x'.value = x.value ∨ x.value.asVariable? = none ∧
    ∀ v, x'.value.asVariable? = some v → ∃ e ∈ a.entries, v = e.destination)

theorem Regrouped.mono {a' : Aggregation} (ha : ∀ e ∈ a.entries, e ∈ a'.entries) (h : Regrouped a x x') :
    Regrouped a' x x' := by
  refine ⟨h.1, h.2.imp_right fun hnew => ⟨hnew.1, fun v hv => ?_⟩⟩
  obtain ⟨e, he, rfl⟩ := hnew.2 v hv
  exact ⟨e, ha e he, rfl⟩

theorem regroupColumn_regrouped (h : regroupColumn x env g = (.ok x', g')) : Regrouped g'.aggregation x x' := by
  have hregroups := (regroupColumn_ok h).1
  simp only [regroupColumn, Step.bind_ok, Step.pure_ok] at h
  obtain ⟨value, _, -, rfl, rfl⟩ := h
  refine ⟨rfl, ?_⟩
  cases hvar : x.value.asVariable? with
  | none =>
    refine .inr ⟨rfl, fun v hv => ?_⟩
    rcases hregroups.asVariable? value (List.mem_singleton_self _) v hv with ⟨s, hs, hsv, -⟩ | hentry
    · rw [List.mem_singleton.mp hs, hvar] at hsv
      cases hsv
    · exact hentry
  | some v =>
    have hkept := hregroups.keeps_variable
    cases hkept with
    | cons hvalue _ => exact .inl (hvalue v hvar)

theorem regroupColumns_regrouped {xs xs' : List SelectColumn}
    (h : Step.collect (xs.map regroupColumn) env g = (.ok xs', g')) : Forall₂ (Regrouped g'.aggregation) xs xs' := by
  induction xs generalizing xs' g with
  | nil =>
    obtain ⟨rfl, -⟩ := Step.collect_nil_ok.mp h
    exact .nil
  | cons x xs ih =>
    obtain ⟨x', xs', g₁, rfl, hx, hxs⟩ := Step.collect_cons_ok.mp h
    have hgrows := (collect_regroups _ (fun _ _ _ _ => regroupColumn_ok) hxs).1.grows
    exact .cons ((regroupColumn_regrouped hx).mono fun _ => hgrows.mem_entries) (ih hxs)

theorem regroup_regrouped {c : Clauses} (h : regroup c env g = (.ok c', g')) :
    Forall₂ (Regrouped g'.aggregation) c.columns c'.columns := by
  simp only [regroup, Step.bind_ok, Step.both_ok, Step.pure_ok, Prod.exists] at h
  obtain ⟨columns, having, sorts, _, ⟨g₁, hcolumns, g₂, hhaving, hsorts⟩, rfl, rfl⟩ := h
  have hgrows := (collect_regroups _ (fun _ _ _ _ => regroupCondition_ok) (collect_of_optional hhaving)).1.grows
  have hgrows' := (collect_regroups _ (fun _ _ _ _ => regroupSort_ok) hsorts).1.grows
  refine (regroupColumns_regrouped hcolumns).imp fun x x' hx => hx.mono fun e he => ?_
  exact hgrows'.mem_entries (hgrows.mem_entries he)

theorem group_tracked {b : Block} {c : Clauses} {available : List Variable} (hd : d.Settled)
    (hc : ∀ x ∈ c.columns, x.Tracked d) (h : b.group c input env d = (.ok (c', output, available), d₁)) :
    ∀ x ∈ c'.columns, x.Tracked d₁ := by
  cases hactive : c.active with
  | false =>
    obtain ⟨rfl, -, -, rfl⟩ := group_inactive hactive h
    exact hc
  | true =>
    obtain ⟨hnew, -⟩ := group_introduces h
    obtain ⟨d₂, a, hregroup, hg, hinstall, -⟩ := group_active hactive h
    obtain ⟨-, -, hle, hfresh, -⟩ := Aggregation.regroups_from_keys (regroup_ok hregroup).1
    obtain ⟨-, hle'⟩ := Aggregation.install_introduces hle hg hfresh hinstall
    intro x' hx'
    obtain ⟨x, hx, hsource, hvalue | ⟨hnone, hentries⟩⟩ := exists_of_forall₂ (regroup_regrouped hregroup) x' hx'
    · have htracked := (hc x hx).mono hnew
      refine ⟨?_, ?_⟩
      · rw [hsource, hvalue]
        exact htracked.source_eq
      · rw [hvalue]
        exact htracked.old
    · refine ⟨?_, fun v hv _ => ?_⟩
      · rw [hsource, (hc x hx).source_eq, hnone]
        cases hvar : x'.value.asVariable? with
        | none => rfl
        | some v =>
          obtain ⟨e, he, rfl⟩ := hentries v hvar
          exact (Aggregation.install_origin? hd hg hfresh hinstall e he).symm
      · obtain ⟨e, he, rfl⟩ := hentries v hv
        have hmem : e.destination ∈ a.entries.map (·.destination) := List.mem_map_of_mem he
        exact Nat.le_trans (hfresh.upTo _ hmem) hle'

theorem Projects.tracks {b : Block} {cs : List SelectColumn} {columns : List ColumnInfo}
    (h : Projects env b cs d columns d₁) (hcs : ∀ x ∈ cs, x.Tracked d) : d₁.Tracks [{ columns }] := by
  have hnew := h.introduces
  obtain ⟨computed, more, k, d₂, needed, input, output, hcolumns, -, hg, hfresh, hneeded, hadd⟩ := h
  obtain ⟨-, -, hall⟩ := projectColumns_computed hcolumns
  intro p hp
  rw [lineage_singleton] at hp
  obtain ⟨info, hinfo, rfl⟩ := List.mem_map.mp hp
  obtain ⟨x, hx, hsource, hvalue | hcomputed⟩ := exists_of_forall₂ hall info hinfo
  · have horigin := ((hcs x hx).mono hnew).source_eq
    rw [hvalue] at horigin
    exact hsource.trans horigin
  · have hmem := List.mem_append_left more hcomputed
    cases needed with
    | false =>
      rw [hneeded rfl] at hmem
      cases hmem
    | true =>
      simp only [addIf, if_pos, Planning.add_ok] at hadd
      obtain ⟨-, -, hg₁⟩ := hadd
      have horigin : d₁.graph.origin? info.carrier = x.value.asVariable?.bind d.graph.origin? := by
        rw [hg₁, hg, Graph.origin?_insert]
        exact Operator.origin?_project hfresh hmem
      exact (hsource.trans (hcs x hx).source_eq).trans horigin.symm

theorem plan_tracks (houter : outer.visible = []) (hd : d.Settled) {source : Source} (hyields : Yields d source d₁)
    (hsource : d₁.Tracks source.relations) {c : SelectClauses (Expr Q)}
    (h : Block.plan outer source c env d₁ = (.ok p, d₂)) : d₂.Tracks p.source.relations := by
  have hplanned := plan_yields hyields h
  obtain ⟨clauses, clauses', columns, d₃, d₄, d₅, d₆, _, _, _, _, hrows, hclauses, hgroup, hhaving, hprojects, hafter,
    hm, hrelation⟩ := plan_stages h
  have hyields₃ := hyields.mono hrows
  have hd₃ := hyields₃.introduces.settled hd
  have hcolumns := clauses_tracked hd₃ (hsource.mono hyields.within hrows) hyields₃ houter hclauses
  have hgrouped := group_tracked hd₃ hcolumns hgroup
  have hresult : d₆.Tracks p.source.relations := by
    rw [Planned.source, hrelation]
    exact hprojects.tracks fun x hx => (hgrouped x hx).mono hhaving
  exact hresult.mono (hm ▸ hplanned.within) hafter

end Block

theorem Plans.tracks {task : Task Q} {s : Source} {d' : Draft} (h : Plans env outer task d s d')
    (houter : outer.visible = []) (hd : d.Settled) : d'.Tracks s.relations := by
  induction h with
  | select hs hp ih => exact Block.plan_tracks houter hd hs.yields (ih houter hd) hp
  | values hp => exact Values.plan_tracks hd hp
  | setOperation hl hr hp ihl _ => exact SetOperation.plan_tracks hd (ihl houter hd) hl.yields hr.yields hp
  | withClause _ ih | body _ ih | firstTable _ ih => exact ih houter hd
  | element _ hquery hg helement _ _ ih =>
    -- references to the named query do not say where its columns come from
    obtain ⟨_, -, -, rfl⟩ := NamedQuery.ofPlanned_ok helement
    refine ih houter (Introduces.settled (.mint ?_ hg) hd)
    exact hquery.yields.introduces.minted_le
  | table hp => exact Source.named_tracks hd hp
  | derived _ hs ih => exact Source.derived_tracks (ih houter hd) hs
  | join hl hr hs ihl ihr =>
    have hd₁ := hl.yields.introduces.settled hd
    exact Join.plan_tracks (ihl houter hd) hl.yields (ihr houter hd₁) hr.yields hs
  | apply ho hs ih =>
    have hd₁ := ho.yields.introduces.settled hd
    exact Apply.plan_tracks hd₁ (ih houter hd) ho.yields hs
  | noTable hs => exact Source.singleRow_tracks hs
  | nextTable hl hr hs ihl ihr =>
    have hd₁ := hl.yields.introduces.settled hd
    exact Join.plan_tracks (ihl houter hd) hl.yields (ihr houter hd₁) hr.yields (Source.join_of_cross [] hs)

theorem Query.planAs_tracks {query : Query (Expr Q)} {correlation : Option Correlation}
    (houter : outer.visible = []) (hd : d.Settled) (h : query.planAs outer correlation env d = (.ok p, d₁)) :
    d₁.Tracks [p.relation] := by
  simp only [planAs, Step.bind_ok, Step.pure_ok] at h
  obtain ⟨planned, d₂, hplanned, relation, _, hrelation, rfl, rfl⟩ := h
  obtain ⟨-, rfl⟩ := RelationInfo.correlate_ok hrelation
  have htracks := (Query.plans outer query hplanned).tracks houter hd
  rw [Draft.Tracks, lineage_singleton, RelationInfo.lineage_correlate hrelation, ← lineage_singleton]
  exact htracks

/-- For a query that is planned outside of all scopes, each column of the result has the source that the added
operators show: none, or a table column to which one gets from the column by projections that pass columns
on, up to a scan of the table. -/
theorem Session.planQuery_lineage {s s' : Session} {g g' : Graph} {q : Query (Expr Q)}
    {correlation : Option Correlation} {p : Planned} (h : s.planQuery g q none correlation = (.ok p, g', s')) :
    ∃ added, g'.operators = g.operators ++ added ∧ ∀ c ∈ p.relation.columns,
      c.source = originIn added c.carrier ∧
        ∀ ref, c.source = some ref → TracesTo g'.operators ref c.carrier := by
  have honto : q.planAs [] correlation s.environment ⟨s.minted, g⟩ = _ := q.planAs_onto _ _ _
  obtain ⟨_, hplan, rfl⟩ := planQuery_ok h
  obtain ⟨hmap, rfl⟩ := Prod.mk.inj (honto.symm.trans hplan)
  obtain ⟨alone, hresult, rfl⟩ := Outcome.map_eq_ok.mp hmap
  rcases halone : q.planAs [] correlation s.environment ⟨s.minted, .empty⟩ with ⟨_, d⟩
  rw [halone] at hresult
  cases hresult
  have hsettled : Draft.Settled ⟨s.minted, .empty⟩ := fun v hv => by cases hv
  have htracks := Query.planAs_tracks rfl hsettled halone
  refine ⟨d.graph.operators, Graph.operators_onto g d.graph, fun c hc => ?_⟩
  have hcolumn : c ∈ [alone.relation].flatMap (·.columns) :=
    List.mem_flatMap.mpr ⟨alone.relation, List.mem_singleton_self _, hc⟩
  have hsource : c.source = originIn d.graph.operators c.carrier :=
    htracks (c.carrier, c.source) (mem_lineage.mpr ⟨c, hcolumn, rfl⟩)
  refine ⟨hsource, fun ref href => ?_⟩
  have htraces := tracesTo_of_originIn (hsource.symm.trans href)
  refine htraces.mono ?_
  rw [Draft.onto, Graph.operators_onto]
  exact List.subset_append_right _ _

namespace Sample

/-- `SELECT v.q, v.q AS again, count(*) FROM (SELECT * FROM a) AS v (p, q) GROUP BY v.q` -/
def renamed : Query (Expr Unit) :=
  let derived : TableRef (Expr Unit) := .derived (.select [relation "a"] { items := [.asterisk none] })
    (some { name := .quoted "v", columns := [.quoted "p", .quoted "q"] })
  let q := column ["v", "q"]
  .select [derived] { items := [.expr q none, .expr q (some (.quoted "again")), .expr count none], groupBy := [q] }

end Sample

/-- Neither the new names nor the repetition nor the grouping hide the table column. -/
theorem Session.planQuery_lineage_renamed : ∃ p g' s',
    Sample.tables.planQuery Sample.row.graph Sample.renamed none none = (.ok p, g', s') ∧
      p.relation.columns.map (fun c => c.source.map fun ref => (ref.table.name, ref.position)) =
        [some ("a", 1), some ("a", 1), none] ∧
      ∀ c ∈ p.relation.columns, ∀ ref, c.source = some ref → TracesTo g'.operators ref c.carrier := by
  have hsources : (Sample.tables.planQuery Sample.row.graph Sample.renamed none none).1.toOption.map
      (fun p => p.relation.columns.map fun c => c.source.map fun ref => (ref.table.name, ref.position)) =
      some [some ("a", 1), some ("a", 1), none] := by
    decide +kernel
  cases h : Sample.tables.planQuery Sample.row.graph Sample.renamed none none with
  | mk r rest =>
    rw [h] at hsources
    cases r with
    | error report => cases hsources
    | ok p =>
      obtain ⟨_, -, hcolumns⟩ := planQuery_lineage h
      exact ⟨p, rest.1, rest.2, rfl, Option.some.inj hsources, fun c hc => (hcolumns c hc).2⟩

end SqlPlan
