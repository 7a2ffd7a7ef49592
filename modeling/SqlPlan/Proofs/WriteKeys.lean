import SqlPlan.Proofs.PlanSoundness

namespace SqlPlan

variable {position terminal : Nat} {name : Name} {columns keys : List (Variable × Variable)} {output : Socket}

open List (Forall₂)

variable {Q : Type} {env : Environment} {d d₁ : Draft} {n m : Nat} {schema : Schema} {table : TableDecl}
  {scanned : List (Variable × Variable)} {ref : ColumnRef}

namespace TableDecl

/-- The table column at a position, if it is exported. -/
def exportedRef? (table : TableDecl) (position : Nat) : Option ColumnRef :=
  (ColumnRef.of? table position).filter (·.column.isExported)

theorem exportedRef?_eq_some : table.exportedRef? position = some ref ↔
    ColumnRef.of? table position = some ref ∧ ref ∈ table.exportedRefs := by
  simp only [exportedRef?, Option.filter_eq_some_iff]
  refine and_congr_right fun hof => ?_
  obtain ⟨c, hc, rfl⟩ := Option.map_eq_some_iff.mp hof
  simp [exportedRefs, List.mem_zipIdx_iff_getElem?, hc]

theorem of?_of_mem_exportedRefs (h : ref ∈ table.exportedRefs) :
    ColumnRef.of? table ref.position = some ref := by
  simp only [exportedRefs, List.mem_map, List.mem_filter, Prod.exists, List.mem_zipIdx_iff_getElem?] at h
  obtain ⟨c, i, ⟨hc, -⟩, rfl⟩ := h
  simp [ColumnRef.of?, hc]

end TableDecl

def scannedAs? (scanned : List (Variable × Variable)) (ref : ColumnRef) : Option Variable :=
  (scanned.find? fun p => p.1.columnRef? == some ref).map (·.2)

theorem scannedAs?_cons {p : Variable × Variable} : scannedAs? (p :: scanned) ref =
    if p.1.columnRef? = some ref then some p.2 else scannedAs? scanned ref := by
  by_cases h : p.1.columnRef? = some ref
  · rw [if_pos h, scannedAs?, List.find?_cons_of_pos (by simp [h]), Option.map_some]
  · rw [if_neg h, scannedAs?, List.find?_cons_of_neg (by simp [h]), scannedAs?]

/-- A key of a write: its destination is the table column, and its source is what the scan yields for it. -/
def KeyFor (scanned : List (Variable × Variable)) (ref : ColumnRef) (key : Variable × Variable) : Prop :=
  key.2.columnRef? = some ref ∧ scannedAs? scanned ref = some key.1

/-- A column of a scan and what the scanned relation says of it. -/
def ScanColumn (ref : ColumnRef) (c : (Variable × Variable) × ColumnInfo) : Prop :=
  c.1.1.columnRef? = some ref ∧ c.1.2 = c.2.carrier ∧ c.2.source = some ref

section Scanned

variable {refs : List ColumnRef} {cs : List ((Variable × Variable) × ColumnInfo)}

theorem scannedAs?_isSome (h : Forall₂ ScanColumn refs cs) :
    (scannedAs? (cs.map (·.1)) ref).isSome = true ↔ ref ∈ refs := by
  induction h with
  | nil => simp [scannedAs?]
  | @cons ref' c refs cs hc _ ih =>
    obtain ⟨hsource, -, -⟩ := hc
    rw [List.map_cons, scannedAs?_cons, hsource, List.mem_cons]
    by_cases heq : ref' = ref
    · simp [heq]
    · simp [heq, Ne.symm heq, ih]

theorem scanned?_eq (h : Forall₂ ScanColumn refs cs)
    (hrefs : ∀ ref ∈ refs, ColumnRef.of? table ref.position = some ref) {r : RelationInfo}
    (hr : r.columns = cs.map (·.2)) (hof : ColumnRef.of? table position = some ref) :
    r.scanned? position = scannedAs? (cs.map (·.1)) ref := by
  have hposition : ref.position = position := by
    obtain ⟨c, -, rfl⟩ := Option.map_eq_some_iff.mp hof
    rfl
  rw [RelationInfo.scanned?, hr]
  clear hr
  induction h with
  | nil => rfl
  | @cons ref' c refs cs hc _ ih =>
    obtain ⟨hsource, hcarrier, hinfo⟩ := hc
    obtain ⟨hof', hrefs⟩ := List.forall_mem_cons.mp hrefs
    have hiff : ref'.position = position ↔ ref' = ref := by
      constructor
      · rintro rfl
        exact Option.some_inj.mp (hof'.symm.trans hof)
      · rintro rfl
        exact hposition
    rw [List.map_cons, List.map_cons, scannedAs?_cons, hsource]
    by_cases heq : ref' = ref
    · rw [List.find?_cons_of_pos (by simp [hinfo, hiff.mpr heq]), if_pos (by rw [heq]), Option.map_some, hcarrier]
    · rw [List.find?_cons_of_neg (by simp [hinfo, hiff, heq]), if_neg (by simpa using heq)]
      exact ih hrefs

end Scanned

theorem Source.scanColumn_scans {c : (Variable × Variable) × ColumnInfo}
    (h : scanColumn ref env n = (.ok c, m)) : n ≤ m ∧ ScanColumn ref c := by
  simp only [scanColumn, Step.bind_ok, Analysis.stream_ok, Analysis.mint_ok, Step.pure_ok] at h
  obtain ⟨_, _, ⟨rfl, rfl⟩, _, _, ⟨rfl, rfl⟩, rfl, rfl⟩ := h
  exact ⟨by omega, rfl, rfl, rfl⟩

/-- A scan without correlation yields the exported columns, and its relation says where each comes from. -/
theorem Source.scan_scans {p : Planned} (h : scan name none env d = (.ok p, d₁))
    (htable : (name.resolveTable : Planning _) env d = (.ok (schema, table), d)) :
    ∃ cs, Forall₂ ScanColumn table.exportedRefs cs ∧ p.relation.columns = cs.map (·.2) ∧
      d₁.graph = d.graph.insert (.scan (schema.writeTarget table) (cs.map (·.1))) [] 1 := by
  simp only [scan, htable, Step.bind_ok, Planning.lift_ok, Planning.add_ok, Step.pure_ok, Prod.exists,
    Prod.mk.injEq, RelationInfo.correlate] at h
  obtain ⟨_, _, _, ⟨⟨rfl, rfl⟩, rfl⟩, cs, d₂, ⟨hcs, hg₂⟩, _, d₃, ⟨rfl, -, hg₃⟩, _, _, ⟨rfl, rfl⟩, rfl, rfl⟩ := h
  obtain ⟨-, hall⟩ := collect_map_ok (fun _ _ _ _ _ => scanColumn_scans) (collect_of_each hcs)
  refine ⟨cs, hall, rfl, ?_⟩
  rw [hg₃, hg₂]
  rfl

theorem forall₂_filterMap_iff {α β γ : Type} {f : α → Option β} {R : β → γ → Prop} {xs : List α} {ys : List γ}
    (h : ∀ x ∈ xs, ∃ b, f x = some b) :
    Forall₂ (fun x y => ∃ b, f x = some b ∧ R b y) xs ys ↔ Forall₂ R (xs.filterMap f) ys := by
  induction xs generalizing ys with
  | nil => simp
  | cons x xs ih =>
    obtain ⟨⟨b, hb⟩, h⟩ := List.forall_mem_cons.mp h
    rw [List.filterMap_cons_some hb, List.forall₂_cons_left_iff, List.forall₂_cons_left_iff]
    simp only [hb, Option.some.injEq, exists_eq_left', ih h]

theorem writeColumns_refs {pairs : List (Variable × ColumnRef)} (h : writeColumns pairs env n = (.ok columns, m)) :
    Forall₂ (fun p c => c.1 = p.1 ∧ c.2.columnRef? = some p.2) pairs columns := by
  refine (collect_map_ok (fun p _ n c m hc => ?_) (collect_of_each h)).2
  simp only [Step.bind_ok, Analysis.mint_ok, Step.pure_ok] at hc
  obtain ⟨_, _, ⟨rfl, rfl⟩, rfl, rfl⟩ := hc
  exact ⟨Nat.le_succ n, rfl, rfl⟩

section Keys

variable {cs : List ((Variable × Variable) × ColumnInfo)} {r : RelationInfo}

theorem writtenKey_eq (hcs : Forall₂ ScanColumn table.exportedRefs cs) (hr : r.columns = cs.map (·.2))
    (position : Nat) :
    (do
      let source ← r.scanned? position
      let ref ← ColumnRef.of? table position
      return (source, ref)) =
      (table.exportedRef? position).bind fun ref => (scannedAs? (cs.map (·.1)) ref).map (·, ref) := by
  cases hof : ColumnRef.of? table position with
  | none => simp [TableDecl.exportedRef?, hof]
  | some ref =>
    rw [scanned?_eq hcs (fun _ => TableDecl.of?_of_mem_exportedRefs) hr hof]
    by_cases hmem : ref ∈ table.exportedRefs
    · rw [TableDecl.exportedRef?_eq_some.mpr ⟨hof, hmem⟩, Option.bind_some]
      cases scannedAs? (cs.map (·.1)) ref <;> rfl
    · have hnone : scannedAs? (cs.map (·.1)) ref = none := by
        rw [← Option.not_isSome_iff_eq_none, scannedAs?_isSome hcs]
        exact hmem
      cases hexported : table.exportedRef? position with
      | none => simp [hnone]
      | some ref' =>
        obtain ⟨hof', hmem'⟩ := TableDecl.exportedRef?_eq_some.mp hexported
        cases hof.symm.trans hof'
        exact absurd hmem' hmem

/-- The keys of a write are the exported columns among the keys of the primary index, in their order. -/
theorem writeKeys_keyFor {index : IndexDecl} (hindex : schema.primaryIndex? table = some index)
    (hcs : Forall₂ ScanColumn table.exportedRefs cs) (hr : r.columns = cs.map (·.2))
    (h : writeKeys schema table r env n = (.ok keys, m)) :
    Forall₂ (KeyFor (cs.map (·.1))) (index.keys.filterMap fun key => table.exportedRef? key.position) keys := by
  have hrefs : ∀ ref ∈ index.keys.filterMap fun key => table.exportedRef? key.position,
      ∃ p, (scannedAs? (cs.map (·.1)) ref).map (·, ref) = some p := by
    intro ref href
    obtain ⟨key, -, hkey⟩ := List.mem_filterMap.mp href
    obtain ⟨v, hv⟩ := Option.isSome_iff_exists.mp
      ((scannedAs?_isSome hcs).mpr (TableDecl.exportedRef?_eq_some.mp hkey).2)
    exact ⟨(v, ref), by rw [hv, Option.map_some]⟩
  simp only [writeKeys, hindex, writtenKey_eq hcs hr] at h
  have hcolumns := writeColumns_refs h
  rw [← List.filterMap_filterMap, ← forall₂_filterMap_iff hrefs] at hcolumns
  refine hcolumns.imp fun ref key hkey => ?_
  obtain ⟨p, hp, hsource, hdestination⟩ := hkey
  obtain ⟨v, hv, rfl⟩ := Option.map_eq_some_iff.mp hp
  exact ⟨hdestination, hsource ▸ hv⟩

end Keys

/-- The graph of a write: a scan of what is written, filters and projections over it, and the write. -/
def Graph.Rewrites (g : Graph) (terminal : Nat) (kind : WriteKind) (target : Relation)
    (scanned keys : List (Variable × Variable)) : Prop :=
  ∃ steps columns, g.operators = .scan target scanned :: (steps ++ [.write kind target keys columns]) ∧
    terminal = steps.length + 1 ∧ ∀ operator ∈ steps, operator.kind = .filter ∨ operator.kind = .project

/-- The keys of a write to a table: those of its primary index that are exported. They are all of them if
and only if every key column of the index is exported. -/
def KeysOf (schema : Schema) (table : TableDecl) (scanned keys : List (Variable × Variable)) : Prop :=
  match schema.primaryIndex? table with
  | none => keys = []
  | some index =>
    Forall₂ (KeyFor scanned) (index.keys.filterMap fun key => table.exportedRef? key.position) keys ∧
      (Forall₂ (fun key k => ∃ ref, ColumnRef.of? table key.position = some ref ∧ KeyFor scanned ref k)
        index.keys keys ↔ ∀ key ∈ index.keys, ∃ ref, table.exportedRef? key.position = some ref)

theorem writeKeys_keysOf {cs : List ((Variable × Variable) × ColumnInfo)} {r : RelationInfo}
    (hcs : Forall₂ ScanColumn table.exportedRefs cs) (hr : r.columns = cs.map (·.2))
    (h : writeKeys schema table r env n = (.ok keys, m)) : KeysOf schema table (cs.map (·.1)) keys := by
  unfold KeysOf
  cases hindex : schema.primaryIndex? table with
  | none =>
    simp only [writeKeys, hindex, Step.pure_ok] at h
    exact h.1.symm
  | some index =>
    have hkeys := writeKeys_keyFor hindex hcs hr h
    refine ⟨hkeys, fun hall key hkey => ?_, fun hexported => ?_⟩
    · obtain ⟨k, -, ref, hof, -, hsource⟩ := exists_of_forall₂ hall.flip key hkey
      have hmem := (scannedAs?_isSome hcs).mp (Option.isSome_iff_exists.mpr ⟨_, hsource⟩)
      exact ⟨ref, TableDecl.exportedRef?_eq_some.mpr ⟨hof, hmem⟩⟩
    · rw [← forall₂_filterMap_iff hexported] at hkeys
      refine hkeys.imp fun key k hk => ?_
      obtain ⟨ref, href, hfor⟩ := hk
      exact ⟨ref, (TableDecl.exportedRef?_eq_some.mp href).1, hfor⟩

theorem writtenRows_operators {condition : Option (Expr Q)} {r : RelationInfo}
    (htable : ∀ d : Draft, name.resolveTable env d = (.ok (schema, table), d))
    (h : writtenRows name condition env ⟨n, .empty⟩ = (.ok (output, r), d)) :
    ∃ cs steps, Forall₂ ScanColumn table.exportedRefs cs ∧ r.columns = cs.map (·.2) ∧
      d.graph.operators = .scan (schema.writeTarget table) (cs.map (·.1)) :: steps ∧
      ∀ operator ∈ steps, operator.kind = .filter := by
  obtain ⟨p, d₁, hscan, rfl, hfilter⟩ := writtenRows_ok h
  obtain ⟨cs, hcs, hr, hg⟩ := Source.scan_scans hscan (htable _)
  have hoperators : d₁.graph.operators = [.scan (schema.writeTarget table) (cs.map (·.1))] := by
    rw [hg, Graph.operators_insert]
    rfl
  rcases hfilter with ⟨-, rfl⟩ | ⟨e, x, k, -, -, -, -, hg'⟩
  · exact ⟨cs, [], hcs, hr, hoperators, by simp⟩
  · refine ⟨cs, [.filter x.expr], hcs, hr, ?_, by simp [Operator.kind]⟩
    rw [hg', Graph.operators_insert, hoperators]
    rfl

theorem Graph.rewrites_insert {g : Graph} {kind : WriteKind} {target : Relation} {steps : List Operator}
    (hg : g.operators = .scan target scanned :: steps)
    (hsteps : ∀ operator ∈ steps, operator.kind = .filter ∨ operator.kind = .project) :
    (g.insert (.write kind target keys columns) [output] 0).Rewrites g.size kind target scanned keys := by
  refine ⟨steps, columns, ?_, ?_, hsteps⟩
  · rw [operators_insert, hg]
    rfl
  · rw [← length_operators, hg, List.length_cons]

theorem Update.plan_keys {u : Update (Expr Q)} (h : u.plan env ⟨n, .empty⟩ = (.ok terminal, d)) :
    ∃ schema table scanned keys, (∀ d : Draft, u.table.resolveTable env d = (.ok (schema, table), d)) ∧
      d.graph.Rewrites terminal .update (schema.writeTarget table) scanned keys ∧
      KeysOf schema table scanned keys := by
  obtain ⟨schema, table, positions, output, r, d₂, assigned, d₃, o, d₄, keys, d₅, htable, hrows, -, hg₃, ho, hkeys, hg₅,
    hsink⟩ := plan_ok h
  obtain ⟨-, -, hg₄⟩ := Planning.add_ok.mp ho
  obtain ⟨rfl, -, hg⟩ := Planning.addSink_ok.mp hsink
  obtain ⟨cs, steps, hcs, hr, hoperators, hsteps⟩ := writtenRows_operators htable hrows
  refine ⟨schema, table, cs.map (·.1), keys, htable, ?_, writeKeys_keysOf hcs hr hkeys⟩
  have hproject : d₅.graph.operators = .scan (schema.writeTarget table) (cs.map (·.1)) ::
      (steps ++ [.project (assigned.map (·.1))]) := by
    rw [hg₅, hg₄, Graph.operators_insert, hg₃, hoperators]
    rfl
  rw [hg]
  refine Graph.rewrites_insert hproject fun operator hmem => ?_
  rcases List.mem_append.mp hmem with hmem | hmem
  · exact .inl (hsteps operator hmem)
  · rw [List.mem_singleton.mp hmem]
    exact .inr rfl

theorem Delete.plan_keys {q : Delete (Expr Q)} (h : q.plan env ⟨n, .empty⟩ = (.ok terminal, d)) :
    ∃ schema table scanned keys, (∀ d : Draft, q.table.resolveTable env d = (.ok (schema, table), d)) ∧
      d.graph.Rewrites terminal .delete (schema.writeTarget table) scanned keys ∧
      KeysOf schema table scanned keys := by
  obtain ⟨schema, table, output, r, d₂, keys, d₃, htable, hrows, hkeys, hg₃, hsink⟩ := plan_ok h
  obtain ⟨rfl, -, hg⟩ := Planning.addSink_ok.mp hsink
  obtain ⟨cs, steps, hcs, hr, hoperators, hsteps⟩ := writtenRows_operators htable hrows
  refine ⟨schema, table, cs.map (·.1), keys, htable, ?_, writeKeys_keysOf hcs hr hkeys⟩
  rw [hg]
  refine Graph.rewrites_insert ?_ fun operator hmem => .inl (hsteps operator hmem)
  rw [hg₃, hoperators]

/-- The table whose rows a statement identifies by their keys, and what it does to them. -/
def Statement.rewritten? : Statement (Expr Q) → Option (WriteKind × Name)
  | .update u => some (.update, u.table)
  | .delete d => some (.delete, d.table)
  | _ => none

/-- An UPDATE or a DELETE scans its table and writes it back, with the key columns of the primary index as
keys, each from the column of the scan that holds it. Key columns that are not exported are left out. -/
theorem Session.write_keys {s s' : Session} {statement : Statement (Expr Q)} {kind : WriteKind} {name : Name}
    {p : ExecutionPlan} (hname : statement.rewritten? = some (kind, name))
    (h : s.resolveStatement statement = (.ok (.plan p), s')) :
    ∃ schema table scanned keys, (∀ d : Draft, name.resolveTable s.environment d = (.ok (schema, table), d)) ∧
      p.graph.Rewrites p.terminal kind (schema.writeTarget table) scanned keys ∧
      KeysOf schema table scanned keys := by
  obtain ⟨m, hm⟩ := resolveStatement_ok h
  cases statement with
  | update u =>
    cases hname
    obtain ⟨terminal, d, hd, hp⟩ := Planning.complete_ok hm
    cases hp
    exact Update.plan_keys hd
  | delete q =>
    cases hname
    obtain ⟨terminal, d, hd, hp⟩ := Planning.complete_ok hm
    cases hp
    exact Delete.plan_keys hd
  | _ => cases hname

namespace Sample

def pair : TableDecl where
  oid := ⟨0, 1⟩
  name := "pair"
  schema := "s"
  columns := [{ name := "a", type := .int4 }, { name := "b", type := .int4 }, { name := "c", type := .int4 }]

def hid : TableDecl where
  oid := ⟨0, 2⟩
  name := "hid"
  schema := "s"
  columns := [{ name := "rowid", type := .int8, features.hidden := true }, { name := "a", type := .int4 }]

/-- The primary index of `pair` has its columns in the opposite order, that of `hid` a hidden one. -/
def keyedSchema : Schema where
  name := "s"
  stored := 2
  tableMap := [("pair", pair), ("hid", hid)]
  indexMap := [("pair_pk", .primaryOf "pair_pk" pair [1, 0]), ("hid_pk", .primaryOf "hid_pk" hid [0])]

def keyed : Session where
  environment.catalog := { name := "db", schemas := [keyedSchema] }

/-- `UPDATE pair SET a = c WHERE a = b` -/
def updatePair : Statement (Expr Unit) :=
  .update {
    table := ⟨[.quoted "pair"]⟩
    assignments := [{ column := .quoted "a", value := column ["c"] }]
    condition := some (.comparison .equal (column ["a"]) (column ["b"])) }

/-- `DELETE FROM hid` -/
def deleteHid : Statement (Expr Unit) := .delete { table := ⟨[.quoted "hid"]⟩ }

def deletesWithoutKey (destination : Relation) : Option Operator → Bool
  | some (.write .delete target [] _) => target == destination
  | _ => false

end Sample

theorem Session.write_keys_updatePair : ∃ p s' scanned keys,
    Sample.keyed.resolveStatement Sample.updatePair = (.ok (.plan p), s') ∧
      p.graph.Rewrites p.terminal .update (Sample.keyedSchema.writeTarget Sample.pair) scanned keys ∧
      Forall₂ (fun position key => ∃ ref, ColumnRef.of? Sample.pair position = some ref ∧ KeyFor scanned ref key)
        [1, 0] keys := by
  have hplan : Sample.keyed.planMeets Sample.updatePair (fun _ => true) = true := by decide +kernel
  obtain ⟨p, s', h, -⟩ := exists_plan _ hplan
  obtain ⟨schema, table, scanned, keys, htable, hrewrites, hkeys⟩ := write_keys rfl h
  cases (htable ⟨0, .empty⟩).symm.trans (show _ = (.ok (Sample.keyedSchema, Sample.pair), _) from rfl)
  have hindex : Sample.keyedSchema.primaryIndex? Sample.pair = some (.primaryOf "pair_pk" Sample.pair [1, 0]) := rfl
  rw [KeysOf, hindex] at hkeys
  refine ⟨p, s', scanned, keys, h, hrewrites, List.forall₂_map_left_iff.mp (hkeys.2.mpr fun key hkey => ?_)⟩
  obtain ⟨position, hposition, rfl⟩ := List.mem_map.mp hkey
  refine Option.isSome_iff_exists.mp ?_
  revert position
  decide

/-- A key column that is hidden is missing from the keys of a write. -/
theorem Session.write_keys_deleteHid : ∃ p s' columns,
    Sample.keyed.resolveStatement Sample.deleteHid = (.ok (.plan p), s') ∧
      p.graph.operator? p.terminal =
        some (.write .delete (.index (.primaryOf "hid_pk" Sample.hid [0])) [] columns) := by
  have hplan : Sample.keyed.planMeets Sample.deleteHid (fun p =>
      Sample.deletesWithoutKey (.index (.primaryOf "hid_pk" Sample.hid [0])) (p.graph.operator? p.terminal)) =
        true := by
    decide +kernel
  obtain ⟨p, s', h, htest⟩ := exists_plan _ hplan
  unfold Sample.deletesWithoutKey at htest
  split at htest
  · next target columns hoperator =>
    rw [beq_iff_eq.mp htest] at hoperator
    exact ⟨p, s', columns, h, hoperator⟩
  · cases htest

end SqlPlan
