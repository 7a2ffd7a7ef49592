import SqlPlan.Proofs.WriteKeys

namespace SqlPlan

variable {σ : Type} {position terminal : Nat} {c : ColumnDecl} {columns : List Identifier} {refs : List ColumnRef}

open List (Forall₂)

section Rearrange

variable {α β : Type} {order : List Nat} {xs : List α} {ys : List β}

/-- The elements at the given positions, in their order. -/
def rearrange (order : List Nat) (xs : List α) : List α := order.filterMap (xs[·]?)

theorem rearrange_range (xs : List α) : rearrange (List.range xs.length) xs = xs := by
  induction xs with
  | nil => rfl
  | cons x xs ih =>
    have hzero : (x :: xs)[0]? = some x := rfl
    rw [List.length_cons, List.range_succ_eq_map, rearrange, List.filterMap_cons_some hzero, List.filterMap_map]
    exact congrArg (x :: ·) ih

theorem rearrange_perm (h : order.Perm (List.range xs.length)) : (rearrange order xs).Perm xs := by
  have hperm := h.filterMap (xs[·]?)
  rwa [show (List.range xs.length).filterMap (xs[·]?) = xs from rearrange_range xs] at hperm

theorem zip_rearrange (h : xs.length = ys.length) (order : List Nat) :
    (rearrange order xs).zip (rearrange order ys) = rearrange order (xs.zip ys) := by
  induction order with
  | nil => rfl
  | cons k order ih =>
    unfold rearrange at ih ⊢
    by_cases hk : k < xs.length
    · obtain ⟨x, hx⟩ : ∃ x, xs[k]? = some x := ⟨_, List.getElem?_eq_getElem hk⟩
      obtain ⟨y, hy⟩ : ∃ y, ys[k]? = some y := ⟨_, List.getElem?_eq_getElem (h ▸ hk)⟩
      have hz : (xs.zip ys)[k]? = some (x, y) := List.getElem?_zip_eq_some.mpr ⟨hx, hy⟩
      rw [List.filterMap_cons_some hx, List.filterMap_cons_some hy, List.filterMap_cons_some hz, List.zip_cons_cons,
        ih]
    · have hx : xs[k]? = none := List.getElem?_eq_none (by omega)
      have hy : ys[k]? = none := List.getElem?_eq_none (by omega)
      have hz : (xs.zip ys)[k]? = none := List.getElem?_eq_none (by rw [List.length_zip]; omega)
      rw [List.filterMap_cons_none hx, List.filterMap_cons_none hy, List.filterMap_cons_none hz, ih]

theorem forall₂_rearrange {R : α → β → Prop} (h : Forall₂ R xs ys) (order : List Nat) :
    Forall₂ R (rearrange order xs) (rearrange order ys) := by
  induction order with
  | nil => exact .nil
  | cons k order ih =>
    unfold rearrange at ih ⊢
    cases hx : xs[k]? with
    | none =>
      have hlength := h.length_eq
      have hy : ys[k]? = none := List.getElem?_eq_none (by rw [List.getElem?_eq_none_iff] at hx; omega)
      rwa [List.filterMap_cons_none hx, List.filterMap_cons_none hy]
    | some x =>
      obtain ⟨y, hy, hr⟩ := getElem?_of_forall₂ h.flip hx
      rw [List.filterMap_cons_some hx, List.filterMap_cons_some hy]
      exact .cons hr ih

end Rearrange

variable {Q : Type} {env : Environment} {schema : Schema} {table : TableDecl}

namespace TableDecl

def Names (env : Environment) (table : TableDecl) (identifier : Identifier) (position : Nat) : Prop :=
  ∃ c, table.column? (env.options.key identifier) = some (position, c) ∧ c.isExported = true

theorem resolveColumn_ok {s s' : σ} {identifier : Identifier} :
    (table.resolveColumn identifier : Step σ _) env s = (.ok (position, c), s') ↔
      (table.column? (env.options.key identifier) = some (position, c) ∧ c.isExported = true) ∧ s = s' := by
  have hoptions : (Step.options : Step σ _) env s = (.ok env.options, s) := rfl
  rw [resolveColumn, Step.bind_eq_of_ok hoptions]
  rcases hcolumn : table.column? (env.options.key identifier) with _ | ⟨q, d⟩
  · simp
  · simp only [Step.ite_ok, Step.pure_ok, Step.fail_ok, and_false, or_false, Option.some.injEq, Prod.mk.injEq]
    constructor
    · rintro ⟨hexported, ⟨rfl, rfl⟩, rfl⟩
      exact ⟨⟨⟨rfl, rfl⟩, hexported⟩, rfl⟩
    · rintro ⟨⟨⟨rfl, rfl⟩, hexported⟩, rfl⟩
      exact ⟨hexported, ⟨rfl, rfl⟩, rfl⟩

theorem resolveColumns_ok {s s' : σ} {seen : List Nat} {positions : List Nat} :
    (table.resolveColumns seen columns : Step σ _) env s = (.ok positions, s') ↔
      (Forall₂ (table.Names env) columns positions ∧ positions.Nodup ∧ ∀ p ∈ positions, p ∉ seen) ∧ s = s' := by
  induction columns generalizing seen positions s with
  | nil =>
    rw [resolveColumns, Step.pure_ok, List.forall₂_nil_left_iff]
    constructor
    · rintro ⟨rfl, rfl⟩
      simp
    · rintro ⟨⟨rfl, -⟩, rfl⟩
      exact ⟨rfl, rfl⟩
  | cons identifier rest ih =>
    simp only [resolveColumns, Step.bind_ok, Prod.exists, resolveColumn_ok, Step.ite_ok, Step.fail_ok, and_false,
      false_or, Step.pure_ok, List.contains_eq_mem, decide_eq_true_eq]
    constructor
    · rintro ⟨position, c, t, ⟨hname, rfl⟩, hseen, others, _, hothers, rfl, rfl⟩
      obtain ⟨⟨hall, hnodup, hnew⟩, rfl⟩ := ih.mp hothers
      obtain ⟨hhead, htail⟩ : position ∉ others ∧ ∀ p ∈ others, p ∉ seen := by
        refine ⟨fun h => hnew _ h List.mem_cons_self, fun p hp h => hnew p hp (List.mem_cons_of_mem _ h)⟩
      exact ⟨⟨.cons ⟨c, hname⟩ hall, hnodup.cons hhead, List.forall_mem_cons.mpr ⟨hseen, htail⟩⟩, rfl⟩
    · rintro ⟨⟨hall, hnodup, hnew⟩, rfl⟩
      rcases hall with _ | ⟨⟨c, hname⟩, hall⟩
      obtain ⟨hhead, hnodup⟩ := List.nodup_cons.mp hnodup
      obtain ⟨hseen, hnew⟩ := List.forall_mem_cons.mp hnew
      refine ⟨_, c, s, ⟨hname, rfl⟩, hseen, _, s, ih.mpr ⟨⟨hall, hnodup, fun p hp => ?_⟩, rfl⟩, rfl, rfl⟩
      rw [List.mem_cons, not_or]
      exact ⟨fun h => hhead (h ▸ hp), hnew p hp⟩

/-- The references are to the exported columns, in the order of the table. -/
structure ListsExported (table : TableDecl) (refs : List ColumnRef) : Prop where
  mem : ∀ ref, ref ∈ refs ↔
    ref.table = table ∧ table.columns[ref.position]? = some ref.column ∧ ref.column.isExported = true
  ordered : (refs.map (·.position)).Pairwise (· < ·)

theorem listsExported (table : TableDecl) : table.ListsExported table.exportedRefs where
  mem := by
    rintro ⟨t, position, c⟩
    simp only [exportedRefs, List.mem_map, List.mem_filter, Prod.exists, List.mem_zipIdx_iff_getElem?,
      ColumnRef.mk.injEq]
    constructor
    · rintro ⟨_, _, h, rfl, rfl, rfl⟩
      exact ⟨rfl, h⟩
    · rintro ⟨rfl, h⟩
      exact ⟨_, _, h, rfl, rfl, rfl⟩
  ordered := by
    have hpositions : table.columns.zipIdx.Pairwise fun a b => a.2 < b.2 := by
      rw [← List.pairwise_map (f := Prod.snd), List.zipIdx_map_snd]
      exact List.pairwise_lt_range'
    rw [exportedRefs, List.map_map, List.pairwise_map]
    exact hpositions.filter _

theorem exportedPositions_eq (table : TableDecl) :
    table.exportedPositions = table.exportedRefs.map (·.position) := by
  rw [exportedPositions, exportedRefs, List.map_map]
  rfl

end TableDecl

theorem Step.each_congr {α β : Type} {f g : α → Step σ β} {xs : List α} (h : ∀ x ∈ xs, f x = g x) :
    each f xs = each g xs := by
  induction xs with
  | nil => rfl
  | cons x xs ih =>
    obtain ⟨hx, hxs⟩ := List.forall_mem_cons.mp h
    rw [each, each, hx, ih hxs]

theorem writeColumns_zip {columns : List Variable} {written : List (Variable × Variable)} {n m : Nat}
    (hlength : columns.length = refs.length) (h : writeColumns (columns.zip refs) env n = (.ok written, m)) :
    ∃ destinations, written = columns.zip destinations ∧
      destinations.map Variable.columnRef? = refs.map some := by
  have hpairs := writeColumns_refs h
  refine ⟨written.map (·.2), List.zip_of_prod ?_ rfl, ?_⟩
  · rw [map_eq_of_forall₂ (hpairs.imp fun _ _ h => h.1), List.map_fst_zip (by omega)]
  · calc (written.map (·.2)).map Variable.columnRef?
      _ = (columns.zip refs).map (some ∘ Prod.snd) := by
        rw [List.map_map]
        exact map_eq_of_forall₂ (hpairs.imp fun _ _ h => h.2)
      _ = refs.map some := by rw [← List.map_map, List.map_snd_zip (by omega)]

theorem ColumnDecl.assign_eq_ite {value v : Scalar} {type : SqlType} {location : Option Span} {s s' : σ}
    (h : c.assign value type location env s = (.ok v, s')) :
    type.isAssignable c.type = true ∧
      v = if type = c.type ∨ type = .unknown then value else .cast .error c.type value := by
  unfold assign at h
  split at h
  · cases h
  · rename_i hassignable
    refine ⟨by simpa using hassignable, ?_⟩
    split at h <;> cases h <;> simp_all

namespace Insert

variable {targets : List Nat} {row : List (Expr Q)} {ref : ColumnRef} {n m : Nat}

theorem slot_eq_some_iff {α : Type} {xs : List α} {x : α} (h : targets.Nodup) :
    ((targets.idxOf? position).bind fun slot => xs[slot]?) = some x ↔ (position, x) ∈ targets.zip xs := by
  simp only [Option.bind_eq_some_iff, List.mem_iff_getElem?, List.getElem?_zip_eq_some]
  refine exists_congr fun slot => and_congr_left fun _ => ?_
  rw [List.idxOf?_eq_some_iff, List.getElem?_eq_some_iff]
  constructor
  · rintro ⟨hlt, heq, -⟩
    exact ⟨hlt, heq⟩
  · rintro ⟨hlt, heq⟩
    refine ⟨hlt, heq, fun j hj hsame => ?_⟩
    have := h.getElem_inj_iff.mp (hsame.trans heq.symm)
    omega

theorem slot_rearrange {α : Type} {xs : List α} {order : List Nat} (h : targets.Nodup)
    (hlength : xs.length = targets.length) (horder : order.Perm (List.range targets.length)) :
    (((rearrange order targets).idxOf? position).bind fun slot => (rearrange order xs)[slot]?) =
      (targets.idxOf? position).bind fun slot => xs[slot]? := by
  have hnodup : (rearrange order targets).Nodup := (rearrange_perm horder).nodup_iff.mpr h
  have hperm : (rearrange order (targets.zip xs)).Perm (targets.zip xs) := by
    refine rearrange_perm ?_
    rwa [List.length_zip, hlength, Nat.min_self]
  refine Option.ext fun x => ?_
  rw [slot_eq_some_iff hnodup, slot_eq_some_iff h, zip_rearrange hlength.symm, hperm.mem_iff]

/-- What is written into a column: the expression in its slot, resolved against the type and the default of
the column and cast if it is of another type, or the default if the column is not a target. -/
inductive CellOf (env : Environment) (targets : List Nat) (row : List (Expr Q)) (ref : ColumnRef) :
    Scalar → Prop where
  | slot {slot n m : Nat} {e : Expr Q} {x : Typed} : targets[slot]? = some ref.position → row[slot]? = some e →
      e.resolve [] (some ⟨ref.column.type, some (ref.column.default.getD .null)⟩) env n = (.ok x, m) →
      x.aggregated = false → x.type.isAssignable ref.column.type = true →
      CellOf env targets row ref (if x.type = ref.column.type ∨ x.type = .unknown then x.expr
        else .cast .error ref.column.type x.expr)
  | default : ref.position ∉ targets →
      CellOf env targets row ref (.immediate (ref.column.default.getD .null) ref.column.type)

theorem cell_cellOf {s : Scalar} (hnodup : targets.Nodup) (hlength : row.length = targets.length)
    (h : cell [] targets row ref env n = (.ok s, m)) : CellOf env targets row ref s := by
  unfold cell at h
  cases hslot : (targets.idxOf? ref.position).bind fun slot => row[slot]? with
  | none =>
    simp only [hslot, Step.pure_ok] at h
    obtain ⟨rfl, -⟩ := h
    -- The row has an expression for every target, so a column without one is no target.
    refine .default fun hmem => ?_
    obtain ⟨slot, htarget⟩ := List.mem_iff_getElem?.mp hmem
    have hlt : slot < row.length := hlength ▸ (List.getElem?_eq_some_iff.mp htarget).1
    have hpair : (targets.zip row)[slot]? = some (ref.position, row[slot]) :=
      List.getElem?_zip_eq_some.mpr ⟨htarget, List.getElem?_eq_getElem hlt⟩
    cases hslot.symm.trans ((slot_eq_some_iff hnodup).mpr (List.mem_of_getElem? hpair))
  | some e =>
    simp only [hslot, ColumnDecl.resolveCell, Step.bind_ok, Step.ite_ok, Step.fail_ok, and_false, false_or,
      Bool.not_eq_true] at h
    obtain ⟨x, k, hx, hagg, hassign⟩ := h
    obtain ⟨slot, hpair⟩ := List.mem_iff_getElem?.mp ((slot_eq_some_iff hnodup).mp hslot)
    obtain ⟨htarget, he⟩ := List.getElem?_zip_eq_some.mp hpair
    obtain ⟨hassignable, rfl⟩ := ColumnDecl.assign_eq_ite hassign
    exact .slot htarget he hx hagg hassignable

/-- What is written for a row: it has an expression for each target, and a cell for each column. -/
def RowOf (env : Environment) (refs : List ColumnRef) (targets : List Nat) (row : List (Expr Q))
    (cells : List Scalar) : Prop :=
  row.length = targets.length ∧ Forall₂ (CellOf env targets row) refs cells

theorem row_rowOf {p : List (Expr Q) × Nat} {cells : List Scalar} (hnodup : targets.Nodup)
    (h : Insert.row [] table targets p env n = (.ok cells, m)) :
    n ≤ m ∧ RowOf env table.exportedRefs targets p.1 cells := by
  obtain ⟨row, i⟩ := p
  simp only [Insert.row, Step.ite_ok, Step.fail_ok, and_false, false_or, not_not] at h
  obtain ⟨hlength, hcells⟩ := h
  obtain ⟨hle, hall⟩ := collect_map_ok (fun _ _ _ _ _ hcell => ⟨(cell_ok hcell).1, cell_cellOf hnodup hlength hcell⟩)
    (collect_of_each hcells)
  exact ⟨hle, hlength, hall⟩

variable {d d₁ : Draft} {rows : List (List (Expr Q))} {order : List Nat}

theorem values_rowOf {columns : List Variable} {output : Socket} (hnodup : targets.Nodup)
    (h : values table targets rows env d = (.ok (output, columns), d₁)) :
    ∃ cells, Forall₂ (RowOf env table.exportedRefs targets) rows cells ∧
      columns.length = table.exportedRefs.length ∧ Fresh d.minted columns d₁.minted ∧
      output = ⟨d.graph.size, 0⟩ ∧ d₁.graph = d.graph.insert (.values columns cells) [] 1 := by
  simp only [values, addValues, Step.bind_ok, Planning.lift_ok, Planning.add_ok, Step.pure_ok, Prod.mk.injEq] at h
  obtain ⟨cells, d₂, ⟨hcells, hg₂⟩, columns, d₃, ⟨hcolumns, hg₃⟩, _, _, ⟨rfl, hm, hg⟩, ⟨rfl, rfl⟩, rfl⟩ := h
  obtain ⟨hle, hrows⟩ := collect_map_ok (fun _ _ _ _ _ => row_rowOf hnodup) (collect_of_each hcells)
  obtain ⟨-, hfresh, hlength⟩ := each_minted (P := fun _ _ => True) id (fun ref n v m hv => by
    obtain ⟨rfl, rfl⟩ := Analysis.stream_ok.mp hv
    exact ⟨⟨_, rfl⟩, Nat.le_refl _, trivial⟩) hcolumns
  rw [List.map_id] at hfresh
  rw [hg₃, hg₂] at hg
  refine ⟨cells, ?_, hlength.length_eq.symm, ?_, ?_, hg⟩
  · rwa [← List.forall₂_map_left_iff, List.zipIdx_map_fst] at hrows
  · rw [hm]
    exact hfresh.mono hle (Nat.le_refl _)
  · rw [hg₃, hg₂]

theorem row_rearrange {row : List (Expr Q)} (hnodup : targets.Nodup) (hlength : row.length = targets.length)
    (horder : order.Perm (List.range targets.length)) (i : Nat) :
    Insert.row [] table (rearrange order targets) (rearrange order row, i) = Insert.row [] table targets (row, i) := by
  have htargets : (rearrange order targets).length = targets.length := (rearrange_perm horder).length_eq
  have hrow : (rearrange order row).length = row.length := (rearrange_perm (hlength ▸ horder)).length_eq
  have hcell : cell [] (rearrange order targets) (rearrange order row) = cell [] targets row := by
    funext ref
    rw [cell, cell, slot_rearrange hnodup hlength horder]
  simp only [Insert.row, htargets, hrow, hlength, ne_eq, not_true_eq_false, if_false, hcell]

theorem values_rearrange (hnodup : targets.Nodup) (hlength : ∀ row ∈ rows, row.length = targets.length)
    (horder : order.Perm (List.range targets.length)) :
    values table (rearrange order targets) (rows.map (rearrange order)) = values table targets rows := by
  have hrows : Step.each (Insert.row [] table (rearrange order targets)) (rows.map (rearrange order)).zipIdx =
      Step.each (Insert.row [] table targets) rows.zipIdx := by
    rw [List.zipIdx_map, Step.each_map]
    exact Step.each_congr fun p hp => row_rearrange hnodup (hlength p.1 (List.fst_mem_of_mem_zipIdx hp)) horder p.2
  rw [values, values, hrows]

variable {i : Insert (Expr Q)}

theorem plan_values (hsource : i.source = .values rows) : i.plan = (do
    let (schema, table) ← i.table.resolveTable
    let targets ← i.targets table
    values table targets rows >>= addWrite schema table) := by
  simp only [plan, Insert.rows, hsource]

theorem plan_eq_of_ok (hsource : i.source = .values rows)
    (htable : (i.table.resolveTable : Planning _) env d = (.ok (schema, table), d))
    (htargets : i.targets table env d = (.ok targets, d)) :
    i.plan env d = (values table targets rows >>= addWrite schema table) env d := by
  rw [plan_values hsource, Step.bind_eq_of_ok htable]
  exact Step.bind_eq_of_ok htargets

/-- The targets are distinct: the columns named, or those written if none is named. -/
structure TargetsOf (env : Environment) (table : TableDecl) (refs : List ColumnRef) (columns : List Identifier)
    (targets : List Nat) : Prop where
  named : columns ≠ [] → Forall₂ (table.Names env) columns targets
  unnamed : columns = [] → targets = refs.map (·.position)
  distinct : targets.Nodup

theorem targets_ok : i.targets table env d = (.ok targets, d₁) ↔
    TargetsOf env table table.exportedRefs i.columns targets ∧ d = d₁ := by
  have hexported : (table.exportedRefs.map (·.position)).Nodup :=
    table.listsExported.ordered.imp fun h => Nat.ne_of_lt h
  unfold Insert.targets
  cases hcolumns : i.columns with
  | nil =>
    simp only [List.isEmpty_nil, if_true, Step.pure_ok, TableDecl.exportedPositions_eq]
    refine and_congr_left fun _ => ⟨?_, fun h => (h.unnamed rfl).symm⟩
    rintro rfl
    exact ⟨fun h => absurd rfl h, fun _ => rfl, hexported⟩
  | cons c cs =>
    simp only [List.isEmpty_cons, Bool.false_eq_true, if_false, TableDecl.resolveColumns_ok]
    refine and_congr_left fun _ => ⟨?_, fun h => ⟨h.named (List.cons_ne_nil c cs), h.distinct, by simp⟩⟩
    rintro ⟨hall, hnodup, -⟩
    exact ⟨fun _ => hall, fun h => absurd h (List.cons_ne_nil c cs), hnodup⟩

/-- The plan of an INSERT of rows: an operator for the rows, with a column for each exported column of the
table, and a write of these columns. -/
def Fills (env : Environment) (i : Insert (Expr Q)) (rows : List (List (Expr Q))) (p : ExecutionPlan) : Prop :=
  ∃ schema table refs targets columns destinations cells,
    (∀ d, (i.table.resolveTable : Planning _) env d = (.ok (schema, table), d)) ∧
    table.ListsExported refs ∧ TargetsOf env table refs i.columns targets ∧
    p = ⟨.insert, ⟨[⟨.values columns cells, [], [some ⟨1, 0⟩]⟩,
      ⟨.write .insert (schema.writeTarget table) [] (columns.zip destinations), [some ⟨0, 0⟩], []⟩]⟩, 1⟩ ∧
    destinations.map Variable.columnRef? = refs.map some ∧ columns.length = destinations.length ∧
    columns.Nodup ∧ Forall₂ (RowOf env refs targets) rows cells

theorem plan_fills (hsource : i.source = .values rows) (h : i.plan env ⟨n, .empty⟩ = (.ok terminal, d₁)) :
    Fills env i rows ⟨.insert, d₁.graph, terminal⟩ := by
  simp only [plan_values hsource, addWrite, Step.bind_ok, Prod.exists, Planning.lift_ok, Planning.addSink_ok] at h
  obtain ⟨schema, table, d₀, htable, targets, d₂, htargets, output, columns, d₃, hvalues, written, d₄,
    ⟨hwritten, hg₄⟩, rfl, -, hg⟩ := h
  obtain ⟨rfl, htables⟩ := (Name.resolveTable_reads _).ok_iff htable
  obtain ⟨hpositions, rfl⟩ := targets_ok.mp htargets
  obtain ⟨cells, hcells, hlength, hfresh, rfl, hg₃⟩ := values_rowOf hpositions.distinct hvalues
  obtain ⟨destinations, rfl, hdestinations⟩ := writeColumns_zip hlength hwritten
  have hcount : columns.length = destinations.length := by
    have hmap := congrArg List.length hdestinations
    rw [List.length_map, List.length_map] at hmap
    rw [hlength, hmap]
  refine ⟨schema, table, table.exportedRefs, targets, columns, destinations, cells, htables,
    table.listsExported, hpositions, ?_, hdestinations, hcount, ?_, hcells⟩
  · rw [hg, hg₄, hg₃]
    rfl
  · refine hfresh.increasing.imp fun hlt heq => ?_
    rw [heq] at hlt
    exact Nat.lt_irrefl _ hlt

/-- The same INSERT with its target columns, and the expressions of every row, in another order. -/
def rearranged (i : Insert (Expr Q)) (rows : List (List (Expr Q))) (order : List Nat) : Insert (Expr Q) :=
  { i with columns := rearrange order i.columns, source := .values (rows.map (rearrange order)) }

theorem TargetsOf.length_eq (h : TargetsOf env table refs columns targets) (hcolumns : columns ≠ []) :
    columns.length = targets.length :=
  (h.named hcolumns).length_eq

theorem TargetsOf.rearrange (h : TargetsOf env table refs columns targets) (hcolumns : columns ≠ [])
    (horder : order.Perm (List.range columns.length)) :
    TargetsOf env table refs (rearrange order columns) (SqlPlan.rearrange order targets) := by
  refine ⟨fun _ => forall₂_rearrange (h.named hcolumns) order, fun hnil => ?_, ?_⟩
  · have hperm := rearrange_perm horder
    rw [hnil, List.nil_perm] at hperm
    exact absurd hperm hcolumns
  · exact (rearrange_perm (h.length_eq hcolumns ▸ horder)).nodup_iff.mpr h.distinct

theorem plan_rearranged (hsource : i.source = .values rows) (hcolumns : i.columns ≠ [])
    (horder : order.Perm (List.range i.columns.length)) (h : i.plan env d = (.ok terminal, d₁)) :
    (i.rearranged rows order).plan env d = i.plan env d := by
  simp only [plan_values hsource, Step.bind_ok, Prod.exists] at h
  obtain ⟨schema, table, d₀, htable, targets, d₂, htargets, hwrite⟩ := h
  obtain ⟨rfl, -⟩ := (Name.resolveTable_reads _).ok_iff htable
  obtain ⟨hpositions, rfl⟩ := targets_ok.mp htargets
  have htargets' : (i.rearranged rows order).targets table env d₀ = (.ok (rearrange order targets), d₀) :=
    targets_ok.mpr ⟨hpositions.rearrange hcolumns horder, rfl⟩
  -- Rows of another length are refused, and the report would tell their order.
  have hlength : ∀ row ∈ rows, row.length = targets.length := by
    obtain ⟨output, columns, d₃, hvalues, -⟩ := hwrite
    obtain ⟨cells, hcells, -⟩ := values_rowOf hpositions.distinct hvalues
    intro row hrow
    obtain ⟨_, -, hlength, -⟩ := exists_of_forall₂ hcells.flip row hrow
    exact hlength
  calc (i.rearranged rows order).plan env d₀
    _ = (values table (rearrange order targets) (rows.map (rearrange order)) >>= addWrite schema table) env d₀ :=
      plan_eq_of_ok rfl htable htargets'
    _ = (values table targets rows >>= addWrite schema table) env d₀ := by
      rw [values_rearrange hpositions.distinct hlength (hpositions.length_eq hcolumns ▸ horder)]
    _ = i.plan env d₀ := (plan_eq_of_ok hsource htable htargets).symm

end Insert

namespace Session

variable {s s' : Session} {i : Insert (Expr Q)} {rows : List (List (Expr Q))} {p : ExecutionPlan}

theorem resolveStatement_congr {statement statement' : Statement (Expr Q)}
    (h : statement.resolve s.environment s.minted = statement'.resolve s.environment s.minted) :
    s.resolveStatement statement = s.resolveStatement statement' := by
  simp only [resolveStatement_eq, h]

/-- An INSERT of rows puts every cell into its column, in whatever order the columns are named. -/
theorem insertValues_fills (hsource : i.source = .values rows)
    (h : s.resolveStatement (.insert i) = (.ok (.plan p), s')) :
    i.Fills s.environment rows p ∧
      (i.columns ≠ [] → ∀ order, order.Perm (List.range i.columns.length) →
        s.resolveStatement (.insert (i.rearranged rows order)) = (.ok (.plan p), s')) := by
  obtain ⟨m, hresolve⟩ := resolveStatement_ok h
  obtain ⟨terminal, d, hd, hp⟩ := Planning.complete_ok hresolve
  cases hp
  refine ⟨Insert.plan_fills hsource hd, fun hcolumns order horder => ?_⟩
  rw [← h]
  apply resolveStatement_congr
  rw [Statement.resolve, Statement.resolve, Planning.complete, Planning.complete,
    Insert.plan_rearranged hsource hcolumns horder hd]

end Session

namespace Sample

/-- `goods` has a hidden column, and a price with a default. -/
def goods : Session where
  environment.catalog := {
    name := "db"
    schemas := [{
      name := "s"
      stored := 1
      tableMap := [("goods", {
        oid := ⟨0, 1⟩, name := "goods", schema := "s"
        columns := [{ name := "id", type := .int8 }, { name := "row", type := .int8, features.hidden := true },
          { name := "price", type := .int4, default := some (.integer .w32 1) },
          { name := "stock", type := .int8 }] })] }] }

def goodsRows : List (List (Expr Unit)) := [[.cast (.literal .null) (.integer .w32), .literal .default]]

/-- `INSERT INTO goods (stock, id) VALUES (CAST(NULL AS INT), DEFAULT)` -/
def insertGoods : Insert (Expr Unit) where
  table := ⟨[.quoted "goods"]⟩
  columns := [.quoted "stock", .quoted "id"]
  source := .values goodsRows

end Sample

/-- The two target columns in either order; the hidden column is not written, and the price is the default. -/
theorem Session.insertValues_fills_goods : ∃ p s',
    Sample.goods.resolveStatement (.insert Sample.insertGoods) = (.ok (.plan p), s') ∧
      Sample.insertGoods.Fills Sample.goods.environment Sample.goodsRows p ∧
      Sample.goods.resolveStatement (.insert (Sample.insertGoods.rearranged Sample.goodsRows [1, 0])) =
        (.ok (.plan p), s') := by
  have hplan : Sample.goods.planMeets (.insert Sample.insertGoods) (fun _ => true) = true := by decide +kernel
  obtain ⟨p, s', h, -⟩ := exists_plan _ hplan
  obtain ⟨hfills, hrearranged⟩ := insertValues_fills rfl h
  exact ⟨p, s', h, hfills, hrearranged (List.cons_ne_nil _ _) [1, 0] (List.Perm.swap 0 1 [])⟩

end SqlPlan
