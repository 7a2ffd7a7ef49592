import SqlPlan.Proofs.QueryDelivery

namespace SqlPlan

variable {r : RelationInfo} {vs : List Variable} {terminal : Nat} {d₃ : Draft} {columns : List ColumnInfo}
  {Γ : ColumnTypes} {C : Columns} {v : Variable} {σ : Type} {value s : Scalar} {type : SqlType} {scopes : Scopes}
  {ref : ColumnRef} {refs : List ColumnRef} {name : Name}

open List (Forall₂)

variable {Q : Type} {env : Environment} {d d₁ d₂ : Draft} {output : Socket} {n m : Nat}

def Supplies (d : Draft) (output : Socket) (vs : List Variable) (d' : Draft) : Prop :=
  ∃ Γ, Builds d [(output, Γ)] d' ∧ ∀ v ∈ vs, v.isStream = true ∧ ∃ t, Γ.type? v = some t

theorem Delivers.supplies (h : Delivers d ⟨output, [r]⟩ d₁) : Supplies d output r.carriers d₁ := by
  obtain ⟨Γ, hb, hcarries⟩ := h
  refine ⟨Γ, hb, fun v hv => ?_⟩
  obtain ⟨c, hc, rfl⟩ := List.mem_map.mp hv
  obtain ⟨hs, ht⟩ := hcarries.has c (by simpa using hc)
  exact ⟨hs, c.type, ht⟩

/-- Planning of a statement ends with an operator without outputs over all that is open. -/
def Finishes (d : Draft) (terminal : Nat) (d' : Draft) : Prop :=
  ∃ d₁ output Γ operator, Builds d [(output, Γ)] d₁ ∧ terminal = d₁.graph.size ∧
    d'.graph = d₁.graph.insert operator [output] 0 ∧ operator.columns .both [Γ] = some [] ∧
    operator.subqueries = []

theorem Supplies.finishes {operator : Operator} (h : Supplies d output vs d₁) (hk : d₁.minted ≤ d₂.minted)
    (hg : d₂.graph = d₁.graph) (hc : ∀ Γ, operator.columns .both [Γ] = (Γ.select vs).map fun _ => [])
    (hs : operator.subqueries = []) (hsink : Planning.addSink operator output env d₂ = (.ok terminal, d₃)) :
    Finishes d terminal d₃ := by
  obtain ⟨Γ, hb, hvs⟩ := h
  obtain ⟨rfl, -, hg₃⟩ := Planning.addSink_ok.mp hsink
  obtain ⟨Γ', hselect, -⟩ := Columns.select_ok (hb.within _ (List.mem_singleton_self _)) hvs
  refine ⟨d₂, output, Γ, operator, hb.mint hk hg, rfl, hg₃, ?_, hs⟩
  rw [hc, hselect]
  rfl

theorem Supplies.subset {ws : List Variable} (h : Supplies d output vs d₁) (hsub : ∀ v ∈ ws, v ∈ vs) :
    Supplies d output ws d₁ := by
  obtain ⟨Γ, hb, hvs⟩ := h
  exact ⟨Γ, hb, fun v hv => hvs v (hsub v hv)⟩

theorem writeColumns_ok {pairs : List (Variable × ColumnRef)} {columns : List (Variable × Variable)}
    (h : writeColumns pairs env n = (.ok columns, m)) :
    n ≤ m ∧ columns.map (·.1) = pairs.map (·.1) := by
  obtain ⟨hle, hall⟩ := collect_map_ok (P := fun p c => c.1 = p.1) (fun p _ n c m hc => by
    simp only [Step.bind_ok, Analysis.mint_ok, Step.pure_ok] at hc
    obtain ⟨_, _, ⟨rfl, rfl⟩, rfl, rfl⟩ := hc
    exact ⟨Nat.le_succ n, rfl⟩) (collect_of_each h)
  exact ⟨hle, map_eq_of_forall₂ hall⟩

theorem each_computes {α β : Type} {f : α → Analysis β} {parts : β → List (Variable × Scalar)}
    {P : Columns → β → Prop} (hmono : ∀ C C' y, (∀ p ∈ C, p ∈ C') → P C y → P C' y)
    (hf : ∀ x n y m, f x env n = (.ok y, m) → ∃ C, Computes Γ n (parts y) C m ∧ P C y) {xs : List α} {ys : List β}
    (h : Step.each f xs env n = (.ok ys, m)) : ∃ C, Computes Γ n (ys.flatMap parts) C m ∧ ∀ y ∈ ys, P C y := by
  induction xs generalizing ys n with
  | nil =>
    obtain ⟨rfl, rfl⟩ := Step.each_nil_ok.mp h
    exact ⟨[], .nil Γ n, by simp⟩
  | cons x xs ih =>
    obtain ⟨y, ys, k, rfl, hy, hys⟩ := Step.each_cons_ok.mp h
    obtain ⟨C, hC, hp⟩ := hf x n y k hy
    obtain ⟨C', hC', hps⟩ := ih hys
    refine ⟨C ++ C', hC.append hC', List.forall_mem_cons.mpr ⟨?_, fun y hy => ?_⟩⟩
    · exact hmono C _ y (fun p hp => List.mem_append_left _ hp) hp
    · exact hmono C' _ y (fun p hp => List.mem_append_right _ hp) (hps y hy)

def Beside (Γ C : Columns) (v : Variable) : Prop :=
  v.isStream = true ∧ ∃ t, Γ.type? v = some t ∨ (v, t) ∈ C

theorem Beside.mono {Γ C' : Columns} (hC : ∀ p ∈ C, p ∈ C') (h : Beside Γ C v) : Beside Γ C' v := by
  obtain ⟨hs, t, ht⟩ := h
  exact ⟨hs, t, ht.imp_right (hC _)⟩

theorem addIf_supplies {needed : Bool} {computed : List (Variable × Scalar)} {Γ : Columns} {input : Socket}
    (hb : Builds d [(input, Γ)] d₁) (hC : Computes Γ.type? d₁.minted computed C d₂.minted)
    (hg : d₂.graph = d₁.graph) (hvs : ∀ v ∈ vs, Beside Γ C v) (hneeded : needed = false → computed = [])
    (h : Block.addIf needed (.project computed) input env d₂ = (.ok output, d₃)) : Supplies d output vs d₃ := by
  have hΓ : Γ.Within d.minted d₁.minted := hb.within _ (List.mem_singleton_self _)
  obtain ⟨hb', -⟩ := Block.addIf_project (hb.mint hC.minted_le hg) hΓ hb.minted_le hC hneeded h
  refine ⟨Γ ++ C, hb', fun v hv => ?_⟩
  obtain ⟨hs, t, ht | ht⟩ := hvs v hv
  · exact ⟨hs, t, Columns.type?_append_left ht⟩
  · exact ⟨hs, t, (hC.project_columns hΓ).2 _ ht⟩

namespace TableDecl

theorem resolveColumn_reads (table : TableDecl) (identifier : Identifier) :
    Step.Reads (table.resolveColumn identifier : Step σ (Nat × ColumnDecl)) env := by
  refine .bind .options fun o => ?_
  dsimp only
  split
  · split
    · exact .pure _
    · exact .fail _ _ _
  · exact .fail _ _ _

theorem resolveColumns_reads (table : TableDecl) (seen : List Nat) (columns : List Identifier) :
    Step.Reads (table.resolveColumns seen columns : Step σ (List Nat)) env := by
  induction columns generalizing seen with
  | nil => exact .pure _
  | cons identifier rest ih =>
    refine .bind (table.resolveColumn_reads identifier) fun found => ?_
    dsimp only
    split
    · exact .fail _ _ _
    · exact .bind (ih _) fun positions => .pure _

end TableDecl

namespace ColumnDecl

variable {c : ColumnDecl}

theorem assign_ok {v : Scalar} {location : Option Span} {s s' : σ}
    (h : c.assign value type location env s = (.ok v, s')) :
    (v = value ∧ (type = c.type ∨ type = .unknown) ∨ v = .cast .error c.type value) ∧ s' = s := by
  simp only [assign, Step.ite_ok, Step.fail_ok, Step.pure_ok, and_false, false_or] at h
  obtain ⟨-, ⟨htype, rfl, rfl⟩ | ⟨-, rfl, rfl⟩⟩ := h
  · exact ⟨.inl ⟨rfl, htype⟩, rfl⟩
  · exact ⟨.inr rfl, rfl⟩

theorem assign_hasType {v : Scalar} (hvalue : value.HasType Γ type)
    (h : v = value ∧ (type = c.type ∨ type = .unknown) ∨ v = .cast .error c.type value) :
    ∃ u, v.HasType Γ u ∧ (u = c.type ∨ u = .unknown) := by
  rcases h with ⟨rfl, htype⟩ | rfl
  · exact ⟨type, hvalue, htype⟩
  · exact ⟨c.type, fun Δ => by simp [Scalar.typeIn, hvalue Δ], .inl rfl⟩

theorem resolveCell_ok {e : Expr Q} (h : c.resolveCell scopes e env n = (.ok s, m)) :
    ∃ x, Elaborates env scopes (.target (some c.target)) [e] n [x] m ∧
      x.aggregated = false ∧
      (s = x.expr ∧ (x.type = c.type ∨ x.type = .unknown) ∨ s = .cast .error c.type x.expr) := by
  simp only [resolveCell, Step.bind_ok, Step.ite_ok, Step.fail_ok, and_false, false_or,
    Bool.not_eq_true] at h
  obtain ⟨x, k, hx, hagg, hassign⟩ := h
  obtain ⟨hs, rfl⟩ := assign_ok hassign
  exact ⟨x, Expr.sound env scopes e _ n x _ hx, hagg, hs⟩

theorem resolveCell_hasType (hΓ : Γ.Has scopes.visible) {e : Expr Q} (h : c.resolveCell scopes e env n = (.ok s, m)) :
    n ≤ m ∧ ∃ u, s.HasType Γ u ∧ (u = c.type ∨ u = .unknown) := by
  obtain ⟨x, hel, -, hs⟩ := resolveCell_ok h
  exact ⟨hel.minted_le, assign_hasType (hel.hasType hΓ x (List.mem_singleton_self x)) hs⟩

end ColumnDecl

namespace Insert

variable {table : TableDecl} {targets : List Nat}

theorem cell_ok {row : List (Expr Q)} {n : Nat} {m : Nat} (h : cell [] targets row ref env n = (.ok s, m)) :
    n ≤ m ∧ ∃ u, s.HasType .none u ∧ (u = ref.column.type ∨ u = .unknown) := by
  unfold cell at h
  rcases hslot : (targets.idxOf? ref.position).bind fun slot => row[slot]? with _ | e
  · simp only [hslot, Step.pure_ok] at h
    obtain ⟨rfl, rfl⟩ := h
    exact ⟨Nat.le_refl _, ref.column.type, fun Δ => rfl, .inl rfl⟩
  · rw [hslot] at h
    exact ColumnDecl.resolveCell_hasType (fun c hc => by cases hc) h

theorem row_ok {p : List (Expr Q) × Nat} {n : Nat} {ss : List Scalar} {m : Nat}
    (h : row [] table targets p env n = (.ok ss, m)) : n ≤ m ∧ ∃ us, Scalar.listTypes .none [] ss = some us ∧
      Forall₂ (fun ref u => u = ref.column.type ∨ u = .unknown) table.exportedRefs us := by
  obtain ⟨es, i⟩ := p
  simp only [row, Step.ite_ok, Step.fail_ok, and_false, false_or] at h
  obtain ⟨-, hcells⟩ := h
  obtain ⟨hle, hall⟩ := collect_map_ok (fun _ _ _ _ _ => cell_ok) (collect_of_each hcells)
  refine ⟨hle, ?_⟩
  generalize table.exportedRefs = refs at hall ⊢
  clear hcells
  induction hall with
  | nil => exact ⟨[], rfl, .nil⟩
  | cons hcell _ ih =>
    obtain ⟨u, hu, htype⟩ := hcell
    obtain ⟨us, hus, htypes⟩ := ih
    exact ⟨u :: us, by simp [Scalar.listTypes, hu [], hus], .cons htype htypes⟩

theorem valuesColumn_of_rows {uss : List (List SqlType)}
    (h : ∀ us ∈ uss, Forall₂ (fun ref u => u = ref.column.type ∨ u = .unknown) refs us) {i : Nat}
    (hi : i < refs.length) : ∃ t, valuesColumn uss i = some t := by
  have hcells : ∀ us ∈ uss, ∃ u, us[i]? = some u ∧ (u = refs[i].column.type ∨ u = .unknown) := by
    intro us hus
    obtain ⟨u, hu, htype⟩ := getElem?_of_forall₂ (h us hus).flip (List.getElem?_eq_getElem hi)
    exact ⟨u, hu, htype⟩
  obtain ⟨cells, hmap, hall⟩ := exists_mapM hcells
  have htypes : ∀ u ∈ cells, u = refs[i].column.type ∨ u = .unknown := fun u hu =>
    (exists_of_forall₂ hall u hu).elim fun _ h => h.2
  by_cases hmem : refs[i].column.type ∈ cells
  · exact ⟨_, by simpa [valuesColumn, hmap] using SqlType.unifyAll_eq htypes (.inr hmem)⟩
  · have hunknown : ∀ u ∈ cells, u = .unknown ∨ u = .unknown := by
      intro u hu
      rcases htypes u hu with rfl | rfl
      · exact absurd hu hmem
      · exact .inl rfl
    exact ⟨_, by simpa [valuesColumn, hmap] using SqlType.unifyAll_eq hunknown (.inl rfl)⟩

theorem columns_of_rows {columns : List Variable} {cells : List (List Scalar)}
    (hlength : refs.length = columns.length)
    (h : ∀ ss ∈ cells, ∃ us, Scalar.listTypes .none [] ss = some us ∧
      Forall₂ (fun ref u => u = ref.column.type ∨ u = .unknown) refs us) :
    ∃ Γ, (Operator.values columns cells).columns .both [] = some Γ ∧ Γ.carriers = columns := by
  obtain ⟨uss, huss, hall⟩ := exists_mapM h
  have htypes : ∀ us ∈ uss, Forall₂ (fun ref u => u = ref.column.type ∨ u = .unknown) refs us := fun us hus =>
    (exists_of_forall₂ hall us hus).elim fun _ h => h.2
  obtain ⟨Γ, hΓ, hcarriers⟩ : ∃ Γ : Columns,
      columns.zipIdx.mapM (fun p => (valuesColumn uss p.2).map (p.1, ·)) = some Γ ∧
        Forall₂ (fun p q => q.1 = p.1) columns.zipIdx Γ := by
    refine exists_mapM fun p hp => ?_
    have hi := (List.getElem?_eq_some_iff.mp (List.mem_zipIdx_iff_getElem?.mp hp)).1
    rw [← hlength] at hi
    obtain ⟨t, ht⟩ := valuesColumn_of_rows htypes hi
    exact ⟨(p.1, t), by simp [ht], rfl⟩
  refine ⟨Γ, ?_, ?_⟩
  · simp only [Operator.columns, huss, Option.bind_eq_bind, Option.bind_some]
    exact hΓ
  · rw [Columns.carriers, map_eq_of_forall₂ hcarriers, List.zipIdx_map_fst]

theorem values_supplies {rows : List (List (Expr Q))} (h : values table targets rows env d = (.ok (output, vs), d₁)) :
    Supplies d output vs d₁ := by
  simp only [values, addValues, Step.bind_ok, Planning.lift_ok, Planning.add_ok, Step.pure_ok, Prod.mk.injEq] at h
  obtain ⟨cells, d₂, ⟨hcells, hg₂⟩, columns, d₃, ⟨hcolumns, hg₃⟩, _, _, ⟨rfl, hm, hg⟩, ⟨rfl, rfl⟩, rfl⟩ := h
  obtain ⟨hle, hrows⟩ := collect_map_ok (fun _ _ _ _ _ => row_ok) (collect_of_each hcells)
  obtain ⟨hle', hfresh, hlength⟩ := each_minted (P := fun _ _ => True) id (fun ref n v m hv => by
    obtain ⟨rfl, rfl⟩ := Analysis.stream_ok.mp hv
    exact ⟨⟨_, rfl⟩, Nat.le_refl _, trivial⟩) hcolumns
  obtain ⟨Γ, hΓ, hcarriers⟩ := columns_of_rows hlength.length_eq fun ss hss =>
    (exists_of_forall₂ hrows ss hss).elim fun _ h => h.2
  have hfresh : Fresh d.minted Γ.carriers d₃.minted := by
    rw [List.map_id] at hfresh
    exact hcarriers ▸ hfresh.mono hle (Nat.le_refl _)
  refine ⟨Γ, ?_, fun v hv => ?_⟩
  · rw [hg₃, hg₂] at hg ⊢
    refine Builds.source ?_ hg hΓ ?_ (by simp [Operator.subqueries])
    · rw [hm]
      exact Nat.le_trans hle hle'
    · rw [hm]
      exact Columns.within_of_fresh hfresh
  · rw [← hcarriers] at hv
    obtain ⟨p, hp, rfl⟩ := List.mem_map.mp hv
    obtain ⟨hs, ht⟩ := (Columns.carries_self hfresh).typed p hp
    exact ⟨hs, p.2, ht⟩

theorem writtenColumn_cases {computed : Option (Variable × Scalar)}
    (h : writtenColumn targets columns ref env n = (.ok (v, computed), m)) :
    (∃ c ∈ columns, v = c.carrier ∧ computed = none ∧ m = n) ∨
      ∃ value, v = ⟨n + 1, .stream (some ref.column.name)⟩ ∧ computed = some (v, value) ∧ m = n + 1 ∧
        ((∃ c ∈ columns, value = .cast .error ref.column.type (.var c.carrier)) ∨
          value = ref.column.defaultScalar) := by
  simp only [writtenColumn] at h
  rcases hslot : (targets.idxOf? ref.position).bind fun slot => columns[slot]? with _ | c
  · simp only [hslot, Step.bind_ok, Step.pure_ok] at h
    obtain ⟨_, _, ⟨rfl, rfl⟩, h⟩ := h
    simp only [ColumnDecl.defaultScalar, Scalar.asVariable?, Step.bind_ok, Analysis.stream_ok, Step.pure_ok,
      Prod.mk.injEq] at h
    obtain ⟨_, _, ⟨rfl, rfl⟩, ⟨rfl, rfl⟩, rfl⟩ := h
    exact .inr ⟨_, rfl, rfl, rfl, .inr rfl⟩
  · simp only [hslot, Step.bind_ok] at h
    obtain ⟨value, _, hassign, h⟩ := h
    obtain ⟨slot, -, hc⟩ := Option.bind_eq_some_iff.mp hslot
    have hmem := List.mem_of_getElem? hc
    obtain ⟨⟨rfl, -⟩ | rfl, rfl⟩ := ColumnDecl.assign_ok hassign
    · simp only [Scalar.asVariable?, Step.pure_ok, Prod.mk.injEq] at h
      obtain ⟨⟨rfl, rfl⟩, rfl⟩ := h
      exact .inl ⟨c, hmem, rfl, rfl, rfl⟩
    · simp only [Scalar.asVariable?, Step.bind_ok, Analysis.stream_ok, Step.pure_ok, Prod.mk.injEq] at h
      obtain ⟨_, _, ⟨rfl, rfl⟩, ⟨rfl, rfl⟩, rfl⟩ := h
      exact .inr ⟨_, rfl, rfl, rfl, .inl ⟨c, hmem, rfl⟩⟩

theorem writtenColumn_ok {Γ : Columns} (hΓ : Γ.type?.Has columns) {n : Nat}
    {p : Variable × Option (Variable × Scalar)} {m : Nat} (h : writtenColumn targets columns ref env n = (.ok p, m)) :
    ∃ C, Computes Γ.type? n p.2.toList C m ∧ Beside Γ C p.1 := by
  obtain ⟨v, computed⟩ := p
  rcases writtenColumn_cases h with ⟨c, hc, rfl, rfl, rfl⟩ | ⟨value, rfl, rfl, rfl, hvalue⟩
  · obtain ⟨hs, ht⟩ := hΓ c hc
    exact ⟨[], .nil _ _, hs, c.type, .inl ht⟩
  · have htype : value.typeIn Γ.type? [] = some ref.column.type := by
      rcases hvalue with ⟨c, hc, rfl⟩ | rfl
      · obtain ⟨hs, ht⟩ := hΓ c hc
        simp [Scalar.typeIn, Variable.typeIn_stream hs, ht]
      · rfl
    exact ⟨_, .single htype, rfl, _, .inr (List.mem_singleton_self _)⟩

theorem query_supplies {q : Query (Expr Q)} (h : query table targets q env d = (.ok (output, vs), d₁)) :
    Supplies d output vs d₁ := by
  simp only [query, written, Step.bind_ok, Step.ite_ok, Step.fail_ok, Planning.lift_ok, Step.pure_ok, Prod.mk.injEq,
    and_false, false_or] at h
  obtain ⟨p, d₂, hp, -, sources, d₃, ⟨hsources, hg₃⟩, o, _, ho, ⟨rfl, rfl⟩, rfl⟩ := h
  obtain ⟨Γ, hb, hcarries⟩ := Query.plan_delivers (fun scope hscope => by cases hscope) hp
  have hhas : Γ.type?.Has p.relation.exportedColumns := by
    intro c hc
    refine hcarries.has c ?_
    simpa [Planned.source] using (List.mem_filter.mp hc).1
  obtain ⟨C, hC, hbeside⟩ := each_computes
    (P := fun C (y : Variable × Option (Variable × Scalar)) => Beside Γ C y.1)
    (fun C C' y hsub h => h.mono hsub) (fun _ _ _ _ => writtenColumn_ok hhas) hsources
  rw [← List.filterMap_eq_flatMap_toList] at hC
  refine addIf_supplies hb hC hg₃ (fun v hv => ?_) (by simp) ho
  obtain ⟨y, hy, rfl⟩ := List.mem_map.mp hv
  exact hbeside y hy

theorem rows_supplies {i : Insert (Expr Q)} (h : i.rows table targets env d = (.ok (output, vs), d₁)) :
    Supplies d output vs d₁ := by
  unfold rows at h
  rcases hsource : i.source with source | _ | q
  all_goals rw [hsource] at h
  · exact values_supplies h
  · exact query_supplies h
  · exact values_supplies h

theorem targets_reads (i : Insert (Expr Q)) (table : TableDecl) : Step.Reads (i.targets table) env := by
  unfold targets
  split
  · exact .pure _
  · exact table.resolveColumns_reads [] i.columns

theorem plan_ok {i : Insert (Expr Q)} (h : i.plan env d = (.ok terminal, d₁)) :
    ∃ schema table targets output vs d₂ columns d₃, i.rows table targets env d = (.ok (output, vs), d₂) ∧
      writeColumns (vs.zip table.exportedRefs) env d₂.minted = (.ok columns, d₃.minted) ∧
      d₃.graph = d₂.graph ∧
      Planning.addSink (.write .insert (Schema.writeTarget schema table) [] columns) output env d₃ =
        (.ok terminal, d₁) := by
  simp only [plan, addWrite, Step.bind_ok, Planning.lift_ok, Prod.exists] at h
  obtain ⟨schema, table, d₀, htable, targets, _, htargets, output, vs, d₂, hrows, columns, d₃, ⟨hcolumns, hg⟩,
    hsink⟩ := h
  obtain ⟨rfl, -⟩ := (Name.resolveTable_reads _).ok_iff htable
  obtain ⟨rfl, -⟩ := (i.targets_reads table).ok_iff htargets
  exact ⟨schema, table, targets, output, vs, d₂, columns, d₃, hrows, hcolumns, hg, hsink⟩

theorem plan_finishes {i : Insert (Expr Q)} (h : i.plan env d = (.ok terminal, d₁)) : Finishes d terminal d₁ := by
  obtain ⟨schema, table, targets, output, vs, d₂, columns, d₃, hrows, hcolumns, hg, hsink⟩ := plan_ok h
  obtain ⟨hle, hsources⟩ := writeColumns_ok hcolumns
  have hsupplies : Supplies d output (columns.map (·.1)) d₂ := by
    refine (rows_supplies hrows).subset fun v hv => ?_
    rw [hsources] at hv
    obtain ⟨p, hp, rfl⟩ := List.mem_map.mp hv
    exact (List.of_mem_zip hp).1
  exact hsupplies.finishes hle hg (fun Γ => rfl) (by simp [Operator.subqueries]) hsink

end Insert

theorem writtenRows_ok {condition : Option (Expr Q)} (h : writtenRows name condition env d = (.ok (output, r), d₁)) :
    ∃ p d₂, Source.scan name none env d = (.ok p, d₂) ∧ r = p.relation ∧
      (output = p.output ∧ d₁ = d₂ ∨ ∃ (e : Expr Q) (x : Typed) (k : Nat),
        Elaborates env [{ relations := [r] }] (.target none) [e] d₂.minted [x] k ∧ x.aggregated = false ∧
        output = ⟨d₂.graph.size, 0⟩ ∧ d₁.minted = k ∧
        d₁.graph = d₂.graph.insert (.filter x.expr) [p.output] 1) := by
  simp only [writtenRows, Step.bind_ok, Step.pure_ok, Prod.mk.injEq] at h
  obtain ⟨p, d₂, hp, _, _, h, ⟨rfl, rfl⟩, rfl⟩ := h
  refine ⟨p, d₂, hp, rfl, ?_⟩
  cases condition with
  | none =>
    simp only [addCondition, Step.pure_ok] at h
    obtain ⟨rfl, rfl⟩ := h
    exact .inl ⟨rfl, rfl⟩
  | some e =>
    simp only [addCondition, Step.bind_ok, Planning.lift_ok, Step.ite_ok, Step.fail_ok, Planning.add_ok,
      and_false, false_or, Bool.not_eq_true] at h
    obtain ⟨x, d₃, ⟨hx, hg₃⟩, hagg, -, rfl, hm, hg⟩ := h
    refine .inr ⟨e, x, d₃.minted, Expr.sound env _ e none _ x _ hx, hagg, ?_, hm, ?_⟩
    · rw [hg₃]
    · rw [hg, hg₃]

theorem visible_relation (r : RelationInfo) :
    Scopes.visible [{ relations := [r] }] = [r].flatMap (·.columns) :=
  Scopes.Sound.visible (fun scope hscope => by cases hscope) [r]

theorem writtenRows_delivers {condition : Option (Expr Q)}
    (h : writtenRows name condition env d = (.ok (output, r), d₁)) : Delivers d ⟨output, [r]⟩ d₁ := by
  obtain ⟨p, d₂, hp, rfl, ⟨rfl, rfl⟩ | ⟨e, x, k, hel, -, rfl, rfl, hg⟩⟩ := writtenRows_ok h
  · exact Source.scan_delivers hp
  · obtain ⟨Γ, hb, hcarries⟩ := Source.scan_delivers hp
    have hhas : Γ.type?.Has (Scopes.visible [{ relations := [p.relation] }]) := by
      rw [visible_relation]
      exact hcarries.has
    have hx := hel.hasType hhas x (List.mem_singleton_self x) []
    refine ⟨Γ, hb.unary hel.minted_le hg ?_ ?_ (by simp [Operator.subqueries]), hcarries⟩
    · simp [Operator.columns, hx]
    · exact (hb.within _ (List.mem_singleton_self _)).mono (Nat.le_refl _) hel.minted_le

theorem writeKeys_ok {schema : Schema} {table : TableDecl} {keys : List (Variable × Variable)}
    (h : writeKeys schema table r env n = (.ok keys, m)) : n ≤ m ∧ ∀ v ∈ keys.map (·.1), v ∈ r.carriers := by
  unfold writeKeys at h
  rcases hindex : schema.primaryIndex? table with _ | index
  · simp only [hindex, Step.pure_ok] at h
    obtain ⟨rfl, rfl⟩ := h
    exact ⟨Nat.le_refl _, by simp⟩
  · rw [hindex] at h
    obtain ⟨hle, hsources⟩ := writeColumns_ok h
    refine ⟨hle, fun v hv => ?_⟩
    rw [hsources] at hv
    simp only [List.mem_map, List.mem_filterMap, Option.bind_eq_bind, Option.bind_eq_some_iff] at hv
    obtain ⟨_, ⟨key, -, source, hsource, ref, -, hpair⟩, rfl⟩ := hv
    cases hpair
    obtain ⟨c, hc, rfl⟩ := Option.map_eq_some_iff.mp hsource
    exact List.mem_map_of_mem (List.mem_of_find?_eq_some hc)

namespace Update

theorem assignment_ok (hΓ : Γ.Has scopes.visible) {p : Assignment (Expr Q) × ColumnRef} {n : Nat}
    {y : (Variable × Scalar) × (Variable × Variable)} {m : Nat} (h : assignment scopes p env n = (.ok y, m)) :
    ∃ C, Computes Γ n [y.1] C m ∧ y.2.1.isStream = true ∧ ∃ t, (y.2.1, t) ∈ C := by
  obtain ⟨a, ref⟩ := p
  simp only [assignment, Step.bind_ok, Analysis.stream_ok, Analysis.mint_ok, Step.pure_ok] at h
  obtain ⟨value, k, hvalue, _, _, ⟨rfl, rfl⟩, _, _, ⟨rfl, rfl⟩, rfl, rfl⟩ := h
  obtain ⟨hle, u, hu, -⟩ := ColumnDecl.resolveCell_hasType hΓ hvalue
  exact ⟨_, (Computes.single (hu [])).mono hle (by omega), rfl, u, List.mem_singleton_self _⟩

theorem plan_ok {u : Update (Expr Q)} (h : u.plan env d = (.ok terminal, d₁)) :
    ∃ schema table positions output r d₂ assigned d₃ o d₄ keys d₅,
      (∀ s : Draft, u.table.resolveTable env s = (.ok (schema, table), s)) ∧
      writtenRows u.table u.condition env d = (.ok (output, r), d₂) ∧
      Step.each (assignment [{ relations := [r] }]) (u.assignments.zip (table.refs positions)) env d₂.minted =
        (.ok assigned, d₃.minted) ∧ d₃.graph = d₂.graph ∧
      Planning.add (.project (assigned.map (·.1))) [output] env d₃ = (.ok o, d₄) ∧
      writeKeys schema table r env d₄.minted = (.ok keys, d₅.minted) ∧ d₅.graph = d₄.graph ∧
      Planning.addSink (.write .update (schema.writeTarget table) keys (assigned.map (·.2))) o env d₅ =
        (.ok terminal, d₁) := by
  simp only [plan, assigned, addWrite, Step.bind_ok, Planning.lift_ok, Prod.exists] at h
  obtain ⟨schema, table, _, htable, positions, _, hpositions, output, r, d₂, hrows, assigned, d₃, ⟨hassigned, hg₃⟩, o,
    d₄, ho, keys, d₅, ⟨hkeys, hg₅⟩, hsink⟩ := h
  obtain ⟨rfl, htables⟩ := (Name.resolveTable_reads _).ok_iff htable
  obtain ⟨rfl, -⟩ := (table.resolveColumns_reads [] _).ok_iff hpositions
  exact ⟨schema, table, positions, output, r, d₂, assigned, d₃, o, d₄, keys, d₅, htables, hrows, hassigned, hg₃, ho,
    hkeys, hg₅, hsink⟩

theorem plan_finishes {u : Update (Expr Q)} (h : u.plan env d = (.ok terminal, d₁)) : Finishes d terminal d₁ := by
  obtain ⟨schema, table, positions, output, r, d₂, assigned, d₃, o, d₄, keys, d₅, -, hrows, hassigned, hg₃, ho, hkeys,
    hg₅, hsink⟩ := plan_ok h
  obtain ⟨Γ, hb, hcarries⟩ := writtenRows_delivers hrows
  have hhas : Γ.type?.Has (Scopes.visible [{ relations := [r] }]) := by
    rw [visible_relation]
    exact hcarries.has
  obtain ⟨C, hC, hnew⟩ := each_computes
    (P := fun C (y : (Variable × Scalar) × (Variable × Variable)) =>
      y.2.1.isStream = true ∧ ∃ t, (y.2.1, t) ∈ C)
    (fun C C' y hsub h => ⟨h.1, h.2.imp fun t ht => hsub _ ht⟩)
    (fun _ _ _ _ => assignment_ok hhas) hassigned
  rw [← List.map_eq_flatMap] at hC
  obtain ⟨hle, hsources⟩ := writeKeys_ok hkeys
  have hbeside : ∀ v ∈ (keys ++ assigned.map (·.2)).map (·.1), Beside Γ C v := by
    intro v hv
    rw [List.map_append, List.map_map] at hv
    rcases List.mem_append.mp hv with hv | hv
    · obtain ⟨c, hc, rfl⟩ := List.mem_map.mp (hsources v hv)
      obtain ⟨hs, ht⟩ := hcarries.has c (by simpa using hc)
      exact ⟨hs, c.type, .inl ht⟩
    · obtain ⟨y, hy, rfl⟩ := List.mem_map.mp hv
      obtain ⟨hs, t, ht⟩ := hnew y hy
      exact ⟨hs, t, .inr ht⟩
  have hsupplies : Supplies d o ((keys ++ assigned.map (·.2)).map (·.1)) d₄ :=
    addIf_supplies hb hC hg₃ hbeside (by simp) (show Block.addIf true _ _ env d₃ = _ from ho)
  exact hsupplies.finishes hle hg₅ (fun Γ => rfl) (by simp [Operator.subqueries]) hsink

end Update

namespace Delete

theorem plan_ok {q : Delete (Expr Q)} (h : q.plan env d = (.ok terminal, d₁)) :
    ∃ schema table output r d₂ keys d₃, (∀ s : Draft, q.table.resolveTable env s = (.ok (schema, table), s)) ∧
      writtenRows q.table q.condition env d = (.ok (output, r), d₂) ∧
      writeKeys schema table r env d₂.minted = (.ok keys, d₃.minted) ∧ d₃.graph = d₂.graph ∧
      Planning.addSink (.write .delete (schema.writeTarget table) keys []) output env d₃ = (.ok terminal, d₁) := by
  simp only [plan, addWrite, Step.bind_ok, Planning.lift_ok, Prod.exists] at h
  obtain ⟨schema, table, _, htable, output, r, d₂, hrows, keys, d₃, ⟨hkeys, hg⟩, hsink⟩ := h
  obtain ⟨rfl, htables⟩ := (Name.resolveTable_reads _).ok_iff htable
  exact ⟨schema, table, output, r, d₂, keys, d₃, htables, hrows, hkeys, hg, hsink⟩

theorem plan_finishes {q : Delete (Expr Q)} (h : q.plan env d = (.ok terminal, d₁)) : Finishes d terminal d₁ := by
  obtain ⟨schema, table, output, r, d₂, keys, d₃, -, hrows, hkeys, hg, hsink⟩ := plan_ok h
  obtain ⟨hle, hsources⟩ := writeKeys_ok hkeys
  have hsupplies : Supplies d output ((keys ++ ([] : List (Variable × Variable))).map (·.1)) d₂ := by
    rw [List.append_nil]
    exact (writtenRows_delivers hrows).supplies.subset hsources
  exact hsupplies.finishes hle hg (fun Γ => rfl) (by simp [Operator.subqueries]) hsink

end Delete

theorem Query.planStatement_finishes {q : Query (Expr Q)} (h : q.planStatement env d = (.ok terminal, d₁)) :
    Finishes d terminal d₁ := by
  simp only [planStatement, Planned.addEmit, Step.bind_ok] at h
  obtain ⟨p, d₂, hp, hsink⟩ := h
  have hsupplies : Supplies d p.output
      ((p.relation.exportedColumns.map fun c => (c.carrier, c.name)).map (·.1)) d₂ := by
    refine (Query.plan_delivers (fun scope hscope => by cases hscope) hp).supplies.subset fun v hv => ?_
    rw [List.map_map] at hv
    obtain ⟨c, hc, rfl⟩ := List.mem_map.mp hv
    exact List.mem_map_of_mem (List.mem_filter.mp hc).1
  exact hsupplies.finishes (Nat.le_refl _) rfl (fun Γ => rfl) (by simp [Operator.subqueries]) hsink

end SqlPlan
