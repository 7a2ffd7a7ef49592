import SqlPlan.Proofs.ValuesShape

namespace SqlPlan

variable {t : SqlType} {Γ : ColumnTypes} {exprs : List (List Scalar)} {uss : List (List SqlType)} {i : Nat}

open List (Forall₂)

variable {Q : Type} {env : Environment} {scopes : Scopes}

theorem SqlType.unifyAll_eq {us : List SqlType} (h : ∀ u ∈ us, u = t ∨ u = .unknown) (ht : t = .unknown ∨ t ∈ us) :
    unifyAll us = some t := by
  have hwidens : ∀ {us : List SqlType}, (∀ u ∈ us, u = t ∨ u = .unknown) → ∀ u ∈ us, Widens u t := by
    intro us h u hu
    rcases h u hu with rfl | rfl
    · exact .refl _
    · exact .unknown _
  rcases ht with rfl | ht
  · exact foldlM_unify_top (hwidens h)
  · unfold unifyAll
    induction us with
    | nil => simp at ht
    | cons u us ih =>
      obtain ⟨hu, hus⟩ := List.forall_mem_cons.mp h
      rw [foldlM_unify_cons]
      refine ⟨u, unify_unknown_left u, ?_⟩
      rcases hu with rfl | rfl
      · exact foldlM_unify_top (hwidens hus)
      · by_cases htu : t = .unknown
        · subst htu
          exact foldlM_unify_top (hwidens hus)
        · exact ih hus ((List.mem_cons.mp ht).resolve_left htu)

namespace Values

variable {source : List (List (Expr Q))} {types : List SqlType}

theorem exists_listTypes (hΓ : Γ.Has scopes.visible) {ps : List (Expr Q × SqlType)} {ss : List Scalar}
    (h : Forall₂ (fun p s => CellOf env scopes p.1 p.2 s) ps ss) :
    ∃ us, Scalar.listTypes Γ [] ss = some us ∧ Forall₂ (fun p u => Coerced env scopes p.1 p.2 u) ps us := by
  induction h with
  | nil => exact ⟨[], rfl, .nil⟩
  | cons hcell _ ih =>
    obtain ⟨u, hu, hcoerced⟩ := hcell.exists_hasType hΓ
    obtain ⟨us, hus, hall⟩ := ih
    exact ⟨u :: us, by simp [Scalar.listTypes, hu [], hus], .cons hcoerced hall⟩

theorem Tabulates.exists_types (h : Tabulates env scopes types source exprs) (hΓ : Γ.Has scopes.visible) :
    ∃ uss, exprs.mapM (Scalar.listTypes Γ []) = some uss ∧ Forall₂ (fun row us =>
      Forall₂ (fun p u => Coerced env scopes p.1 p.2 u) (row.zip types) us) source uss := by
  induction h with
  | nil => exact ⟨[], rfl, .nil⟩
  | cons hrow _ ih =>
    obtain ⟨us, hus, hcells⟩ := exists_listTypes hΓ hrow
    obtain ⟨uss, huss, hall⟩ := ih
    exact ⟨us :: uss, by simp [hus, huss], .cons hcells hall⟩

theorem exists_column (ht : types[i]? = some t)
    (h : Forall₂ (fun row us => Forall₂ (fun p u => Coerced env scopes p.1 p.2 u) (row.zip types) us) source uss)
    (hwidth : ∀ row ∈ source, row.length = types.length) :
    ∃ column, uss.mapM (fun us => us[i]?) = some column ∧
      Forall₂ (fun row u => ∃ e, row[i]? = some e ∧ Coerced env scopes e t u) source column := by
  induction h with
  | nil => exact ⟨[], rfl, .nil⟩
  | @cons row us source uss hrow _ ih =>
    obtain ⟨hlen, hwidth⟩ := List.forall_mem_cons.mp hwidth
    obtain ⟨column, hcolumn, hall⟩ := ih hwidth
    have hi : i < row.length := hlen ▸ (List.getElem?_eq_some_iff.mp ht).1
    have hpair : (row.zip types)[i]? = some (row[i], t) :=
      List.getElem?_zip_eq_some.mpr ⟨List.getElem?_eq_getElem hi, ht⟩
    obtain ⟨u, hu, hcoerced⟩ := getElem?_of_forall₂ hrow.flip hpair
    exact ⟨u :: column, by simp [hu, hcolumn], .cons ⟨row[i], List.getElem?_eq_getElem hi, hcoerced⟩ hall⟩

theorem exists_known (h : columnType? env scopes source i = some t) (ht : t ≠ .unknown) :
    ∃ e ∈ knownCells source i, cellType? env scopes e ≠ some .unknown := by
  obtain ⟨us, hus, hunify⟩ := Option.bind_eq_some_iff.mp h
  by_contra hnone
  simp only [not_exists, not_and, not_not] at hnone
  have hall : ∀ u ∈ us, u = .unknown ∨ u = .unknown := by
    intro u hu
    obtain ⟨e, he, htype⟩ := exists_of_forall₂ (mapM_eq_some_iff.mp hus) u hu
    rw [hnone e he] at htype
    exact .inl (Option.some.inj htype).symm
  cases hunify.symm.trans (SqlType.unifyAll_eq hall (.inl rfl))
  exact ht rfl

theorem Accepts.valuesColumn_eq (h : Accepts env scopes source types)
    (huss : Forall₂ (fun row us => Forall₂ (fun p u => Coerced env scopes p.1 p.2 u) (row.zip types) us) source uss)
    (ht : types[i]? = some t) : valuesColumn uss i = some t := by
  obtain ⟨column, hcolumn, hall⟩ := exists_column ht huss h.width
  rw [valuesColumn, hcolumn]
  refine SqlType.unifyAll_eq (fun u hu => ?_) (Classical.or_iff_not_imp_left.mpr fun hne => ?_)
  · obtain ⟨row, -, e, -, hcoerced, -⟩ := exists_of_forall₂ hall u hu
    exact hcoerced
  · obtain ⟨e, he, hknown⟩ := exists_known (h.column i t ht) hne
    obtain ⟨hcell, hnull⟩ := List.mem_filter.mp he
    obtain ⟨row, hrow, hat⟩ := List.mem_filterMap.mp hcell
    obtain ⟨u, hu, e', he', -, hcoerced⟩ := exists_of_forall₂ hall.flip row hrow
    cases hat.symm.trans he'
    rwa [← hcoerced (by simpa using hnull) hknown]

theorem columns_values {meet : Meet} {columns : List ColumnInfo} {us : List (List SqlType)}
    (hrows : exprs.mapM (Scalar.listTypes .none []) = some us)
    (hcolumns : ∀ (i : Nat) (c : ColumnInfo), columns[i]? = some c → valuesColumn us i = some c.type) :
    (Operator.values (columns.map (·.carrier)) exprs).columns meet [] =
      some (columns.map fun c => (c.carrier, c.type)) := by
  simp only [Operator.columns, hrows, Option.bind_eq_bind, Option.bind_some]
  have hfst : columns.map (fun c => (c.carrier, c.type)) =
      columns.zipIdx.map fun p => (p.1.carrier, p.1.type) := by
    calc
      _ = (columns.zipIdx.map Prod.fst).map fun c => (c.carrier, c.type) := by rw [List.zipIdx_map_fst]
      _ = _ := by rw [List.map_map]; rfl
  rw [List.zipIdx_map, hfst]
  refine mapM_map_eq_some fun p hp => ?_
  simp [hcolumns p.2 p.1 (List.mem_zipIdx_iff_getElem?.mp hp)]

theorem plan_delivers {outer : Scopes} (ho : outer.Sound) {d d' : Draft} {p : Planned}
    (h : plan outer source env d = (.ok p, d')) : Delivers d ⟨p.output, [p.relation]⟩ d' := by
  obtain ⟨exprs, types, _, columns, hrows, hcolumns, rfl, hg⟩ := plan_ok.mp h
  obtain ⟨hle, haccepts, htable⟩ := rows_accepts hrows
  obtain ⟨hle', hfresh, hall⟩ := each_minted (·.carrier) (fun _ _ _ _ => column_ok) hcolumns
  have hb : bindings [{ columns }] = columns.map fun c => (c.carrier, c.type) := bindings_singleton _
  have hnone : ColumnTypes.none.Has outer.visible := by
    rw [ho.visible_eq_nil]
    exact fun c hc => absurd hc List.not_mem_nil
  obtain ⟨uss, hcells, huss⟩ := htable.exists_types hnone
  refine Source.minted_delivers ?_ (Nat.le_trans hle hle') rfl hg rfl ?_ (by simp [Operator.subqueries])
  · rw [hb, Columns.carriers, List.map_map]
    exact hfresh.mono hle (Nat.le_refl _)
  · rw [hb]
    refine columns_values hcells fun i c hc => ?_
    obtain ⟨t, ht, htype⟩ := getElem?_of_forall₂ hall hc
    exact haccepts.valuesColumn_eq huss (htype ▸ ht)

end Values

end SqlPlan
