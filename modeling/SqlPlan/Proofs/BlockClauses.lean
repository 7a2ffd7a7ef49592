import SqlPlan.Proofs.Delivery

namespace SqlPlan

variable {active active' : Bool} {t : SqlType} {σ : Type} {s' s : σ} {columns : List SelectColumn} {name : Name}
  {p : SortTarget × Bool}

open List (Forall₂)

namespace Block

variable {Q : Type} {b : Block} {env : Environment} {scopes : Scopes} {n m : Nat}

inductive Value (env : Environment) (scopes : Scopes) (active : Bool) : Scalar → SqlType → Prop where
  | column {c : ColumnInfo} : c ∈ scopes.visible → Value env scopes active (.var c.carrier) c.type
  | expr {Q : Type} {e : Expr Q} {n m : Nat} {x : Typed} : Elaborates env scopes (.target none) [e] n [x] m →
      (x.aggregated = true → active = true) → Value env scopes active x.expr x.type

theorem Value.hasType {s : Scalar} (h : Value env scopes active s t) {Γ : ColumnTypes} (hΓ : Γ.Has scopes.visible) :
    s.HasType Γ t := by
  cases h with
  | column hc =>
    obtain ⟨hs, ht⟩ := hΓ _ hc
    exact fun Δ => (Variable.typeIn_stream hs Γ Δ).trans ht
  | expr hel => exact hel.hasType hΓ _ (List.mem_singleton_self _)

theorem Value.mono (ha : active = true → active' = true) {s : Scalar} (h : Value env scopes active s t) :
    Value env scopes active' s t := by
  cases h with
  | column hc => exact .column hc
  | expr hel hagg => exact .expr hel fun h => ha (hagg h)

/-- A sort key is a position of the select list or an expression of the block. -/
def SortTarget.Resolved (env : Environment) (scopes : Scopes) (active : Bool) (width : Nat) :
    SortTarget → Prop
  | .output position => position < width
  | .expr s => ∃ t, Value env scopes active s t

theorem SortTarget.Resolved.mono (ha : active = true → active' = true) {width : Nat} {target : SortTarget}
    (h : Resolved env scopes active width target) : Resolved env scopes active' width target := by
  cases target with
  | output position => exact h
  | expr s =>
    obtain ⟨t, ht⟩ := h
    exact ⟨t, ht.mono ha⟩

/-- What the clauses of a block consist of. -/
structure Clauses.Resolved (env : Environment) (b : Block) (c : Clauses) : Prop where
  keys : ∀ v ∈ c.keys, v.isIn b.locals = true ∧ ∃ col ∈ b.scopes.visible, v = col.carrier
  columns : ∀ x ∈ c.columns, Value env b.scopes c.active x.value x.type
  having : ∀ x ∈ c.having, ∃ t, Value env b.scopes c.active x.1 t
  sorts : ∀ s ∈ c.sorts, SortTarget.Resolved env b.scopes c.active c.columns.length s.target

theorem mem_visible {r : RelationInfo} {c : ColumnInfo} (hr : r ∈ b.relations) (hc : c ∈ r.columns) :
    c ∈ b.scopes.visible :=
  Scopes.mem_visible (List.mem_cons_self : b.scope ∈ b.scopes) hr hc

variable {e : Expr Q}

theorem predicate_ok {clause : String} {x : Typed}
    (h : b.predicate clause e env n = (.ok x, m)) : Elaborates env b.scopes (.target none) [e] n [x] m := by
  simp only [predicate, Step.bind_ok, Step.ite_ok, Step.fail_ok, Step.pure_ok, and_false, false_or] at h
  obtain ⟨x, _, hx, _, rfl, rfl⟩ := h
  exact Expr.sound env b.scopes e none n x _ hx

theorem whereCondition_ok {s : Scalar} (h : b.whereCondition e env n = (.ok s, m)) :
    n ≤ m ∧ ∃ t, Value env b.scopes false s t := by
  simp only [whereCondition, Step.bind_ok, Step.ite_ok, Step.fail_ok, Step.pure_ok, and_false,
    false_or] at h
  obtain ⟨x, _, hx, hagg, rfl, rfl⟩ := h
  have hel := predicate_ok hx
  exact ⟨hel.minted_le, x.type, .expr hel fun h => absurd h hagg⟩

theorem groupKey_ok {v : Variable} (h : b.groupKey e env n = (.ok v, m)) :
    n ≤ m ∧ v.isIn b.locals = true ∧ ∃ col ∈ b.scopes.visible, v = col.carrier := by
  unfold groupKey at h
  split at h
  · simp only [Step.bind_ok] at h
    obtain ⟨r, k, hr, h⟩ := h
    obtain ⟨c, hc, rfl, rfl⟩ | ⟨decl, rfl, rfl⟩ := Name.resolveVariable_ok hr
    · simp only [Step.ite_ok, Step.pure_ok, Step.fail_ok, and_false, or_false] at h
      obtain ⟨hin, rfl, rfl⟩ := h
      exact ⟨Nat.le_refl _, hin, c, hc, rfl⟩
    · simp at h
  · simp at h

theorem asterisk_ok (h : b.asterisk env s = (.ok columns, s')) :
    (∀ x ∈ columns, ∃ c ∈ b.relations.flatMap (·.columns), x = passed c) ∧ s' = s := by
  simp only [asterisk, Step.ite_ok, Step.fail_ok, Step.pure_ok, and_false, false_or] at h
  obtain ⟨-, rfl, rfl⟩ := h
  refine ⟨fun x hx => ?_, rfl⟩
  obtain ⟨c, hc, rfl⟩ := List.mem_map.mp hx
  obtain ⟨r, hr, hc⟩ := List.mem_flatMap.mp hc
  exact ⟨c, List.mem_flatMap.mpr ⟨r, hr, (List.mem_filter.mp hc).1⟩, rfl⟩

theorem qualifiedAsterisk_ok (h : b.qualifiedAsterisk name env s = (.ok columns, s')) :
    (∀ x ∈ columns, ∃ c ∈ b.relations.flatMap (·.columns), x = passed c) ∧ s' = s := by
  simp only [qualifiedAsterisk, Step.bind_ok] at h
  obtain ⟨key, t, hkey, h⟩ := h
  obtain ⟨rfl, -⟩ := (Name.objectKey_reads name).ok_iff hkey
  rcases hcalled : b.scope.relationsCalled key with _ | ⟨r, _ | ⟨r', rest⟩⟩
  · simp [hcalled] at h
  · simp only [hcalled, Step.pure_ok] at h
    obtain ⟨rfl, rfl⟩ := h
    have hr : r ∈ b.scope.relationsCalled key := by simp [hcalled]
    refine ⟨fun x hx => ?_, rfl⟩
    obtain ⟨c, hc, rfl⟩ := List.mem_map.mp hx
    exact ⟨c, List.mem_flatMap.mpr ⟨r, (List.mem_filter.mp hr).1, (List.mem_filter.mp hc).1⟩, rfl⟩
  · simp [hcalled] at h

variable {item : SelectItem (Expr Q)}

/-- A select item passes columns of the FROM clause on, or has one column with the value of an expression,
which comes from where the FROM column comes from that the value is. -/
theorem selectItem_cases {p : List SelectColumn × Bool} (h : b.selectItem item env n = (.ok p, m)) :
    ((∃ name, item = .asterisk name) ∧ p.2 = false ∧ m = n ∧
        ∀ x ∈ p.1, ∃ c ∈ b.relations.flatMap (·.columns), x = passed c) ∨
      ∃ (e : Expr Q) (label : Option Identifier) (x : Typed) (column : SelectColumn), item = .expr e label ∧
        Elaborates env b.scopes (.target none) [e] n [x] m ∧
        p = ([column], x.aggregated) ∧ column.value = x.expr ∧ column.type = x.type ∧
        column.source = x.expr.asVariable?.bind fun v => (b.columnOf? v).bind (·.source) := by
  unfold selectItem at h
  split at h
  · simp only [Step.bind_ok, Step.pure_ok] at h
    obtain ⟨columns, k, hcolumns, rfl, rfl⟩ := h
    obtain ⟨hpassed, rfl⟩ := asterisk_ok hcolumns
    exact .inl ⟨⟨_, rfl⟩, rfl, rfl, hpassed⟩
  · simp only [Step.bind_ok, Step.pure_ok] at h
    obtain ⟨columns, k, hcolumns, rfl, rfl⟩ := h
    obtain ⟨hpassed, rfl⟩ := qualifiedAsterisk_ok hcolumns
    exact .inl ⟨⟨_, rfl⟩, rfl, rfl, hpassed⟩
  · next e label =>
    simp only [Step.bind_ok, Step.options_ok, Step.pure_ok] at h
    obtain ⟨_, _, ⟨rfl, rfl⟩, x, _, hx, rfl, rfl⟩ := h
    exact .inr ⟨e, label, x, _, rfl, Expr.sound env b.scopes e none _ x _ hx, rfl, rfl, rfl, rfl⟩

theorem selectItem_ok {p : List SelectColumn × Bool} (h : b.selectItem item env n = (.ok p, m)) :
    n ≤ m ∧ ∀ x ∈ p.1, Value env b.scopes p.2 x.value x.type := by
  rcases selectItem_cases h with ⟨-, -, rfl, hpassed⟩ | ⟨e, -, x, column, -, hel, rfl, hvalue, htype, -⟩
  · refine ⟨Nat.le_refl _, fun x hx => ?_⟩
    obtain ⟨c, hc, rfl⟩ := hpassed x hx
    obtain ⟨r, hr, hc⟩ := List.mem_flatMap.mp hc
    exact .column (mem_visible hr hc)
  · refine ⟨hel.minted_le, List.forall_mem_singleton.mpr ?_⟩
    rw [hvalue, htype]
    exact .expr hel id

theorem outputNamed_ok {position : Option Nat} (h : outputNamed columns name env s = (.ok position, s')) :
    (∀ i ∈ position, i < columns.length) ∧ s' = s := by
  simp only [outputNamed, Step.bind_ok] at h
  obtain ⟨key, t, hkey, h⟩ := h
  obtain ⟨rfl, -⟩ := (Name.objectKey_reads name).ok_iff hkey
  generalize hnamed : columns.zipIdx.filter _ = named at h
  rcases named with _ | ⟨⟨first, i⟩, rest⟩
  · obtain ⟨rfl, rfl⟩ := Step.pure_ok.mp h
    exact ⟨by simp, rfl⟩
  · simp only [Step.ite_ok, Step.pure_ok, Step.fail_ok, and_false, or_false] at h
    obtain ⟨-, rfl, rfl⟩ := h
    have hmem : (first, i) ∈ columns.zipIdx := List.mem_of_mem_filter (hnamed ▸ List.mem_cons_self)
    have hi := List.mem_zipIdx_iff_getElem?.mp hmem
    refine ⟨fun j hj => ?_, rfl⟩
    cases hj
    exact (List.getElem?_eq_some_iff.mp hi).1

theorem lt_of_natBelow {bound k : Nat} {cs : List Char} (h : Text.natBelow? bound cs = some k) :
    k < bound := by
  simp only [Text.natBelow?, Option.bind_eq_bind, Option.bind_eq_some_iff,
    Option.ite_none_right_eq_some] at h
  obtain ⟨j, -, hj, h⟩ := h
  cases h
  exact hj

theorem sortExpr_ok (h : b.sortExpr e env n = (.ok p, m)) :
    ∃ x, Elaborates env b.scopes (.target none) [e] n [x] m ∧ p = (.expr x.expr, x.aggregated) := by
  simp only [sortExpr, Step.bind_ok, Step.pure_ok] at h
  obtain ⟨x, _, hx, rfl, rfl⟩ := h
  exact ⟨x, Expr.sound env b.scopes e none n x _ hx, rfl⟩

/-- A sort key is a name or a number that stands for a position of the select list, or an expression. -/
theorem sortTarget_cases (h : b.sortTarget columns e env n = (.ok p, m)) :
    (∃ i, i < columns.length ∧ p = (.output i, false) ∧ m = n ∧
        ((∃ name, e = .reference name) ∨ ∃ l, e = .literal l)) ∨
      ∃ x, Elaborates env b.scopes (.target none) [e] n [x] m ∧ p = (.expr x.expr, x.aggregated) := by
  unfold sortTarget at h
  split at h
  · simp only [Step.bind_ok] at h
    obtain ⟨position, k, hposition, h⟩ := h
    obtain ⟨hlt, rfl⟩ := outputNamed_ok hposition
    cases position with
    | none => exact .inr (sortExpr_ok h)
    | some i =>
      simp only [Step.pure_ok] at h
      obtain ⟨rfl, rfl⟩ := h
      exact .inl ⟨i, hlt i rfl, rfl, rfl, .inl ⟨_, rfl⟩⟩
  · next negative digits =>
    rcases hposition : Text.natBelow? (columns.length + 1) digits.toList with _ | _ | i
    · simp [hposition] at h
    · simp [hposition] at h
    · simp only [hposition, Step.ite_ok, Step.fail_ok, Step.pure_ok, and_false, false_or] at h
      obtain ⟨-, rfl, rfl⟩ := h
      have hlt := lt_of_natBelow hposition
      exact .inl ⟨i, by omega, rfl, rfl, .inr ⟨_, rfl⟩⟩
  · exact .inr (sortExpr_ok h)

theorem sortTarget_ok (h : b.sortTarget columns e env n = (.ok p, m)) :
    n ≤ m ∧ SortTarget.Resolved env b.scopes p.2 columns.length p.1 := by
  rcases sortTarget_cases h with ⟨i, hlt, rfl, rfl, -⟩ | ⟨x, hel, rfl⟩
  · exact ⟨Nat.le_refl _, hlt⟩
  · exact ⟨hel.minted_le, x.type, .expr hel id⟩

theorem sortRequest_ok {item : SortItem (Expr Q)} {p : SortRequest × Bool}
    (h : b.sortRequest columns item env n = (.ok p, m)) :
    n ≤ m ∧ SortTarget.Resolved env b.scopes p.2 columns.length p.1.target := by
  simp only [sortRequest, Step.bind_ok, Step.pure_ok, Prod.exists] at h
  obtain ⟨target, aggregated, k, htarget, rfl, rfl⟩ := h
  exact sortTarget_ok htarget

theorem limitCount_ok {count : Nat} (h : b.limitCount e env n = (.ok count, m)) :
    ∃ x, e.resolve b.scopes none env n = (.ok x, m) ∧ x.type.isInteger = true ∧
      x.expr.foldInteger = some (count : Int) := by
  simp only [limitCount, Step.bind_ok, Step.ite_ok, Step.fail_ok, and_false, false_or] at h
  obtain ⟨x, k, hx, htype, h⟩ := h
  rcases hfold : x.expr.foldInteger with _ | _ | _
  · simp [hfold] at h
  · simp only [hfold, Step.pure_ok] at h
    obtain ⟨rfl, rfl⟩ := h
    exact ⟨x, hx, by simpa using htype, hfold⟩
  · simp [hfold] at h

theorem optional_ok {α β : Type} {f : α → Step σ β} {o : Option α} {r : Option β}
    (h : optional f o env s = (.ok r, s')) :
    (o = none ∧ r = none ∧ s' = s) ∨ ∃ a y, o = some a ∧ r = some y ∧ f a env s = (.ok y, s') := by
  cases o with
  | none =>
    obtain ⟨rfl, rfl⟩ := Step.pure_ok.mp h
    exact .inl ⟨rfl, rfl, rfl⟩
  | some a =>
    simp only [optional, Step.bind_ok, Step.pure_ok] at h
    obtain ⟨y, _, hy, rfl, rfl⟩ := h
    exact .inr ⟨a, y, rfl, rfl, hy⟩

theorem optional_isSome {α β : Type} {f : α → Step σ β} {o : Option α} {r : Option β}
    (h : optional f o env s = (.ok r, s')) : r.isSome = o.isSome := by
  rcases optional_ok h with ⟨rfl, rfl, -⟩ | ⟨_, _, rfl, rfl, -⟩
  · rfl
  · rfl

theorem condition_minted_le {e : Option (Expr Q)} {s : Option Scalar}
    (h : optional b.whereCondition e env n = (.ok s, m)) : n ≤ m := by
  rcases optional_ok h with ⟨-, -, rfl⟩ | ⟨e, s, -, -, hs⟩
  · exact Nat.le_refl _
  · exact (whereCondition_ok hs).1

theorem clauses_ok {c : SelectClauses (Expr Q)} {cl : Clauses} (h : b.clauses c env n = (.ok cl, m)) :
    n ≤ m ∧ cl.Resolved env b := by
  simp only [clauses, Step.bind_ok, Step.pure_ok] at h
  obtain ⟨keys, n₁, hkeys, items, n₂, hitems, having, n₃, hhaving, sorts, n₄, hsorts, limit, n₅, hlimit,
    rfl, rfl⟩ := h
  obtain ⟨hle₁, hkeys⟩ := collect_map_ok (fun _ _ _ _ _ => groupKey_ok) hkeys
  obtain ⟨hle₂, hitems⟩ := collect_map_ok (fun _ _ _ _ _ => selectItem_ok) hitems
  obtain ⟨hle₄, hsorts⟩ := collect_map_ok (fun _ _ _ _ _ => sortRequest_ok) hsorts
  have hle₃ : n₂ ≤ n₃ ∧ ∀ x ∈ having, ∃ (e : Expr Q) (k : Nat) (k' : Nat),
      Elaborates env b.scopes (.target none) [e] k [x] k' := by
    rcases optional_ok hhaving with ⟨-, rfl, rfl⟩ | ⟨e, x, -, rfl, hx⟩
    · exact ⟨Nat.le_refl _, by simp⟩
    · have hel := predicate_ok hx
      refine ⟨hel.minted_le, fun y hy => ?_⟩
      cases hy
      exact ⟨e, _, _, hel⟩
  have hle₅ : n₄ ≤ n₅ := by
    rcases optional_ok hlimit with ⟨-, -, rfl⟩ | ⟨e, count, -, -, hcount⟩
    · exact Nat.le_refl _
    · obtain ⟨x, hx, -⟩ := limitCount_ok hcount
      exact (Expr.sound env b.scopes e none _ x _ hx).minted_le
  refine ⟨by omega, ?_, ?_, ?_, ?_⟩
  · intro v hv
    obtain ⟨e, -, hin⟩ := exists_of_forall₂ hkeys v hv
    exact hin
  · intro x hx
    obtain ⟨p, hp, hx⟩ := List.mem_flatMap.mp hx
    obtain ⟨item, -, hvalues⟩ := exists_of_forall₂ hitems p hp
    refine (hvalues x hx).mono fun hagg => ?_
    have hany : items.any (·.2) = true := List.any_eq_true.mpr ⟨p, hp, hagg⟩
    simp [hany]
  · intro x hx
    obtain ⟨y, hy, rfl⟩ := Option.map_eq_some_iff.mp hx
    obtain ⟨e, k, k', hel⟩ := hle₃.2 y hy
    refine ⟨y.type, .expr hel fun _ => ?_⟩
    have hsome : having.isSome = true := Option.isSome_of_mem hy
    simp [hsome]
  · intro sort hsort
    obtain ⟨p, hp, rfl⟩ := List.mem_map.mp hsort
    obtain ⟨item, -, hresolved⟩ := exists_of_forall₂ hsorts p hp
    refine hresolved.mono fun hagg => ?_
    have hany : sorts.any (·.2) = true := List.any_eq_true.mpr ⟨p, hp, hagg⟩
    simp [hany]

end Block

end SqlPlan
