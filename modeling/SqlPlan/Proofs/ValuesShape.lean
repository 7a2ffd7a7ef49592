import SqlPlan.Proofs.Delivery
import SqlPlan.Proofs.OperandOrder
import SqlPlan.Proofs.SourceTransfer

namespace SqlPlan

variable {α β σ : Type} {f : α → Step σ β} {xs : List α} {n m k i : Nat} {x : Typed} {t : SqlType} {s s' : σ}
  {Γ : ColumnTypes} {c : Option Typed} {cs : List (List (Option Typed))} {type : Option SqlType}
  {p : Option Typed × Option SqlType} {exprs : List (List Scalar)}

open List (Forall₂)

variable {Q : Type} {env : Environment} {scopes : Scopes}

theorem exists_each {R : α → β → Prop} (h : ∀ x ∈ xs, ∀ s, ∃ y, f x env s = (.ok y, s) ∧ R x y) (s : σ) :
    ∃ ys, Step.each f xs env s = (.ok ys, s) ∧ Forall₂ R xs ys := by
  induction xs with
  | nil => exact ⟨[], rfl, .nil⟩
  | cons x xs ih =>
    obtain ⟨hx, hxs⟩ := List.forall_mem_cons.mp h
    obtain ⟨y, hy, hr⟩ := hx s
    obtain ⟨ys, hys, hall⟩ := ih hxs
    exact ⟨y :: ys, Step.each_cons_ok.mpr ⟨y, ys, s, rfl, hy, hys⟩, .cons hr hall⟩

theorem exists_collect (h : ∀ x ∈ xs, ∀ s, ∃ y t, f x env s = (.ok y, t)) (s : σ) :
    ∃ ys t, Step.collect (xs.map f) env s = (.ok ys, t) := by
  induction xs generalizing s with
  | nil => exact ⟨[], s, rfl⟩
  | cons x xs ih =>
    obtain ⟨hx, hxs⟩ := List.forall_mem_cons.mp h
    obtain ⟨y, t, hy⟩ := hx s
    obtain ⟨ys, u, hys⟩ := ih hxs t
    exact ⟨y :: ys, u, Step.collect_cons_ok.mpr ⟨y, ys, t, rfl, hy, hys⟩⟩

namespace Values

def cellType? (env : Environment) (scopes : Scopes) (e : Expr Q) : Option SqlType :=
  Analysis.type? env (e.resolve scopes none)

theorem cellType?_eq (e : Expr Q) (n : Nat) :
    cellType? env scopes e = (e.resolve scopes none env n).1.toOption.map (·.type) :=
  Step.Parallel.toOption_eq (Expr.stable env scopes e none) 0 n

variable {e : Expr Q}

theorem cellType?_of_resolve (h : e.resolve scopes none env n = (.ok x, m)) : cellType? env scopes e = some x.type := by
  simp [cellType?_eq e n, h]

def knownCells (source : List (List (Expr Q))) (position : Nat) : List (Expr Q) :=
  (source.filterMap (·[position]?)).filter (!·.isNull)

/-- What the types of a column's cells unify to; it is unknown if they are all bare NULLs. -/
def columnType? (env : Environment) (scopes : Scopes) (source : List (List (Expr Q))) (position : Nat) :
    Option SqlType :=
  ((knownCells source position).mapM (cellType? env scopes)).bind SqlType.unifyAll

/-- The rows make up a table whose columns have the given types. -/
structure Accepts (env : Environment) (scopes : Scopes) (source : List (List (Expr Q)))
    (types : List SqlType) : Prop where
  nonempty : source ≠ []
  width : ∀ row ∈ source, row.length = types.length
  column : ∀ (i : Nat) (t : SqlType), types[i]? = some t → columnType? env scopes source i = some t
  /-- Only by option may a column hold nothing but bare NULLs. -/
  known : env.options.allowContextIndependentNull = false → ∀ i < types.length, knownCells source i ≠ []

/-- What a cell becomes in a column of the given type. -/
inductive CellOf (env : Environment) (scopes : Scopes) (e : Expr Q) (t : SqlType) : Scalar → Prop where
  | null (h : e.isNull = true) : CellOf env scopes e t (.immediate .null t)
  | kept {n m : Nat} {x : Typed} (hnull : e.isNull = false) (h : e.resolve scopes none env n = (.ok x, m))
      (htype : x.type = t ∨ x.type = .unknown) : CellOf env scopes e t x.expr
  | cast {n m : Nat} {x : Typed} (hnull : e.isNull = false) (h : e.resolve scopes none env n = (.ok x, m))
      (htype : x.type ≠ t) (hknown : x.type ≠ .unknown) : CellOf env scopes e t (.cast .ignore t x.expr)

/-- The types that a cell may have in a column of the given type: that one or none, and none only if it had
none before. -/
def Coerced (env : Environment) (scopes : Scopes) (e : Expr Q) (t u : SqlType) : Prop :=
  (u = t ∨ u = .unknown) ∧ (e.isNull = false → cellType? env scopes e ≠ some .unknown → u = t)

theorem CellOf.exists_hasType {s : Scalar} (h : CellOf env scopes e t s) (hΓ : Γ.Has scopes.visible) :
    ∃ u, s.HasType Γ u ∧ Coerced env scopes e t u := by
  cases h with
  | null => exact ⟨t, fun _ => rfl, .inl rfl, fun _ _ => rfl⟩
  | kept _ h htype =>
    obtain ⟨-, hx⟩ := Expr.resolve_hasType hΓ h
    refine ⟨_, hx, htype, fun _ hknown => htype.resolve_right fun hunknown => hknown ?_⟩
    rw [cellType?_of_resolve h, hunknown]
  | cast _ h _ _ =>
    obtain ⟨-, hx⟩ := Expr.resolve_hasType hΓ h
    exact ⟨t, fun Δ => by simp [Scalar.typeIn, hx Δ], .inl rfl, fun _ _ => rfl⟩

namespace Accepts

variable {source source' : List (List (Expr Q))} {types types' : List SqlType}

theorem knownCells_perm (h : source.Perm source') (i : Nat) :
    (knownCells source i).Perm (knownCells source' i) :=
  (h.filterMap _).filter _

theorem perm (hperm : source.Perm source') (h : Accepts env scopes source types) :
    Accepts env scopes source' types where
  nonempty hnil := h.nonempty (hperm.trans (.of_eq hnil)).eq_nil
  width row hrow := h.width row (hperm.mem_iff.mpr hrow)
  column i t ht := by
    rw [columnType?, ← SqlType.bind_unifyAll_perm (knownCells_perm hperm i)]
    exact h.column i t ht
  known hoption i hi hnil := h.known hoption i hi ((knownCells_perm hperm i).trans (.of_eq hnil)).eq_nil

theorem unique (h : Accepts env scopes source types) (h' : Accepts env scopes source types') :
    types = types' := by
  obtain ⟨row, hrow⟩ := List.exists_mem_of_ne_nil source h.nonempty
  have hlen : types.length = types'.length := (h.width row hrow).symm.trans (h'.width row hrow)
  refine List.ext_getElem hlen fun i hi hi' => ?_
  have ht := h.column i types[i] (List.getElem?_eq_getElem hi)
  rw [h'.column i types'[i] (List.getElem?_eq_getElem hi')] at ht
  exact (Option.some.inj ht).symm

end Accepts

section Resolution

variable {source : List (List (Expr Q))}

theorem arity_ok {rows : List (List (Expr Q))} (h : arity rows env s = (.ok k, s')) :
    (∀ row ∈ rows, row.length = k) ∧ s' = s := by
  cases rows with
  | nil => simp [arity] at h
  | cons first rest =>
    unfold arity at h
    simp only at h
    generalize hfind : (first :: rest).zipIdx.find? _ = found at h
    rcases found with _ | ⟨row, i⟩
    · obtain ⟨rfl, rfl⟩ := Step.pure_ok.mp h
      refine ⟨fun row hrow => ?_, rfl⟩
      obtain ⟨i, hi⟩ := List.getElem?_of_mem hrow
      have hnot := List.find?_eq_none.mp hfind (row, i) (List.mem_zipIdx_iff_getElem?.mpr hi)
      simpa using hnot
    · simp at h

theorem arity_eq (hne : source ≠ []) (h : ∀ row ∈ source, row.length = k) (s : σ) :
    arity source env s = (.ok k, s) := by
  obtain _ | ⟨first, rest⟩ := source
  · exact absurd rfl hne
  · have hfirst := h first List.mem_cons_self
    have hnone : (first :: rest).zipIdx.find? (fun p => p.1.length != first.length) = none := by
      refine List.find?_eq_none.mpr fun p hp => ?_
      simp [h p.1 (List.fst_mem_of_mem_zipIdx hp), hfirst]
    simp only [arity, hnone]
    rw [hfirst]
    rfl

def Alone (env : Environment) (scopes : Scopes) (e : Expr Q) : Option Typed → Prop
  | none => e.isNull = true
  | some x => e.isNull = false ∧ ∃ n m, e.resolve scopes none env n = (.ok x, m)

theorem cell_alone (h : cell scopes e env n = (.ok c, m)) : n ≤ m ∧ Alone env scopes e c := by
  simp only [cell, Step.ite_ok, Step.pure_ok, Step.bind_ok] at h
  obtain ⟨hnull, rfl, rfl⟩ | ⟨hnull, x, k, hx, rfl, rfl⟩ := h
  · exact ⟨Nat.le_refl _, hnull⟩
  · exact ⟨(Expr.sound env scopes e none n x k hx).minted_le, by simpa using hnull, n, k, hx⟩

theorem cells_alone (h : cells scopes source env n = (.ok cs, m)) :
    n ≤ m ∧ Forall₂ (Forall₂ (Alone env scopes)) source cs :=
  collect_map_ok (fun _ _ _ _ _ hrow => collect_map_ok (fun _ _ _ _ _ => cell_alone) hrow) h

theorem exists_cell (h : e.isNull = false → (cellType? env scopes e).isSome) (n : Nat) :
    ∃ c m, cell scopes e env n = (.ok c, m) := by
  cases hnull : e.isNull with
  | true => exact ⟨none, n, by simp [cell, hnull]⟩
  | false =>
    have hsome := h hnull
    rw [cellType?_eq e n, Option.isSome_map] at hsome
    obtain ⟨x, m, hrun⟩ := Step.exists_ok hsome
    exact ⟨some x, m, by simp [cell, hnull, hrun]⟩

theorem mapM_knownCells (h : Forall₂ (Forall₂ (Alone env scopes)) source cs) (i : Nat) :
    (knownCells source i).mapM (cellType? env scopes) = some (knownTypes (columnAt source cs i)) := by
  induction h with
  | nil => rfl
  | @cons row typed source cs hrow _ ih =>
    simp only [knownCells, columnAt, knownTypes, List.zip_cons_cons, List.map_cons, List.filterMap_cons] at ih ⊢
    cases he : row[i]? with
    | none =>
      have hc : typed[i]? = none := by simpa [hrow.length_eq] using he
      simpa [hc] using ih
    | some e =>
      obtain ⟨c, hc, halone⟩ := getElem?_of_forall₂ hrow.flip he
      rcases c with _ | x
      · have hnull : e.isNull = true := halone
        simpa [hc, hnull] using ih
      · obtain ⟨hnull, n, m, hx⟩ := halone
        simp [hc, hnull, cellType?_of_resolve hx, ih]

/-- What is found for a column is its type, or nothing if its cells are all bare NULLs. -/
def FoundAt (env : Environment) (scopes : Scopes) (source : List (List (Expr Q))) (position : Nat)
    (type : Option SqlType) : Prop :=
  columnType? env scopes source position = some (type.getD .unknown) ∧
    (type = none ↔ knownCells source position = [])

theorem unifyColumn_foundAt (halone : Forall₂ (Forall₂ (Alone env scopes)) source cs)
    (h : unifyColumn i (columnAt source cs i) none env s = (.ok type, s')) : FoundAt env scopes source i type := by
  have hmap := mapM_knownCells halone i
  have htype : (unifyColumn i (columnAt source cs i) none env s).1.toOption = _ := unifyColumn_none_type i _ s
  rw [h] at htype
  obtain ⟨t, hunify, ht⟩ := Option.map_eq_some_iff.mp htype.symm
  have hcolumn : columnType? env scopes source i = some t := by rw [columnType?, hmap, Option.bind_some, hunify]
  have hlen := (mapM_eq_some_iff.mp hmap).length_eq
  rw [FoundAt, hcolumn]
  by_cases hempty : knownTypes (columnAt source cs i) = []
  · rw [hempty] at hunify ht hlen
    cases hunify
    subst ht
    simpa using hlen
  · rw [if_neg (by simpa using hempty)] at ht
    subst ht
    have hne : knownCells source i ≠ [] := by
      rintro hnil
      rw [hnil] at hlen
      exact hempty (List.eq_nil_of_length_eq_zero hlen.symm)
    simpa using hne

theorem unifyColumn_reads (position : Nat) (column : List (Option Typed × Option Span)) (type : Option SqlType) :
    Step.Reads (unifyColumn position column type : Step σ _) env := by
  fun_induction unifyColumn position column type with
  | case1 => exact .pure _
  | case2 _ _ _ ih | case3 _ _ _ ih | case4 _ _ _ _ _ _ ih => exact ih
  | case5 => exact .fail _ _ _

theorem exists_unifyColumn (halone : Forall₂ (Forall₂ (Alone env scopes)) source cs)
    (h : columnType? env scopes source i = some t) (s : σ) :
    ∃ type, unifyColumn i (columnAt source cs i) none env s = (.ok type, s) ∧ FoundAt env scopes source i type := by
  rw [columnType?, mapM_knownCells halone i, Option.bind_some] at h
  have htype : (unifyColumn i (columnAt source cs i) none env s).1.toOption = _ := unifyColumn_none_type i _ s
  rw [h] at htype
  obtain ⟨s', hrun⟩ : ∃ s', unifyColumn i (columnAt source cs i) none env s = (.ok _, s') :=
    ⟨_, Prod.ext (Outcome.toOption_eq_some.1 htype) rfl⟩
  obtain ⟨rfl, -⟩ := (unifyColumn_reads _ _ _).ok_iff hrun
  exact ⟨_, hrun, unifyColumn_foundAt halone hrun⟩

/-- A bare NULL takes the type found for its column; without one, only by option. -/
def Fills (env : Environment) (p : Option Typed × Option SqlType) (x : Typed) : Prop :=
  p.1 = some x ∨ p.1 = none ∧ x = .constant .null (p.2.getD .unknown) ∧
    (p.2 = none → env.options.allowContextIndependentNull = true)

theorem fill_fills (h : fill p env s = (.ok x, s')) : Fills env p x ∧ s' = s := by
  obtain ⟨_ | y, t⟩ := p
  · obtain ⟨hx, rfl⟩ := Literal.resolve_ok.mp h
    refine ⟨.inr ⟨rfl, ?_⟩, rfl⟩
    cases t with
    | some t =>
      cases hx
      exact ⟨rfl, by simp⟩
    | none =>
      by_cases hoption : env.options.allowContextIndependentNull
      · simp only [Literal.typed, Option.map_none, if_pos hoption] at hx
        cases hx
        exact ⟨rfl, fun _ => hoption⟩
      · simp [Literal.typed, hoption, Literal.constant, Except.map] at hx
  · obtain ⟨rfl, rfl⟩ := Step.pure_ok.mp h
    exact ⟨.inl rfl, rfl⟩

theorem exists_fill (h : p.2 = none → env.options.allowContextIndependentNull = true) (s : σ) :
    ∃ x, fill p env s = (.ok x, s) := by
  obtain ⟨_ | y, _ | t⟩ := p
  · exact ⟨_, Literal.resolve_ok.mpr ⟨by simp [Literal.typed, h rfl]; rfl, rfl⟩⟩
  · exact ⟨.constant .null t, rfl⟩
  · exact ⟨y, rfl⟩
  · exact ⟨y, rfl⟩

theorem exists_fillRow {types : List (Option SqlType)}
    (h : ∀ t ∈ types, t = none → env.options.allowContextIndependentNull = true) (row : List (Option Typed)) (s : σ) :
    ∃ xs, Step.each fill (row.zip types) env s = (.ok xs, s) := by
  have hcell : ∀ p ∈ row.zip types, ∀ s : σ, ∃ x, fill p env s = (.ok x, s) ∧ True := by
    intro p hp s
    obtain ⟨x, hx⟩ := exists_fill (h p.2 (List.of_mem_zip hp).2) s
    exact ⟨x, hx, trivial⟩
  obtain ⟨xs, hxs, -⟩ := exists_each hcell s
  exact ⟨xs, hxs⟩

theorem cellOf_of_fills (halone : Alone env scopes e c) (hfills : Fills env (c, type) x) :
    CellOf env scopes e (type.getD .unknown) (x.expr.coerce x.type (type.getD .unknown)) := by
  rcases hfills with hc | ⟨hc, rfl, -⟩
  · cases (show c = some x from hc)
    obtain ⟨hnull, n, m, hx⟩ := halone
    by_cases hsame : x.type = type.getD .unknown ∨ x.type = .unknown
    · rw [Scalar.coerce, if_pos hsame]
      exact .kept hnull hx hsame
    · rw [Scalar.coerce, if_neg hsame]
      obtain ⟨htype, hknown⟩ := not_or.mp hsame
      exact .cast hnull hx htype hknown
  · cases (show c = none from hc)
    simp only [Typed.constant, Scalar.coerce, true_or, if_true]
    exact .null halone

variable {row : List (Expr Q)}

theorem rowOf_of_fills {cs : List (Option Typed)} {types : List (Option SqlType)}
    {xs : List Typed} (halone : Forall₂ (Alone env scopes) row cs) (hfills : Forall₂ (Fills env) (cs.zip types) xs) :
    Forall₂ (fun p s => CellOf env scopes p.1 p.2 s) (row.zip (types.map fun t => t.getD .unknown))
      ((xs.zip (types.map fun t => t.getD .unknown)).map fun p => p.1.expr.coerce p.1.type p.2) := by
  induction halone generalizing types xs with
  | nil =>
    cases hfills
    exact .nil
  | cons he _ ih =>
    cases types with
    | nil =>
      cases hfills
      exact .nil
    | cons type types =>
      obtain _ | ⟨hx, hxs⟩ := hfills
      exact .cons (cellOf_of_fills he hx) (ih hxs)

/-- The rows of a table and the cells they become in columns of the given types. -/
def Tabulates (env : Environment) (scopes : Scopes) (types : List SqlType) (source : List (List (Expr Q)))
    (exprs : List (List Scalar)) : Prop :=
  Forall₂ (fun row cells => Forall₂ (fun p s => CellOf env scopes p.1 p.2 s) (row.zip types) cells) source exprs

theorem tabulates_of_fills {types : List (Option SqlType)} {filled : List (List Typed)}
    (halone : Forall₂ (Forall₂ (Alone env scopes)) source cs)
    (hfills : Forall₂ (fun row xs => Forall₂ (Fills env) (row.zip types) xs) cs filled) :
    Tabulates env scopes (types.map fun t => t.getD .unknown) source (filled.map fun row =>
      (row.zip (types.map fun t => t.getD .unknown)).map fun p => p.1.expr.coerce p.1.type p.2) := by
  induction halone generalizing filled with
  | nil =>
    cases hfills
    exact .nil
  | cons hrow _ ih =>
    obtain _ | ⟨hxs, hrest⟩ := hfills
    exact .cons (rowOf_of_fills hrow hxs) (ih hrest)

/-- A bare NULL in a column without a type is let through by option only. -/
theorem allowed_of_fills {cs : List (Option Typed)} {types : List (Option SqlType)}
    {xs : List Typed} (halone : Forall₂ (Alone env scopes) row cs) (hfills : Forall₂ (Fills env) (cs.zip types) xs)
    (he : row[i]? = some e) (hnull : e.isNull = true) (htype : types[i]? = some none) :
    env.options.allowContextIndependentNull = true := by
  obtain ⟨_ | y, hc, hcell⟩ := getElem?_of_forall₂ halone.flip he
  · have hpair : (cs.zip types)[i]? = some (none, none) := List.getElem?_zip_eq_some.mpr ⟨hc, htype⟩
    obtain ⟨x, -, hx | ⟨-, -, hallowed⟩⟩ := getElem?_of_forall₂ hfills.flip hpair
    · cases hx
    · exact hallowed rfl
  · exact absurd hnull (by simp [hcell.1])

theorem rows_accepts {types : List SqlType} (h : rows scopes source env n = (.ok (exprs, types), m)) :
    n ≤ m ∧ Accepts env scopes source types ∧ Tabulates env scopes types source exprs := by
  have hne : source ≠ [] := by
    rintro rfl
    simp [rows, arity] at h
  simp only [rows, Step.bind_ok, Step.pure_ok, Prod.mk.injEq] at h
  obtain ⟨k, n₁, harity, cs, n₂, hcells, ts, n₃, hts, filled, n₄, hfilled, ⟨hexprs, htypes⟩, rfl⟩ := h
  obtain ⟨hwidth, rfl⟩ := arity_ok harity
  obtain ⟨hle, halone⟩ := cells_alone hcells
  obtain ⟨hfound, rfl⟩ := each_keeps (P := FoundAt env scopes source)
    (fun _ _ _ _ hrun => ⟨unifyColumn_foundAt halone hrun, ((unifyColumn_reads _ _ _).ok_iff hrun).1⟩) hts
  obtain ⟨hfills, rfl⟩ := each_keeps (fun _ _ _ _ => each_keeps (fun _ _ _ _ => fill_fills)) hfilled
  subst hexprs htypes
  have hlen : ts.length = k := by simpa using hfound.length_eq.symm
  have hat : ∀ (i : Nat) (t : Option SqlType), ts[i]? = some t → FoundAt env scopes source i t := by
    intro i t ht
    obtain ⟨j, hj, hfound⟩ := getElem?_of_forall₂ hfound ht
    obtain ⟨_, rfl⟩ := List.getElem?_eq_some_iff.mp hj
    rwa [List.getElem_range] at hfound
  refine ⟨hle, ⟨hne, by simpa [hlen] using hwidth, ?_, ?_⟩, ?_⟩
  · intro i t ht
    rw [List.getElem?_map, Option.map_eq_some_iff] at ht
    obtain ⟨type, htype, rfl⟩ := ht
    exact (hat i type htype).1
  · intro hoption i hi hnil
    obtain ⟨row, hrow⟩ := List.exists_mem_of_ne_nil source hne
    obtain ⟨typed, htyped, hcells⟩ := exists_of_forall₂ halone.flip row hrow
    obtain ⟨xs, -, hxs⟩ := exists_of_forall₂ hfills.flip typed htyped
    rw [List.length_map] at hi
    have hlt : i < row.length := by rwa [hwidth row hrow, ← hlen]
    have he := List.getElem?_eq_getElem hlt
    have hnull : row[i].isNull = true := by
      by_contra hnot
      have hmem : row[i] ∈ knownCells source i :=
        List.mem_filter.mpr ⟨List.mem_filterMap.mpr ⟨row, hrow, he⟩, by simpa using hnot⟩
      rw [hnil] at hmem
      cases hmem
    have htype := List.getElem?_eq_getElem hi
    rw [(hat i _ htype).2.mpr hnil] at htype
    rw [allowed_of_fills hcells hxs he hnull htype] at hoption
    cases hoption
  · exact tabulates_of_fills halone hfills

theorem Accepts.isSome_cellType? {types : List SqlType} (h : Accepts env scopes source types) (hrow : row ∈ source)
    (he : e ∈ row) (hnull : e.isNull = false) :
    (cellType? env scopes e).isSome := by
  obtain ⟨i, hi⟩ := List.getElem?_of_mem he
  have hlt : i < types.length := by
    rw [← h.width row hrow]
    exact (List.getElem?_eq_some_iff.mp hi).1
  have hmem : e ∈ knownCells source i :=
    List.mem_filter.mpr ⟨List.mem_filterMap.mpr ⟨row, hrow, hi⟩, by simp [hnull]⟩
  have hcolumn := h.column i types[i] (List.getElem?_eq_getElem hlt)
  obtain ⟨us, hus, -⟩ := Option.bind_eq_some_iff.mp hcolumn
  exact Option.isSome_iff_exists.mpr (exists_of_mapM hus hmem)

theorem exists_rows {types : List SqlType} (h : Accepts env scopes source types) (n : Nat) :
    ∃ r m, rows scopes source env n = (.ok r, m) := by
  have harity : arity source env n = (.ok types.length, n) := arity_eq h.nonempty h.width n
  obtain ⟨cs, m, hcells⟩ : ∃ cs m, cells scopes source env n = (.ok cs, m) :=
    exists_collect (fun row hrow => exists_collect fun e he => exists_cell (h.isSome_cellType? hrow he)) n
  obtain ⟨-, halone⟩ := cells_alone hcells
  obtain ⟨ts, hts, hfound⟩ : ∃ ts, Step.each (fun i => unifyColumn i (columnAt source cs i) none)
      (List.range types.length) env m = (.ok ts, m) ∧ Forall₂ (FoundAt env scopes source) _ ts := by
    refine exists_each (fun i hi => ?_) m
    exact exists_unifyColumn halone (h.column i _ (List.getElem?_eq_getElem (List.mem_range.mp hi)))
  have hallowed : ∀ t ∈ ts, t = none → env.options.allowContextIndependentNull = true := by
    rintro t ht rfl
    obtain ⟨i, hi, -, hnone⟩ := exists_of_forall₂ hfound none ht
    by_contra hoption
    exact h.known (by simpa using hoption) i (List.mem_range.mp hi) (hnone.mp rfl)
  obtain ⟨filled, hfilled, -⟩ : ∃ filled, Step.each (fun row => Step.each fill (row.zip ts)) cs env m =
      (.ok filled, m) ∧ Forall₂ (fun _ _ => True) cs filled := by
    refine exists_each (fun row _ s => ?_) m
    obtain ⟨xs, hxs⟩ := exists_fillRow hallowed row s
    exact ⟨xs, hxs, trivial⟩
  simp only [rows, Step.bind_ok, Step.pure_ok]
  exact ⟨_, m, _, _, harity, _, _, hcells, _, _, hts, _, _, hfilled, rfl, rfl⟩

end Resolution

end Values

open Values

variable {outer : Scopes} {source : List (List (Expr Q))} {d d' : Draft}

theorem Values.column_ok {type : SqlType} {c : ColumnInfo} (h : column type env n = (.ok c, m)) :
    (∃ label, c.carrier = ⟨n + 1, .stream label⟩) ∧ n + 1 ≤ m ∧ c.type = type := by
  simp only [column, Step.bind_ok, Analysis.stream_ok, Step.pure_ok] at h
  obtain ⟨v, k, ⟨rfl, rfl⟩, rfl, rfl⟩ := h
  exact ⟨⟨none, rfl⟩, Nat.le_refl _, rfl⟩

theorem Values.exists_columns (types : List SqlType) (n : Nat) :
    ∃ columns m, Step.each column types env n = (.ok columns, m) := by
  induction types generalizing n with
  | nil => exact ⟨[], n, rfl⟩
  | cons type types ih =>
    obtain ⟨columns, m, h⟩ := ih (n + 1)
    exact ⟨_, m, Step.each_cons_ok.mpr ⟨_, columns, n + 1, rfl, rfl, h⟩⟩

theorem Values.plan_ok {p : Planned} : plan outer source env d = (.ok p, d') ↔
    ∃ exprs types k columns, rows outer source env d.minted = (.ok (exprs, types), k) ∧
      Step.each column types env k = (.ok columns, d'.minted) ∧ p = ⟨⟨d.graph.size, 0⟩, { columns }⟩ ∧
      d'.graph = d.graph.insert (.values (RelationInfo.carriers { columns }) exprs) [] 1 := by
  simp only [plan, Step.bind_ok, Planning.lift_ok, Planning.add_ok, Step.pure_ok, Prod.exists]
  constructor
  · rintro ⟨exprs, types, d₁, ⟨hrows, hg₁⟩, columns, d₂, ⟨hcolumns, hg₂⟩, _, _, ⟨rfl, hm, hg⟩, rfl, rfl⟩
    rw [hg₂, hg₁] at hg
    exact ⟨exprs, types, _, columns, hrows, hm ▸ hcolumns, by rw [hg₂, hg₁], hg⟩
  · rintro ⟨exprs, types, k, columns, hrows, hcolumns, rfl, hg⟩
    exact ⟨exprs, types, ⟨k, d.graph⟩, ⟨hrows, rfl⟩, columns, ⟨_, d.graph⟩, ⟨hcolumns, rfl⟩, _, d', ⟨rfl, rfl, hg⟩, rfl,
      rfl⟩

theorem Values.plan_accepts {p : Planned} (h : plan outer source env d = (.ok p, d')) :
    ∃ exprs, Accepts env outer source (p.relation.columns.map (·.type)) ∧
      Tabulates env outer (p.relation.columns.map (·.type)) source exprs ∧
      p.output = ⟨d.graph.size, 0⟩ ∧ d'.graph = d.graph.insert (.values p.relation.carriers exprs) [] 1 := by
  obtain ⟨exprs, types, _, columns, hrows, hcolumns, rfl, hg⟩ := plan_ok.mp h
  obtain ⟨-, -, hall⟩ := each_minted (·.carrier) (fun _ _ _ _ => column_ok) hcolumns
  have htypes : columns.map (·.type) = types := (map_eq_of_forall₂ hall).trans (List.map_id _)
  obtain ⟨-, haccepts, htable⟩ := rows_accepts hrows
  rw [← htypes] at haccepts htable
  exact ⟨exprs, haccepts, htable, rfl, hg⟩

theorem Values.exists_plan {types : List SqlType} (h : Accepts env outer source types) (d : Draft) :
    ∃ p d', plan outer source env d = (.ok p, d') ∧ p.relation.columns.map (·.type) = types := by
  obtain ⟨⟨exprs, us⟩, n, hrows⟩ := exists_rows h d.minted
  obtain ⟨columns, m, hcolumns⟩ : ∃ columns m, Step.each column us env n = (.ok columns, m) := exists_columns us n
  obtain ⟨p, d', hplan⟩ : ∃ p d', plan outer source env d = (.ok p, d') :=
    ⟨_, ⟨m, _⟩, plan_ok.mpr ⟨exprs, us, n, columns, hrows, hcolumns, rfl, rfl⟩⟩
  obtain ⟨_, haccepts, -⟩ := plan_accepts hplan
  exact ⟨p, d', hplan, haccepts.unique h⟩

theorem Values.Tabulates.width {types : List SqlType} (hwidth : ∀ row ∈ source, row.length = types.length)
    (h : Tabulates env outer types source exprs) : ∀ cells ∈ exprs, cells.length = types.length := by
  intro cells hcells
  obtain ⟨row, hrow, hall⟩ := exists_of_forall₂ h cells hcells
  rw [← hall.length_eq, List.length_zip, hwidth row hrow, Nat.min_self]

theorem Values.Tabulates.hasType {types : List SqlType} (h : Tabulates env outer types source exprs)
    (hΓ : Γ.Has outer.visible) :
    ∀ cells ∈ exprs, ∀ (i : Nat) (s : Scalar) (t : SqlType), cells[i]? = some s → types[i]? = some t →
      s.HasType Γ t ∨ s.HasType Γ .unknown := by
  intro cells hcells i s t hs ht
  obtain ⟨row, -, hall⟩ := exists_of_forall₂ h cells hcells
  obtain ⟨⟨e, u⟩, hpair, hcell⟩ := getElem?_of_forall₂ hall hs
  obtain ⟨-, hu⟩ := List.getElem?_zip_eq_some.mp hpair
  cases hu.symm.trans ht
  obtain ⟨v, hv, rfl | rfl, -⟩ := hcell.exists_hasType hΓ
  · exact .inl hv
  · exact .inr hv

/-- Planned rows make up a table, typed column by column, and they do so in every order; no rows, or rows
of different lengths, are never planned. -/
theorem Query.plan_values_rectangular (env : Environment) (outer : Scopes) (source : List (List (Expr Q)))
    (d : Draft) :
    (∀ p d', (Query.values source).plan outer env d = (.ok p, d') →
      (∃ exprs, p.output = ⟨d.graph.size, 0⟩ ∧
        d'.graph = d.graph.insert (.values p.relation.carriers exprs) [] 1 ∧
        exprs.length = source.length ∧ (∀ cells ∈ exprs, cells.length = p.relation.columns.length) ∧
        (∀ row ∈ source, row.length = p.relation.columns.length) ∧
        (∀ (i : Nat) (c : ColumnInfo), p.relation.columns[i]? = some c →
          Values.columnType? env outer source i = some c.type) ∧
        Values.Tabulates env outer (p.relation.columns.map (·.type)) source exprs ∧
        ∀ Γ : ColumnTypes, Γ.Has outer.visible → ∀ cells ∈ exprs, ∀ (i : Nat) (s : Scalar) (c : ColumnInfo),
          cells[i]? = some s → p.relation.columns[i]? = some c →
            s.HasType Γ c.type ∨ s.HasType Γ .unknown) ∧
      ∀ source', source.Perm source' → ∀ d₁, ∃ p' d₁', (Query.values source').plan outer env d₁ = (.ok p', d₁') ∧
        p'.relation.columns.map (·.type) = p.relation.columns.map (·.type)) ∧
    ((source = [] ∨ ∃ row ∈ source, ∃ row' ∈ source, row.length ≠ row'.length) →
      ∀ p d', (Query.values source).plan outer env d ≠ (.ok p, d')) := by
  refine ⟨fun p d' h => ?_, fun hragged p d' h => ?_⟩ <;> rw [Query.plan] at h
  · obtain ⟨exprs, haccepts, htable, houtput, hgraph⟩ := plan_accepts h
    have hwidth := haccepts.width
    refine ⟨⟨exprs, houtput, hgraph, (List.Forall₂.length_eq htable).symm, ?_, ?_, ?_, htable, ?_⟩, ?_⟩
    · simpa using Tabulates.width hwidth htable
    · simpa using hwidth
    · intro i c hc
      exact haccepts.column i c.type (by rw [List.getElem?_map, hc]; rfl)
    · intro Γ hΓ cells hcells i s c hs hc
      exact htable.hasType hΓ cells hcells i s c.type hs (by rw [List.getElem?_map, hc]; rfl)
    · intro source' hperm d₁
      rw [Query.plan]
      exact exists_plan (haccepts.perm hperm) d₁
  · obtain ⟨-, haccepts, -⟩ := plan_accepts h
    rcases hragged with hnil | ⟨row, hrow, row', hrow', hne⟩
    · exact haccepts.nonempty hnil
    · exact hne ((haccepts.width row hrow).trans (haccepts.width row' hrow').symm)

namespace Sample

/-- `VALUES (1, NULL), (NULL, 'x'), (2.50, NULL)` -/
def padded : List (List (Expr Unit)) :=
  [[.literal (.exact false "1"), .literal .null], [.literal .null, .literal (.character ["'x'"])],
    [.literal (.exact false "2.50"), .literal .null]]

end Sample

/-- The integer is cast to the decimal type that the column gets from the last row, in either order. -/
theorem Query.plan_values_rectangular_padded :
    ∃ p d', (Query.values Sample.padded).plan [] Sample.empty default = (.ok p, d') ∧
      p.relation.columns.map (·.type) = [.decimal none none, .flexibleVarchar] ∧
      ∃ p' d₁', (Query.values Sample.padded.reverse).plan [] Sample.empty default = (.ok p', d₁') ∧
        p'.relation.columns.map (·.type) = [.decimal none none, .flexibleVarchar] := by
  have htypes : ((Query.values Sample.padded).plan [] Sample.empty default).1.toOption.map
      (·.relation.columns.map (·.type)) = some [.decimal none none, .flexibleVarchar] := by
    decide +kernel
  obtain ⟨hplanned, -⟩ := Query.plan_values_rectangular Sample.empty [] Sample.padded default
  obtain ⟨p, d', hrun, hcolumns⟩ := Step.exists_of_map_eq_some htypes
  obtain ⟨-, hperm⟩ := hplanned p d' hrun
  obtain ⟨p', d₁', hrun', hsame⟩ := hperm _ (List.reverse_perm Sample.padded).symm default
  exact ⟨p, d', hrun, hcolumns, p', d₁', hrun', hsame.trans hcolumns⟩

end SqlPlan
