import SqlPlan.Proofs.Columns
import SqlPlan.Proofs.Wiring

namespace SqlPlan

variable {α β γ : Type} {f : α → Option β} {xs : List α} {ys : List β} {R : α → β → Prop} {i : Nat}

open List (Forall₂)

theorem mapM_eq_some_iff : xs.mapM f = some ys ↔ Forall₂ (fun x y => f x = some y) xs ys := by
  induction xs generalizing ys with
  | nil => cases ys <;> simp
  | cons x xs ih =>
    simp only [List.mapM_cons, Option.bind_eq_bind, Option.bind_eq_some_iff, List.forall₂_cons_left_iff]
    constructor
    · rintro ⟨y, hy, ys', hys, h⟩
      cases h
      exact ⟨y, ys', hy, ih.mp hys, rfl⟩
    · rintro ⟨y, ys', hy, hys, rfl⟩
      exact ⟨y, hy, ys', ih.mpr hys, rfl⟩

theorem mapM_map_eq_some {g : γ → α} {h : γ → β} {xs : List γ} (hf : ∀ x ∈ xs, f (g x) = some (h x)) :
    (xs.map g).mapM f = some (xs.map h) := by
  rw [mapM_eq_some_iff, List.forall₂_map_left_iff, List.forall₂_map_right_iff, List.forall₂_same]
  exact hf

theorem exists_mapM (h : ∀ x ∈ xs, ∃ y, f x = some y ∧ R x y) : ∃ ys, xs.mapM f = some ys ∧ Forall₂ R xs ys := by
  induction xs with
  | nil => exact ⟨[], rfl, .nil⟩
  | cons x xs ih =>
    obtain ⟨⟨y, hy, hr⟩, h⟩ := List.forall_mem_cons.mp h
    obtain ⟨ys, hys, hall⟩ := ih h
    exact ⟨y :: ys, by simp [hy, hys], .cons hr hall⟩

theorem map_eq_of_forall₂ {f : α → γ} {g : β → γ} (h : Forall₂ (fun x y => g y = f x) xs ys) :
    ys.map g = xs.map f := by
  induction h with
  | nil => rfl
  | cons hy _ ih => rw [List.map_cons, List.map_cons, hy, ih]

theorem exists_of_forall₂ (h : Forall₂ R xs ys) : ∀ y ∈ ys, ∃ x ∈ xs, R x y := by
  induction h with
  | nil => simp
  | cons hr _ ih =>
    refine List.forall_mem_cons.mpr ⟨⟨_, List.mem_cons_self, hr⟩, fun y hy => ?_⟩
    obtain ⟨x, hx, hr⟩ := ih y hy
    exact ⟨x, List.mem_cons_of_mem _ hx, hr⟩

theorem exists_of_mapM (h : xs.mapM f = some ys) {x : α} (hx : x ∈ xs) : ∃ y, f x = some y := by
  obtain ⟨y, -, hy⟩ := exists_of_forall₂ (mapM_eq_some_iff.mp h).flip x hx
  exact ⟨y, hy⟩

theorem getElem?_of_forall₂ (h : Forall₂ R xs ys) {y : β} (hy : ys[i]? = some y) : ∃ x, xs[i]? = some x ∧ R x y := by
  induction h generalizing i with
  | nil => simp at hy
  | cons hr _ ih =>
    cases i with
    | zero =>
      cases hy
      exact ⟨_, rfl, hr⟩
    | succ i => exact ih hy

namespace Columns

def select (Γ : Columns) (vs : List Variable) : Option Columns := vs.mapM fun v => (Γ.type? v).map (v, ·)

theorem select_ok {Γ : Columns} {vs : List Variable} {n m : Nat} (hΓ : Γ.Within n m)
    (hvs : ∀ v ∈ vs, v.isStream = true ∧ ∃ t, Γ.type? v = some t) :
    ∃ Γ', Γ.select vs = some Γ' ∧ Γ'.carriers = vs ∧ Γ'.Within n m ∧
      ∀ v, v.isStream = true → v.isIn vs = true → Γ'.type? v = Γ.type? v := by
  induction vs with
  | nil => exact ⟨[], rfl, rfl, by simp [Within], by simp [Variable.isIn]⟩
  | cons v vs ih =>
    obtain ⟨⟨hv, t, ht⟩, hvs⟩ := List.forall_mem_cons.mp hvs
    obtain ⟨Γ', hselect, hcarriers, hwithin, htypes⟩ := ih hvs
    have hbounds := within_of_type? hΓ hv ht
    refine ⟨(v, t) :: Γ', ?_, ?_, List.forall_mem_cons.mpr ⟨⟨hv, hbounds⟩, hwithin⟩, ?_⟩
    · rw [select] at hselect
      simp [select, ht, hselect]
    · exact congrArg (v :: ·) hcarriers
    · intro w hw hin
      rw [type?_cons]
      by_cases hsame : w.same v = true
      · rw [if_pos hsame, ← ht]
        exact (type?_congr hΓ hw hv hsame).symm
      · rw [if_neg hsame]
        refine htypes w hw ?_
        simpa [Variable.isIn, hsame] using hin

end Columns

def UnionMapping.type? (m : UnionMapping) (Γ Γ' : Columns) : Option SqlType :=
  match m.left, m.right with
  | some l, some r => do
    let t ← Γ.type? l
    let u ← Γ'.type? r
    t.unify u
  | some l, none => Γ.type? l
  | none, some r => Γ'.type? r
  | none, none => none

def FunctionDecl.fieldType? (f : FunctionDecl) (position : Nat) : Option SqlType :=
  match f.result with
  | .table row => row.toList[position]?.map (·.2)
  | _ => none

/-- How the type of a kept column follows from the types of the pair that it comes from. -/
abbrev Meet := SqlType → SqlType → Option SqlType

/-- A kept column has the type it was defined with. -/
def Meet.left : Meet := fun t _ => some t

/-- A kept column has the type that holds the values of both columns. -/
def Meet.both : Meet := SqlType.unify

def keptColumns (meet : Meet) (keys : List (Variable × Variable)) (Γ Γ' : Columns) : Option Columns :=
  keys.mapM fun (l, r) => do
    let t ← Γ.type? l
    let u ← Γ'.type? r
    let w ← meet t u
    return (l, w)

def valuesColumn (rows : List (List SqlType)) (position : Nat) : Option SqlType := do
  let cells ← rows.mapM fun row => row[position]?
  SqlType.unifyAll cells

mutual

/-- The columns that an operator has over inputs with the given columns. -/
def Operator.columns (meet : Meet) : Operator → List Columns → Option Columns
  | .scan _ columns, [] => columns.mapM fun (source, destination) =>
    source.columnRef?.map fun ref => (destination, ref.column.type)
  | .values columns rows, [] => do
    let types ← rows.mapM (Scalar.listTypes .none [])
    columns.zipIdx.mapM fun (v, i) => (valuesColumn types i).map (v, ·)
  | .filter condition, [Γ] => (condition.typeIn Γ.type? []).map fun _ => Γ
  | .project columns, [Γ] => do
    let computed ← columns.mapM fun (v, s) => (s.typeIn Γ.type? []).map (v, ·)
    return Γ ++ computed
  | .join _ none, [Γ, Γ'] => some (Γ ++ Γ')
  | .join _ (some condition), [Γ, Γ'] =>
    (condition.typeIn (Columns.type? (Γ ++ Γ')) []).map fun _ => Γ ++ Γ'
  | .aggregate keys columns, [Γ] => do
    let grouped ← Γ.select keys
    let computed ← columns.mapM fun c =>
      (Scalar.listTypes Γ.type? [] (c.arguments.map .var)).map fun _ => (c.destination, c.function.result)
    return grouped ++ computed
  | .union _ mappings, [Γ, Γ'] => mappings.mapM fun m => (m.type? Γ Γ').map (m.destination, ·)
  | .intersection _ keys, [Γ, Γ'] => keptColumns meet keys Γ Γ'
  | .difference _ keys, [Γ, Γ'] => keptColumns meet keys Γ Γ'
  | .distinct keys, [Γ] => Γ.select keys
  | .limit _ sortKeys, [Γ] => (Γ.select (sortKeys.map (·.column))).map fun _ => Γ
  | .apply _ function arguments columns, [Γ] => do
    let _ ← Scalar.listTypes Γ.type? [] arguments
    let computed ← columns.mapM fun (i, v) => (function.fieldType? i).map (v, ·)
    return Γ ++ computed
  | .write _ _ keys columns, [Γ] => (Γ.select ((keys ++ columns).map (·.1))).map fun _ => []
  | .emit columns, [Γ] => (Γ.select (columns.map (·.1))).map fun _ => []
  | .subquery graph output mappings, [] => do
    let Γ ← (graph.columns meet)[output.node]?.join
    mappings.mapM fun (source, destination) => (Γ.type? source).map (destination, ·)
  | _, _ => none

def Node.columnsOf (meet : Meet) : List Node → List (Option Columns) → List (Option Columns)
  | [], done => done
  | ⟨operator, inputs, _⟩ :: rest, done =>
    let Γ := do
      let Γs ← inputs.mapM fun input => input.bind fun s => done[s.node]?.join
      operator.columns meet Γs
    Node.columnsOf meet rest (done ++ [Γ])

/-- The columns at the output of each node; a node without output has none. -/
def Graph.columns (meet : Meet) : Graph → List (Option Columns)
  | ⟨nodes⟩ => Node.columnsOf meet nodes []

end

def Operator.columnsFrom (meet : Meet) (operator : Operator) (inputs : List (Option Socket))
    (done : List (Option Columns)) : Option Columns := do
  let Γs ← inputs.mapM fun input => input.bind fun s => done[s.node]?.join
  operator.columns meet Γs

theorem Node.columnsOf_eq (meet : Meet) (nodes : List Node) (done : List (Option Columns)) :
    columnsOf meet nodes done =
      (nodes.map content).foldl (fun done c => done ++ [c.1.columnsFrom meet c.2 done]) done := by
  induction nodes generalizing done with
  | nil => rfl
  | cons n nodes ih =>
    obtain ⟨operator, inputs, outputs⟩ := n
    rw [columnsOf, ih]
    rfl

namespace Graph

variable {meet : Meet} {g : Graph} {operator : Operator} {inputs : List Socket} {k : Nat}

theorem columns_eq (meet : Meet) (g : Graph) : g.columns meet =
    (g.nodes.map Node.content).foldl (fun done c => done ++ [c.1.columnsFrom meet c.2 done]) [] := by
  obtain ⟨nodes⟩ := g
  rw [columns]
  exact Node.columnsOf_eq meet nodes []

def columnsAt (meet : Meet) (g : Graph) (s : Socket) : Option Columns := (g.columns meet)[s.node]?.join

theorem columns_insert : (g.insert operator inputs k).columns meet =
    g.columns meet ++ [(inputs.mapM (g.columnsAt meet)).bind (operator.columns meet)] := by
  rw [columns_eq, content_insert, List.foldl_append, ← columns_eq]
  have hinputs : (inputs.map some).mapM (fun input => input.bind fun s => (g.columns meet)[s.node]?.join) =
      inputs.mapM (g.columnsAt meet) := by
    rw [List.mapM_map]
    rfl
  simp only [List.foldl_cons, List.foldl_nil, Operator.columnsFrom, hinputs]
  rfl

theorem length_columns : (g.columns meet).length = g.size := by
  have h : ∀ (cs : List (Operator × List (Option Socket))) (done : List (Option Columns)),
      (cs.foldl (fun done c => done ++ [c.1.columnsFrom meet c.2 done]) done).length =
        done.length + cs.length := by
    intro cs
    induction cs with
    | nil => simp
    | cons c cs ih =>
      intro done
      simp only [List.foldl_cons, ih, List.length_append, List.length_cons, List.length_nil]
      omega
  simp [columns_eq, h, size]

theorem columnsAt_insert_old {s : Socket} (h : s.node < g.size) :
    (g.insert operator inputs k).columnsAt meet s = g.columnsAt meet s := by
  rw [columnsAt, columns_insert, List.getElem?_append_left (by rwa [length_columns])]
  rfl

theorem columnsAt_insert_new : (g.insert operator inputs k).columnsAt meet ⟨g.size, i⟩ =
    (inputs.mapM (g.columnsAt meet)).bind (operator.columns meet) := by
  rw [columnsAt, columns_insert, List.getElem?_append_right (by simp [length_columns])]
  simp [length_columns]

end Graph

end SqlPlan
