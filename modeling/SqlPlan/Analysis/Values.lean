import SqlPlan.Analysis.Correlation
import SqlPlan.Analysis.Expr

namespace SqlPlan

/-- The expression cast to a type, unless it has that type or none at all. -/
def Scalar.coerce (s : Scalar) (source target : SqlType) : Scalar :=
  if source = target ∨ source = .unknown then s else .cast .ignore target s

namespace Values

variable {Q : Type}

def cell (scopes : Scopes) (e : Expr Q) : Analysis (Option Typed) :=
  if e.isNull then pure none
  else do
    let x ← e.resolve scopes none
    return some x

/-- All cells; each is resolved even if others fail. -/
def cells (scopes : Scopes) (rows : List (List (Expr Q))) : Analysis (List (List (Option Typed))) :=
  Step.collect (rows.map fun row => Step.collect (row.map (cell scopes)))

/-- Unifies the types of a column's cells from the top, each given with its location. -/
def unifyColumn {σ : Type} (position : Nat) :
    List (Option Typed × Option Span) → Option SqlType → Step σ (Option SqlType)
  | [], type => pure type
  | (none, _) :: rest, type => unifyColumn position rest type
  | (some x, _) :: rest, none => unifyColumn position rest (some x.type)
  | (some x, location) :: rest, some type =>
    match type.unify x.type with
    | some unified => unifyColumn position rest (some unified)
    | none => Step.fail .inconsistentType location ("column " ++ Text.ofNat (position + 1) ++
        " mixes " ++ type.text ++ " and " ++ x.type.text)

def columnAt (rows : List (List (Expr Q))) (cells : List (List (Option Typed))) (position : Nat) :
    List (Option Typed × Option Span) :=
  (rows.zip cells).map fun (row, typed) =>
    ((typed[position]?).getD none, (row[position]?).bind Expr.span?)

/-- A resolved cell; a bare NULL has the type of its column. -/
def fill {σ : Type} : Option Typed × Option SqlType → Step σ Typed
  | (some x, _) => pure x
  | (none, type) => Literal.null.resolve (type.map fun t => { type := t })

def column (type : SqlType) : Analysis ColumnInfo := do
  let v ← Analysis.stream none
  return ⟨none, v, type, none, true⟩

/-- Checks that there is a row and that all rows have the same length, which is returned. -/
def arity {σ : Type} (rows : List (List (Expr Q))) : Step σ Nat :=
  match rows with
  | [] => Step.fail .malformedSyntax none "VALUES requires at least one row"
  | first :: _ =>
    match rows.zipIdx.find? fun (row, _) => row.length != first.length with
    | none => pure first.length
    | some (row, i) => Step.fail .inconsistentColumns (row.head?.bind Expr.span?)
        ("row " ++ Text.ofNat (i + 1) ++ " has " ++ Text.ofNat row.length ++ " columns, expected " ++
          Text.ofNat first.length)

/-- The typed rows of a table value constructor and the types of its columns. -/
def rows (scopes : Scopes) (rows : List (List (Expr Q))) :
    Analysis (List (List Scalar) × List SqlType) := do
  let n ← arity rows
  let typed ← cells scopes rows
  let types ← Step.each (fun i => unifyColumn i (columnAt rows typed i) none) (List.range n)
  let filled ← Step.each (fun row => Step.each fill (row.zip types)) typed
  let types := types.map fun t => t.getD .unknown
  return (filled.map fun row => (row.zip types).map fun (x, t) => x.expr.coerce x.type t, types)

def plan (outer : Scopes) (source : List (List (Expr Q))) : Planning Planned := do
  let (exprs, types) ← rows outer source
  let columns ← (Step.each column types : Analysis _)
  let relation : RelationInfo := { columns }
  let output ← Planning.add (.values relation.carriers exprs) []
  return ⟨output, relation⟩

end Values

end SqlPlan
