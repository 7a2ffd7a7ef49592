import SqlPlan.Analysis.Correlation
import SqlPlan.Type.Unify

namespace SqlPlan

def SetOperator.text : SetOperator → String
  | .union => "Union"
  | .intersect => "Intersect"
  | .except => "Except"

namespace SetOperation

def pairs {σ : Type} (op : SetOperator) (left right : Planned) :
    Step σ (List (ColumnInfo × ColumnInfo)) :=
  let ls := left.relation.exportedColumns
  let rs := right.relation.exportedColumns
  if ls.length ≠ rs.length then
    Step.fail .inconsistentColumns none (op.text ++ " operands have " ++ Text.ofNat ls.length ++
      " and " ++ Text.ofNat rs.length ++ " columns")
  else pure (ls.zip rs)

def columnType {σ : Type} (op : SetOperator) (pair : (ColumnInfo × ColumnInfo) × Nat) :
    Step σ SqlType :=
  let ((l, r), i) := pair
  match l.type.unify r.type with
  | some type => pure type
  | none => Step.fail .inconsistentType none ("column " ++ Text.ofNat (i + 1) ++ " of " ++ op.text ++
      " mixes " ++ l.type.text ++ " and " ++ r.type.text)

def unionColumn (pair : (ColumnInfo × ColumnInfo) × SqlType) : Analysis (UnionMapping × ColumnInfo) := do
  let ((l, r), type) := pair
  let v ← Analysis.stream l.name
  return (⟨some l.carrier, some r.carrier, v⟩, ⟨l.name, v, type, none, true⟩)

def quantifier (written : Option SetQuantifier) : SetQuantifier := written.getD .distinct

def operator (op : SetOperator) (quantifier : SetQuantifier) (pairs : List (ColumnInfo × ColumnInfo))
    (types : List SqlType) : Analysis (Operator × List ColumnInfo) := do
  let keys := pairs.map fun (l, r) => (l.carrier, r.carrier)
  let kept := (pairs.zip types).map fun ((l, _), type) => { l with type }
  match op with
  | .union =>
    let columns ← Step.each unionColumn (pairs.zip types)
    return (.union quantifier (columns.map (·.1)), columns.map (·.2))
  | .intersect => return (.intersection quantifier keys, kept)
  | .except => return (.difference quantifier keys, kept)

def plan (op : SetOperator) (written : Option SetQuantifier) (left right : Planned) :
    Planning Planned := do
  let pairs ← pairs op left right
  let types ← Step.each (columnType op) pairs.zipIdx
  let (operator, columns) ← operator op (quantifier written) pairs types
  let output ← Planning.add operator [left.output, right.output]
  return ⟨output, { columns }⟩

end SetOperation

end SqlPlan
