import SqlPlan.Analysis.Correlation
import SqlPlan.Analysis.Expr

namespace SqlPlan

namespace TableDecl

variable {σ : Type}

def resolveColumn (table : TableDecl) (identifier : Identifier) : Step σ (Nat × ColumnDecl) := do
  let o ← Step.options
  let key := o.key identifier
  let failure := Step.fail .columnNotFound (some identifier.span)
    ("column '" ++ key ++ "' is not found in '" ++ table.name ++ "'")
  match table.column? key with
  | some (position, c) => if c.isExported then return (position, c) else failure
  | none => failure

/-- The positions of distinct columns, apart from those seen already. -/
def resolveColumns (table : TableDecl) : List Nat → List Identifier → Step σ (List Nat)
  | _, [] => pure []
  | seen, identifier :: rest => do
    let (position, c) ← table.resolveColumn identifier
    if seen.contains position then
      Step.fail .columnAlreadyExists (some identifier.span)
        ("column '" ++ c.name ++ "' is specified more than once")
    else
      let positions ← table.resolveColumns (position :: seen) rest
      return position :: positions

def refs (table : TableDecl) (positions : List Nat) : List ColumnRef :=
  positions.filterMap (ColumnRef.of? table)

end TableDecl

namespace ColumnDecl

def defaultValue (c : ColumnDecl) : Value := c.default.getD .null

def target (c : ColumnDecl) : Target := ⟨c.type, some c.defaultValue⟩

def defaultScalar (c : ColumnDecl) : Scalar := .immediate c.defaultValue c.type

def assign {σ : Type} (c : ColumnDecl) (value : Scalar) (type : SqlType) (location : Option Span) :
    Step σ Scalar :=
  if !type.isAssignable c.type then
    Step.fail .inconsistentType location ("cannot assign " ++ type.text ++ " to column '" ++ c.name ++
      "' of type " ++ c.type.text)
  else if type = c.type ∨ type = .unknown then pure value
  else pure (.cast .error c.type value)

def resolveCell {Q : Type} (c : ColumnDecl) (scopes : Scopes) (e : Expr Q) : Analysis Scalar := do
  let x ← e.resolve scopes (some c.target)
  if x.aggregated then
    Step.fail .unsupportedFeature e.span? "aggregate functions are not allowed in VALUES"
  else c.assign x.expr x.type e.span?

end ColumnDecl

end SqlPlan
