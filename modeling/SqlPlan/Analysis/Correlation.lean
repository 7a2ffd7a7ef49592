import SqlPlan.Analysis.Lookup

namespace SqlPlan

structure Planned where
  output : Socket
  relation : RelationInfo
  deriving Inhabited

/-- A table expression of a FROM clause: an output socket and the relations that it brings into scope. -/
structure Source where
  output : Socket
  relations : List RelationInfo
  deriving Inhabited

/-- The first element whose key occurs before it in the list, or among the keys seen already. -/
def firstRepeated? {α : Type} (key : α → String) : List String → List α → Option α
  | _, [] => none
  | seen, a :: rest =>
    if seen.contains (key a) then some a else firstRepeated? key (key a :: seen) rest

namespace RelationInfo

def renameExported : List String → List ColumnInfo → List ColumnInfo
  | name :: names, c :: columns =>
    if c.exported then { c with name := some name } :: renameExported names columns
    else c :: renameExported (name :: names) columns
  | _, columns => columns

variable {σ : Type}

/-- Gives the correlation's column names to the exported columns; there must be one for each, without
repetition, or none at all. -/
def renameColumns (r : RelationInfo) (correlation : Correlation) : Step σ RelationInfo := do
  let o ← Step.options
  let name := o.key correlation.name
  let exported := r.exportedColumns.length
  if correlation.columns.isEmpty then return r
  else if exported ≠ correlation.columns.length then
    Step.fail .inconsistentColumns (some correlation.name.span)
      ("'" ++ name ++ "' has " ++ Text.ofNat exported ++ " columns but " ++
        Text.ofNat correlation.columns.length ++ " column names were given")
  else
    match firstRepeated? o.key [] correlation.columns with
    | some column =>
      Step.fail .columnAlreadyExists (some column.span)
        ("column '" ++ o.key column ++ "' is already defined in '" ++ name ++ "'")
    | none => return { r with columns := renameExported (correlation.columns.map o.key) r.columns }

def correlate (r : RelationInfo) : Option Correlation → Step σ RelationInfo
  | none => pure r
  | some correlation => do
    let o ← Step.options
    let r ← r.renameColumns correlation
    return { r with correlation := some (o.key correlation.name) }

end RelationInfo

end SqlPlan
