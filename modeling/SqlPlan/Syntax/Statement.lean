import SqlPlan.Syntax.Query

namespace SqlPlan

inductive InsertSource (E : Type) where
  | values (rows : List (List E))
  | query (query : Query E)
  | defaultValues

/-- INSERT; no columns means all of them. -/
structure Insert (E : Type) where
  table : Name
  columns : List Identifier := []
  source : InsertSource E

structure Assignment (E : Type) where
  column : Identifier
  value : E

structure Update (E : Type) where
  table : Name
  assignments : List (Assignment E)
  condition : Option E := none

structure Delete (E : Type) where
  table : Name
  condition : Option E := none

structure ColumnDefinition (E : Type) where
  name : Identifier
  dataType : DataType
  notNull : Bool := false
  default : Option E := none
  primaryKey : Bool := false

structure CreateTable (E : Type) where
  name : Name
  ifNotExists : Bool := false
  columns : List (ColumnDefinition E)
  primaryKeys : List (List Identifier) := []

structure IndexKeySyntax where
  column : Identifier
  direction : Option SortDirection := none
  deriving DecidableEq, Repr, Inhabited

structure CreateIndex where
  name : Name
  table : Name
  keys : List IndexKeySyntax
  ifNotExists : Bool := false
  deriving DecidableEq, Repr, Inhabited

inductive Statement (E : Type) where
  | select (query : Query E)
  | insert (insert : Insert E)
  | update (update : Update E)
  | delete (delete : Delete E)
  | createTable (create : CreateTable E)
  | dropTable (name : Name) (ifExists : Bool)
  | createIndex (create : CreateIndex)
  | dropIndex (name : Name) (ifExists : Bool)

abbrev SqlStatement := Statement SqlExpr

end SqlPlan
