import SqlPlan.Plan.Graph

namespace SqlPlan

/-- A column of a relation. An unnamed column has no name to be found by; one that is not exported is
found only by its name. `source` is the table column that a scan read it from. -/
structure ColumnInfo where
  name : Option String
  carrier : Variable
  type : SqlType
  source : Option ColumnRef := none
  exported : Bool := true
  deriving DecidableEq, Repr, Inhabited

def ColumnInfo.isNamed (c : ColumnInfo) (name : String) : Bool := c.name == some name

/-- A relation. `table` and `index` are what it scans, and `correlation` is what qualifies its columns. -/
structure RelationInfo where
  columns : List ColumnInfo := []
  table : Option TableDecl := none
  index : Option IndexDecl := none
  correlation : Option String := none
  deriving DecidableEq, Repr, Inhabited

namespace RelationInfo

def positionsOf (r : RelationInfo) (name : String) : List Nat :=
  (r.columns.zipIdx.filter fun (c, _) => c.isNamed name).map (·.2)

def exportedColumns (r : RelationInfo) : List ColumnInfo := r.columns.filter (·.exported)

def carriers (r : RelationInfo) : List Variable := r.columns.map (·.carrier)

def columnOf? (r : RelationInfo) (v : Variable) : Option ColumnInfo :=
  r.columns.find? fun c => c.carrier.same v

end RelationInfo

end SqlPlan
