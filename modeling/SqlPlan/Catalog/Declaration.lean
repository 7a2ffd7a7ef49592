import SqlPlan.Value

namespace SqlPlan

/-- Tells a stored object from all others: the id of the schema in which it was stored, and its number
there. Numbers start at one; number zero belongs to declarations that are not stored. -/
structure ObjectId where
  home : Nat := 0
  number : Nat := 0
  deriving DecidableEq, Repr, Inhabited

structure ColumnFeatures where
  hidden : Bool := false
  synthesized : Bool := false
  readOnly : Bool := false
  deriving DecidableEq, Repr, Inhabited

structure ColumnDecl where
  name : String
  type : SqlType
  nullable : Bool := true
  default : Option Value := none
  features : ColumnFeatures := {}
  deriving DecidableEq, Repr, Inhabited

/-- Whether statements can name the column and `*` includes it. -/
def ColumnDecl.isExported (c : ColumnDecl) : Bool := !c.features.hidden && !c.features.synthesized

structure TableDecl where
  oid : ObjectId := {}
  name : String
  schema : String := ""
  columns : List ColumnDecl := []
  deriving DecidableEq, Repr, Inhabited

namespace TableDecl

def sameObject (a b : TableDecl) : Bool := decide (a = b)

def column? (t : TableDecl) (name : String) : Option (Nat × ColumnDecl) :=
  (t.columns.zipIdx.find? fun (c, _) => c.name == name).map fun (c, i) => (i, c)

def exportedPositions (t : TableDecl) : List Nat :=
  (t.columns.zipIdx.filter fun (c, _) => c.isExported).map (·.2)

def path (t : TableDecl) : String := t.schema ++ "." ++ t.name

end TableDecl

structure ColumnRef where
  table : TableDecl
  position : Nat
  column : ColumnDecl
  deriving DecidableEq, Repr, Inhabited

namespace ColumnRef

def of? (table : TableDecl) (position : Nat) : Option ColumnRef :=
  table.columns[position]?.map fun column => ⟨table, position, column⟩

def same (a b : ColumnRef) : Bool := a.table.sameObject b.table && a.position == b.position

def text (r : ColumnRef) : String := r.table.name ++ "." ++ r.column.name

end ColumnRef

inductive SortOrder where
  | ascending
  | descending
  deriving DecidableEq, Repr, Inhabited

structure IndexKey where
  position : Nat
  order : SortOrder := .ascending
  deriving DecidableEq, Repr, Inhabited

structure IndexDecl where
  name : String
  table : TableDecl
  keys : List IndexKey := []
  primary : Bool := false
  unique : Bool := false
  deriving DecidableEq, Repr, Inhabited

/-- A primary index, ascending in the columns at the given positions. -/
def IndexDecl.primaryOf (name : String) (table : TableDecl) (positions : List Nat) : IndexDecl :=
  { name, table, keys := positions.map fun p => { position := p }, primary := true, unique := true }

def signatureText (name parameters : String) (result : SqlType) : String :=
  name ++ "(" ++ parameters ++ ") -> " ++ result.text

def typeListText (types : List SqlType) : String := Text.joinWith ", " (types.map SqlType.text)

structure FunctionDecl where
  oid : ObjectId := {}
  id : Nat
  name : String
  parameters : List SqlType
  result : SqlType
  tableValued : Bool := false
  deriving DecidableEq, Repr, Inhabited

namespace FunctionDecl

def sameObject (a b : FunctionDecl) : Bool := decide (a = b)

def signature (f : FunctionDecl) : String :=
  signatureText f.name (typeListText f.parameters) f.result

end FunctionDecl

/-- An overload of an aggregate function; an asterisk overload is called as `f(*)`. -/
structure AggregateDecl where
  oid : ObjectId := {}
  id : Nat
  name : String
  parameters : List SqlType
  result : SqlType
  asterisk : Bool := false
  deriving DecidableEq, Repr, Inhabited

namespace AggregateDecl

def sameObject (a b : AggregateDecl) : Bool := decide (a = b)

def signature (f : AggregateDecl) : String :=
  signatureText f.name (if f.asterisk then "*" else typeListText f.parameters) f.result

end AggregateDecl

/-- What is appended to the name of an aggregate for its DISTINCT variant. -/
def distinctSuffix : String := "$distinct"

structure VariableDecl where
  oid : ObjectId := {}
  name : String
  type : SqlType
  deriving DecidableEq, Repr, Inhabited

namespace VariableDecl

def sameObject (a b : VariableDecl) : Bool := decide (a = b)

end VariableDecl

end SqlPlan
