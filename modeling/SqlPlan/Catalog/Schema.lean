import SqlPlan.Catalog.Declaration
import SqlPlan.Catalog.Entries

namespace SqlPlan

inductive CatalogError where
  | duplicateSchema (name : String)
  | duplicateTable (schema name : String)
  | duplicateIndex (schema name : String)
  | duplicateVariable (schema name : String)
  | duplicateFunction (signature : String)
  | tableNotFound (name schema : String)
  | duplicatePrimaryIndex (table : String)
  | invalidIndexKey (index : String) (position : Nat)
  deriving DecidableEq, Repr, Inhabited

def CatalogError.message : CatalogError → String
  | duplicateSchema name => "Schema '" ++ name ++ "' already exists"
  | duplicateTable schema name => "Table '" ++ name ++ "' already exists in schema '" ++ schema ++ "'"
  | duplicateIndex schema name => "Index '" ++ name ++ "' already exists in schema '" ++ schema ++ "'"
  | duplicateVariable schema name =>
    "Variable '" ++ name ++ "' already exists in schema '" ++ schema ++ "'"
  | duplicateFunction signature => "Function '" ++ signature ++ "' already exists"
  | tableNotFound name schema => "Table '" ++ name ++ "' not found in schema '" ++ schema ++ "'"
  | duplicatePrimaryIndex table => "Table '" ++ table ++ "' already has a primary index"
  | invalidIndexKey index position =>
    "Index '" ++ index ++ "' refers to missing column position " ++ Text.ofNat position

/-- A schema maps names to declarations. It has an id, since a name can have several schemas, and numbers
the objects that it stores; `stored` is the last number given. -/
structure Schema where
  name : String
  id : Nat := 0
  tableMap : Entries TableDecl := []
  indexMap : Entries IndexDecl := []
  functionMap : Entries (List FunctionDecl) := []
  aggregateMap : Entries (List AggregateDecl) := []
  externalMap : Entries VariableDecl := []
  stored : Nat := 0
  deriving DecidableEq, Repr, Inhabited

namespace Schema

def tables (s : Schema) : List TableDecl := s.tableMap.values

def indexes (s : Schema) : List IndexDecl := s.indexMap.values

def functions (s : Schema) : List FunctionDecl := s.functionMap.values.flatten

def aggregates (s : Schema) : List AggregateDecl := s.aggregateMap.values.flatten

def externals (s : Schema) : List VariableDecl := s.externalMap.values

def table? (s : Schema) (name : String) : Option TableDecl := s.tableMap.lookup name

def index? (s : Schema) (name : String) : Option IndexDecl := s.indexMap.lookup name

def findVariable? (s : Schema) (name : String) : Option VariableDecl := s.externalMap.lookup name

def functionsNamed (s : Schema) (name : String) : List FunctionDecl :=
  (s.functionMap.lookup name).getD []

def aggregatesNamed (s : Schema) (name : String) : List AggregateDecl :=
  (s.aggregateMap.lookup name).getD []

def primaryIndex? (s : Schema) (table : TableDecl) : Option IndexDecl :=
  s.indexes.find? fun i => i.primary && i.table.sameObject table

def nextId (s : Schema) : ObjectId := ⟨s.id, s.stored + 1⟩

def addTable (s : Schema) (table : TableDecl) : Except CatalogError TableDecl × Schema :=
  if (s.table? table.name).isSome then (.error (.duplicateTable s.name table.name), s)
  else
    let table := { table with oid := s.nextId, schema := s.name }
    (.ok table, { s with tableMap := s.tableMap.insert table.name table, stored := s.stored + 1 })

def addIndex (s : Schema) (index : IndexDecl) : Except CatalogError IndexDecl × Schema :=
  if (s.index? index.name).isSome then (.error (.duplicateIndex s.name index.name), s)
  else if !(s.table? index.table.name).any (·.sameObject index.table) then
    (.error (.tableNotFound index.table.name s.name), s)
  else match index.keys.find? fun k => decide (index.table.columns.length ≤ k.position) with
    | some key => (.error (.invalidIndexKey index.name key.position), s)
    | none =>
      if index.primary && (s.primaryIndex? index.table).isSome then
        (.error (.duplicatePrimaryIndex index.table.name), s)
      else (.ok index, { s with indexMap := s.indexMap.insert index.name index })

def primaryIndexName (table : String) : String := table ++ "_pk"

def addPrimaryKey (s : Schema) (table : TableDecl) (columns : List String) :
    Except CatalogError IndexDecl × Schema :=
  let name := primaryIndexName table.name
  match columns.mapM fun c => (table.column? c).map (·.1) with
  | none => (.error (.invalidIndexKey name table.columns.length), s)
  | some positions => s.addIndex (.primaryOf name table positions)

/-- Adds an overload to those of its name. A name without any has an entry from here on, also if the
overload is refused. -/
def addFunction (s : Schema) (function : FunctionDecl) : Except CatalogError FunctionDecl × Schema :=
  let s := { s with functionMap := s.functionMap.upsert function.name [] fun fs => fs }
  if (s.functionsNamed function.name).any fun f => f.parameters == function.parameters then
    (.error (.duplicateFunction function.signature), s)
  else
    let function := { function with oid := s.nextId }
    (.ok function, { s with
      functionMap := s.functionMap.upsert function.name [] (· ++ [function]), stored := s.stored + 1 })

def addAggregate (s : Schema) (aggregate : AggregateDecl) :
    Except CatalogError AggregateDecl × Schema :=
  let s := { s with aggregateMap := s.aggregateMap.upsert aggregate.name [] fun fs => fs }
  if (s.aggregatesNamed aggregate.name).any fun f =>
      f.parameters == aggregate.parameters && f.asterisk == aggregate.asterisk then
    (.error (.duplicateFunction aggregate.signature), s)
  else
    let aggregate := { aggregate with oid := s.nextId }
    (.ok aggregate, { s with
      aggregateMap := s.aggregateMap.upsert aggregate.name [] (· ++ [aggregate]), stored := s.stored + 1 })

def addVariable (s : Schema) (decl : VariableDecl) : Except CatalogError VariableDecl × Schema :=
  if (s.findVariable? decl.name).isSome then (.error (.duplicateVariable s.name decl.name), s)
  else
    let decl := { decl with oid := s.nextId }
    (.ok decl, { s with externalMap := s.externalMap.insert decl.name decl, stored := s.stored + 1 })

end Schema

end SqlPlan
