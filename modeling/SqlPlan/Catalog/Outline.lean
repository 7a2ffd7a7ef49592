import SqlPlan.Catalog.Builtin
import SqlPlan.Catalog.SearchPath
import SqlPlan.Type.Reader

namespace SqlPlan

structure ColumnOutline where
  name : String
  type : String
  nullable : Bool := true
  hidden : Bool := false
  default : Option String := none
  deriving DecidableEq, Repr, Inhabited

structure TableOutline where
  name : String
  columns : List ColumnOutline
  primaryKey : List String := []
  deriving DecidableEq, Repr, Inhabited

structure VariableOutline where
  name : String
  type : String
  deriving DecidableEq, Repr, Inhabited

structure SchemaOutline where
  name : String
  tables : List TableOutline := []
  externals : List VariableOutline := []
  deriving DecidableEq, Repr, Inhabited

/-- Why an outline does not describe a schema. -/
inductive OutlineError where
  | unknownType (text : String)
  | catalog (error : CatalogError)
  deriving DecidableEq, Repr, Inhabited

def OutlineError.message : OutlineError → String
  | unknownType text => "unknown type '" ++ text ++ "' in fixture"
  | catalog error => error.message

namespace SchemaOutline

def type (text : String) : Except OutlineError SqlType :=
  (SqlType.ofText text).mapError .unknownType

def column (c : ColumnOutline) : Except OutlineError ColumnDecl := do
  let type ← type c.type
  return { name := c.name, type, nullable := c.nullable, default := c.default.map .character,
           features := { hidden := c.hidden } }

/-- The schema after an addition that has to be accepted. -/
def accepted {α : Type} : Except CatalogError α × Schema → Except OutlineError (α × Schema)
  | (.ok a, s) => .ok (a, s)
  | (.error e, _) => .error (.catalog e)

def addTable (s : Schema) (t : TableOutline) : Except OutlineError Schema := do
  let columns ← t.columns.mapM column
  let (table, s) ← accepted (s.addTable { name := t.name, columns })
  if t.primaryKey.isEmpty then return s
  else
    let (_, s) ← accepted (s.addPrimaryKey table t.primaryKey)
    return s

def addVariable (s : Schema) (v : VariableOutline) : Except OutlineError Schema := do
  let type ← type v.type
  let (_, s) ← accepted (s.addVariable { name := v.name, type })
  return s

/-- The schema of an outline, under the given id. -/
def build (id : Nat) (outline : SchemaOutline) : Except OutlineError Schema := do
  let s ← outline.tables.foldlM addTable { name := outline.name, id }
  outline.externals.foldlM addVariable s

/-- A small shop, used in examples. -/
def standard : SchemaOutline where
  name := "public"
  tables :=
    [{ name := "t",
       columns := [{ name := "k", type := "int8", nullable := false }, { name := "v", type := "varchar" }],
       primaryKey := ["k"] },
     { name := "u", columns := [{ name := "a", type := "int4" }, { name := "b", type := "int4" }] },
     { name := "f", columns := [{ name := "x", type := "float8" }] },
     { name := "users",
       columns :=
         [{ name := "id", type := "int8", nullable := false },
          { name := "email", type := "varchar(255)", nullable := false },
          { name := "name", type := "varchar(100)" },
          { name := "created_at", type := "timestamp" },
          { name := "row_version", type := "int8", hidden := true }],
       primaryKey := ["id"] },
     { name := "orders",
       columns :=
         [{ name := "id", type := "int8", nullable := false },
          { name := "user_id", type := "int8", nullable := false },
          { name := "total", type := "decimal(10, 2)" },
          { name := "status", type := "varchar", default := some "pending" }],
       primaryKey := ["id"] }]
  externals := [{ name := "tenant_id", type := "int4" }]

end SchemaOutline

namespace Catalog

def series : FunctionDecl where
  id := 10000
  name := "series"
  parameters := [.int8, .int8]
  result := .table (.cons "n" .int8 .nil)
  tableValued := true

/-- The catalog `db` of one schema, with the builtins added last if asked for. -/
def ofSchema (builtins : Bool) (s : Schema) : Except CatalogError Catalog := do
  let s ← if builtins then
      match Builtin.install s with
      | (.ok _, s) => .ok s
      | (.error e, _) => .error e
    else .ok s
  addSchema { name := "db" } s

/-- The catalog of the standard schema, with the series function and the builtins. -/
def standard : Except OutlineError Catalog := do
  let s ← SchemaOutline.standard.build 1
  let (_, s) ← SchemaOutline.accepted (s.addFunction series)
  (ofSchema true s).mapError .catalog

end Catalog

end SqlPlan
