import SqlPlan.Analysis.TableColumns
import SqlPlan.Syntax.Statement

namespace SqlPlan

variable {Q : Type}

/-- The schema in which a CREATE statement creates. -/
def Name.targetSchema {σ : Type} (name : Name) : Step σ Schema := do
  match ← Name.resolveSchema name.qualifier (some name.span) with
  | some schema => return schema
  | none =>
    let env ← Step.environment
    match env.defaultSchema with
    | some schema => return schema
    | none => Step.fail .schemaNotFound (some name.span) "no default schema to create in"

/-- The constant under any number of casts. -/
def Scalar.constant? : Scalar → Option (Value × SqlType)
  | immediate value type => some (value, type)
  | cast _ _ s => s.constant?
  | _ => none

namespace CreateTable

/-- The value of a resolved default, which must be a constant of the column's type. -/
def defaultValue (column : String) (type : SqlType) (e : Expr Q) (x : Typed) : Analysis Value :=
  match x.expr.constant? with
  | none =>
    Step.fail .unsupportedFeature e.span? ("default value of '" ++ column ++ "' must be a literal")
  | some (value, valueType) =>
    if !valueType.isAssignable type then
      Step.fail .inconsistentType e.span? ("default value of '" ++ column ++ "' has type " ++
        valueType.text ++ ", expected " ++ type.text)
    else pure value

def columnDefault (column : String) (type : SqlType) (e : Expr Q) : Analysis Value := do
  let x ← e.resolve [] (some { type })
  defaultValue column type e x

def bareColumn (taken : List ColumnDecl) (d : ColumnDefinition (Expr Q)) : Analysis ColumnDecl := do
  let o ← Step.options
  let name := o.key d.name
  if taken.any (·.name == name) then
    Step.fail .columnAlreadyExists (some d.name.span) ("column '" ++ name ++ "' is already defined")
  else
    let type ← d.dataType.resolve
    return { name, type, nullable := !d.notNull && !d.primaryKey }

def column (taken : List ColumnDecl) (d : ColumnDefinition (Expr Q)) : Analysis ColumnDecl := do
  let c ← bareColumn taken d
  match d.default with
  | none => return c
  | some e =>
    let value ← columnDefault c.name c.type e
    return { c with default := some value }

def resolveColumns : List ColumnDecl → List (ColumnDefinition (Expr Q)) → Analysis (List ColumnDecl)
  | defined, [] => pure defined
  | defined, d :: rest => do
    let c ← column defined d
    resolveColumns (defined ++ [c]) rest

/-- The primary keys, as column lists: those of columns, then those of the table. -/
def keyLists (c : CreateTable (Expr Q)) : List (List Identifier) :=
  (c.columns.filter (·.primaryKey)).map (fun d => [d.name]) ++ c.primaryKeys

/-- Makes the columns at the given positions not nullable. -/
def requireValues (positions : List Nat) (columns : List ColumnDecl) : List ColumnDecl :=
  columns.zipIdx.map fun (c, i) => if positions.contains i then { c with nullable := false } else c

/-- The schema and the name of a table to be created; `none` if there is one and that will do. -/
def place (c : CreateTable (Expr Q)) : Analysis (Option (Schema × String)) := do
  let schema ← c.name.targetSchema
  let name ← c.name.objectKey
  if (schema.table? name).isSome then
    if c.ifNotExists then return none
    else
      Step.fail .tableAlreadyExists (some c.name.span) ("table '" ++ name ++ "' already exists")
  else return some (schema, name)

def build (c : CreateTable (Expr Q)) (schema : Schema) (name : String) (columns : List ColumnDecl) :
    Analysis CatalogChange := do
  if 1 < c.keyLists.length then
    Step.fail .primaryIndexAlreadyExists (some c.name.span)
      ("table '" ++ name ++ "' declares more than one primary key")
  else
    let table : TableDecl := { name, schema := schema.name, columns }
    let positions ← match c.keyLists with
      | key :: _ => table.resolveColumns [] key
      | [] => pure []
    let table := { table with columns := requireValues positions columns }
    let index := if positions.isEmpty then none else some (.primaryOf name table positions)
    return .createTable schema.name table index

def resolve (c : CreateTable (Expr Q)) : Analysis CatalogChange := do
  match ← c.place with
  | none => return .nothing
  | some (schema, name) =>
    let columns ← resolveColumns [] c.columns
    c.build schema name columns

end CreateTable

namespace CreateIndex

def order : Option SortDirection → SortOrder
  | some .descending => .descending
  | _ => .ascending

def resolve (c : CreateIndex) : Analysis CatalogChange := do
  let schema ← c.name.targetSchema
  let name ← c.name.objectKey
  if (schema.index? name).isSome then
    if c.ifNotExists then return .nothing
    else
      Step.fail .indexAlreadyExists (some c.name.span) ("index '" ++ name ++ "' already exists")
  else
    let (_, table) ← c.table.resolveTable
    let positions ← table.resolveColumns [] (c.keys.map (·.column))
    let keys := (positions.zip c.keys).map fun (p, key) => ⟨p, order key.direction⟩
    return .createIndex { name, table, keys }

end CreateIndex

namespace CatalogChange

def ofDropTable (name : Name) (ifExists : Bool) : Analysis CatalogChange := do
  match ← name.findTable with
  | some (_, table) => return .dropTable table
  | none =>
    if ifExists then return .nothing
    else Step.fail .tableNotFound (some name.span) ("table '" ++ name.render ++ "' is not found")

def ofDropIndex (name : Name) (ifExists : Bool) : Analysis CatalogChange := do
  match ← name.findIndex with
  | some (_, index) => return .dropIndex index
  | none =>
    if ifExists then return .nothing
    else Step.fail .indexNotFound (some name.span) ("index '" ++ name.render ++ "' is not found")

end CatalogChange

end SqlPlan
