import SqlPlan.Analysis.Scope
import SqlPlan.Analysis.Step
import SqlPlan.Text.Lowercase

namespace SqlPlan

def Options.key (o : Options) (i : Identifier) : String :=
  if !i.delimited && o.lowercaseRegularIdentifiers then Text.lowercase i.text else i.text

inductive Found (α : Type) where
  | nothing
  | one (found : α)
  | several
  deriving DecidableEq, Repr

/-- The only column, or the only exported one of several. -/
def Found.narrow : List ColumnInfo → Found ColumnInfo
  | [] => .nothing
  | [c] => .one c
  | columns =>
    match columns.filter (·.exported) with
    | [c] => .one c
    | _ => .several

def RelationInfo.column (r : RelationInfo) (key : String) : Found ColumnInfo :=
  .narrow (r.columns.filter (·.isNamed key))

namespace Scopes

/-- The column that a bare name denotes in the nearest scope that has a column of that name. -/
def column : Scopes → String → Found ColumnInfo
  | [], _ => .nothing
  | scope :: outer, key =>
    match Found.narrow ((scope.relations.flatMap (·.columns)).filter (·.isNamed key)) with
    | .nothing => column outer key
    | found => found

def relation : Scopes → String → Found RelationInfo
  | [], _ => .nothing
  | scope :: outer, key =>
    match scope.relationsCalled key with
    | [] => relation outer key
    | [r] => .one r
    | _ => .several

/-- The nearest relation that scans a table under the table's own name. -/
def scanOf? (scopes : Scopes) (table : TableDecl) : Option RelationInfo :=
  scopes.findSome? fun scope => scope.relations.find? fun r =>
    r.table.any (·.sameObject table) && r.correlation == some table.name

def hasRelation (scopes : Scopes) : Bool := scopes.any fun scope => !scope.relations.isEmpty

end Scopes

inductive ResolvedVariable where
  | column (info : ColumnInfo)
  | external (carrier : Variable) (type : SqlType)
  deriving DecidableEq, Repr

namespace ResolvedVariable

def carrier : ResolvedVariable → Variable
  | column info => info.carrier
  | external v _ => v

def type : ResolvedVariable → SqlType
  | column info => info.type
  | external _ t => t

end ResolvedVariable

namespace Name

variable {σ : Type}

def objectKey (name : Name) : Step σ String := do
  let o ← Step.options
  match name.last? with
  | some i => return o.key i
  | none => Step.fail .malformedSyntax none "empty name"

/-- The schema that the segments before an object's name denote; `none` stands for the search path. -/
def resolveSchema (qualifier : List Identifier) (location : Option Span) : Step σ (Option Schema) := do
  let env ← Step.environment
  let named := fun (schema : Identifier) => do
    let key := env.options.key schema
    match env.catalog.schema? key with
    | some s => return some s
    | none => Step.fail .schemaNotFound location ("schema '" ++ key ++ "' is not found")
  match qualifier with
  | [] => return none
  | [schema] => named schema
  | [catalog, schema] =>
    let key := env.options.key catalog
    if key ≠ env.catalog.name then
      Step.fail .catalogNotFound location ("catalog '" ++ key ++ "' is not found")
    else named schema
  | _ => Step.fail .malformedSyntax location "too many name qualifiers"

/-- Looks the last segment's key up, in the schema that the other segments denote or along the search
path. -/
def lookUp {α : Type} (name : Name) (suffix : String) (inSchema : Schema → String → α)
    (onPath : SearchPath → String → α) : Step σ (String × α) := do
  let key ← name.objectKey
  let key := key ++ suffix
  let env ← Step.environment
  match ← resolveSchema name.qualifier (some name.span) with
  | some schema => return (key, inSchema schema key)
  | none => return (key, onPath env.searchPath key)

def findTable (name : Name) : Step σ (Option (Schema × TableDecl)) := do
  let (_, found) ← name.lookUp "" (fun s key => (s.table? key).map (s, ·)) SearchPath.table?
  return found

def resolveTable (name : Name) : Step σ (Schema × TableDecl) := do
  match ← name.findTable with
  | some found => return found
  | none =>
    Step.fail .tableNotFound (some name.span) ("table '" ++ name.render ++ "' is not found")

def findIndex (name : Name) : Step σ (Option (Schema × IndexDecl)) := do
  let (_, found) ← name.lookUp "" (fun s key => (s.index? key).map (s, ·)) SearchPath.index?
  return found

def resolveFunctions (name : Name) (arity : Nat) : Step σ (String × List FunctionDecl) := do
  let (key, found) ← name.lookUp "" Schema.functionsNamed SearchPath.functionsNamed
  return (key, found.filter fun f => f.parameters.length == arity)

/-- The aggregate overloads of a name: those with the given number of parameters, or the asterisk
ones. -/
def resolveAggregates (name : Name) (suffix : String) (arity : Nat) (asterisk : Bool) :
    Step σ (String × List AggregateDecl) := do
  let (key, found) ← name.lookUp suffix Schema.aggregatesNamed SearchPath.aggregatesNamed
  return (key, found.filter fun f =>
    if asterisk then f.asterisk else !f.asterisk && f.parameters.length == arity)

def resolveBare (name : Name) (scopes : Scopes) : Analysis ResolvedVariable := do
  let key ← name.objectKey
  match scopes.column key with
  | .one c => return .column c
  | .several =>
    Step.fail .columnAmbiguous (some name.span) ("column '" ++ key ++ "' is ambiguous")
  | .nothing =>
    let env ← Step.environment
    match env.searchPath.findVariable? key with
    | some decl =>
      let v ← Analysis.mint (.external decl)
      return .external v decl.type
    | none =>
      Step.fail (if scopes.hasRelation then .variableNotFound else .symbolNotFound) (some name.span)
        ("'" ++ key ++ "' is not found")

def resolveInRelation (name : Name) (relation column : Identifier) (scopes : Scopes) :
    Step σ ResolvedVariable := do
  let o ← Step.options
  let qualifier := o.key relation
  let key := o.key column
  match scopes.relation qualifier with
  | .one r =>
    match r.column key with
    | .one c => return .column c
    | .nothing =>
      Step.fail .columnNotFound (some name.span)
        ("column '" ++ key ++ "' is not found in '" ++ qualifier ++ "'")
    | .several =>
      Step.fail .columnAmbiguous (some name.span)
        ("column '" ++ key ++ "' is ambiguous in '" ++ qualifier ++ "'")
  | .several =>
    Step.fail .relationAmbiguous (some name.span) ("relation '" ++ qualifier ++ "' is ambiguous")
  | .nothing =>
    Step.fail .relationNotFound (some name.span) ("relation '" ++ qualifier ++ "' is not found")

def resolveInTable (name : Name) (scopes : Scopes) : Step σ ResolvedVariable := do
  let tableName : Name := ⟨name.qualifier⟩
  let (_, table) ← tableName.resolveTable
  let key ← name.objectKey
  match scopes.scanOf? table with
  | none =>
    Step.fail .relationNotFound (some name.span)
      ("relation '" ++ tableName.render ++ "' is not in scope")
  | some r =>
    match r.column key with
    | .one c => return .column c
    | .nothing =>
      Step.fail .columnNotFound (some name.span)
        ("column '" ++ key ++ "' is not found in '" ++ table.name ++ "'")
    | .several =>
      Step.fail .columnAmbiguous (some name.span) ("column '" ++ key ++ "' is ambiguous")

def resolveVariable (name : Name) (scopes : Scopes) : Analysis ResolvedVariable :=
  match name.segments with
  | [_] => name.resolveBare scopes
  | [relation, column] => name.resolveInRelation relation column scopes
  | [_, _, _] => name.resolveInTable scopes
  | [_, _, _, _] => name.resolveInTable scopes
  | _ => Step.fail .malformedSyntax (some name.span) ("invalid variable name '" ++ name.render ++ "'")

end Name

end SqlPlan
