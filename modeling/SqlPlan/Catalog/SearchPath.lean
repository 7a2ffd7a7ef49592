import SqlPlan.Catalog.Schema
import SqlPlan.Text.Visible

namespace SqlPlan

structure Catalog where
  name : String
  schemas : List Schema := []
  deriving DecidableEq, Repr, Inhabited

namespace Catalog

def schema? (c : Catalog) (name : String) : Option Schema := c.schemas.find? (·.name == name)

def addSchema (c : Catalog) (schema : Schema) : Except CatalogError Catalog :=
  if (c.schema? schema.name).isSome then .error (.duplicateSchema schema.name)
  else .ok { c with schemas := c.schemas ++ [schema] }

end Catalog

structure SearchPath where
  schemas : List Schema := []
  deriving DecidableEq, Repr, Inhabited

namespace SearchPath

def table? (p : SearchPath) (name : String) : Option (Schema × TableDecl) :=
  p.schemas.findSome? fun s => (s.table? name).map (s, ·)

def index? (p : SearchPath) (name : String) : Option (Schema × IndexDecl) :=
  p.schemas.findSome? fun s => (s.index? name).map (s, ·)

def findVariable? (p : SearchPath) (name : String) : Option VariableDecl :=
  p.schemas.findSome? (·.findVariable? name)

/-- The function overloads of a name in all schemas of the path, since arguments decide among them. -/
def functionsNamed (p : SearchPath) (name : String) : List FunctionDecl :=
  p.schemas.flatMap (·.functionsNamed name)

def aggregatesNamed (p : SearchPath) (name : String) : List AggregateDecl :=
  p.schemas.flatMap (·.aggregatesNamed name)

def names (p : SearchPath) : List String := p.schemas.map (·.name)

def text (p : SearchPath) : String := Text.visibleList p.names

end SearchPath

end SqlPlan
