import SqlPlan.Catalog.SearchPath

namespace SqlPlan

/-- A catalog and the schemas that are built for it; `created` is the last id given to a schema. -/
structure CatalogBuilder where
  catalog : Catalog
  openSchemas : List Schema := []
  created : Nat := 0
  deriving DecidableEq, Repr, Inhabited

namespace CatalogBuilder

def find? (b : CatalogBuilder) (name : String) : Option Schema := b.openSchemas.find? (·.name == name)

def nextId (b : CatalogBuilder) : Nat := b.created + 1

/-- Opens a schema that was made under the next id. -/
def push (b : CatalogBuilder) (s : Schema) : CatalogBuilder :=
  { b with openSchemas := b.openSchemas ++ [s], created := b.nextId }

def put (b : CatalogBuilder) (s : Schema) : CatalogBuilder :=
  { b with openSchemas := b.openSchemas.modify (b.openSchemas.findIdx (·.name == s.name)) fun _ => s }

def close (b : CatalogBuilder) (name : String) : CatalogBuilder :=
  { b with openSchemas := b.openSchemas.eraseIdx (b.openSchemas.findIdx (·.name == name)) }

/-- Moves an open schema into the catalog. It is closed also if the catalog has one of its name. -/
def freeze (b : CatalogBuilder) (s : Schema) : Option CatalogError × CatalogBuilder :=
  let b := b.close s.name
  match b.catalog.addSchema s with
  | .ok catalog => (none, { b with catalog })
  | .error e => (some e, b)

/-- The catalog with all open schemas, in the order in which they were opened. -/
def finish (b : CatalogBuilder) : Except CatalogError Catalog :=
  b.openSchemas.foldlM Catalog.addSchema b.catalog

end CatalogBuilder

end SqlPlan
