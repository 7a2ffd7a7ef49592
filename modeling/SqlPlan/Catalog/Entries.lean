namespace SqlPlan

/-- A map, in the order in which its keys were inserted. -/
abbrev Entries (α : Type) := List (String × α)

namespace Entries

variable {α : Type}

def values (m : Entries α) : List α := m.map (·.2)

/-- Changes the value of a key. A key that the map does not have is inserted first, with the default. -/
def upsert (key : String) (default : α) (f : α → α) : Entries α → Entries α
  | [] => [(key, f default)]
  | (k, v) :: rest => if k = key then (k, f v) :: rest else (k, v) :: upsert key default f rest

def insert (m : Entries α) (key : String) (value : α) : Entries α := m.upsert key value fun _ => value

end Entries

end SqlPlan
