import SqlPlan.Analysis.Relation
import SqlPlan.Catalog.Entries

namespace SqlPlan

/-- A compiled query of a WITH clause. Every reference copies its graph. -/
structure NamedQuery where
  graph : Graph
  output : Socket
  relation : RelationInfo
  deriving Inhabited

structure Scope where
  relations : List RelationInfo := []
  named : Entries NamedQuery := []
  deriving Inhabited

/-- Scopes that enclose each other, innermost first. -/
abbrev Scopes := List Scope

namespace Scope

def relationsCalled (s : Scope) (name : String) : List RelationInfo :=
  s.relations.filter fun r => r.correlation == some name

def named? (s : Scope) (name : String) : Option NamedQuery := s.named.lookup name

def define (s : Scope) (name : String) (query : NamedQuery) : Scope :=
  { s with named := s.named.insert name query }

end Scope

def Scopes.named? (scopes : Scopes) (name : String) : Option NamedQuery :=
  scopes.findSome? (·.named? name)

/-- The open scopes, each with the number of the scope that encloses it. -/
structure ScopeArena where
  slots : List (Option Nat × Scope) := []
  deriving Inhabited

namespace ScopeArena

def size (a : ScopeArena) : Nat := a.slots.length

def push (a : ScopeArena) (parent : Option Nat) (scope : Scope := {}) : Nat × ScopeArena :=
  (a.size, ⟨a.slots ++ [(parent, scope)]⟩)

def pop (a : ScopeArena) (id : Nat) : ScopeArena := ⟨a.slots.take id⟩

def scope? (a : ScopeArena) (id : Nat) : Option Scope := a.slots[id]?.map (·.2)

def update (a : ScopeArena) (id : Nat) (f : Scope → Scope) : ScopeArena :=
  ⟨a.slots.modify id fun (parent, scope) => (parent, f scope)⟩

def climb (a : ScopeArena) : Nat → Nat → List Nat
  | 0, id => [id]
  | steps + 1, id =>
    match a.slots[id]? with
    | some (some parent, _) => if parent < id then id :: a.climb steps parent else [id]
    | _ => [id]

/-- The scope and those that enclose it, innermost first. A scope is opened after those that enclose
it, so the numbers go down and there are at most as many steps as its number. -/
def chain (a : ScopeArena) (id : Nat) : List Nat := a.climb id id

def scopes (a : ScopeArena) (id : Nat) : Scopes := (a.chain id).filterMap a.scope?

def visible (a : ScopeArena) : Option Nat → Scopes
  | some id => a.scopes id
  | none => []

end ScopeArena

end SqlPlan
