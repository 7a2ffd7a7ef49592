import SqlPlan.Catalog.Declaration

namespace SqlPlan

inductive VariableKind where
  | column (ref : ColumnRef)
  | stream (label : Option String)
  | temporary
  | host (decl : VariableDecl)
  | external (decl : VariableDecl)
  deriving DecidableEq, Repr, Inhabited

structure Variable where
  id : Nat
  kind : VariableKind
  deriving DecidableEq, Repr, Inhabited

namespace Variable

def isStream (v : Variable) : Bool :=
  match v.kind with
  | .stream _ => true
  | _ => false

def label? (v : Variable) : Option String :=
  match v.kind with
  | .column ref => some ref.column.name
  | .stream label => label
  | .temporary => none
  | .host decl => some decl.name
  | .external decl => some decl.name

def columnRef? (v : Variable) : Option ColumnRef :=
  match v.kind with
  | .column ref => some ref
  | _ => none

/-- Whether the variable is told apart by the number it was minted with. -/
def isMinted (v : Variable) : Bool :=
  match v.kind with
  | .stream _ => true
  | .temporary => true
  | _ => false

def same (v w : Variable) : Bool :=
  match v.kind, w.kind with
  | .column a, .column b => a.same b
  | .host a, .host b => a.sameObject b
  | .external a, .external b => a.sameObject b
  | _, _ => v.isMinted && w.isMinted && v.id == w.id

def text (v : Variable) : String :=
  match v.kind with
  | .column ref => ref.text
  | .stream (some label) => label ++ "#" ++ Text.ofNat v.id
  | .stream none => "#" ++ Text.ofNat v.id
  | .temporary => "let#" ++ Text.ofNat v.id
  | .host decl => ":" ++ decl.name
  | .external decl => decl.name

def isIn (v : Variable) (vs : List Variable) : Bool := vs.any v.same

end Variable

inductive Relation where
  | table (decl : TableDecl)
  | index (decl : IndexDecl)
  deriving DecidableEq, Repr, Inhabited

def Relation.tableDecl : Relation → TableDecl
  | table decl => decl
  | index decl => decl.table

end SqlPlan
