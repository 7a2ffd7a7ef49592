import SqlPlan.Json.Declaration
import SqlPlan.Json.ScalarDescription

namespace SqlPlan

/-- What the names and numbers of written scalars stand for, and the number of variables minted. -/
structure ScalarNames where
  minted : Nat := 0
  bound : List (String × Variable) := []
  functions : List FunctionDecl := []
  aggregates : List AggregateDecl := []
  deriving Inhabited

namespace ScalarNames

def mint (n : ScalarNames) (name : String) (kind : VariableKind) : Variable × ScalarNames :=
  let v : Variable := ⟨n.minted + 1, kind⟩
  (v, { n with minted := n.minted + 1, bound := (name, v) :: n.bound })

def mintStreams (n : ScalarNames) (names : List String) : ScalarNames :=
  names.foldl (fun n name => (n.mint name (.stream (some name))).2) n

def named? (n : ScalarNames) (name : String) : Option Variable := n.bound.lookup name

/-- Marks the entries of a list as objects of their own. -/
def distinguish {α : Type} (mark : ObjectId → α → α) (entries : List α) : List α :=
  entries.zipIdx.map fun (a, i) => mark ⟨0, i + 1⟩ a

def ofJson? (j : Json) : Option ScalarNames := do
  let names ← j.field? "variables" (Json.list? Json.string?)
  let functions ← j.default? "functions" [] (Json.list? FunctionDecl.ofJson?)
  let aggregates ← j.default? "aggregates" [] (Json.list? AggregateDecl.ofJson?)
  let functions := distinguish (fun oid f => { f with oid }) functions
  let aggregates := distinguish (fun oid f => { f with oid }) aggregates
  return mintStreams { functions, aggregates } names

end ScalarNames

abbrev ScalarReader := StateT ScalarNames Option

namespace ScalarReader

/-- A let declarator: its value is read before its variable is minted. -/
def declarator? (read : Json → ScalarReader Scalar) : Json → ScalarReader (Variable × Scalar)
  | .array [.string name, s] => do
    let s ← read s
    let v ← modifyGet fun n => n.mint name .temporary
    return (v, s)
  | _ => failure

def alternative? (read : Json → ScalarReader Scalar) : Json → ScalarReader (Scalar × Scalar)
  | .array [condition, body] => do
    let condition ← read condition
    let body ← read body
    return (condition, body)
  | _ => failure

def option? (read : Json → ScalarReader Scalar) : Json → ScalarReader (Option Scalar)
  | .null => return none
  | s => do
    let s ← read s
    return some s

/-- A scalar with at most as many levels of arrays and objects as given. -/
def scalar? : Nat → Json → ScalarReader Scalar
  | _ + 1, .array [.string "imm", value, type] => do
    let value ← (Value.ofJson? value : Option _)
    let type ← (SqlType.ofJson? type : Option _)
    return .immediate value type
  | _ + 1, .array [.string "var", .string name] => do
    let n ← get
    let v ← n.named? name
    return .var v
  | depth + 1, .array [.string "un", op, s] => do
    let op ← op.enum? UnaryOperator.tags
    let s ← scalar? depth s
    return .unary op s
  | depth + 1, .array [.string "bin", op, l, r] => do
    let op ← op.enum? BinaryOperator.tags
    let l ← scalar? depth l
    let r ← scalar? depth r
    return .binary op l r
  | depth + 1, .array [.string "cmp", op, l, r] => do
    let op ← op.enum? ComparisonOp.tags
    let l ← scalar? depth l
    let r ← scalar? depth r
    return .compare op l r
  | depth + 1, .array [.string "match", op, i, p, e] => do
    let op ← op.enum? PatternOp.tags
    let i ← scalar? depth i
    let p ← scalar? depth p
    let e ← scalar? depth e
    return .pattern op i p e
  | depth + 1, .array [.string "cond", .array alternatives, default] => do
    let alternatives ← alternatives.mapM (alternative? (scalar? depth))
    let default ← option? (scalar? depth) default
    return .conditional alternatives default
  | depth + 1, .array [.string "let", .array declarators, body] => do
    let declarators ← declarators.mapM (declarator? (scalar? depth))
    let body ← scalar? depth body
    return .letIn declarators body
  | depth + 1, .array [.string "cast", policy, type, s] => do
    let policy ← policy.enum? LossPolicy.tags
    let type ← (SqlType.ofJson? type : Option _)
    let s ← scalar? depth s
    return .cast policy type s
  | depth + 1, .array [.string "call", number, .array arguments] => do
    let n ← get
    let number ← number.size?
    let f ← n.functions[number]?
    let arguments ← arguments.mapM (scalar? depth)
    return .call f arguments
  | depth + 1, .array [.string "agg", number, .array arguments] => do
    let n ← get
    let number ← number.size?
    let f ← n.aggregates[number]?
    let arguments ← arguments.mapM (scalar? depth)
    return .aggregate f arguments
  | _, _ => failure

end ScalarReader

def ScalarNames.read? (n : ScalarNames) (j : Json) : Option (Scalar × ScalarNames) :=
  (ScalarReader.scalar? j.depth j).run n

end SqlPlan
