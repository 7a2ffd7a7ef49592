import SqlPlan.Plan.Scalar
import SqlPlan.Syntax.Query

namespace SqlPlan

structure Socket where
  node : Nat
  index : Nat
  deriving DecidableEq, Repr, Inhabited

/-- The join kinds of plans; a right outer join is a left outer one with its operands exchanged. -/
inductive JoinKind where
  | cross
  | inner
  | leftOuter
  | fullOuter
  deriving DecidableEq, Repr, Inhabited

inductive WriteKind where
  | insert
  | update
  | delete
  deriving DecidableEq, Repr, Inhabited

structure AggregateColumn where
  function : AggregateDecl
  arguments : List Variable
  destination : Variable
  deriving DecidableEq, Repr, Inhabited

structure UnionMapping where
  left : Option Variable
  right : Option Variable
  destination : Variable
  deriving DecidableEq, Repr, Inhabited

structure SortKey where
  column : Variable
  order : SortOrder
  deriving DecidableEq, Repr, Inhabited

mutual

/-- A relational operator. Columns are given as pairs: source and destination of a scan, a subquery and
a write, variable and value of a projection, position and variable of an apply, variable and name of an
emit, left and right key of a set operation. -/
inductive Operator where
  | scan (source : Relation) (columns : List (Variable × Variable))
  | values (columns : List Variable) (rows : List (List Scalar))
  | filter (condition : Scalar)
  | project (columns : List (Variable × Scalar))
  | join (kind : JoinKind) (condition : Option Scalar)
  | aggregate (keys : List Variable) (columns : List AggregateColumn)
  | union (quantifier : SetQuantifier) (mappings : List UnionMapping)
  | intersection (quantifier : SetQuantifier) (keys : List (Variable × Variable))
  | difference (quantifier : SetQuantifier) (keys : List (Variable × Variable))
  | distinct (keys : List Variable)
  | limit (count : Option Nat) (sortKeys : List SortKey)
  | apply (kind : ApplyKind) (function : FunctionDecl) (arguments : List Scalar)
      (columns : List (Nat × Variable))
  | write (kind : WriteKind) (destination : Relation) (keys columns : List (Variable × Variable))
  | emit (columns : List (Variable × Option String))
  | subquery (graph : Graph) (output : Socket) (mappings : List (Variable × Variable))

structure Node where
  operator : Operator
  inputs : List (Option Socket)
  outputs : List (Option Socket)

structure Graph where
  nodes : List Node

end

instance : Inhabited Operator := ⟨.values [] []⟩

instance : Inhabited Graph := ⟨⟨[]⟩⟩

inductive OperatorKind where
  | scan
  | values
  | filter
  | project
  | join
  | aggregate
  | union
  | intersection
  | difference
  | distinct
  | limit
  | apply
  | write
  | emit
  | subquery
  deriving DecidableEq, Repr, Inhabited

def Operator.kind : Operator → OperatorKind
  | scan .. => .scan
  | values .. => .values
  | filter .. => .filter
  | project .. => .project
  | join .. => .join
  | aggregate .. => .aggregate
  | union .. => .union
  | intersection .. => .intersection
  | difference .. => .difference
  | distinct .. => .distinct
  | limit .. => .limit
  | apply .. => .apply
  | write .. => .write
  | emit .. => .emit
  | subquery .. => .subquery

namespace Graph

def empty : Graph := ⟨[]⟩

def size (g : Graph) : Nat := g.nodes.length

def connect (g : Graph) (output input : Socket) : Graph :=
  ⟨g.nodes.modify output.node fun n => { n with outputs := n.outputs.set output.index (some input) }⟩

/-- Adds a node that reads the given output sockets in order, with as many outputs as given. -/
def insert (g : Graph) (operator : Operator) (inputs : List Socket) (outputs : Nat) : Graph :=
  let g' := inputs.zipIdx.foldl (fun h (socket, i) => h.connect socket ⟨g.size, i⟩) g
  ⟨g'.nodes ++ [⟨operator, inputs.map some, List.replicate outputs none⟩]⟩

def add (g : Graph) (operator : Operator) (inputs : List Socket) : Socket × Graph :=
  (⟨g.size, 0⟩, g.insert operator inputs 1)

def addSink (g : Graph) (operator : Operator) (input : Socket) : Nat × Graph :=
  (g.size, g.insert operator [input] 0)

def operator? (g : Graph) (node : Nat) : Option Operator := g.nodes[node]?.map (·.operator)

def feeder? (g : Graph) (node index : Nat) : Option Nat := do
  let n ← g.nodes[node]?
  let socket ← n.inputs[index]?
  socket.map (·.node)

def reader? (g : Graph) (node : Nat) : Option Nat := do
  let n ← g.nodes[node]?
  let socket ← n.outputs[0]?
  socket.map (·.node)

/-- The output sockets that nothing reads yet. -/
def frontier (g : Graph) : List Socket :=
  g.nodes.zipIdx.flatMap fun (n, i) =>
    (n.outputs.zipIdx.filter fun (o, _) => o.isNone).map fun (_, j) => ⟨i, j⟩

/-- Follows first inputs upwards from a node, for at most as many steps as given. -/
def climb (g : Graph) : Nat → Nat → List Nat
  | 0, node => [node]
  | steps + 1, node =>
    match g.feeder? node 0 with
    | some up => g.climb steps up ++ [node]
    | none => [node]

/-- The nodes from a source to the given node, through first inputs. A node reads from earlier nodes
only, so there are at most as many steps as its number. -/
def chainTo (g : Graph) (node : Nat) : List Nat := g.climb node node

def kindsTo (g : Graph) (node : Nat) : List OperatorKind :=
  (g.chainTo node).filterMap fun n => (g.operator? n).map Operator.kind

def countKind (g : Graph) (kind : OperatorKind) : Nat :=
  g.nodes.countP fun n => decide (n.operator.kind = kind)

def findKind? (g : Graph) (kind : OperatorKind) : Option Nat :=
  g.nodes.findIdx? fun n => decide (n.operator.kind = kind)

end Graph

inductive PlanKind where
  | query
  | insert
  | update
  | delete
  deriving DecidableEq, Repr, Inhabited

structure ExecutionPlan where
  kind : PlanKind
  graph : Graph
  terminal : Nat
  deriving Inhabited

inductive CatalogChange where
  | createTable (schema : String) (table : TableDecl) (primaryIndex : Option IndexDecl)
  | dropTable (table : TableDecl)
  | createIndex (index : IndexDecl)
  | dropIndex (index : IndexDecl)
  | nothing
  deriving DecidableEq, Repr, Inhabited

end SqlPlan
