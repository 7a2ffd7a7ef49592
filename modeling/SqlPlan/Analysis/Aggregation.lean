import SqlPlan.Analysis.Step

namespace SqlPlan

/-- An aggregate call and the column that receives its result. -/
structure AggregateEntry where
  function : AggregateDecl
  arguments : List Scalar
  destination : Variable
  deriving Inhabited

/-- The grouping of one block. `locals` are the columns of its FROM clause. -/
structure Aggregation where
  locals : List Variable
  keys : List Variable := []
  entries : List AggregateEntry := []
  active : Bool := false
  deriving Inhabited

namespace Aggregation

def addKey (a : Aggregation) (key : Variable) : Aggregation :=
  { a with keys := if key.isIn a.keys then a.keys else a.keys ++ [key], active := true }

def activate (a : Aggregation) : Aggregation := { a with active := true }

def isKey (a : Aggregation) (v : Variable) : Bool := v.isIn a.keys

def outputs (a : Aggregation) : List Variable := a.keys ++ a.entries.map (·.destination)

def isUngrouped (a : Aggregation) (v : Variable) : Bool := v.isIn a.locals && !v.isIn a.keys

def entry? (a : Aggregation) (function : AggregateDecl) (arguments : List Scalar) :
    Option AggregateEntry :=
  a.entries.find? fun e => e.function.sameObject function && Scalar.sameList e.arguments arguments

end Aggregation

/-- A regrouping in progress. After a problem has been found everything else is left as it is. -/
structure Regrouping where
  aggregation : Aggregation
  minted : Nat
  problem : Option Diagnostic := none
  deriving Inhabited

namespace Regrouping

def fail (r : Regrouping) (d : Diagnostic) : Regrouping := { r with problem := some d }

def register (r : Regrouping) (function : AggregateDecl) (arguments : List Scalar) :
    Variable × Regrouping :=
  match r.aggregation.entry? function arguments with
  | some entry => (entry.destination, r)
  | none =>
    let destination : Variable := ⟨r.minted + 1, .stream (some function.name)⟩
    let entries := r.aggregation.entries ++ [⟨function, arguments, destination⟩]
    (destination, { r with aggregation := { r.aggregation with entries }, minted := r.minted + 1 })

def call (location : Option Span) (function : AggregateDecl) (arguments : List Scalar) (r : Regrouping) :
    Scalar × Regrouping :=
  if r.problem.isSome then (.aggregate function arguments, r)
  else if Scalar.listHasAggregate arguments then
    (.aggregate function arguments,
      r.fail ⟨.unsupportedFeature, location, "nested aggregate in '" ++ function.name ++ "'"⟩)
  else
    let (v, r) := r.register function arguments
    (.var v, r)

def check (location : Option Span) (v : Variable) (r : Regrouping) : Regrouping :=
  if r.problem.isNone && r.aggregation.isUngrouped v then
    r.fail ⟨.invalidAggregationColumn, location, "column '" ++ v.label?.getD "?" ++
      "' must appear in GROUP BY or be used in an aggregate function"⟩
  else r

end Regrouping

namespace Scalar

mutual

/-- Turns an expression into one over grouping keys and aggregate columns. -/
def regroup (location : Option Span) : Scalar → Regrouping → Scalar × Regrouping
  | immediate v t, r => (immediate v t, r)
  | var v, r => (var v, r.check location v)
  | unary op s, r =>
    let (s, r) := s.regroup location r
    (unary op s, r)
  | binary op x y, r =>
    let (x, r) := x.regroup location r
    let (y, r) := y.regroup location r
    (binary op x y, r)
  | compare op x y, r =>
    let (x, r) := x.regroup location r
    let (y, r) := y.regroup location r
    (compare op x y, r)
  | pattern op i p e, r =>
    let (i, r) := i.regroup location r
    let (p, r) := p.regroup location r
    let (e, r) := e.regroup location r
    (pattern op i p e, r)
  | conditional alternatives default, r =>
    let (alternatives, r) := regroupPairs location alternatives r
    let (default, r) := regroupOption location default r
    (conditional alternatives default, r)
  | letIn declarators body, r =>
    let (declarators, r) := regroupDeclarators location declarators r
    let (body, r) := body.regroup location r
    (letIn declarators body, r)
  | cast policy target s, r =>
    let (s, r) := s.regroup location r
    (cast policy target s, r)
  | call function arguments, r =>
    let (arguments, r) := regroupList location arguments r
    (call function arguments, r)
  | aggregate function arguments, r => r.call location function arguments

def regroupPairs (location : Option Span) :
    List (Scalar × Scalar) → Regrouping → List (Scalar × Scalar) × Regrouping
  | [], r => ([], r)
  | (x, y) :: rest, r =>
    let (x, r) := x.regroup location r
    let (y, r) := y.regroup location r
    let (rest, r) := regroupPairs location rest r
    ((x, y) :: rest, r)

def regroupOption (location : Option Span) : Option Scalar → Regrouping → Option Scalar × Regrouping
  | none, r => (none, r)
  | some s, r =>
    let (s, r) := s.regroup location r
    (some s, r)

def regroupDeclarators (location : Option Span) :
    List (Variable × Scalar) → Regrouping → List (Variable × Scalar) × Regrouping
  | [], r => ([], r)
  | (v, s) :: rest, r =>
    let (s, r) := s.regroup location r
    let (rest, r) := regroupDeclarators location rest r
    ((v, s) :: rest, r)

def regroupList (location : Option Span) : List Scalar → Regrouping → List Scalar × Regrouping
  | [], r => ([], r)
  | s :: rest, r =>
    let (s, r) := s.regroup location r
    let (rest, r) := regroupList location rest r
    (s :: rest, r)

end

end Scalar

/-- The state of a grouping: the number of variables minted and the grouping so far. -/
structure GroupingState where
  minted : Nat
  aggregation : Aggregation
  deriving Inhabited

abbrev Grouping := Step GroupingState

namespace Aggregation

/-- Regroups an expression. What it is left as is returned also if a problem was found. -/
def process (a : Aggregation) (minted : Nat) (location : Option Span) (s : Scalar) :
    Scalar × Regrouping :=
  s.regroup location ⟨a, minted, none⟩

def regroup (location : Option Span) (s : Scalar) : Grouping Scalar := fun _ state =>
  let (s, r) := state.aggregation.process state.minted location s
  let state := ⟨r.minted, r.aggregation⟩
  match r.problem with
  | none => (.ok s, state)
  | some d => (.error ⟨d, []⟩, state)

def run {α : Type} (a : Aggregation) (m : Grouping α) : Planning (α × Aggregation) := fun env draft =>
  let inner := m env ⟨draft.minted, a⟩
  (inner.1.map (·, inner.2.aggregation), { draft with minted := inner.2.minted })

/-- The columns that hold the arguments of a call. An argument that is no column yet is computed by a
new one. -/
def argumentColumns : List Scalar → Analysis (List Variable × List (Variable × Scalar))
  | [] => pure ([], [])
  | s :: rest => do
    match s.asVariable? with
    | some v =>
      let (vs, computed) ← argumentColumns rest
      return (v :: vs, computed)
    | none =>
      let v ← Analysis.stream none
      let (vs, computed) ← argumentColumns rest
      return (v :: vs, (v, s) :: computed)

/-- The columns of the aggregate operator, and what has to be computed before it. -/
def aggregateColumns :
    List AggregateEntry → Analysis (List AggregateColumn × List (Variable × Scalar))
  | [] => pure ([], [])
  | entry :: rest => do
    let (arguments, computed) ← argumentColumns entry.arguments
    let (columns, more) ← aggregateColumns rest
    return (⟨entry.function, arguments, entry.destination⟩ :: columns, computed ++ more)

/-- Adds the aggregate operator, after a projection that computes arguments if there are any to
compute. -/
def install (a : Aggregation) (input : Socket) : Planning Socket := do
  let (columns, computed) ← aggregateColumns a.entries
  let input ← if computed.isEmpty then pure input else Planning.add (.project computed) [input]
  Planning.add (.aggregate a.keys columns) [input]

end Aggregation

end SqlPlan
