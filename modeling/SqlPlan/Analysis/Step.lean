import SqlPlan.Analysis.Diagnostic
import SqlPlan.Analysis.Options
import SqlPlan.Catalog.SearchPath
import SqlPlan.Plan.Graph

namespace SqlPlan

structure Environment where
  options : Options := {}
  catalog : Catalog
  searchPath : SearchPath := ⟨catalog.schemas⟩
  defaultSchema : Option Schema := catalog.schemas.head?
  hostParameters : Entries VariableDecl := []
  placeholders : Entries (Value × SqlType) := []
  deriving Repr, Inhabited

namespace Environment

def hostParameter? (env : Environment) (name : String) : Option VariableDecl :=
  env.hostParameters.lookup
    (if env.options.hostParameterDeclarationStartsWithColon then ":" ++ name else name)

def placeholder? (env : Environment) (name : String) : Option (Value × SqlType) :=
  env.placeholders.lookup name

end Environment

/-- How a step fails. A marker stands for diagnostics that were reported; after a panic nothing goes on. -/
inductive Failure where
  | reported
  | panic
  deriving DecidableEq, Repr, Inhabited

/-- The end of a step: its result, and the diagnostics that it has added to the log. -/
@[ext]
structure Outcome (α : Type) where
  result : Except Failure α
  log : List Diagnostic
  deriving Repr

namespace Outcome

variable {α β : Type}

def ok (a : α) : Outcome α := ⟨.ok a, []⟩

def error (report : Report) : Outcome α := ⟨.error .reported, report.toList⟩

def map (f : α → β) (o : Outcome α) : Outcome β := ⟨o.result.map f, o.log⟩

def toOption : Outcome α → Option α
  | ⟨.ok a, []⟩ => some a
  | _ => none

def isOk (o : Outcome α) : Bool := o.toOption.isSome

end Outcome

def Step (σ α : Type) : Type := Environment → σ → Outcome α × σ

namespace Step

variable {σ α β : Type}

protected def pure (a : α) : Step σ α := fun _ s => (.ok a, s)

protected def bind (m : Step σ α) (f : α → Step σ β) : Step σ β := fun env s =>
  let first := m env s
  match first.1.result with
  | .ok a =>
    let second := f a env first.2
    (⟨second.1.result, first.1.log ++ second.1.log⟩, second.2)
  | .error failure => (⟨.error failure, first.1.log⟩, first.2)

instance : Monad (Step σ) where
  pure := Step.pure
  bind := Step.bind

def environment : Step σ Environment := fun env s => (.ok env, s)

def options : Step σ Options := fun env s => (.ok env.options, s)

/-- Adds a diagnostic to the log. The caller gets the marker to fail with. -/
def report (d : Diagnostic) : Step σ Failure := fun _ s => (⟨.ok .reported, [d]⟩, s)

def throw (failure : Failure) : Step σ α := fun _ s => (⟨.error failure, []⟩, s)

def failWith (d : Diagnostic) : Step σ α := do
  let marker ← report d
  throw marker

def fail (code : DiagnosticCode) (location : Option Span) (message : String) : Step σ α :=
  failWith ⟨code, location, message⟩

def ofExcept : Except Diagnostic α → Step σ α
  | .ok a => pure a
  | .error d => failWith d

/-- Runs a step and goes on also if it has failed, but not after a panic. -/
def attempt (m : Step σ α) : Step σ (Except Failure α) := fun env s =>
  let first := m env s
  match first.1.result with
  | .error .panic => (⟨.error .panic, first.1.log⟩, first.2)
  | result => (⟨.ok result, first.1.log⟩, first.2)

/-- Runs both steps, also if the first one fails, and fails if one of them does. -/
def both (m : Step σ α) (n : Step σ β) : Step σ (α × β) := do
  let first ← attempt m
  let second ← attempt n
  match first, second with
  | .ok a, .ok b => return (a, b)
  | .error failure, _ => throw failure
  | _, .error failure => throw failure

/-- Runs all steps, also after one has failed. -/
def collect : List (Step σ α) → Step σ (List α)
  | [] => pure []
  | m :: ms => do
    let (a, as) ← both m (collect ms)
    return a :: as

/-- Runs the step on each element in turn, until one fails. -/
def each (f : α → Step σ β) : List α → Step σ (List β)
  | [] => pure []
  | a :: as => do
    let b ← f a
    let bs ← each f as
    return b :: bs

end Step

/-- Analysis of expressions and names. The state is the number of variables minted so far. -/
abbrev Analysis := Step Nat

/-- The state of a query analysis: the number of variables minted and the graph built so far. -/
structure Draft where
  minted : Nat
  graph : Graph
  deriving Inhabited

abbrev Planning := Step Draft

namespace Analysis

def mint (kind : VariableKind) : Analysis Variable := fun _ minted =>
  (.ok ⟨minted + 1, kind⟩, minted + 1)

def stream (label : Option String) : Analysis Variable := mint (.stream label)

def temporary : Analysis Variable := mint .temporary

end Analysis

namespace Planning

variable {α : Type}

def ofAnalysis (m : Analysis α) : Planning α := fun env draft =>
  let inner := m env draft.minted
  (inner.1, { draft with minted := inner.2 })

instance : MonadLift Analysis Planning := ⟨ofAnalysis⟩

def add (operator : Operator) (inputs : List Socket) : Planning Socket := fun _ draft =>
  let (socket, graph) := draft.graph.add operator inputs
  (.ok socket, { draft with graph })

def addSink (operator : Operator) (input : Socket) : Planning Nat := fun _ draft =>
  let (node, graph) := draft.graph.addSink operator input
  (.ok node, { draft with graph })

def separately (m : Planning α) : Planning (α × Graph) := fun env draft =>
  let inner := m env ⟨draft.minted, .empty⟩
  (inner.1.map (·, inner.2.graph), { draft with minted := inner.2.minted })

end Planning

end SqlPlan
