import SqlPlan.Analysis.Compiler

namespace SqlPlan

structure Session where
  environment : Environment
  minted : Nat := 0
  log : List Diagnostic := []
  scopes : ScopeArena := {}
  declared : Nat := 0
  deriving Inhabited

/-- Why a statement is refused: all diagnostics of the log, or a panic. -/
inductive Refusal where
  | diagnostics (log : List Diagnostic)
  | panic
  deriving DecidableEq, Repr, Inhabited

namespace Session

variable {α Q : Type}

/-- Runs a step of the compiler on a graph. What is returned with a panic is of no use any more. -/
def run (s : Session) (graph : Graph) (m : Compiling α) : Except Failure α × Graph × Session :=
  let inner := m s.environment ⟨⟨s.minted, graph⟩, s.scopes⟩
  (inner.1.result, inner.2.draft.graph,
    { s with minted := inner.2.draft.minted, log := s.log ++ inner.1.log, scopes := inner.2.scopes })

def runAlone (s : Session) (m : Compiling α) : Except Failure α × Session :=
  let inner := s.run .empty m
  (inner.1, inner.2.2)

def resolveExpr (s : Session) (e : Expr Q) (scope : Option Nat) (target : Option Target) :
    Except Failure Typed × Session :=
  s.runAlone (e.compile scope target)

def resolveLiteral (s : Session) (l : Literal) (target : Option Target) : Except Failure Typed × Session :=
  s.runAlone (l.resolve target)

def resolveType (s : Session) (t : DataType) : Except Failure SqlType × Session := s.runAlone t.resolve

/-- Plans a query into a graph, which is returned also if the query is refused. A scope that is not open is taken
for none. -/
def planQuery (s : Session) (graph : Graph) (q : Query (Expr Q)) (scope : Option Nat)
    (correlation : Option Correlation) : Except Failure Planned × Graph × Session :=
  s.run graph (q.compileAs (scope.filter (· < s.scopes.size)) correlation)

/-- Resolves a statement. A failure returns all diagnostics of the log and empties it. -/
def resolveStatement (s : Session) (statement : Statement (Expr Q)) :
    Except Refusal Resolution × Session :=
  match s.runAlone statement.compile with
  | (.ok resolution, s) => (.ok resolution, s)
  | (.error .reported, s) => (.error (.diagnostics s.log), { s with log := [] })
  | (.error .panic, s) => (.error .panic, { s with log := [] })

def pushScope (s : Session) (parent : Option Nat) (relations : List RelationInfo) : Nat × Session :=
  let (id, scopes) := s.scopes.push parent { relations }
  (id, { s with scopes })

def popScope (s : Session) (id : Nat) : Session := { s with scopes := s.scopes.pop id }

def addHostParameter (s : Session) (decl : VariableDecl) : Session :=
  let decl := { decl with oid := ⟨0, s.declared + 1⟩ }
  let hostParameters := s.environment.hostParameters.insert decl.name decl
  { s with environment := { s.environment with hostParameters }, declared := s.declared + 1 }

def addPlaceholder (s : Session) (name : String) (value : Value) (type : SqlType) : Session :=
  let placeholders := s.environment.placeholders.insert name (value, type)
  { s with environment := { s.environment with placeholders } }

def report (s : Session) (d : Diagnostic) : Session := { s with log := s.log ++ [d] }

def takeDiagnostics (s : Session) : List Diagnostic × Session := (s.log, { s with log := [] })

end Session

end SqlPlan
