import SqlPlan.Syntax.DataType
import SqlPlan.Syntax.Literal

namespace SqlPlan

inductive UnaryOp where
  | plus
  | minus
  | not
  | isNull
  | isNotNull
  | isTrue
  | isNotTrue
  | isFalse
  | isNotFalse
  | isUnknown
  | isNotUnknown
  deriving DecidableEq, Repr, Inhabited

inductive BinaryOp where
  | add
  | subtract
  | multiply
  | divide
  | remainder
  | concat
  | and
  | or
  | is
  | isNot
  deriving DecidableEq, Repr, Inhabited

inductive ComparisonOp where
  | equal
  | notEqual
  | less
  | lessEqual
  | greater
  | greaterEqual
  deriving DecidableEq, Repr, Inhabited

inductive PatternOp where
  | like
  | similar
  deriving DecidableEq, Repr, Inhabited

inductive SetQuantifier where
  | all
  | distinct
  deriving DecidableEq, Repr, Inhabited

/-- A scalar expression. `case` with an operand compares it with each condition; without one the
conditions are predicates. The arguments of a call are `none` for an asterisk. -/
inductive Expr (Q : Type) where
  | literal (value : Literal)
  | reference (name : Name)
  | hostParameter (name : String) (span : Span)
  | unary (op : UnaryOp) (operand : Expr Q)
  | binary (op : BinaryOp) (left right : Expr Q)
  | comparison (op : ComparisonOp) (left right : Expr Q)
  | between (operand low high : Expr Q) (symmetric negated : Bool)
  | inList (operand : Expr Q) (values : List (Expr Q)) (negated : Bool)
  | inQuery (operand : Expr Q) (query : Q) (negated : Bool)
  | pattern (op : PatternOp) (operand pattern : Expr Q) (escape : Option (Expr Q)) (negated : Bool)
  | case (operand : Option (Expr Q)) (clauses : List (Expr Q × Expr Q)) (default : Option (Expr Q))
  | nullif (left right : Expr Q)
  | cast (operand : Expr Q) (target : DataType)
  | call (name : Name) (quantifier : Option SetQuantifier) (arguments : Option (List (Expr Q)))
  | subquery (query : Q)
  deriving Repr

namespace Expr

variable {Q : Type}

instance : Inhabited (Expr Q) := ⟨.literal .null⟩

def isNull : Expr Q → Bool
  | literal .null => true
  | _ => false

/-- The source region of the leftmost name, where the expression leads to one through operators. -/
def span? : Expr Q → Option Span
  | reference name => some name.span
  | hostParameter _ span => some span
  | call name _ _ => some name.span
  | unary _ operand => operand.span?
  | binary _ left _ => left.span?
  | comparison _ left _ => left.span?
  | _ => none

def column (path : String) : Expr Q := reference (.ofPath path)

def exact (text : String) : Expr Q := literal (.ofExact text)

def function (path : String) (arguments : List (Expr Q)) : Expr Q :=
  call (.ofPath path) none (some arguments)

def argumentCount (arguments : Option (List (Expr Q))) : Nat := (arguments.getD []).length

end Expr

end SqlPlan
