import SqlPlan.Plan.Variable
import SqlPlan.Syntax.Expr

namespace SqlPlan

inductive UnaryOperator where
  | plus
  | signInversion
  | conditionalNot
  | isNull
  | isTrue
  | isFalse
  | isUnknown
  deriving DecidableEq, Repr, Inhabited

inductive BinaryOperator where
  | add
  | subtract
  | multiply
  | divide
  | remainder
  | concat
  | conditionalAnd
  | conditionalOr
  deriving DecidableEq, Repr, Inhabited

inductive LossPolicy where
  | ignore
  | error
  deriving DecidableEq, Repr, Inhabited

/-- A resolved expression. The first alternative of a conditional whose condition holds decides; let
declarators are evaluated once, in order. Aggregate calls occur only until grouping has replaced them. -/
inductive Scalar where
  | immediate (value : Value) (type : SqlType)
  | var (v : Variable)
  | unary (op : UnaryOperator) (operand : Scalar)
  | binary (op : BinaryOperator) (left right : Scalar)
  | compare (op : ComparisonOp) (left right : Scalar)
  | pattern (op : PatternOp) (input pattern escape : Scalar)
  | conditional (alternatives : List (Scalar × Scalar)) (default : Option Scalar)
  | letIn (declarators : List (Variable × Scalar)) (body : Scalar)
  | cast (policy : LossPolicy) (target : SqlType) (operand : Scalar)
  | call (function : FunctionDecl) (arguments : List Scalar)
  | aggregate (function : AggregateDecl) (arguments : List Scalar)
  deriving Repr

namespace Scalar

instance : Inhabited Scalar := ⟨.immediate .null .unknown⟩

def negation (s : Scalar) : Scalar := unary .conditionalNot s

def conjunction (l r : Scalar) : Scalar := binary .conditionalAnd l r

def disjunction (l r : Scalar) : Scalar := binary .conditionalOr l r

def negatedIf (negated : Bool) (s : Scalar) : Scalar := if negated then s.negation else s

def asVariable? : Scalar → Option Variable
  | var v => some v
  | _ => none

def children : Scalar → List Scalar
  | immediate _ _ => []
  | var _ => []
  | unary _ s => [s]
  | binary _ l r => [l, r]
  | compare _ l r => [l, r]
  | pattern _ i p e => [i, p, e]
  | conditional alternatives default =>
    alternatives.flatMap (fun (condition, body) => [condition, body]) ++ default.toList
  | letIn declarators body => declarators.map (·.2) ++ [body]
  | cast _ _ s => [s]
  | call _ arguments => arguments
  | aggregate _ arguments => arguments

def refillPairs : List (Scalar × Scalar) → List Scalar → List (Scalar × Scalar) × List Scalar
  | _ :: rest, a :: b :: cs =>
    let (pairs, left) := refillPairs rest cs
    ((a, b) :: pairs, left)
  | pairs, cs => (pairs, cs)

/-- The same expression with other direct subexpressions, given in order of evaluation. -/
def withChildren (s : Scalar) (cs : List Scalar) : Scalar :=
  match s, cs with
  | unary op _, [c] => unary op c
  | binary op _ _, [l, r] => binary op l r
  | compare op _ _, [l, r] => compare op l r
  | pattern op _ _ _, [i, p, e] => pattern op i p e
  | conditional alternatives default, cs =>
    let (pairs, rest) := refillPairs alternatives cs
    conditional pairs (match default with
      | some d => some (rest.headD d)
      | none => none)
  | letIn declarators body, cs =>
    letIn ((declarators.map (·.1)).zip cs) ((cs.drop declarators.length).headD body)
  | cast policy target _, [c] => cast policy target c
  | call function _, cs => call function cs
  | aggregate function _, cs => aggregate function cs
  | s, _ => s

mutual

def hasAggregate : Scalar → Bool
  | immediate _ _ => false
  | var _ => false
  | unary _ s => s.hasAggregate
  | binary _ l r => l.hasAggregate || r.hasAggregate
  | compare _ l r => l.hasAggregate || r.hasAggregate
  | pattern _ i p e => i.hasAggregate || p.hasAggregate || e.hasAggregate
  | conditional alternatives default => pairsHaveAggregate alternatives || optionHasAggregate default
  | letIn declarators body => declaratorsHaveAggregate declarators || body.hasAggregate
  | cast _ _ s => s.hasAggregate
  | call _ arguments => listHasAggregate arguments
  | aggregate _ _ => true

def pairsHaveAggregate : List (Scalar × Scalar) → Bool
  | [] => false
  | (a, b) :: rest => a.hasAggregate || b.hasAggregate || pairsHaveAggregate rest

def optionHasAggregate : Option Scalar → Bool
  | none => false
  | some s => s.hasAggregate

def declaratorsHaveAggregate : List (Variable × Scalar) → Bool
  | [] => false
  | (_, s) :: rest => s.hasAggregate || declaratorsHaveAggregate rest

def listHasAggregate : List Scalar → Bool
  | [] => false
  | s :: rest => s.hasAggregate || listHasAggregate rest

end

mutual

/-- The variables of the expression, each node's own before those of its subexpressions. The own
variables of a let are the declared ones. -/
def mentioned : Scalar → List Variable
  | immediate _ _ => []
  | var v => [v]
  | unary _ s => s.mentioned
  | binary _ l r => l.mentioned ++ r.mentioned
  | compare _ l r => l.mentioned ++ r.mentioned
  | pattern _ i p e => i.mentioned ++ p.mentioned ++ e.mentioned
  | conditional alternatives default => pairVariables alternatives ++ optionVariables default
  | letIn declarators body =>
    declarators.map (·.1) ++ declaratorVariables declarators ++ body.mentioned
  | cast _ _ s => s.mentioned
  | call _ arguments => listVariables arguments
  | aggregate _ arguments => listVariables arguments

def pairVariables : List (Scalar × Scalar) → List Variable
  | [] => []
  | (a, b) :: rest => a.mentioned ++ b.mentioned ++ pairVariables rest

def optionVariables : Option Scalar → List Variable
  | none => []
  | some s => s.mentioned

def declaratorVariables : List (Variable × Scalar) → List Variable
  | [] => []
  | (_, s) :: rest => s.mentioned ++ declaratorVariables rest

def listVariables : List Scalar → List Variable
  | [] => []
  | s :: rest => s.mentioned ++ listVariables rest

end

mutual

def letCount : Scalar → Nat
  | immediate _ _ => 0
  | var _ => 0
  | unary _ s => s.letCount
  | binary _ l r => l.letCount + r.letCount
  | compare _ l r => l.letCount + r.letCount
  | pattern _ i p e => i.letCount + p.letCount + e.letCount
  | conditional alternatives default => pairLetCount alternatives + optionLetCount default
  | letIn declarators body => declaratorLetCount declarators + body.letCount
  | cast _ _ s => s.letCount
  | call _ arguments => listLetCount arguments
  | aggregate _ arguments => listLetCount arguments

def pairLetCount : List (Scalar × Scalar) → Nat
  | [] => 0
  | (a, b) :: rest => a.letCount + b.letCount + pairLetCount rest

def optionLetCount : Option Scalar → Nat
  | none => 0
  | some s => s.letCount

def declaratorLetCount : List (Variable × Scalar) → Nat
  | [] => 0
  | (_, s) :: rest => 1 + s.letCount + declaratorLetCount rest

def listLetCount : List Scalar → Nat
  | [] => 0
  | s :: rest => s.letCount + listLetCount rest

end

mutual

/-- Whether two expressions are the same: the same forms over the same variables, functions and types,
with the same values. -/
def same : Scalar → Scalar → Bool
  | immediate v t, immediate w u => v.same w && decide (t = u)
  | var v, var w => v.same w
  | unary o s, unary p t => decide (o = p) && s.same t
  | binary o l r, binary p l' r' => decide (o = p) && l.same l' && r.same r'
  | compare o l r, compare p l' r' => decide (o = p) && l.same l' && r.same r'
  | pattern o i p e, pattern o' i' p' e' => decide (o = o') && i.same i' && p.same p' && e.same e'
  | conditional a d, conditional a' d' => samePairs a a' && sameOption d d'
  | letIn ds b, letIn ds' b' => sameDeclarators ds ds' && b.same b'
  | cast p t s, cast p' t' s' => decide (p = p') && decide (t = t') && s.same s'
  | call f as, call g bs => f.sameObject g && sameList as bs
  | aggregate f as, aggregate g bs => f.sameObject g && sameList as bs
  | _, _ => false

def samePairs : List (Scalar × Scalar) → List (Scalar × Scalar) → Bool
  | [], [] => true
  | (a, b) :: rest, (a', b') :: rest' => a.same a' && b.same b' && samePairs rest rest'
  | _, _ => false

def sameOption : Option Scalar → Option Scalar → Bool
  | none, none => true
  | some s, some t => s.same t
  | _, _ => false

def sameDeclarators : List (Variable × Scalar) → List (Variable × Scalar) → Bool
  | [], [] => true
  | (v, s) :: rest, (w, t) :: rest' => v.same w && s.same t && sameDeclarators rest rest'
  | _, _ => false

def sameList : List Scalar → List Scalar → Bool
  | [], [] => true
  | s :: rest, t :: rest' => s.same t && sameList rest rest'
  | _, _ => false

end

end Scalar

end SqlPlan
