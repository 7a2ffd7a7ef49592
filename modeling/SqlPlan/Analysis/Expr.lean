import SqlPlan.Analysis.Literal
import SqlPlan.Analysis.Lookup
import SqlPlan.Analysis.Overload
import SqlPlan.Analysis.TypeName

namespace SqlPlan

/-- An operand still to be resolved; `none` is a bare NULL, which waits for a type. -/
abbrev Operand := Option (Analysis Typed)

namespace Operand

/-- Resolves the operand; the target is for a bare NULL only. -/
def resolve (nullTarget : Option Target) : Operand → Analysis Typed
  | none => Literal.null.resolve nullTarget
  | some m => m

def resolveAs (nullType : SqlType) (x : Operand) : Analysis Typed := x.resolve (some { type := nullType })

end Operand

/-- Resolved operands that share a type. -/
structure Shared where
  exprs : List Scalar
  type : SqlType
  aggregated : Bool
  deriving Inhabited

namespace Shared

/-- Resolves the operands that are not bare NULLs, unifying their types from left to right. -/
def typedOperands (location : Option Span) :
    List Operand → SqlType → Analysis (List (Option Scalar) × SqlType × Bool)
  | [], type => pure ([], type, false)
  | none :: rest, type => do
    let (exprs, type, aggregated) ← typedOperands location rest type
    return (none :: exprs, type, aggregated)
  | some m :: rest, type => do
    let x ← m
    match type.unify x.type with
    | none =>
      Step.fail .inconsistentType location
        ("incompatible operand types " ++ type.text ++ " and " ++ x.type.text)
    | some unified =>
      let (exprs, type, aggregated) ← typedOperands location rest unified
      return (some x.expr :: exprs, type, x.aggregated || aggregated)

/-- Resolves operands that must share a type. Bare NULLs take that type; if there are only bare NULLs
they take the type of the fallback. -/
def resolve (location : Option Span) (fallback : Option Target) (operands : List Operand) :
    Analysis Shared := do
  let (exprs, type, aggregated) ← typedOperands location operands .unknown
  if operands.any Option.isNone then
    let nullTarget : Option Target :=
      if type = .unknown then fallback.map fun t => { type := t.type } else some { type := type }
    let x ← Literal.null.resolve nullTarget
    return ⟨exprs.map fun e => e.getD x.expr, if type = .unknown then x.type else type, aggregated⟩
  else return ⟨exprs.filterMap id, type, aggregated⟩

end Shared

def Typed.truth (expr : Scalar) (negated aggregated : Bool) : Typed :=
  ⟨expr.negatedIf negated, .boolean, aggregated⟩

namespace Form

/-- A host parameter that was declared, or a placeholder that stands for a constant. -/
def hostParameter (name : String) (span : Span) : Analysis Typed := do
  let env ← Step.environment
  let key := String.ofList ((Text.stripStart? ':' name.toList).getD name.toList)
  match env.hostParameter? key with
  | some decl =>
    let v ← Analysis.mint (.host decl)
    return ⟨.var v, decl.type, false⟩
  | none =>
    match env.placeholder? key with
    | some (value, type) => return .constant value type
    | none =>
      Step.fail .variableNotFound (some span) ("host parameter ':" ++ key ++ "' is not declared")

/-- The test behind a truth or null test, and whether it is negated. -/
def unaryTest : UnaryOp → UnaryOperator × Bool
  | .plus => (.plus, false)
  | .minus => (.signInversion, false)
  | .not => (.conditionalNot, false)
  | .isNull => (.isNull, false)
  | .isNotNull => (.isNull, true)
  | .isTrue => (.isTrue, false)
  | .isNotTrue => (.isTrue, true)
  | .isFalse => (.isFalse, false)
  | .isNotFalse => (.isFalse, true)
  | .isUnknown => (.isUnknown, false)
  | .isNotUnknown => (.isUnknown, true)

def isSign : UnaryOp → Bool
  | .plus => true
  | .minus => true
  | _ => false

def isNullTest : UnaryOp → Bool
  | .isNull => true
  | .isNotNull => true
  | _ => false

def unary (op : UnaryOp) (location : Option Span) (operand : Operand) : Analysis Typed := do
  let x ← operand.resolve none
  let (test, negated) := unaryTest op
  if isSign op then
    if !x.type.isNumeric && x.type ≠ .unknown then
      Step.fail .inconsistentType location
        ("unary sign requires a numeric operand, got " ++ x.type.text)
    else return ⟨.unary test x.expr, x.type, x.aggregated⟩
  else if !isNullTest op && !x.type.isBooleanLike then
    Step.fail .inconsistentType location ("boolean operator applied to " ++ x.type.text)
  else return .truth (.unary test x.expr) negated x.aggregated

/-- The test that the right side of IS asks for. -/
def truthTest? {Q : Type} : Expr Q → Option UnaryOperator
  | .literal (.boolean .isTrue) => some .isTrue
  | .literal (.boolean .isFalse) => some .isFalse
  | .literal (.boolean .isUnknown) => some .isUnknown
  | .literal .null => some .isNull
  | _ => none

def isTest (test : Option UnaryOperator) (negated : Bool) (location : Option Span) (operand : Operand) :
    Analysis Typed := do
  match test with
  | none =>
    Step.fail .malformedSyntax location "IS requires TRUE, FALSE, UNKNOWN or NULL on its right"
  | some test =>
    let x ← operand.resolve none
    if test ≠ .isNull ∧ !x.type.isBooleanLike then
      Step.fail .inconsistentType location ("truth value test applied to " ++ x.type.text)
    else return .truth (.unary test x.expr) negated x.aggregated

def logical (op : BinaryOperator) (location : Option Span) (left right : Operand) : Analysis Typed := do
  let l ← left.resolveAs .boolean
  let r ← right.resolveAs .boolean
  if !l.type.isBooleanLike || !r.type.isBooleanLike then
    Step.fail .inconsistentType location
      ("logical operator applied to " ++ l.type.text ++ " and " ++ r.type.text)
  else return ⟨.binary op l.expr r.expr, .boolean, l.aggregated || r.aggregated⟩

/-- Resolves two operands of which a bare NULL takes the type of the other. -/
def typedPair (left right : Operand) : Analysis (Typed × Typed) := do
  match left, right with
  | none, some r =>
    let r ← r
    let l ← Operand.resolveAs r.type none
    return (l, r)
  | some l, none =>
    let l ← l
    let r ← Operand.resolveAs l.type none
    return (l, r)
  | left, right =>
    let l ← left.resolve none
    let r ← right.resolve none
    return (l, r)

def concat (location : Option Span) (left right : Operand) : Analysis Typed := do
  let (l, r) ← typedPair left right
  match l.type.concat r.type with
  | some type => return ⟨.binary .concat l.expr r.expr, type, l.aggregated || r.aggregated⟩
  | none =>
    Step.fail .inconsistentType location
      ("cannot concatenate " ++ l.type.text ++ " and " ++ r.type.text)

def sharedPair (location : Option Span) (left right : Operand) :
    Analysis (Scalar × Scalar × SqlType × Bool) := do
  let shared ← Shared.resolve location none [left, right]
  match shared.exprs with
  | [l, r] => return (l, r, shared.type, shared.aggregated)
  | _ => Step.fail .malformedSyntax location "expected 2 operands"

def arithmetic (op : BinaryOperator) (location : Option Span) (left right : Operand) :
    Analysis Typed := do
  let (l, r, type, aggregated) ← sharedPair location left right
  if !type.isNumeric && type ≠ .unknown then
    Step.fail .inconsistentType location ("arithmetic requires numeric operands, got " ++ type.text)
  else return ⟨.binary op l r, type, aggregated⟩

def comparison (op : ComparisonOp) (location : Option Span) (left right : Operand) :
    Analysis Typed := do
  let (l, r, _, aggregated) ← sharedPair location left right
  return ⟨.compare op l r, .boolean, aggregated⟩

/-- `low <= x AND x <= high` -/
def inRange (low x high : Scalar) : Scalar :=
  .conjunction (.compare .lessEqual low x) (.compare .lessEqual x high)

def between (symmetric negated : Bool) (operand low high : Operand) : Analysis Typed := do
  let shared ← Shared.resolve none none [operand, low, high]
  match shared.exprs with
  | [operand, low, high] =>
    let x ← Analysis.temporary
    if symmetric then
      let l ← Analysis.temporary
      let h ← Analysis.temporary
      let body := .disjunction (inRange (.var l) (.var x) (.var h)) (inRange (.var h) (.var x) (.var l))
      return .truth (.letIn [(x, operand), (l, low), (h, high)] body) negated shared.aggregated
    else
      return .truth (.letIn [(x, operand)] (inRange low (.var x) high)) negated shared.aggregated
  | _ => Step.fail .malformedSyntax none "expected 3 operands"

/-- The disjunction of a non-empty list, nested to the left. -/
def anyOf (first : Scalar) (rest : List Scalar) : Scalar := rest.foldl Scalar.disjunction first

def equals (x : Variable) (value : Scalar) : Scalar := .compare .equal (.var x) value

def inList (negated : Bool) (operand : Operand) (values : List Operand) : Analysis Typed := do
  if values.isEmpty then Step.fail .malformedSyntax none "IN list must not be empty"
  else
    let shared ← Shared.resolve none none (operand :: values)
    match shared.exprs with
    | operand :: first :: rest =>
      let x ← Analysis.temporary
      let body := anyOf (equals x first) (rest.map (equals x))
      return .truth (.letIn [(x, operand)] body) negated shared.aggregated
    | _ => Step.fail .malformedSyntax none "IN"

def string (operand : Operand) : Analysis Typed := do
  let x ← operand.resolveAs .flexibleVarchar
  if !x.type.isCharacter && x.type ≠ .unknown then
    Step.fail .inconsistentType none
      ("pattern matching requires character operands, got " ++ x.type.text)
  else return x

def noEscape : Typed := .constant (.character "") .flexibleVarchar

def pattern (op : PatternOp) (negated : Bool) (operand pattern : Operand) (escape : Option Operand) :
    Analysis Typed := do
  let x ← string operand
  let p ← string pattern
  let e ← match escape with
    | some escape => string escape
    | none => pure noEscape
  return .truth (.pattern op x.expr p.expr e.expr) negated (x.aggregated || p.aggregated || e.aggregated)

def conditions : List (Option Span × Operand) → Analysis (List Scalar × Bool)
  | [] => pure ([], false)
  | (location, operand) :: rest => do
    let x ← operand.resolve none
    if !x.type.isBooleanLike then
      Step.fail .inconsistentType location ("WHEN condition must be boolean, got " ++ x.type.text)
    else
      let (exprs, aggregated) ← conditions rest
      return (x.expr :: exprs, x.aggregated || aggregated)

/-- The conditions of a CASE with operand, and the declarator that binds it. -/
def caseTests (operand : Operand) (whens : List Operand) :
    Analysis (List Scalar × List (Variable × Scalar) × Bool) := do
  let shared ← Shared.resolve none none (operand :: whens)
  let x ← Analysis.temporary
  match shared.exprs with
  | operand :: whens => return (whens.map (equals x), [(x, operand)], shared.aggregated)
  | [] => return ([], [], shared.aggregated)

def letAround (declarators : List (Variable × Scalar)) (body : Scalar) : Scalar :=
  if declarators.isEmpty then body else .letIn declarators body

/-- A CASE over clauses that give the location of the condition, the condition and the result. -/
def case (target : Option Target) (operand : Option Operand)
    (clauses : List (Option Span × Operand × Operand)) (default : Option Operand) :
    Analysis Typed := do
  if clauses.isEmpty then Step.fail .malformedSyntax none "CASE requires at least one WHEN clause"
  else
    let (tests, declarators, tested) ← match operand with
      | some operand => caseTests operand (clauses.map fun (_, w, _) => w)
      | none => do
        let (tests, tested) ← conditions (clauses.map fun (location, w, _) => (location, w))
        pure (tests, [], tested)
    let shared ← Shared.resolve none target (clauses.map (fun (_, _, t) => t) ++ default.toList)
    let bodies := shared.exprs.take clauses.length
    let conditional := .conditional (tests.zip bodies) shared.exprs[clauses.length]?
    return ⟨letAround declarators conditional, shared.type, tested || shared.aggregated⟩

def nullif (left right : Operand) : Analysis Typed := do
  let (l, r, type, aggregated) ← sharedPair none left right
  let x ← Analysis.temporary
  let body := .conditional [(equals x r, .immediate .null type)] (some (.var x))
  return ⟨.letIn [(x, l)] body, type, aggregated⟩

def cast (target : DataType) (operand : Operand) : Analysis Typed := do
  let type ← target.resolve
  let x ← operand.resolveAs type
  return ⟨.cast .ignore type x.expr, type, x.aggregated⟩

/-- Resolves arguments in turn; a bare NULL takes the type that `parameter?` gives for its position. -/
def arguments (parameter? : Nat → Option SqlType) : Nat → List Operand → Analysis (List Typed)
  | _, [] => pure []
  | position, operand :: rest => do
    let x ← operand.resolve ((parameter? position).map fun t => { type := t })
    let xs ← arguments parameter? (position + 1) rest
    return x :: xs

def overload {D : Type} [Overloaded D] (key : String) (candidates : List D) (location : Option Span)
    (operands : List Operand) : Analysis (D × List Typed) := do
  let xs ← arguments (Overload.commonParameter? candidates) 0 operands
  let d ← Overload.select key candidates (xs.map (·.type)) location
  return (d, xs)

def aggregateCall (name : Name) (distinct asterisk : Bool) (operands : List Operand) :
    Analysis Typed := do
  let suffix := if distinct then distinctSuffix else ""
  let (key, candidates) ← name.resolveAggregates suffix operands.length asterisk
  if candidates.isEmpty then
    Step.fail .functionNotFound (some name.span)
      ("function '" ++ name.render ++ "' with " ++ Text.ofNat operands.length ++
        " argument(s) is not found")
  else
    let (decl, xs) ← overload key candidates (some name.span) operands
    return ⟨.aggregate decl (xs.map (·.expr)), decl.result, true⟩

/-- A call. Scalar functions come first; a quantifier or an asterisk asks for an aggregate function. -/
def call (name : Name) (quantifier : Option SetQuantifier) (operands : Option (List Operand)) :
    Analysis Typed := do
  let aggregate := aggregateCall name (decide (quantifier = some .distinct)) operands.isNone
    (operands.getD [])
  match quantifier, operands with
  | none, some operands =>
    let (key, candidates) ← name.resolveFunctions operands.length
    let scalar := candidates.filter fun f => !f.tableValued
    if scalar.isEmpty then aggregate
    else
      let (decl, xs) ← overload key scalar (some name.span) operands
      return ⟨.call decl (xs.map (·.expr)), decl.result, xs.any (·.aggregated)⟩
  | _, _ => aggregate

end Form

def Operand.ofExpr (isNull : Bool) (m : Analysis Typed) : Operand := if isNull then none else some m

def BinaryOp.arithmetic : BinaryOp → BinaryOperator
  | .subtract => .subtract
  | .multiply => .multiply
  | .divide => .divide
  | .remainder => .remainder
  | _ => .add

namespace Expr

variable {Q : Type}

mutual

/-- Resolves an expression in the given scopes. The target types a bare NULL or DEFAULT, and casts a
bare literal. -/
def resolve (scopes : Scopes) : Expr Q → Option Target → Analysis Typed
  | literal l, target => l.resolve target
  | reference name, _ => do
    let resolved ← name.resolveVariable scopes
    return ⟨.var resolved.carrier, resolved.type, false⟩
  | hostParameter name span, _ => Form.hostParameter name span
  | unary .minus (literal l), _ =>
    match l.negated? with
    | some negated => negated.resolve none
    | none => Form.unary .minus none (.ofExpr (isNull (literal l : Expr Q)) (l.resolve none))
  | unary op x, _ => Form.unary op x.span? (.ofExpr x.isNull (x.resolve scopes none))
  | binary .is x test, _ =>
    Form.isTest (Form.truthTest? test) false x.span? (.ofExpr x.isNull (x.resolve scopes none))
  | binary .isNot x test, _ =>
    Form.isTest (Form.truthTest? test) true x.span? (.ofExpr x.isNull (x.resolve scopes none))
  | binary .and l r, _ =>
    Form.logical .conditionalAnd l.span? (.ofExpr l.isNull (l.resolve scopes none))
      (.ofExpr r.isNull (r.resolve scopes none))
  | binary .or l r, _ =>
    Form.logical .conditionalOr l.span? (.ofExpr l.isNull (l.resolve scopes none))
      (.ofExpr r.isNull (r.resolve scopes none))
  | binary .concat l r, _ =>
    Form.concat l.span? (.ofExpr l.isNull (l.resolve scopes none))
      (.ofExpr r.isNull (r.resolve scopes none))
  | binary op l r, _ =>
    Form.arithmetic op.arithmetic l.span? (.ofExpr l.isNull (l.resolve scopes none))
      (.ofExpr r.isNull (r.resolve scopes none))
  | comparison op l r, _ =>
    Form.comparison op l.span? (.ofExpr l.isNull (l.resolve scopes none))
      (.ofExpr r.isNull (r.resolve scopes none))
  | between x low high symmetric negated, _ =>
    Form.between symmetric negated (.ofExpr x.isNull (x.resolve scopes none))
      (.ofExpr low.isNull (low.resolve scopes none)) (.ofExpr high.isNull (high.resolve scopes none))
  | inList x values negated, _ =>
    Form.inList negated (.ofExpr x.isNull (x.resolve scopes none)) (operands scopes values)
  | inQuery _ _ _, _ => Step.fail .unsupportedFeature none "IN with a subquery is not supported"
  | pattern op x p escape negated, _ =>
    Form.pattern op negated (.ofExpr x.isNull (x.resolve scopes none))
      (.ofExpr p.isNull (p.resolve scopes none)) (operand? scopes escape)
  | case x clauses default, target =>
    Form.case target (operand? scopes x) (clauseOperands scopes clauses) (operand? scopes default)
  | nullif l r, _ =>
    Form.nullif (.ofExpr l.isNull (l.resolve scopes none)) (.ofExpr r.isNull (r.resolve scopes none))
  | cast x target, _ => Form.cast target (.ofExpr x.isNull (x.resolve scopes none))
  | call name quantifier none, _ => Form.call name quantifier none
  | call name quantifier (some arguments), _ =>
    Form.call name quantifier (some (operands scopes arguments))
  | subquery _, _ => Step.fail .unsupportedFeature none "scalar subqueries are not supported"

def operands (scopes : Scopes) : List (Expr Q) → List Operand
  | [] => []
  | x :: rest => .ofExpr x.isNull (x.resolve scopes none) :: operands scopes rest

def operand? (scopes : Scopes) : Option (Expr Q) → Option Operand
  | none => none
  | some x => some (.ofExpr x.isNull (x.resolve scopes none))

def clauseOperands (scopes : Scopes) :
    List (Expr Q × Expr Q) → List (Option Span × Operand × Operand)
  | [] => []
  | (w, t) :: rest =>
    (w.span?, .ofExpr w.isNull (w.resolve scopes none), .ofExpr t.isNull (t.resolve scopes none)) ::
      clauseOperands scopes rest

end

end Expr

end SqlPlan
