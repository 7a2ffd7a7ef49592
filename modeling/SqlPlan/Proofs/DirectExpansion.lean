import SqlPlan.Proofs.LetInlining

namespace SqlPlan

variable {Q : Type}

/-- An expression written out, with its type. -/
structure Expanded where
  expr : Scalar
  type : SqlType
  deriving Repr

/-- An operand: written out, or a bare NULL, which takes its type from the operands beside it. -/
inductive Slot where
  | null
  | of (x : Expanded)
  deriving Repr

namespace Slot

def ofExpr (isNull : Bool) (x : Option Expanded) : Option Slot := if isNull then some null else x.map of

def isNull : Slot → Bool
  | null => true
  | of _ => false

def type? : Slot → Option SqlType
  | null => none
  | of x => some x.type

def withType (t : SqlType) : Slot → Expanded
  | null => ⟨.immediate .null t, t⟩
  | of x => x

def written (t : SqlType) (x : Slot) : Scalar := (x.withType t).expr

/-- The type that the operands share: what those that are not bare NULLs unify to, or the given type if that
leaves a bare NULL without one. -/
def sharedType (otherwise : SqlType) (xs : List Slot) : Option SqlType := do
  let t ← SqlType.unifyAll (xs.filterMap type?)
  return if t = .unknown ∧ xs.any isNull then otherwise else t

end Slot

namespace Expanded

open Slot (sharedType)

def truth (s : Scalar) (negated : Bool) : Expanded := ⟨s.negatedIf negated, .boolean⟩

def literal (o : Options) (l : Literal) (target : Option Target) : Option Expanded :=
  (l.typed o target).toOption.map fun x => ⟨x.expr, x.type⟩

def reference (env : Environment) (scopes : Scopes) (name : Name) : Option Expanded :=
  (name.resolveVariable scopes env 0).1.toOption.map fun r => ⟨.var r.carrier.unnumbered, r.type⟩

def hostParameter (env : Environment) (name : String) : Option Expanded :=
  let key := String.ofList ((Text.stripStart? ':' name.toList).getD name.toList)
  match env.hostParameter? key with
  | some decl => some ⟨.var ⟨0, .host decl⟩, decl.type⟩
  | none => (env.placeholder? key).map fun (value, type) => ⟨.immediate value type, type⟩

def unary (op : UnaryOp) (x : Slot) : Expanded :=
  let x := x.withType .unknown
  let (test, negated) := Form.unaryTest op
  if Form.isSign op then ⟨.unary test x.expr, x.type⟩ else truth (.unary test x.expr) negated

def isTest (test : UnaryOperator) (negated : Bool) (x : Slot) : Expanded :=
  truth (.unary test (x.written .unknown)) negated

def logical (op : BinaryOperator) (l r : Slot) : Expanded :=
  ⟨.binary op (l.written .boolean) (r.written .boolean), .boolean⟩

/-- A bare NULL has the type of the other operand. -/
def concat (l r : Slot) : Option Expanded := do
  let x := l.withType (r.type?.getD .unknown)
  let y := r.withType (l.type?.getD .unknown)
  let t ← x.type.concat y.type
  return ⟨.binary .concat x.expr y.expr, t⟩

def arithmetic (op : BinaryOperator) (l r : Slot) : Option Expanded := do
  let t ← sharedType .unknown [l, r]
  return ⟨.binary op (l.written t) (r.written t), t⟩

def comparison (op : ComparisonOp) (l r : Slot) : Option Expanded := do
  let t ← sharedType .unknown [l, r]
  return ⟨.compare op (l.written t) (r.written t), .boolean⟩

/-- An operator other than IS. -/
def binary (op : BinaryOp) (l r : Slot) : Option Expanded :=
  match op with
  | .and => some (logical .conditionalAnd l r)
  | .or => some (logical .conditionalOr l r)
  | .concat => concat l r
  | op => arithmetic op.arithmetic l r

/-- `(low <= x) AND (x <= high)`, and the same with the bounds swapped after it if it is symmetric. -/
def between (symmetric negated : Bool) (x low high : Slot) : Option Expanded := do
  let t ← sharedType .unknown [x, low, high]
  let x := x.written t
  let within (low high : Scalar) := Scalar.conjunction (.compare .lessEqual low x) (.compare .lessEqual x high)
  let low := low.written t
  let high := high.written t
  return truth (if symmetric then .disjunction (within low high) (within high low) else within low high) negated

/-- `x = v1 OR x = v2 OR ...`, nested to the left. -/
def inList (negated : Bool) (x : Slot) : List Slot → Option Expanded
  | [] => none
  | value :: values => do
    let t ← sharedType .unknown (x :: value :: values)
    let equal (v : Slot) := Scalar.compare .equal (x.written t) (v.written t)
    return truth (values.foldl (fun s v => .disjunction s (equal v)) (equal value)) negated

def pattern (op : PatternOp) (negated : Bool) (x p : Slot) (escape : Option Slot) : Expanded :=
  let string (s : Slot) := s.written .flexibleVarchar
  let noEscape := Scalar.immediate (.character "") .flexibleVarchar
  truth (.pattern op (string x) (string p) ((escape.map string).getD noEscape)) negated

def conditions (operand : Option Slot) (whens : List Slot) : Option (List Scalar) :=
  match operand with
  | none => some (whens.map (·.written .unknown))
  | some x => do
    let t ← sharedType .unknown (x :: whens)
    return whens.map fun w => .compare .equal (x.written t) (w.written t)

def case (target : Option Target) (operand : Option Slot) (whens thens : List Slot) (default : Option Slot) :
    Option Expanded := do
  let tests ← conditions operand whens
  let t ← sharedType ((target.map (·.type)).getD .unknown) (thens ++ default.toList)
  return ⟨.conditional (tests.zip (thens.map (·.written t))) (default.map (·.written t)), t⟩

/-- `CASE WHEN a = b THEN NULL ELSE a END` -/
def nullif (a b : Slot) : Option Expanded := do
  let t ← sharedType .unknown [a, b]
  return ⟨.conditional [(.compare .equal (a.written t) (b.written t), .immediate .null t)] (some (a.written t)), t⟩

def cast (o : Options) (target : DataType) (x : Slot) : Option Expanded := do
  let t ← (target.type o).toOption
  return ⟨.cast .ignore t (x.written t), t⟩

/-- The overload that a call chooses, and the arguments. A bare NULL has the type on which all candidates agree
for its position. -/
def overload {D : Type} [Overloaded D] (candidates : List D) (xs : List Slot) : Option (D × List Expanded) :=
  let xs := xs.mapIdx fun i x => x.withType ((Overload.commonParameter? candidates i).getD .unknown)
  match Overload.cheapest (xs.map (·.type)) candidates with
  | [d] => some (d, xs)
  | _ => none

def aggregateCall (env : Environment) (name : Name) (distinct asterisk : Bool) (xs : List Slot) :
    Option Expanded := do
  let suffix := if distinct then distinctSuffix else ""
  let (_, candidates) ← ((name.resolveAggregates suffix xs.length asterisk : Analysis _) env 0).1.toOption
  let (d, xs) ← overload candidates xs
  return ⟨.aggregate d (xs.map (·.expr)), d.result⟩

def call (env : Environment) (name : Name) (quantifier : Option SetQuantifier) (xs : Option (List Slot)) :
    Option Expanded :=
  let aggregate := aggregateCall env name (decide (quantifier = some .distinct)) xs.isNone (xs.getD [])
  match quantifier, xs with
  | none, some xs => do
    let candidates ← (name.scalarOverloads xs.length env 0).1.toOption
    if candidates.isEmpty then aggregate
    else
      let (d, xs) ← overload candidates xs
      return ⟨.call d (xs.map (·.expr)), d.result⟩
  | _, _ => aggregate

end Expanded

namespace Expr

def signedLiteral? : UnaryOp → Expr Q → Option Literal
  | .minus, literal l => l.negated?
  | _, _ => none

def isNegated? : BinaryOp → Option Bool
  | .is => some false
  | .isNot => some true
  | _ => none

mutual

/-- Writes an expression out. The target is for a literal, and for a CASE whose results are all bare NULLs. -/
def expand (env : Environment) (scopes : Scopes) : Expr Q → Option Target → Option Expanded
  | literal l, target => Expanded.literal env.options l target
  | reference name, _ => Expanded.reference env scopes name
  | hostParameter name _, _ => Expanded.hostParameter env name
  | unary op e, _ =>
    match signedLiteral? op e with
    | some l => Expanded.literal env.options l none
    | none => do return .unary op (← Slot.ofExpr e.isNull (e.expand env scopes none))
  | binary op l r, _ => do
    let x ← Slot.ofExpr l.isNull (l.expand env scopes none)
    match isNegated? op with
    | some negated => return .isTest (← Form.truthTest? r) negated x
    | none => Expanded.binary op x (← Slot.ofExpr r.isNull (r.expand env scopes none))
  | comparison op l r, _ => do
    Expanded.comparison op (← Slot.ofExpr l.isNull (l.expand env scopes none))
      (← Slot.ofExpr r.isNull (r.expand env scopes none))
  | between e low high symmetric negated, _ => do
    Expanded.between symmetric negated (← Slot.ofExpr e.isNull (e.expand env scopes none))
      (← Slot.ofExpr low.isNull (low.expand env scopes none))
      (← Slot.ofExpr high.isNull (high.expand env scopes none))
  | inList e values negated, _ => do
    Expanded.inList negated (← Slot.ofExpr e.isNull (e.expand env scopes none)) (← expandList env scopes values)
  | inQuery _ _ _, _ => none
  | pattern op e p escape negated, _ => do
    return .pattern op negated (← Slot.ofExpr e.isNull (e.expand env scopes none))
      (← Slot.ofExpr p.isNull (p.expand env scopes none)) (← expandOption env scopes escape)
  | case operand clauses default, target => do
    let (whens, thens) ← expandClauses env scopes clauses
    Expanded.case target (← expandOption env scopes operand) whens thens (← expandOption env scopes default)
  | nullif l r, _ => do
    Expanded.nullif (← Slot.ofExpr l.isNull (l.expand env scopes none))
      (← Slot.ofExpr r.isNull (r.expand env scopes none))
  | cast e target, _ => do
    Expanded.cast env.options target (← Slot.ofExpr e.isNull (e.expand env scopes none))
  | call name quantifier none, _ => Expanded.call env name quantifier none
  | call name quantifier (some arguments), _ => do
    Expanded.call env name quantifier (some (← expandList env scopes arguments))
  | subquery _, _ => none

def expandList (env : Environment) (scopes : Scopes) : List (Expr Q) → Option (List Slot)
  | [] => some []
  | e :: rest => do
    let x ← Slot.ofExpr e.isNull (e.expand env scopes none)
    return x :: (← expandList env scopes rest)

def expandOption (env : Environment) (scopes : Scopes) : Option (Expr Q) → Option (Option Slot)
  | none => some none
  | some e => do return some (← Slot.ofExpr e.isNull (e.expand env scopes none))

def expandClauses (env : Environment) (scopes : Scopes) : List (Expr Q × Expr Q) → Option (List Slot × List Slot)
  | [] => some ([], [])
  | (w, t) :: rest => do
    let x ← Slot.ofExpr w.isNull (w.expand env scopes none)
    let y ← Slot.ofExpr t.isNull (t.expand env scopes none)
    let (whens, thens) ← expandClauses env scopes rest
    return (x :: whens, y :: thens)

end

-- The bare NULL has the type of the operand beside it.
example (env : Environment) (scopes : Scopes) :
    (nullif (literal (.boolean .isTrue)) (literal .null) : Expr Unit).expand env scopes none =
      some ⟨.conditional
        [(.compare .equal (.immediate (.boolean true) .boolean) (.immediate .null .boolean),
          .immediate .null .boolean)] (some (.immediate (.boolean true) .boolean)), .boolean⟩ := by
  cbv

end Expr

end SqlPlan
