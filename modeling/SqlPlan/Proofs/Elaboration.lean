import SqlPlan.Analysis.Expr
import SqlPlan.Proofs.Unification

namespace SqlPlan

/-- The columns that an expression can see. -/
def Scopes.visible (scopes : Scopes) : List ColumnInfo :=
  scopes.flatMap fun scope => scope.relations.flatMap (·.columns)

variable {Q : Type}

/-- Where an expression stands: it has a target, or it is among the operands of a form, which gives bare NULLs a type
by their place. -/
inductive Position where
  | target (t : Option Target)
  | operands (nulls : Nat → SqlType)

namespace Position

abbrev all (t : SqlType) : Position := .operands fun _ => t

abbrev arguments {D : Type} [Overloaded D] (candidates : List D) : Position :=
  .operands fun i => (Overload.commonParameter? candidates i).getD .unknown

def expected : Position → Bool → Option Target
  | target t, _ => t
  | operands nulls, true => some { type := nulls 0 }
  | operands _, false => none

def fallback (p : Position) : SqlType := ((p.expected false).map (·.type)).getD .unknown

def next : Position → Position
  | target t => target t
  | operands nulls => operands fun i => nulls (i + 1)

end Position

def givenTypes (es : List (Expr Q)) (xs : List Typed) : List SqlType :=
  ((es.zip xs).filter fun p => !p.1.isNull).map (·.2.type)

/-- The operands have the type in common. It is what the given types unify to, or the fallback if this leaves a bare
NULL without a type. -/
structure SharedType (fallback : SqlType) (es : List (Expr Q)) (xs : List Typed) (t : SqlType) : Prop where
  unified : SqlType.unifyAll (xs.map (·.type)) = some t
  given : ∃ u, SqlType.unifyAll (givenTypes es xs) = some u ∧
    t = if u = .unknown ∧ es.any (·.isNull) = true then fallback else u

/-- A bare NULL of two operands has the type of the other. -/
def pairedType (l r : Expr Q) (x y : Typed) : SqlType :=
  if l.isNull then if r.isNull then .unknown else y.type else x.type

def BinaryOp.isArithmetic : BinaryOp → Bool
  | .add | .subtract | .multiply | .divide | .remainder => true
  | _ => false

def Name.scalarOverloads (name : Name) (arity : Nat) : Analysis (List FunctionDecl) := do
  let (_, found) ← name.resolveFunctions arity
  return found.filter fun f => !f.tableValued

def temporaryAfter (n : Nat) : Variable := ⟨n + 1, .temporary⟩

def conditionalOf (clauses : Nat) (tests : List Scalar) (bodies : List Typed) : Scalar :=
  .conditional (tests.zip ((bodies.map (·.expr)).take clauses)) (bodies.map (·.expr))[clauses]?

inductive Elaborates (env : Environment) (scopes : Scopes) :
    Position → List (Expr Q) → Nat → List Typed → Nat → Prop where
  | nil {p} (n : Nat) : Elaborates env scopes p [] n [] n
  | cons {e es x xs n m k p} : Elaborates env scopes p [e] n [x] m → Elaborates env scopes p.next es m xs k →
      Elaborates env scopes p (e :: es) n (x :: xs) k
  | literal {l x p} (n) : Literal.typed env.options (p.expected (Expr.isNull (.literal l : Expr Q))) l = .ok x →
      Elaborates env scopes p [.literal l] n [x] n
  | negated {l l' x p} (n) : l.negated? = some l' → Literal.typed env.options none l' = .ok x →
      Elaborates env scopes p [.unary .minus (.literal l)] n [x] n
  | reference {name r n m p} : Name.resolveVariable name scopes env n = (.ok r, m) →
      Elaborates env scopes p [.reference name] n [⟨.var r.carrier, r.type, false⟩] m
  | hostParameter {name span x n m p} : Form.hostParameter name span env n = (.ok x, m) →
      Elaborates env scopes p [.hostParameter name span] n [x] m
  | sign {op e x n m p} : Form.isSign op = true → Elaborates env scopes (.all .unknown) [e] n [x] m →
      (∀ l, op = .minus → e = .literal l → l.negated? = none) →
      Elaborates env scopes p [.unary op e] n
        [⟨.unary (Form.unaryTest op).1 x.expr, x.type, x.aggregated⟩] m
  | test {op e x n m p} : Form.isSign op = false → Elaborates env scopes (.all .unknown) [e] n [x] m →
      Elaborates env scopes p [.unary op e] n
        [.truth (.unary (Form.unaryTest op).1 x.expr) (Form.unaryTest op).2 x.aggregated] m
  | isTest {op negated e right test x n m p} : (op = .is ∧ negated = false) ∨ (op = .isNot ∧ negated = true) →
      Form.truthTest? right = some test → Elaborates env scopes (.all .unknown) [e] n [x] m →
      Elaborates env scopes p [.binary op e right] n [.truth (.unary test x.expr) negated x.aggregated] m
  | logical {op op' l r x y n m p} :
      (op = .and ∧ op' = .conditionalAnd) ∨ (op = .or ∧ op' = .conditionalOr) →
      Elaborates env scopes (.all .boolean) [l, r] n [x, y] m →
      Elaborates env scopes p [.binary op l r] n
        [⟨.binary op' x.expr y.expr, .boolean, x.aggregated || y.aggregated⟩] m
  | concat {l r x y t n m p} : Elaborates env scopes (.all (pairedType l r x y)) [l, r] n [x, y] m →
      x.type.concat y.type = some t →
      Elaborates env scopes p [.binary .concat l r] n
        [⟨.binary .concat x.expr y.expr, t, x.aggregated || y.aggregated⟩] m
  | arithmetic {op l r x y t n m p} : op.isArithmetic = true →
      Elaborates env scopes (.all t) [l, r] n [x, y] m → SharedType .unknown [l, r] [x, y] t →
      Elaborates env scopes p [.binary op l r] n
        [⟨.binary op.arithmetic x.expr y.expr, t, [x, y].any (·.aggregated)⟩] m
  | comparison {op l r x y t n m p} : Elaborates env scopes (.all t) [l, r] n [x, y] m →
      SharedType .unknown [l, r] [x, y] t →
      Elaborates env scopes p [.comparison op l r] n
        [⟨.compare op x.expr y.expr, .boolean, [x, y].any (·.aggregated)⟩] m
  | between {e low high x l h t negated n m p} :
      Elaborates env scopes (.all t) [e, low, high] n [x, l, h] m →
      SharedType .unknown [e, low, high] [x, l, h] t →
      Elaborates env scopes p [.between e low high false negated] n
        [.truth (.letIn [(temporaryAfter m, x.expr)]
          (Form.inRange l.expr (.var (temporaryAfter m)) h.expr)) negated
          ([x, l, h].any (·.aggregated))] (m + 1)
  | betweenSymmetric {e low high x l h t negated n m p} :
      Elaborates env scopes (.all t) [e, low, high] n [x, l, h] m →
      SharedType .unknown [e, low, high] [x, l, h] t →
      Elaborates env scopes p [.between e low high true negated] n
        [.truth (.letIn [(temporaryAfter m, x.expr), (temporaryAfter (m + 1), l.expr),
            (temporaryAfter (m + 2), h.expr)]
          (.disjunction
            (Form.inRange (.var (temporaryAfter (m + 1))) (.var (temporaryAfter m))
              (.var (temporaryAfter (m + 2))))
            (Form.inRange (.var (temporaryAfter (m + 2))) (.var (temporaryAfter m))
              (.var (temporaryAfter (m + 1)))))) negated
          ([x, l, h].any (·.aggregated))] (m + 3)
  | inList {e values x y ys t negated n m p} :
      Elaborates env scopes (.all t) (e :: values) n (x :: y :: ys) m →
      SharedType .unknown (e :: values) (x :: y :: ys) t →
      Elaborates env scopes p [.inList e values negated] n
        [.truth (.letIn [(temporaryAfter m, x.expr)]
          (Form.anyOf (Form.equals (temporaryAfter m) y.expr)
            ((ys.map (·.expr)).map (Form.equals (temporaryAfter m))))) negated
          ((x :: y :: ys).any (·.aggregated))] (m + 1)
  | pattern {op e s x y negated n m p} :
      Elaborates env scopes (.all .flexibleVarchar) [e, s] n [x, y] m →
      Elaborates env scopes p [.pattern op e s none negated] n
        [.truth (.pattern op x.expr y.expr Form.noEscape.expr) negated
          (x.aggregated || y.aggregated || false)] m
  | patternEscape {op e s escape x y z negated n m p} :
      Elaborates env scopes (.all .flexibleVarchar) [e, s, escape] n [x, y, z] m →
      Elaborates env scopes p [.pattern op e s (some escape) negated] n
        [.truth (.pattern op x.expr y.expr z.expr) negated
          (x.aggregated || y.aggregated || z.aggregated)] m
  | searchedCase {clauses default ws bs t n k m p} : clauses ≠ [] →
      Elaborates env scopes (.all .unknown) (clauses.map (·.1)) n ws k →
      Elaborates env scopes (.all t) (clauses.map (·.2) ++ default.toList) k bs m →
      SharedType p.fallback (clauses.map (·.2) ++ default.toList) bs t →
      Elaborates env scopes p [.case none clauses default] n
        [⟨conditionalOf clauses.length (ws.map (·.expr)) bs, t,
          ws.any (·.aggregated) || bs.any (·.aggregated)⟩] m
  | simpleCase {e clauses default x ws bs u t n k m p} : clauses ≠ [] →
      Elaborates env scopes (.all u) (e :: clauses.map (·.1)) n (x :: ws) k →
      SharedType .unknown (e :: clauses.map (·.1)) (x :: ws) u →
      Elaborates env scopes (.all t) (clauses.map (·.2) ++ default.toList) (k + 1) bs m →
      SharedType p.fallback (clauses.map (·.2) ++ default.toList) bs t →
      Elaborates env scopes p [.case (some e) clauses default] n
        [⟨.letIn [(temporaryAfter k, x.expr)]
          (conditionalOf clauses.length ((ws.map (·.expr)).map (Form.equals (temporaryAfter k))) bs), t,
          (x :: ws).any (·.aggregated) || bs.any (·.aggregated)⟩] m
  | nullif {l r x y t n m p} : Elaborates env scopes (.all t) [l, r] n [x, y] m →
      SharedType .unknown [l, r] [x, y] t →
      Elaborates env scopes p [.nullif l r] n
        [⟨.letIn [(temporaryAfter m, x.expr)]
          (.conditional [(Form.equals (temporaryAfter m) y.expr, .immediate .null t)]
            (some (.var (temporaryAfter m)))), t, [x, y].any (·.aggregated)⟩] (m + 1)
  | cast {e target t x n m p} : DataType.type env.options target = .ok t →
      Elaborates env scopes (.all t) [e] n [x] m →
      Elaborates env scopes p [.cast e target] n [⟨.cast .ignore t x.expr, t, x.aggregated⟩] m
  | call {name arguments overloads function xs n m p} :
      Name.scalarOverloads name arguments.length env n = (.ok overloads, n) →
      Overload.cheapest (xs.map (·.type)) overloads = [function] →
      Elaborates env scopes (.arguments overloads) arguments n xs m →
      Elaborates env scopes p [.call name none (some arguments)] n
        [⟨.call function (xs.map (·.expr)), function.result, xs.any (·.aggregated)⟩] m
  | aggregate {name quantifier arguments key overloads function xs n m p} :
      (∀ es, quantifier = none → arguments = some es →
        Name.scalarOverloads name es.length env n = (.ok [], n)) →
      (name.resolveAggregates (if quantifier = some .distinct then distinctSuffix else "")
        (arguments.getD []).length arguments.isNone : Analysis _) env n = (.ok (key, overloads), n) →
      Overload.cheapest (xs.map (·.type)) overloads = [function] →
      Elaborates env scopes (.arguments overloads) (arguments.getD []) n xs m →
      Elaborates env scopes p [.call name quantifier arguments] n
        [⟨.aggregate function (xs.map (·.expr)), function.result, true⟩] m

end SqlPlan
