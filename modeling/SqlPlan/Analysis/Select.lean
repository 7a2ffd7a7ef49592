import SqlPlan.Analysis.Aggregation
import SqlPlan.Analysis.Correlation
import SqlPlan.Analysis.Expr
import SqlPlan.Plan.Fold

namespace SqlPlan

structure SelectColumn where
  name : Option String
  value : Scalar
  type : SqlType
  source : Option ColumnRef
  location : Option Span
  deriving Inhabited

inductive SortTarget where
  | output (position : Nat)
  | expr (value : Scalar)
  deriving Inhabited

structure SortRequest where
  target : SortTarget
  order : SortOrder
  location : Option Span
  deriving Inhabited

structure Block where
  relations : List RelationInfo
  outer : Scopes
  deriving Inhabited

namespace Block

variable {Q : Type}

def scope (b : Block) : Scope := { relations := b.relations }

def scopes (b : Block) : Scopes := b.scope :: b.outer

def locals (b : Block) : List Variable := b.relations.flatMap (·.carriers)

def columnOf? (b : Block) (v : Variable) : Option ColumnInfo :=
  b.relations.findSome? (·.columnOf? v)

def isOuter (b : Block) (v : Variable) : Bool :=
  !v.isIn b.locals && b.outer.any fun scope => scope.relations.any fun r => (r.columnOf? v).isSome

def predicate (b : Block) (clause : String) (e : Expr Q) : Analysis Typed := do
  let x ← e.resolve b.scopes none
  if !x.type.isBooleanLike then
    Step.fail .inconsistentType e.span?
      (clause ++ " condition must be boolean, found " ++ x.type.text)
  else return x

def whereCondition (b : Block) (e : Expr Q) : Analysis Scalar := do
  let x ← b.predicate "WHERE" e
  if x.aggregated then
    Step.fail .unsupportedFeature e.span? "aggregate functions are not allowed in WHERE"
  else return x.expr

def groupKey (b : Block) (e : Expr Q) : Analysis Variable := do
  match e with
  | .reference name =>
    let failure := Step.fail .unsupportedFeature (some name.span)
      ("'" ++ name.render ++ "' is not a column of the FROM clause")
    match ← name.resolveVariable b.scopes with
    | .column c => if c.carrier.isIn b.locals then return c.carrier else failure
    | .external _ _ => failure
  | e => Step.fail .unsupportedFeature e.span? "GROUP BY keys must be column references"

def passed (c : ColumnInfo) : SelectColumn := ⟨c.name, .var c.carrier, c.type, c.source, none⟩

def asterisk {σ : Type} (b : Block) : Step σ (List SelectColumn) :=
  if b.relations.isEmpty then Step.fail .malformedSyntax none "SELECT * requires a FROM clause"
  else pure ((b.relations.flatMap (·.exportedColumns)).map passed)

def qualifiedAsterisk {σ : Type} (b : Block) (name : Name) : Step σ (List SelectColumn) := do
  let key ← name.objectKey
  match b.scope.relationsCalled key with
  | [r] => return r.exportedColumns.map passed
  | [] => Step.fail .relationNotFound (some name.span) ("relation '" ++ key ++ "' is not found")
  | _ => Step.fail .relationAmbiguous (some name.span) ("relation '" ++ key ++ "' is ambiguous")

def itemName (o : Options) (label : Option Identifier) (e : Expr Q) : Option String :=
  match label, e with
  | some label, _ => some (o.key label)
  | none, .reference name => name.last?.map o.key
  | none, _ => none

/-- The columns of a select item, and whether it holds an aggregate call. -/
def selectItem (b : Block) (item : SelectItem (Expr Q)) : Analysis (List SelectColumn × Bool) := do
  match item with
  | .asterisk none =>
    let columns ← b.asterisk
    return (columns, false)
  | .asterisk (some name) =>
    let columns ← b.qualifiedAsterisk name
    return (columns, false)
  | .expr e label =>
    let o ← Step.options
    let x ← e.resolve b.scopes none
    let source := do (← b.columnOf? (← x.expr.asVariable?)).source
    return ([⟨itemName o label e, x.expr, x.type, source, e.span?⟩], x.aggregated)

/-- The position of the select column that a sort key names. Several columns may have the name only if
they have the same value. -/
def outputNamed {σ : Type} (columns : List SelectColumn) (name : Name) : Step σ (Option Nat) := do
  let key ← name.objectKey
  match columns.zipIdx.filter fun (c, _) => c.name == some key with
  | [] => return none
  | (first, i) :: rest =>
    if rest.all fun (c, _) => c.value.same first.value then return some i
    else
      Step.fail .columnAmbiguous (some name.span) ("ORDER BY key '" ++ key ++ "' is ambiguous")

def sortExpr (b : Block) (e : Expr Q) : Analysis (SortTarget × Bool) := do
  let x ← e.resolve b.scopes none
  return (.expr x.expr, x.aggregated)

/-- What a sort key is, and whether it holds an aggregate call. A bare name is a select column if there
is one of that name, a number is a position, and all else is an expression. -/
def sortTarget (b : Block) (columns : List SelectColumn) (e : Expr Q) : Analysis (SortTarget × Bool) := do
  match e with
  | .reference ⟨[identifier]⟩ =>
    match ← outputNamed columns ⟨[identifier]⟩ with
    | some position => return (.output position, false)
    | none => b.sortExpr e
  | .literal (.exact negative digits) =>
    let failure := Step.fail .columnNotFound none ("ORDER BY position " ++
      (if negative then "-" else "") ++ digits ++ " is not in the select list")
    match Text.natBelow? (columns.length + 1) digits.toList with
    | some (position + 1) => if negative then failure else return (.output position, false)
    | _ => failure
  | e => b.sortExpr e

def sortOrder : Option SortDirection → SortOrder
  | some .descending => .descending
  | _ => .ascending

def sortRequest (b : Block) (columns : List SelectColumn) (item : SortItem (Expr Q)) :
    Analysis (SortRequest × Bool) := do
  let (target, aggregated) ← b.sortTarget columns item.key
  return (⟨target, sortOrder item.direction, item.key.span?⟩, aggregated)

/-- The row count of LIMIT: a constant that is not negative. -/
def limitCount (b : Block) (e : Expr Q) : Analysis Nat := do
  let x ← e.resolve b.scopes none
  if !x.type.isInteger then
    Step.fail .inconsistentType e.span? ("LIMIT must be an integer, found " ++ x.type.text)
  else
    match x.expr.foldInteger with
    | none => Step.fail .unsupportedFeature e.span? "LIMIT must be a constant"
    | some (.ofNat n) => return n
    | some count =>
      Step.fail .malformedSyntax e.span? ("LIMIT must not be negative, found " ++ Text.ofInt count)

/-- The clauses after WHERE, resolved. `active` tells whether the block groups its rows. -/
structure Clauses where
  keys : List Variable
  columns : List SelectColumn
  having : Option (Scalar × Option Span)
  sorts : List SortRequest
  limit : Option Nat
  active : Bool
  deriving Inhabited

def optional {σ α β : Type} (f : α → Step σ β) : Option α → Step σ (Option β)
  | none => pure none
  | some a => do
    let b ← f a
    return some b

/-- Resolves the clauses after WHERE in turn. Within a list all elements are resolved, also after one
has failed. -/
def clauses (b : Block) (c : SelectClauses (Expr Q)) : Analysis Clauses := do
  let keys ← Step.collect (c.groupBy.map b.groupKey)
  let items ← Step.collect (c.items.map b.selectItem)
  let columns := items.flatMap (·.1)
  let having ← optional (b.predicate "HAVING") c.having
  let sorts ← Step.collect (c.orderBy.map (b.sortRequest columns))
  let limit ← optional b.limitCount c.limit
  let active := !keys.isEmpty || items.any (·.2) || having.isSome || sorts.any (·.2)
  return {
    keys
    columns
    having := having.map fun x => (x.expr, c.having.bind Expr.span?)
    sorts := sorts.map (·.1)
    limit
    active }

def regroupColumn (c : SelectColumn) : Grouping SelectColumn := do
  let value ← Aggregation.regroup c.location c.value
  return { c with value }

def regroupCondition (condition : Scalar × Option Span) : Grouping (Scalar × Option Span) := do
  let value ← Aggregation.regroup condition.2 condition.1
  return (value, condition.2)

def regroupSort (s : SortRequest) : Grouping SortRequest := do
  match s.target with
  | .output _ => return s
  | .expr e =>
    let value ← Aggregation.regroup s.location e
    return { s with target := .expr value }

/-- Regroups all expressions of the clauses, also after one has failed. -/
def regroup (c : Clauses) : Grouping Clauses := do
  let (columns, having, sorts) ← Step.both (Step.collect (c.columns.map regroupColumn))
    (Step.both (optional regroupCondition c.having) (Step.collect (c.sorts.map regroupSort)))
  return { c with columns, having, sorts }

/-- Groups the rows if the block asks for it. Returns the clauses over the grouped rows, the output and
the columns that are available there. -/
def group (b : Block) (c : Clauses) (input : Socket) : Planning (Clauses × Socket × List Variable) := do
  if c.active then
    let aggregation := c.keys.foldl Aggregation.addKey { locals := b.locals }
    let (c, aggregation) ← aggregation.run (regroup c)
    let output ← aggregation.install input
    return (c, output, aggregation.outputs)
  else return (c, input, b.locals)

def isPassable (b : Block) (v : Variable) : Bool := v.isStream && !b.isOuter v

/-- The column of the result for a select column, and what has to be computed for it. A column that is
no column of the block yet, or one that was used already, is computed into a new one. -/
def projectColumn (b : Block) (used : List Variable) (c : SelectColumn) :
    Analysis (ColumnInfo × Option (Variable × Scalar)) := do
  let info := fun v => ColumnInfo.mk c.name v c.type c.source true
  let computed := do
    let v ← Analysis.stream c.name
    return (info v, some (v, c.value))
  match c.value.asVariable? with
  | some v => if b.isPassable v && !v.isIn used then return (info v, none) else computed
  | none => computed

def projectColumns (b : Block) :
    List Variable → List SelectColumn → Analysis (List ColumnInfo × List (Variable × Scalar))
  | _, [] => pure ([], [])
  | used, c :: rest => do
    let (info, computed) ← b.projectColumn used c
    let (columns, more) ← b.projectColumns (info.carrier :: used) rest
    return (info :: columns, computed.toList ++ more)

/-- The column to sort by. An expression that is no column of the result must be computed, which a block
with DISTINCT cannot do. -/
def sortColumn (distinct : Bool) (columns : List ColumnInfo) (available : List Variable)
    (s : SortRequest) : Analysis (Variable × Option (Variable × Scalar)) := do
  match s.target with
  | .output position => return ((columns[position]?.map (·.carrier)).getD default, none)
  | .expr e =>
    let computed := do
      let v ← Analysis.stream none
      return (v, some (v, e))
    match e.asVariable? with
    | some v =>
      if v.isIn (columns.map (·.carrier)) then return (v, none)
      else if distinct then unsorted s.location
      else if v.isIn available then return (v, none)
      else computed
    | none => if distinct then unsorted s.location else computed
where
  unsorted (location : Option Span) : Analysis (Variable × Option (Variable × Scalar)) :=
    Step.fail .unsupportedFeature location
      "ORDER BY key of a SELECT DISTINCT must be in the select list"

def sortColumns (distinct : Bool) (columns : List ColumnInfo) (available : List Variable) :
    List SortRequest → Analysis (List SortKey × List (Variable × Scalar))
  | [] => pure ([], [])
  | s :: rest => do
    let (v, computed) ← sortColumn distinct columns available s
    let (keys, more) ← sortColumns distinct columns available rest
    return (⟨v, s.order⟩ :: keys, computed.toList ++ more)

def addIf (needed : Bool) (operator : Operator) (input : Socket) : Planning Socket :=
  if needed then Planning.add operator [input] else pure input

def addFilter (condition : Option Scalar) (input : Socket) : Planning Socket :=
  match condition with
  | some c => Planning.add (.filter c) [input]
  | none => pure input

def isExpr : SelectItem (Expr Q) → Bool
  | .expr _ _ => true
  | .asterisk _ => false

end Block

def Block.plan {Q : Type} (outer : Scopes) (source : Source) (c : SelectClauses (Expr Q)) :
    Planning Planned := do
  let b : Block := ⟨source.relations, outer⟩
  let condition ← (optional b.whereCondition c.condition : Analysis _)
  let output ← addFilter condition source.output
  let clauses ← b.clauses c
  let (clauses, output, available) ← b.group clauses output
  let output ← addFilter (clauses.having.map (·.1)) output
  let distinct := decide (c.quantifier = some .distinct)
  let (columns, computed) ← b.projectColumns [] clauses.columns
  let (sortKeys, more) ← sortColumns distinct columns available clauses.sorts
  let project := computed ++ more
  let relation : RelationInfo := { columns }
  let output ← addIf (c.items.any isExpr || !project.isEmpty) (.project project) output
  let output ← addIf distinct (.distinct relation.carriers) output
  let output ← addIf (clauses.limit.isSome || !sortKeys.isEmpty) (.limit clauses.limit sortKeys) output
  return ⟨output, relation⟩

end SqlPlan
