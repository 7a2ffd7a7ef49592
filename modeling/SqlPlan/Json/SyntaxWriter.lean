import SqlPlan.Json.SyntaxTags

namespace SqlPlan

namespace Expr

variable {Q : Type}

mutual

def write (q : Q → Json) : Expr Q → Json
  | literal value => .tagged "Literal" value.toJson
  | reference name => .tagged "Variable" name.toJson
  | hostParameter name span => .record "HostParameter" [("name", .string name), ("span", span.toJson)]
  | unary op x => .record "Unary" [("op", .ofEnum UnaryOp.tags op), ("operand", x.write q)]
  | binary op l r =>
    .record "Binary" [("left", l.write q), ("op", .ofEnum BinaryOp.tags op), ("right", r.write q)]
  | comparison op l r =>
    .record "Comparison" [("left", l.write q), ("op", .ofEnum ComparisonOp.tags op), ("right", r.write q)]
  | between x low high symmetric negated =>
    .record "Between" [("operand", x.write q), ("low", low.write q), ("high", high.write q),
      ("symmetric", .bool symmetric), ("negated", .bool negated)]
  | inList x values negated =>
    .record "InList" [("operand", x.write q), ("values", .array (writeList q values)),
      ("negated", .bool negated)]
  | inQuery x query negated =>
    .record "InQuery" [("operand", x.write q), ("query", q query), ("negated", .bool negated)]
  | pattern op x p escape negated =>
    .record "Pattern" [("op", .ofEnum PatternOp.tags op), ("operand", x.write q),
      ("pattern", p.write q), ("escape", writeOption q escape), ("negated", .bool negated)]
  | case x clauses default =>
    .record "Case" [("operand", writeOption q x), ("when_clauses", .array (writeClauses q clauses)),
      ("default", writeOption q default)]
  | nullif l r => .record "Nullif" [("left", l.write q), ("right", r.write q)]
  | cast x target => .record "Cast" [("operand", x.write q), ("target", target.toJson)]
  | call name quantifier arguments =>
    .record "FunctionCall" [("name", name.toJson),
      ("quantifier", .ofOption (.ofEnum SetQuantifier.tags) quantifier),
      ("arguments", writeArguments q arguments)]
  | subquery query => .tagged "Subquery" (q query)

def writeList (q : Q → Json) : List (Expr Q) → List Json
  | [] => []
  | x :: rest => x.write q :: writeList q rest

def writeOption (q : Q → Json) : Option (Expr Q) → Json
  | none => .null
  | some x => x.write q

def writeClauses (q : Q → Json) : List (Expr Q × Expr Q) → List Json
  | [] => []
  | (condition, result) :: rest =>
    .object [("when", condition.write q), ("then", result.write q)] :: writeClauses q rest

def writeArguments (q : Q → Json) : Option (List (Expr Q)) → Json
  | none => .string "Asterisk"
  | some arguments => .tagged "List" (.array (writeList q arguments))

end

end Expr

variable {E : Type}

def SelectItem.write (e : E → Json) : SelectItem E → Json
  | expr x label => .record "Expr" [("expr", e x), ("alias", .ofOption Identifier.toJson label)]
  | asterisk relation => .tagged "Asterisk" (.ofOption Name.toJson relation)

def SortItem.write (e : E → Json) (s : SortItem E) : Json :=
  .object [("key", e s.key), ("direction", .ofOption (.ofEnum SortDirection.tags) s.direction)]

def JoinCondition.write (e : E → Json) : JoinCondition E → Json
  | predicate condition => .tagged "On" (e condition)
  | sharedColumns columns => .tagged "Using" (.ofList Identifier.toJson columns)

def SelectClauses.write (e : E → Json) (tables : List Json) (c : SelectClauses E) : Json :=
  .object [("quantifier", .ofOption (.ofEnum SetQuantifier.tags) c.quantifier),
    ("items", .ofList (SelectItem.write e) c.items), ("from", .array tables),
    ("where_clause", .ofOption e c.condition), ("group_by", .ofList e c.groupBy),
    ("having", .ofOption e c.having), ("order_by", .ofList (SortItem.write e) c.orderBy),
    ("limit", .ofOption e c.limit)]

mutual

def Query.write (e : E → Json) : Query E → Json
  | .select tables clauses => .tagged "Select" (clauses.write e (writeTables e tables))
  | .values rows => .tagged "Values" (.ofList (.ofList e) rows)
  | .setOperation op quantifier corresponding left right =>
    .record "SetOperation" [("op", .ofEnum SetOperator.tags op),
      ("quantifier", .ofOption (.ofEnum SetQuantifier.tags) quantifier),
      ("corresponding", .ofOption (.ofList Identifier.toJson) corresponding),
      ("left", left.write e), ("right", right.write e)]
  | .withClause recursive elements body =>
    .record "With" [("recursive", .bool recursive), ("elements", .array (writeElements e elements)),
      ("body", body.write e)]

def writeElements (e : E → Json) : List (WithElement (Query E)) → List Json
  | [] => []
  | ⟨name, columns, query⟩ :: rest =>
    .object [("name", name.toJson), ("columns", .ofList Identifier.toJson columns),
      ("query", query.write e)] :: writeElements e rest

def TableRef.write (e : E → Json) : TableRef E → Json
  | .table name correlation =>
    .record "Table" [("name", name.toJson), ("correlation", .ofOption Correlation.toJson correlation)]
  | .derived query correlation =>
    .record "Subquery" [("query", query.write e),
      ("correlation", .ofOption Correlation.toJson correlation)]
  | .join kind left right condition =>
    .record "Join" [("kind", .ofEnum JoinSyntax.tags kind), ("left", left.write e),
      ("right", right.write e), ("condition", .ofOption (JoinCondition.write e) condition)]
  | .apply kind operand function arguments correlation =>
    .record "Apply" [("kind", .ofEnum ApplyKind.tags kind), ("operand", operand.write e),
      ("function", function.toJson), ("arguments", .ofList e arguments),
      ("correlation", .ofOption Correlation.toJson correlation)]

def writeTables (e : E → Json) : List (TableRef E) → List Json
  | [] => []
  | t :: rest => t.write e :: writeTables e rest

end

/-- An embedded query with at most that many levels of queries embedded in queries. -/
def Subquery.write : Nat → Subquery → Json
  | 0, _ => .null
  | levels + 1, mk query => query.write (Expr.write (Subquery.write levels))

def SqlExpr.toJson (levels : Nat) (e : SqlExpr) : Json := e.write (Subquery.write levels)

def SqlQuery.toJson (levels : Nat) (q : SqlQuery) : Json := q.write (SqlExpr.toJson levels)

def SqlTableRef.toJson (levels : Nat) (t : SqlTableRef) : Json := t.write (SqlExpr.toJson levels)

def InsertSource.write (e : E → Json) : InsertSource E → Json
  | values rows => .tagged "Values" (.ofList (.ofList e) rows)
  | query q => .tagged "Query" (q.write e)
  | defaultValues => .string "DefaultValues"

def Assignment.write (e : E → Json) (a : Assignment E) : Json :=
  .object [("column", a.column.toJson), ("value", e a.value)]

def ColumnDefinition.write (e : E → Json) (c : ColumnDefinition E) : Json :=
  .object [("name", c.name.toJson), ("data_type", c.dataType.toJson), ("not_null", .bool c.notNull),
    ("default", .ofOption e c.default), ("primary_key", .bool c.primaryKey)]

def IndexKeySyntax.toJson (k : IndexKeySyntax) : Json :=
  .object [("column", k.column.toJson),
    ("direction", .ofOption (.ofEnum SortDirection.tags) k.direction)]

def Statement.write (e : E → Json) : Statement E → Json
  | select q => .tagged "Select" (q.write e)
  | insert i => .record "Insert" [("table", i.table.toJson),
      ("columns", .ofList Identifier.toJson i.columns), ("source", i.source.write e)]
  | update u => .record "Update" [("table", u.table.toJson),
      ("assignments", .ofList (Assignment.write e) u.assignments),
      ("where_clause", .ofOption e u.condition)]
  | delete d => .record "Delete" [("table", d.table.toJson), ("where_clause", .ofOption e d.condition)]
  | createTable c => .record "CreateTable" [("name", c.name.toJson),
      ("if_not_exists", .bool c.ifNotExists), ("columns", .ofList (ColumnDefinition.write e) c.columns),
      ("primary_keys", .ofList (.ofList Identifier.toJson) c.primaryKeys)]
  | dropTable name ifExists =>
    .record "DropTable" [("name", name.toJson), ("if_exists", .bool ifExists)]
  | createIndex c => .record "CreateIndex" [("name", c.name.toJson), ("table", c.table.toJson),
      ("keys", .ofList IndexKeySyntax.toJson c.keys), ("if_not_exists", .bool c.ifNotExists)]
  | dropIndex name ifExists =>
    .record "DropIndex" [("name", name.toJson), ("if_exists", .bool ifExists)]

def SqlStatement.toJson (levels : Nat) (s : SqlStatement) : Json := s.write (SqlExpr.toJson levels)

end SqlPlan
