import SqlPlan.Json.SyntaxTags

namespace SqlPlan

namespace SyntaxReader

mutual

def expr? : Nat → Json → Option SqlExpr
  | 0, _ => none
  | depth + 1, j => do
    let sub := expr? depth
    match ← j.variant? with
    | ("Literal", some data) => (Literal.ofJson? data).map .literal
    | ("Variable", some data) => (Name.ofJson? data).map .reference
    | ("HostParameter", some data) =>
      let name ← data.field? "name" Json.string?
      let span ← data.field? "span" Span.ofJson?
      return .hostParameter name span
    | ("Unary", some data) =>
      let op ← data.field? "op" (Json.enum? UnaryOp.tags)
      let operand ← data.field? "operand" sub
      return .unary op operand
    | ("Binary", some data) =>
      let op ← data.field? "op" (Json.enum? BinaryOp.tags)
      let left ← data.field? "left" sub
      let right ← data.field? "right" sub
      return .binary op left right
    | ("Comparison", some data) =>
      let op ← data.field? "op" (Json.enum? ComparisonOp.tags)
      let left ← data.field? "left" sub
      let right ← data.field? "right" sub
      return .comparison op left right
    | ("Between", some data) =>
      let operand ← data.field? "operand" sub
      let low ← data.field? "low" sub
      let high ← data.field? "high" sub
      let symmetric ← data.field? "symmetric" Json.bool?
      let negated ← data.field? "negated" Json.bool?
      return .between operand low high symmetric negated
    | ("InList", some data) =>
      let operand ← data.field? "operand" sub
      let values ← data.field? "values" (Json.list? sub)
      let negated ← data.field? "negated" Json.bool?
      return .inList operand values negated
    | ("InQuery", some data) =>
      let operand ← data.field? "operand" sub
      let query ← data.field? "query" (query? depth)
      let negated ← data.field? "negated" Json.bool?
      return .inQuery operand (.mk query) negated
    | ("Pattern", some data) =>
      let op ← data.field? "op" (Json.enum? PatternOp.tags)
      let operand ← data.field? "operand" sub
      let pattern ← data.field? "pattern" sub
      let escape ← data.optional? "escape" sub
      let negated ← data.field? "negated" Json.bool?
      return .pattern op operand pattern escape negated
    | ("Case", some data) =>
      let operand ← data.optional? "operand" sub
      let clauses ← data.field? "when_clauses" (Json.list? fun clause => do
        let condition ← clause.field? "when" sub
        let result ← clause.field? "then" sub
        return (condition, result))
      let default ← data.optional? "default" sub
      return .case operand clauses default
    | ("Nullif", some data) =>
      let left ← data.field? "left" sub
      let right ← data.field? "right" sub
      return .nullif left right
    | ("Cast", some data) =>
      let operand ← data.field? "operand" sub
      let target ← data.field? "target" DataType.ofJson?
      return .cast operand target
    | ("FunctionCall", some data) => call? depth data
    | ("Subquery", some data) => (query? depth data).map fun q => .subquery (.mk q)
    | _ => none

def call? : Nat → Json → Option SqlExpr
  | 0, _ => none
  | depth + 1, j => do
    let name ← j.field? "name" Name.ofJson?
    let quantifier ← j.optional? "quantifier" (Json.enum? SetQuantifier.tags)
    let arguments ← j.field? "arguments" fun arguments => do
      match ← arguments.variant? with
      | ("List", some data) => (data.list? (expr? depth)).map some
      | _ => arguments.enum? [("Asterisk", none)]
    return .call name quantifier arguments

def query? : Nat → Json → Option SqlQuery
  | 0, _ => none
  | depth + 1, j => do
    match ← j.variant? with
    | ("Select", some data) => select? depth data
    | ("Values", some data) => (data.list? (Json.list? (expr? depth))).map .values
    | ("SetOperation", some data) =>
      let op ← data.field? "op" (Json.enum? SetOperator.tags)
      let quantifier ← data.optional? "quantifier" (Json.enum? SetQuantifier.tags)
      let corresponding ← data.optional? "corresponding" (Json.list? Identifier.ofJson?)
      let left ← data.field? "left" (query? depth)
      let right ← data.field? "right" (query? depth)
      return .setOperation op quantifier corresponding left right
    | ("With", some data) =>
      let recursive ← data.field? "recursive" Json.bool?
      let elements ← data.field? "elements" (Json.list? fun element => do
        let name ← element.field? "name" Identifier.ofJson?
        let columns ← element.field? "columns" (Json.list? Identifier.ofJson?)
        let query ← element.field? "query" (query? depth)
        return ⟨name, columns, query⟩)
      let body ← data.field? "body" (query? depth)
      return .withClause recursive elements body
    | _ => none

def select? : Nat → Json → Option SqlQuery
  | 0, _ => none
  | depth + 1, j => do
    let sub := expr? depth
    let quantifier ← j.optional? "quantifier" (Json.enum? SetQuantifier.tags)
    let items ← j.field? "items" (Json.list? (selectItem? depth))
    let tables ← j.field? "from" (Json.list? (tableRef? depth))
    let condition ← j.optional? "where_clause" sub
    let groupBy ← j.field? "group_by" (Json.list? sub)
    let having ← j.optional? "having" sub
    let orderBy ← j.field? "order_by" (Json.list? fun item => do
      let key ← item.field? "key" sub
      let direction ← item.optional? "direction" (Json.enum? SortDirection.tags)
      return ⟨key, direction⟩)
    let limit ← j.optional? "limit" sub
    return .select tables { quantifier, items, condition, groupBy, having, orderBy, limit }

def selectItem? : Nat → Json → Option (SelectItem SqlExpr)
  | 0, _ => none
  | depth + 1, j => do
    match ← j.variant? with
    | ("Expr", some data) =>
      let e ← data.field? "expr" (expr? depth)
      let label ← data.optional? "alias" Identifier.ofJson?
      return .expr e label
    | ("Asterisk", some data) => (data.option? Name.ofJson?).map .asterisk
    | _ => none

def tableRef? : Nat → Json → Option SqlTableRef
  | 0, _ => none
  | depth + 1, j => do
    match ← j.variant? with
    | ("Table", some data) =>
      let name ← data.field? "name" Name.ofJson?
      let correlation ← data.optional? "correlation" Correlation.ofJson?
      return .table name correlation
    | ("Subquery", some data) =>
      let query ← data.field? "query" (query? depth)
      let correlation ← data.optional? "correlation" Correlation.ofJson?
      return .derived query correlation
    | ("Join", some data) =>
      let kind ← data.field? "kind" (Json.enum? JoinSyntax.tags)
      let left ← data.field? "left" (tableRef? depth)
      let right ← data.field? "right" (tableRef? depth)
      let condition ← data.optional? "condition" fun condition => do
        match ← condition.variant? with
        | ("On", some e) => (expr? depth e).map .predicate
        | ("Using", some columns) => (columns.list? Identifier.ofJson?).map .sharedColumns
        | _ => none
      return .join kind left right condition
    | ("Apply", some data) =>
      let kind ← data.field? "kind" (Json.enum? ApplyKind.tags)
      let operand ← data.field? "operand" (tableRef? depth)
      let function ← data.field? "function" Name.ofJson?
      let arguments ← data.field? "arguments" (Json.list? (expr? depth))
      let correlation ← data.optional? "correlation" Correlation.ofJson?
      return .apply kind operand function arguments correlation
    | _ => none

end

end SyntaxReader

/-- Reads with a bound that no document of its depth exceeds: every reader in the chain from a node to a
node inside it goes at least one level down, or from a tag to its data. -/
def SyntaxReader.bound (j : Json) : Nat := 2 * j.depth + 2

def SqlExpr.ofJson? (j : Json) : Option SqlExpr := SyntaxReader.expr? (SyntaxReader.bound j) j

def SqlExpr.callOfJson? (j : Json) : Option SqlExpr := SyntaxReader.call? (SyntaxReader.bound j) j

def SqlQuery.ofJson? (j : Json) : Option SqlQuery := SyntaxReader.query? (SyntaxReader.bound j) j

def SqlQuery.selectOfJson? (j : Json) : Option SqlQuery := SyntaxReader.select? (SyntaxReader.bound j) j

def SqlTableRef.ofJson? (j : Json) : Option SqlTableRef :=
  SyntaxReader.tableRef? (SyntaxReader.bound j) j

namespace SyntaxReader

def insertSource? (j : Json) : Option (InsertSource SqlExpr) := do
  match ← j.variant? with
  | ("Values", some data) => (data.list? (Json.list? SqlExpr.ofJson?)).map .values
  | ("Query", some data) => (SqlQuery.ofJson? data).map .query
  | _ => j.enum? [("DefaultValues", .defaultValues)]

def columnDefinition? (j : Json) : Option (ColumnDefinition SqlExpr) := do
  let name ← j.field? "name" Identifier.ofJson?
  let dataType ← j.field? "data_type" DataType.ofJson?
  let notNull ← j.field? "not_null" Json.bool?
  let default ← j.optional? "default" SqlExpr.ofJson?
  let primaryKey ← j.field? "primary_key" Json.bool?
  return { name, dataType, notNull, default, primaryKey }

def assignment? (j : Json) : Option (Assignment SqlExpr) := do
  let column ← j.field? "column" Identifier.ofJson?
  let value ← j.field? "value" SqlExpr.ofJson?
  return ⟨column, value⟩

def indexKey? (j : Json) : Option IndexKeySyntax := do
  let column ← j.field? "column" Identifier.ofJson?
  let direction ← j.optional? "direction" (Json.enum? SortDirection.tags)
  return ⟨column, direction⟩

end SyntaxReader

open SyntaxReader in
def SqlStatement.ofJson? (j : Json) : Option SqlStatement := do
  match ← j.variant? with
  | ("Select", some data) => (SqlQuery.ofJson? data).map .select
  | ("Insert", some data) =>
    let table ← data.field? "table" Name.ofJson?
    let columns ← data.field? "columns" (Json.list? Identifier.ofJson?)
    let source ← data.field? "source" insertSource?
    return .insert { table, columns, source }
  | ("Update", some data) =>
    let table ← data.field? "table" Name.ofJson?
    let assignments ← data.field? "assignments" (Json.list? assignment?)
    let condition ← data.optional? "where_clause" SqlExpr.ofJson?
    return .update { table, assignments, condition }
  | ("Delete", some data) =>
    let table ← data.field? "table" Name.ofJson?
    let condition ← data.optional? "where_clause" SqlExpr.ofJson?
    return .delete { table, condition }
  | ("CreateTable", some data) =>
    let name ← data.field? "name" Name.ofJson?
    let ifNotExists ← data.field? "if_not_exists" Json.bool?
    let columns ← data.field? "columns" (Json.list? columnDefinition?)
    let primaryKeys ← data.field? "primary_keys" (Json.list? (Json.list? Identifier.ofJson?))
    return .createTable { name, ifNotExists, columns, primaryKeys }
  | ("DropTable", some data) =>
    let name ← data.field? "name" Name.ofJson?
    let ifExists ← data.field? "if_exists" Json.bool?
    return .dropTable name ifExists
  | ("CreateIndex", some data) =>
    let name ← data.field? "name" Name.ofJson?
    let table ← data.field? "table" Name.ofJson?
    let keys ← data.field? "keys" (Json.list? indexKey?)
    let ifNotExists ← data.field? "if_not_exists" Json.bool?
    return .createIndex { name, table, keys, ifNotExists }
  | ("DropIndex", some data) =>
    let name ← data.field? "name" Name.ofJson?
    let ifExists ← data.field? "if_exists" Json.bool?
    return .dropIndex name ifExists
  | _ => none

end SqlPlan
