import SqlPlan.Syntax.Statement

namespace SqlPlan.Sample

def item (e : SqlExpr) (label : Option String := none) : SelectItem SqlExpr :=
  .expr e (label.map .regular)

def table (path : String) (label : Option String := none) : SqlTableRef :=
  .table (.ofPath path) (label.map fun l => ⟨.regular l, []⟩)

/-- `SELECT v FROM t WHERE k > 0` -/
def selectWithWhere : SqlQuery :=
  .select [table "t"]
    { items := [item (.column "v")]
      condition := some (.comparison .greater (.column "k") (.exact "0")) }

/-- `SELECT * FROM users` -/
def selectAll : SqlQuery := .select [table "users"] { items := [.asterisk none] }

/-- `SELECT u.name, o.total FROM users u INNER JOIN orders o ON u.id = o.user_id` -/
def innerJoin : SqlQuery :=
  let matching := .comparison .equal (.column "u.id") (.column "o.user_id")
  .select [.join .inner (table "users" "u") (table "orders" "o") (some (.predicate matching))]
    { items := [item (.column "u.name"), item (.column "o.total")] }

/-- `SELECT status, COUNT(*) AS count FROM orders GROUP BY status` -/
def groupBy : SqlQuery :=
  .select [table "orders"]
    { items := [item (.column "status"), item (.call (.simple "count") none none) "count"]
      groupBy := [.column "status"] }

/-- `SELECT a, SUM(b) AS total FROM u GROUP BY a HAVING SUM(b) > 10 ORDER BY a LIMIT 5` -/
def groupByHaving : SqlQuery :=
  let sum : SqlExpr := .function "sum" [.column "b"]
  .select [table "u"]
    { items := [item (.column "a"), item sum "total"]
      groupBy := [.column "a"]
      having := some (.comparison .greater sum (.exact "10"))
      orderBy := [⟨.column "a", some .ascending⟩]
      limit := some (.exact "5") }

/-- `SELECT k FROM t UNION ALL SELECT x FROM f` -/
def unionAll : SqlQuery :=
  .setOperation .union (some .all) none (.select [table "t"] { items := [item (.column "k")] })
    (.select [table "f"] { items := [item (.column "x")] })

/-- `SELECT k + 1 AS next FROM t ORDER BY next DESC` -/
def computedOrder : SqlQuery :=
  .select [table "t"]
    { items := [item (.binary .add (.column "k") (.exact "1")) "next"]
      orderBy := [⟨.column "next", some .descending⟩] }

def all : List (String × SqlQuery) :=
  [("select_with_where", selectWithWhere), ("select_all", selectAll), ("inner_join", innerJoin),
   ("group_by", groupBy), ("group_by_having", groupByHaving), ("union_all", unionAll),
   ("computed_order", computedOrder)]

def statement? (name : String) : Option SqlStatement := (all.lookup name).map .select

end SqlPlan.Sample
