import SqlPlan.Syntax.Statement

namespace SqlPlan

variable {Q : Type}

inductive Mention where
  | table (name : Name)
  | function (name : Name)
  | literal (l : Literal)
  deriving DecidableEq, Repr

namespace Expr

mutual

/-- An expression and the expressions in it. Queries inside of expressions are not looked into. -/
def subexpressions : Expr Q → List (Expr Q)
  | literal l => [literal l]
  | reference name => [reference name]
  | hostParameter name span => [hostParameter name span]
  | unary op e => unary op e :: e.subexpressions
  | binary op l r => binary op l r :: (l.subexpressions ++ r.subexpressions)
  | comparison op l r => comparison op l r :: (l.subexpressions ++ r.subexpressions)
  | between e low high symmetric negated => between e low high symmetric negated ::
    (e.subexpressions ++ (low.subexpressions ++ high.subexpressions))
  | inList e values negated => inList e values negated :: (e.subexpressions ++ listSubexpressions values)
  | inQuery e query negated => inQuery e query negated :: e.subexpressions
  | pattern op e p escape negated => pattern op e p escape negated ::
    (e.subexpressions ++ (p.subexpressions ++ optionSubexpressions escape))
  | case operand clauses default => case operand clauses default ::
    (optionSubexpressions operand ++ (pairSubexpressions clauses ++ optionSubexpressions default))
  | nullif l r => nullif l r :: (l.subexpressions ++ r.subexpressions)
  | cast e target => cast e target :: e.subexpressions
  | call name quantifier none => [call name quantifier none]
  | call name quantifier (some es) => call name quantifier (some es) :: listSubexpressions es
  | subquery query => [subquery query]

def listSubexpressions : List (Expr Q) → List (Expr Q)
  | [] => []
  | e :: rest => e.subexpressions ++ listSubexpressions rest

def optionSubexpressions : Option (Expr Q) → List (Expr Q)
  | none => []
  | some e => e.subexpressions

def pairSubexpressions : List (Expr Q × Expr Q) → List (Expr Q)
  | [] => []
  | (a, b) :: rest => a.subexpressions ++ (b.subexpressions ++ pairSubexpressions rest)

end

example (l r : Literal) : subexpressions (nullif (literal l) (literal r) : Expr Unit) =
    [nullif (literal l) (literal r), literal l, literal r] := by
  cbv

def mention? : Expr Q → Option Mention
  | literal l => some (.literal l)
  | call name _ _ => some (.function name)
  | _ => none

/-- The functions that an expression calls and its literals. -/
def mentions (e : Expr Q) : List Mention := e.subexpressions.filterMap mention?

theorem forall_mem_node {P : Expr Q → Prop} {e : Expr Q} {es es' : List (Expr Q)} :
    (∀ x ∈ e :: (es ++ es'), P x) ↔ P e ∧ (∀ x ∈ es, P x) ∧ ∀ x ∈ es', P x :=
  List.forall_mem_cons.trans (and_congr_right fun _ => List.forall_mem_append)

end Expr

def SelectItem.expr? : SelectItem (Expr Q) → Option (Expr Q)
  | .expr e _ => some e
  | .asterisk _ => none

def SelectClauses.exprs (c : SelectClauses (Expr Q)) : List (Expr Q) :=
  c.items.filterMap SelectItem.expr? ++ (c.condition.toList ++ (c.groupBy ++ (c.having.toList ++
    (c.orderBy.map (·.key) ++ c.limit.toList))))

theorem SelectClauses.mem_exprs {c : SelectClauses (Expr Q)} {e : Expr Q} : e ∈ c.exprs ↔
    (∃ item ∈ c.items, item.expr? = some e) ∨ c.condition = some e ∨ e ∈ c.groupBy ∨ c.having = some e ∨
      (∃ item ∈ c.orderBy, item.key = e) ∨ c.limit = some e := by
  simp [exprs]

def JoinCondition.mentions : JoinCondition (Expr Q) → List Mention
  | .predicate condition => condition.mentions
  | .sharedColumns _ => []

mutual

def Query.mentions : Query (Expr Q) → List Mention
  | .select tables clauses => TableRef.listMentions tables ++ clauses.exprs.flatMap Expr.mentions
  | .values rows => rows.flatten.flatMap Expr.mentions
  | .setOperation _ _ _ left right => left.mentions ++ right.mentions
  | .withClause _ elements body => WithElement.listMentions elements ++ body.mentions

def WithElement.listMentions : List (WithElement (Query (Expr Q))) → List Mention
  | [] => []
  | ⟨_, _, query⟩ :: rest => query.mentions ++ WithElement.listMentions rest

def TableRef.mentions : TableRef (Expr Q) → List Mention
  | .table name _ => [.table name]
  | .derived query _ => query.mentions
  | .join _ left right condition => left.mentions ++ (right.mentions ++ condition.toList.flatMap JoinCondition.mentions)
  | .apply _ operand function arguments _ =>
    operand.mentions ++ .function function :: arguments.flatMap Expr.mentions

def TableRef.listMentions : List (TableRef (Expr Q)) → List Mention
  | [] => []
  | table :: rest => table.mentions ++ TableRef.listMentions rest

end

def InsertSource.mentions : InsertSource (Expr Q) → List Mention
  | .values rows => rows.flatten.flatMap Expr.mentions
  | .query q => q.mentions
  | .defaultValues => []

def Statement.mentions : Statement (Expr Q) → List Mention
  | .select q => q.mentions
  | .insert i => .table i.table :: i.source.mentions
  | .update u =>
    .table u.table :: (u.assignments.map (·.value) ++ u.condition.toList).flatMap Expr.mentions
  | .delete d => .table d.table :: d.condition.toList.flatMap Expr.mentions
  | .createTable c => (c.columns.filterMap (·.default)).flatMap Expr.mentions
  | .createIndex c => [.table c.table]
  | .dropTable name _ => [.table name]
  | .dropIndex _ _ => []

end SqlPlan
