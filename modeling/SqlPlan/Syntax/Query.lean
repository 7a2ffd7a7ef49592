import SqlPlan.Syntax.Expr

namespace SqlPlan

inductive SetOperator where
  | union
  | intersect
  | except
  deriving DecidableEq, Repr, Inhabited

inductive SortDirection where
  | ascending
  | descending
  deriving DecidableEq, Repr, Inhabited

structure SortItem (E : Type) where
  key : E
  direction : Option SortDirection := none
  deriving Repr

inductive SelectItem (E : Type) where
  | expr (expr : E) (label : Option Identifier)
  | asterisk (relation : Option Name)
  deriving Repr

structure Correlation where
  name : Identifier
  columns : List Identifier := []
  deriving DecidableEq, Repr, Inhabited

inductive JoinSyntax where
  | cross
  | inner
  | leftOuter
  | rightOuter
  | fullOuter
  | naturalInner
  | naturalLeftOuter
  | naturalRightOuter
  | naturalFullOuter
  deriving DecidableEq, Repr, Inhabited

inductive JoinCondition (E : Type) where
  | predicate (condition : E)
  | sharedColumns (columns : List Identifier)
  deriving Repr

inductive ApplyKind where
  | cross
  | outer
  deriving DecidableEq, Repr, Inhabited

structure SelectClauses (E : Type) where
  quantifier : Option SetQuantifier := none
  items : List (SelectItem E) := []
  condition : Option E := none
  groupBy : List E := []
  having : Option E := none
  orderBy : List (SortItem E) := []
  limit : Option E := none
  deriving Repr

structure WithElement (Q : Type) where
  name : Identifier
  columns : List Identifier := []
  query : Q
  deriving Repr

mutual

inductive Query (E : Type) where
  | select (tables : List (TableRef E)) (clauses : SelectClauses E)
  | values (rows : List (List E))
  | setOperation (op : SetOperator) (quantifier : Option SetQuantifier)
      (corresponding : Option (List Identifier)) (left right : Query E)
  | withClause (recursive : Bool) (elements : List (WithElement (Query E))) (body : Query E)

inductive TableRef (E : Type) where
  | table (name : Name) (correlation : Option Correlation)
  | derived (query : Query E) (correlation : Option Correlation)
  | join (kind : JoinSyntax) (left right : TableRef E) (condition : Option (JoinCondition E))
  | apply (kind : ApplyKind) (operand : TableRef E) (function : Name) (arguments : List E)
      (correlation : Option Correlation)

end

instance {E : Type} : Inhabited (Query E) := ⟨.values []⟩

instance {E : Type} : Inhabited (TableRef E) := ⟨.table ⟨[]⟩ none⟩

inductive Subquery where
  | mk (query : Query (Expr Subquery))

instance : Inhabited Subquery := ⟨.mk default⟩

abbrev SqlExpr := Expr Subquery

abbrev SqlQuery := Query SqlExpr

abbrev SqlTableRef := TableRef SqlExpr

end SqlPlan
