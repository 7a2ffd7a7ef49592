import SqlPlan.Analysis.Lookup
import SqlPlan.Syntax.Statement

namespace SqlPlan

variable {Q : Type} (f : Identifier → Identifier)

/-- A way to write identifiers that changes neither what they are compared by nor where they stand. -/
structure Spelling (o : Options) where
  spell : Identifier → Identifier
  key_spell : ∀ i, o.key (spell i) = o.key i
  span_spell : ∀ i, (spell i).span = i.span

namespace Spelling

def asWritten (o : Options) : Spelling o := ⟨id, fun _ => rfl, fun _ => rfl⟩

end Spelling

def Name.respell (n : Name) : Name := ⟨n.segments.map f⟩

def DataType.respell : DataType → DataType
  | userDefined name => userDefined (name.respell f)
  | t => t

namespace Expr

mutual

def respell : Expr Q → Expr Unit
  | literal value => literal value
  | reference name => reference (name.respell f)
  | hostParameter name span => hostParameter name span
  | unary op x => unary op x.respell
  | binary op l r => binary op l.respell r.respell
  | comparison op l r => comparison op l.respell r.respell
  | between x low high symmetric negated => between x.respell low.respell high.respell symmetric negated
  | inList x values negated => inList x.respell (respellList values) negated
  | inQuery x _ negated => inQuery x.respell () negated
  | pattern op x p escape negated => pattern op x.respell p.respell (respellOption escape) negated
  | case x clauses default => case (respellOption x) (respellClauses clauses) (respellOption default)
  | nullif l r => nullif l.respell r.respell
  | cast x target => cast x.respell (target.respell f)
  | call name quantifier none => call (name.respell f) quantifier none
  | call name quantifier (some arguments) => call (name.respell f) quantifier (some (respellList arguments))
  | subquery _ => subquery ()

def respellList : List (Expr Q) → List (Expr Unit)
  | [] => []
  | x :: rest => x.respell :: respellList rest

def respellOption : Option (Expr Q) → Option (Expr Unit)
  | none => none
  | some x => some x.respell

def respellClauses : List (Expr Q × Expr Q) → List (Expr Unit × Expr Unit)
  | [] => []
  | (w, t) :: rest => (w.respell, t.respell) :: respellClauses rest

end

end Expr

def SelectItem.respell : SelectItem (Expr Q) → SelectItem (Expr Unit)
  | .expr e label => .expr (e.respell f) (label.map f)
  | .asterisk relation => .asterisk (relation.map (Name.respell f))

def SortItem.respell (item : SortItem (Expr Q)) : SortItem (Expr Unit) := ⟨item.key.respell f, item.direction⟩

def Correlation.respell (c : Correlation) : Correlation := ⟨f c.name, c.columns.map f⟩

def JoinCondition.respell : JoinCondition (Expr Q) → JoinCondition (Expr Unit)
  | .predicate e => .predicate (e.respell f)
  | .sharedColumns columns => .sharedColumns (columns.map f)

def SelectClauses.respell (c : SelectClauses (Expr Q)) : SelectClauses (Expr Unit) where
  quantifier := c.quantifier
  items := c.items.map (SelectItem.respell f)
  condition := c.condition.map (Expr.respell f)
  groupBy := c.groupBy.map (Expr.respell f)
  having := c.having.map (Expr.respell f)
  orderBy := c.orderBy.map (SortItem.respell f)
  limit := c.limit.map (Expr.respell f)

mutual

def Query.respell : Query (Expr Q) → Query (Expr Unit)
  | .select tables clauses => .select (respellTables tables) (clauses.respell f)
  | .values rows => .values (rows.map (List.map (Expr.respell f)))
  | .setOperation op quantifier corresponding left right =>
    .setOperation op quantifier (corresponding.map (List.map f)) left.respell right.respell
  | .withClause recursive elements body => .withClause recursive (respellElements elements) body.respell

def respellElements : List (WithElement (Query (Expr Q))) → List (WithElement (Query (Expr Unit)))
  | [] => []
  | ⟨name, columns, query⟩ :: rest => ⟨f name, columns.map f, query.respell⟩ :: respellElements rest

def TableRef.respell : TableRef (Expr Q) → TableRef (Expr Unit)
  | .table name correlation => .table (name.respell f) (correlation.map (Correlation.respell f))
  | .derived query correlation => .derived query.respell (correlation.map (Correlation.respell f))
  | .join kind left right condition =>
    .join kind left.respell right.respell (condition.map (JoinCondition.respell f))
  | .apply kind operand function arguments correlation =>
    .apply kind operand.respell (function.respell f) (arguments.map (Expr.respell f))
      (correlation.map (Correlation.respell f))

def respellTables : List (TableRef (Expr Q)) → List (TableRef (Expr Unit))
  | [] => []
  | table :: rest => table.respell :: respellTables rest

end

def InsertSource.respell : InsertSource (Expr Q) → InsertSource (Expr Unit)
  | .values rows => .values (rows.map (List.map (Expr.respell f)))
  | .query q => .query (q.respell f)
  | .defaultValues => .defaultValues

def Insert.respell (i : Insert (Expr Q)) : Insert (Expr Unit) :=
  ⟨i.table.respell f, i.columns.map f, i.source.respell f⟩

def Assignment.respell (a : Assignment (Expr Q)) : Assignment (Expr Unit) := ⟨f a.column, a.value.respell f⟩

def Update.respell (u : Update (Expr Q)) : Update (Expr Unit) :=
  ⟨u.table.respell f, u.assignments.map (Assignment.respell f), u.condition.map (Expr.respell f)⟩

def Delete.respell (d : Delete (Expr Q)) : Delete (Expr Unit) :=
  ⟨d.table.respell f, d.condition.map (Expr.respell f)⟩

def ColumnDefinition.respell (d : ColumnDefinition (Expr Q)) : ColumnDefinition (Expr Unit) :=
  ⟨f d.name, d.dataType.respell f, d.notNull, d.default.map (Expr.respell f), d.primaryKey⟩

def CreateTable.respell (c : CreateTable (Expr Q)) : CreateTable (Expr Unit) where
  name := c.name.respell f
  ifNotExists := c.ifNotExists
  columns := c.columns.map (ColumnDefinition.respell f)
  primaryKeys := c.primaryKeys.map (List.map f)

def IndexKeySyntax.respell (k : IndexKeySyntax) : IndexKeySyntax := ⟨f k.column, k.direction⟩

def CreateIndex.respell (c : CreateIndex) : CreateIndex where
  name := c.name.respell f
  table := c.table.respell f
  keys := c.keys.map (IndexKeySyntax.respell f)
  ifNotExists := c.ifNotExists

def Statement.respell : Statement (Expr Q) → Statement (Expr Unit)
  | .select q => .select (q.respell f)
  | .insert i => .insert (i.respell f)
  | .update u => .update (u.respell f)
  | .delete d => .delete (d.respell f)
  | .createTable c => .createTable (c.respell f)
  | .dropTable name ifExists => .dropTable (name.respell f) ifExists
  | .createIndex c => .createIndex (c.respell f)
  | .dropIndex name ifExists => .dropIndex (name.respell f) ifExists

variable {f} {o : Options} (w : Spelling o)

namespace Name

@[simp]
theorem span_respell (n : Name) : (n.respell w.spell).span = n.span := by
  simp only [span, respell, List.foldl_map, w.span_spell]

@[simp]
theorem last?_respell (n : Name) : (n.respell f).last? = n.last?.map f := List.getLast?_map ..

@[simp]
theorem qualifier_respell (n : Name) : (n.respell f).qualifier = n.qualifier.map f := (List.map_dropLast ..).symm

end Name

namespace Expr

@[simp]
theorem isNull_respell (e : Expr Q) : (e.respell f).isNull = e.isNull := by
  cases e with
  | call name quantifier arguments => cases arguments <;> rfl
  | literal l => cases l <;> rfl
  | _ => rfl

@[simp]
theorem span?_respell : ∀ e : Expr Q, (e.respell w.spell).span? = e.span?
  | reference name | call name _ none | call name _ (some _) => congrArg some (name.span_respell w)
  | unary _ x => x.span?_respell
  | binary _ l _ | comparison _ l _ => l.span?_respell
  | literal _ | hostParameter _ _ | between _ _ _ _ _ | inList _ _ _ | inQuery _ _ _ | pattern _ _ _ _ _
  | case _ _ _ | nullif _ _ | cast _ _ | subquery _ => rfl

end Expr

end SqlPlan
