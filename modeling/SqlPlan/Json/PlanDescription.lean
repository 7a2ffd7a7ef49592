import SqlPlan.Analysis.Diagnostic
import SqlPlan.Analysis.Relation
import SqlPlan.Json.Declaration
import SqlPlan.Json.ScalarDescription

namespace SqlPlan

def JoinKind.tags : List (String × JoinKind) :=
  [("Cross", cross), ("Inner", inner), ("LeftOuter", leftOuter), ("FullOuter", fullOuter)]

def WriteKind.tags : List (String × WriteKind) :=
  [("Insert", insert), ("Update", update), ("Delete", delete)]

def PlanKind.tags : List (String × PlanKind) :=
  [("Query", query), ("Insert", insert), ("Update", update), ("Delete", delete)]

def OperatorKind.tags : List (String × OperatorKind) :=
  [("Scan", scan), ("Values", values), ("Filter", filter), ("Project", project), ("Join", join),
   ("Aggregate", aggregate), ("Union", union), ("Intersection", intersection),
   ("Difference", difference), ("Distinct", distinct), ("Limit", limit), ("Apply", apply),
   ("Write", write), ("Emit", emit), ("Subquery", subquery)]

def OperatorKind.describe (k : OperatorKind) : Json := .ofEnum tags k

def Socket.describe (p : Socket) : Json := .array [.ofNat p.node, .ofNat p.index]

def Relation.describe : Relation → Json
  | table t => .object [("table", .string t.path)]
  | index i => .object [("index", .string i.name), ("table", .string i.table.path)]

namespace Operator

def describeVariables (vs : List Variable) : Json := .ofList Variable.describe vs

def describeMapping (pairs : List (Variable × Variable)) : Json :=
  .ofList (fun (a, b) => .array [a.describe, b.describe]) pairs

def describeAggregate (c : AggregateColumn) : Json :=
  .array [c.function.describe, describeVariables c.arguments, c.destination.describe]

def describeUnion (m : UnionMapping) : Json :=
  .array [.ofOption Variable.describe m.left, .ofOption Variable.describe m.right,
    m.destination.describe]

def describeSort (k : SortKey) : Json := .array [k.column.describe, .ofEnum SortOrder.tags k.order]

end Operator

open Operator in
mutual

def Operator.describe : Operator → List (String × Json)
  | scan source columns => [("source", source.describe), ("columns", describeMapping columns)]
  | values columns rows =>
    [("columns", describeVariables columns), ("rows", .ofList (Json.ofList Scalar.describe) rows)]
  | filter condition => [("condition", condition.describe)]
  | project columns =>
    [("columns", .ofList (fun (v, s) => .array [v.describe, s.describe]) columns)]
  | join kind condition =>
    [("kind", .ofEnum JoinKind.tags kind), ("condition", .ofOption Scalar.describe condition)]
  | aggregate keys columns =>
    [("keys", describeVariables keys), ("columns", .ofList describeAggregate columns)]
  | union quantifier mappings =>
    [("quantifier", .ofEnum SetQuantifier.tags quantifier), ("mappings", .ofList describeUnion mappings)]
  | intersection quantifier keys =>
    [("quantifier", .ofEnum SetQuantifier.tags quantifier), ("pairs", describeMapping keys)]
  | difference quantifier keys =>
    [("quantifier", .ofEnum SetQuantifier.tags quantifier), ("pairs", describeMapping keys)]
  | distinct keys => [("keys", describeVariables keys)]
  | limit count sortKeys =>
    [("count", .ofOption (fun n => .string (Text.ofNat n)) count), ("sort", .ofList describeSort sortKeys)]
  | apply kind function arguments columns =>
    [("kind", .ofEnum ApplyKind.tags kind), ("function", function.describe),
     ("arguments", .ofList Scalar.describe arguments),
     ("columns", .ofList (fun (i, v) => .array [.ofNat i, v.describe]) columns)]
  | write kind destination keys columns =>
    [("kind", .ofEnum WriteKind.tags kind), ("destination", destination.describe),
     ("keys", describeMapping keys), ("columns", describeMapping columns)]
  | emit columns =>
    [("columns", .ofList (fun (v, name) => .array [v.describe, .ofOption .string name]) columns)]
  | subquery graph output mappings =>
    [("graph", graph.describe), ("output", output.describe), ("mappings", describeMapping mappings)]

def Node.describe : Node → Json
  | ⟨operator, inputs, outputs⟩ =>
    .object ([("op", operator.kind.describe), ("in", .ofList (Json.ofOption Socket.describe) inputs),
      ("out", .ofList (Json.ofOption Socket.describe) outputs)] ++ operator.describe)

def Graph.describe : Graph → Json
  | ⟨nodes⟩ => .array (describeNodes nodes)

def describeNodes : List Node → List Json
  | [] => []
  | n :: rest => n.describe :: describeNodes rest

end

def ColumnRef.describe (r : ColumnRef) : Json := .string (r.text ++ " @" ++ Text.ofNat r.position)

def ColumnInfo.describe (c : ColumnInfo) : Json :=
  .object [("exported", .bool c.exported), ("name", .ofOption .string c.name),
    ("source", .ofOption ColumnRef.describe c.source), ("type", c.type.describe),
    ("var", c.carrier.describe)]

def RelationInfo.describe (r : RelationInfo) : Json :=
  .object [("columns", .ofList ColumnInfo.describe r.columns),
    ("correlation", .ofOption .string r.correlation),
    ("index", .ofOption (fun i => .string i.name) r.index),
    ("table", .ofOption (fun t => .string t.path) r.table)]

def ColumnDecl.describe (c : ColumnDecl) : Json :=
  .object [("name", .string c.name), ("type", c.type.describe), ("nullable", .bool c.nullable),
    ("default", .ofOption Value.describe c.default), ("exported", .bool c.isExported),
    ("read_only", .bool c.features.readOnly)]

def TableDecl.describe (t : TableDecl) : Json :=
  .object [("name", .string t.name), ("schema", .string t.schema),
    ("columns", .ofList ColumnDecl.describe t.columns)]

def IndexKey.describe (k : IndexKey) : Json :=
  .array [.ofNat k.position, .ofEnum SortOrder.tags k.order]

def IndexDecl.describe (i : IndexDecl) : Json :=
  .object [("name", .string i.name), ("table", .string i.table.path),
    ("keys", .ofList IndexKey.describe i.keys), ("primary", .bool i.primary), ("unique", .bool i.unique)]

def Span.describe (s : Span) : Json := .array [.ofNat s.start, .ofNat s.stop]

def Diagnostic.describe (d : Diagnostic) : Json :=
  .object [("code", .string d.code.text), ("location", .ofOption Span.describe d.location),
    ("message", .string d.message)]

def ExecutionPlan.describe (p : ExecutionPlan) : List (String × Json) :=
  [("plan", .ofEnum PlanKind.tags p.kind), ("terminal", .ofNat p.terminal),
   ("chain", .ofList OperatorKind.describe (p.graph.kindsTo p.terminal)), ("graph", p.graph.describe)]

def CatalogChange.describe : CatalogChange → List (String × Json)
  | createTable schema table primaryIndex =>
    [("statement", .string "create_table"), ("schema", .string schema), ("table", table.describe),
     ("primary_index", .ofOption IndexDecl.describe primaryIndex)]
  | dropTable table =>
    [("statement", .string "drop_table"), ("target", (Relation.table table).describe)]
  | createIndex index => [("statement", .string "create_index"), ("index", index.describe)]
  | dropIndex index =>
    [("statement", .string "drop_index"), ("target", (Relation.index index).describe)]
  | nothing => [("statement", .string "empty")]

def CatalogError.tag : CatalogError → String
  | duplicateSchema _ => "DuplicateSchema"
  | duplicateTable _ _ => "DuplicateTable"
  | duplicateIndex _ _ => "DuplicateIndex"
  | duplicateVariable _ _ => "DuplicateVariable"
  | duplicateFunction _ => "DuplicateFunction"
  | tableNotFound _ _ => "TableNotFound"
  | duplicatePrimaryIndex _ => "DuplicatePrimaryIndex"
  | invalidIndexKey _ _ => "InvalidIndexKey"

def OutlineError.tag : OutlineError → String
  | unknownType _ => "UnknownType"
  | catalog e => e.tag

end SqlPlan
