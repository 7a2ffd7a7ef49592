import SqlPlan.Json.Name
import SqlPlan.Syntax.DataType

namespace SqlPlan

namespace SqlType

def tags : List (String × SqlType) :=
  [("Unknown", unknown), ("Boolean", boolean), ("Int1", int1), ("Int2", int2), ("Int4", int4),
   ("Int8", int8), ("Float4", real), ("Float8", double), ("Date", date)]

def stringTags : List (String × StringKind) :=
  [("Character", .character), ("Octet", .octet), ("Bit", .bit)]

def read? : Nat → Json → Option SqlType
  | 0, j => j.enum? tags
  | depth + 1, j => do
    match ← j.variant? with
    | ("Decimal", some data) =>
      let precision ← data.optional? "precision" Json.word?
      let scale ← data.optional? "scale" Json.word?
      return decimal precision scale
    | ("TimeOfDay", some data) =>
      let zoned ← data.field? "with_time_zone" Json.bool?
      return time zoned
    | ("TimePoint", some data) =>
      let zoned ← data.field? "with_time_zone" Json.bool?
      return timestamp zoned
    | ("Table", some data) =>
      let columns ← data.list? fun column => do
        let name ← column.field? "name" Json.string?
        let type ← column.field? "ty" (read? depth)
        return (name, type)
      return table (.ofList columns)
    | (tag, some data) =>
      match stringTags.lookup tag with
      | some kind =>
        let varying ← data.field? "varying" Json.bool?
        let length ← data.optional? "length" Json.word?
        return string kind varying length
      | none => j.enum? tags
    | (_, none) => j.enum? tags

def ofJson? (j : Json) : Option SqlType := read? j.depth j

mutual

def toJson : SqlType → Json
  | decimal p s => .record "Decimal" [("precision", .ofOption .ofNat p), ("scale", .ofOption .ofNat s)]
  | string kind varying length =>
    match Json.ofEnum stringTags kind with
    | .string tag => .record tag [("length", .ofOption .ofNat length), ("varying", .bool varying)]
    | _ => .null
  | time zoned => .record "TimeOfDay" [("with_time_zone", .bool zoned)]
  | timestamp zoned => .record "TimePoint" [("with_time_zone", .bool zoned)]
  | table row => .tagged "Table" (.array (rowToJson row))
  | type => .ofEnum tags type

def rowToJson : RowType → List Json
  | .nil => []
  | .cons name type rest => .object [("name", .string name), ("ty", type.toJson)] :: rowToJson rest

end

end SqlType

def Length.ofJson? (j : Json) : Option Length := do
  match ← j.variant? with
  | ("Value", some n) => (Json.word? n).map .value
  | _ => j.enum? [("Flexible", flexible)]

def Length.toJson : Length → Json
  | value n => .tagged "Value" (.ofNat n)
  | flexible => .string "Flexible"

namespace DataType

def tags : List (String × DataType) :=
  [("Boolean", boolean), ("TinyInt", integer .w8), ("SmallInt", integer .w16), ("Int", integer .w32),
   ("BigInt", integer .w64), ("Real", real), ("Float", float), ("DoublePrecision", doublePrecision),
   ("Date", date)]

def ofJson? (j : Json) : Option DataType := do
  match ← j.variant? with
  | ("Decimal", some data) =>
    let precision ← data.optional? "precision" Length.ofJson?
    let scale ← data.optional? "scale" Length.ofJson?
    return decimal precision scale
  | ("Time", some data) =>
    let zoned ← data.field? "with_time_zone" Json.bool?
    return time zoned
  | ("Timestamp", some data) =>
    let zoned ← data.field? "with_time_zone" Json.bool?
    return timestamp zoned
  | ("UserDefined", some data) =>
    let name ← Name.ofJson? data
    return userDefined name
  | (tag, some data) =>
    match SqlType.stringTags.lookup tag with
    | some kind =>
      let varying ← data.field? "varying" Json.bool?
      let length ← data.optional? "length" Length.ofJson?
      return string kind varying length
    | none => j.enum? tags
  | (_, none) => j.enum? tags

def toJson : DataType → Json
  | decimal p s =>
    .record "Decimal" [("precision", .ofOption Length.toJson p), ("scale", .ofOption Length.toJson s)]
  | string kind varying length =>
    match Json.ofEnum SqlType.stringTags kind with
    | .string tag => .record tag [("length", .ofOption Length.toJson length), ("varying", .bool varying)]
    | _ => .null
  | time zoned => .record "Time" [("with_time_zone", .bool zoned)]
  | timestamp zoned => .record "Timestamp" [("with_time_zone", .bool zoned)]
  | userDefined name => .tagged "UserDefined" name.toJson
  | type => .ofEnum tags type

end DataType

end SqlPlan
