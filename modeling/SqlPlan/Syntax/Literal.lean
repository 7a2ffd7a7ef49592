import SqlPlan.Text.Quoted

namespace SqlPlan

inductive TruthValue where
  | isTrue
  | isFalse
  | isUnknown
  deriving DecidableEq, Repr, Inhabited

inductive TemporalKind where
  | date
  | time (zoned : Bool)
  | timestamp (zoned : Bool)
  deriving DecidableEq, Repr, Inhabited

/-- A literal. String literals are one or more adjacent quoted tokens. -/
inductive Literal where
  | boolean (value : TruthValue)
  | exact (negative : Bool) (digits : String)
  | approximate (negative : Bool) (text : String)
  | character (tokens : List String)
  | bit (tokens : List String)
  | octet (tokens : List String)
  | temporal (kind : TemporalKind) (token : String)
  | null
  | default
  deriving DecidableEq, Repr, Inhabited

namespace Literal

def splitSign (text : String) : Bool × String :=
  match text.toList with
  | '-' :: rest => (true, String.ofList rest)
  | '+' :: rest => (false, String.ofList rest)
  | _ => (false, text)

def ofExact (text : String) : Literal :=
  let (negative, digits) := splitSign text
  .exact negative digits

def ofApproximate (text : String) : Literal :=
  let (negative, rest) := splitSign text
  .approximate negative rest

def ofString (body : String) : Literal := .character [Text.quoted Text.singleQuote body]

def ofDate (value : String) : Literal := .temporal .date ("'" ++ value ++ "'")

def ofTimestamp (value : String) (zoned : Bool) : Literal :=
  .temporal (.timestamp zoned) ("'" ++ value ++ "'")

end Literal

end SqlPlan
