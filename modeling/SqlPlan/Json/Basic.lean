import SqlPlan.Number.Binary

namespace SqlPlan

/-- A number: an integer between -2⁶³ and 2⁶⁴, or the bits of a double. -/
inductive JsonNumber where
  | integer (n : Int)
  | double (bits : UInt64)
  deriving DecidableEq, Repr, Inhabited

inductive Json where
  | null
  | bool (b : Bool)
  | number (n : JsonNumber)
  | string (s : String)
  | array (elements : List Json)
  | object (members : List (String × Json))
  deriving Repr

namespace Json

instance : Inhabited Json := ⟨null⟩

mutual

def depth : Json → Nat
  | array elements => depthOfList elements + 1
  | object members => depthOfMembers members + 1
  | _ => 0

def depthOfList : List Json → Nat
  | [] => 0
  | j :: rest => max j.depth (depthOfList rest)

def depthOfMembers : List (String × Json) → Nat
  | [] => 0
  | (_, j) :: rest => max j.depth (depthOfMembers rest)

end

mutual

/-- The document with only the last of the members of one name. -/
def lastWins : Json → Json
  | array elements => array (lastWinsList elements)
  | object members => object (lastWinsMembers members)
  | j => j

def lastWinsList : List Json → List Json
  | [] => []
  | j :: rest => j.lastWins :: lastWinsList rest

def lastWinsMembers : List (String × Json) → List (String × Json)
  | [] => []
  | (key, j) :: rest =>
    let rest' := lastWinsMembers rest
    if rest'.any (·.1 == key) then rest' else (key, j.lastWins) :: rest'

end

def string? : Json → Option String
  | string s => some s
  | _ => none

def bool? : Json → Option Bool
  | bool b => some b
  | _ => none

def int? : Json → Option Int
  | number (.integer n) => some n
  | _ => none

def natBelow? (bound : Nat) : Json → Option Nat
  | number (.integer (.ofNat n)) => if n < bound then some n else none
  | _ => none

def word? : Json → Option Nat := natBelow? (powerOfTwo 32)

def size? : Json → Option Nat := natBelow? (powerOfTwo 64)

def elements? : Json → Option (List Json)
  | array elements => some elements
  | _ => none

def members? : Json → Option (List (String × Json))
  | object members => some members
  | _ => none

def list? {α : Type} (read : Json → Option α) (j : Json) : Option (List α) := do
  let elements ← j.elements?
  elements.mapM read

def option? {α : Type} (read : Json → Option α) : Json → Option (Option α)
  | null => some none
  | j => (read j).map some

def get? (j : Json) (name : String) : Option Json := do
  let members ← j.members?
  members.lookup name

def field? {α : Type} (j : Json) (name : String) (read : Json → Option α) : Option α := do
  let member ← j.get? name
  read member

def optional? {α : Type} (j : Json) (name : String) (read : Json → Option α) : Option (Option α) := do
  let members ← j.members?
  match members.lookup name with
  | some member => option? read member
  | none => some none

def default? {α : Type} (j : Json) (name : String) (default : α) (read : Json → Option α) : Option α := do
  let members ← j.members?
  match members.lookup name with
  | some member => read member
  | none => some default

/-- A variant: its tag, and its data unless it is a bare tag. -/
def variant? : Json → Option (String × Option Json)
  | string tag => some (tag, none)
  | object [(tag, data)] => some (tag, some data)
  | _ => none

def tag? (j : Json) : Option String := do
  match ← j.variant? with
  | (tag, none) => some tag
  | (tag, some null) => some tag
  | _ => none

def enum? {α : Type} (tags : List (String × α)) (j : Json) : Option α := do
  let tag ← j.tag?
  tags.lookup tag

def ofList {α : Type} (write : α → Json) (xs : List α) : Json := array (xs.map write)

def ofOption {α : Type} (write : α → Json) : Option α → Json
  | some a => write a
  | none => null

def ofInt (n : Int) : Json := number (.integer n)

def ofNat (n : Nat) : Json := ofInt n

def tagged (tag : String) (data : Json) : Json := object [(tag, data)]

def record (tag : String) (fields : List (String × Json)) : Json := tagged tag (object fields)

def ofEnum {α : Type} [DecidableEq α] (tags : List (String × α)) (a : α) : Json :=
  match tags.find? fun (_, b) => decide (b = a) with
  | some (tag, _) => string tag
  | none => null

end Json

end SqlPlan
