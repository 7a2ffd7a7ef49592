import SqlPlan.Json.Basic

namespace SqlPlan.Json

def isSpace (c : Char) : Bool := c == ' ' || c == '\n' || c == '\t' || c == '\r'

def skip (cs : List Char) : List Char := cs.dropWhile isSpace

def unit? (a b c d : Char) : Option Nat := do
  let a ← Text.hexValue? a
  let b ← Text.hexValue? b
  let c ← Text.hexValue? c
  let d ← Text.hexValue? d
  return ((a * 16 + b) * 16 + c) * 16 + d

def escaped? : Char → Option Char
  | '\x22' => some '\x22'
  | '\\' => some '\\'
  | '/' => some '/'
  | 'b' => some '\x08'
  | 'f' => some '\x0c'
  | 'n' => some '\n'
  | 'r' => some '\r'
  | 't' => some '\t'
  | _ => none

def isHigh (n : Nat) : Bool := 0xD800 ≤ n && n < 0xDC00

def isLow (n : Nat) : Bool := 0xDC00 ≤ n && n < 0xE000

/-- The rest of a string after its opening quote, and what follows it. A surrogate is read only as part
of a pair. -/
def stringBody? : List Char → Option (List Char × List Char)
  | '\x22' :: rest => some ([], rest)
  | '\\' :: 'u' :: a :: b :: c :: d :: rest => do
    let n ← unit? a b c d
    if isHigh n then
      match rest with
      | '\\' :: 'u' :: a :: b :: c :: d :: rest => do
        let m ← unit? a b c d
        if isLow m then
          let (body, rest) ← stringBody? rest
          return (Char.ofNat (0x10000 + (n - 0xD800) * 0x400 + (m - 0xDC00)) :: body, rest)
        else none
      | _ => none
    else if isLow n then none
    else
      let (body, rest) ← stringBody? rest
      return (Char.ofNat n :: body, rest)
  | '\\' :: e :: rest => do
    let c ← escaped? e
    let (body, rest) ← stringBody? rest
    return (c :: body, rest)
  | c :: rest =>
    if c.toNat < 0x20 || c == '\\' then none
    else do
      let (body, rest) ← stringBody? rest
      return (c :: body, rest)
  | [] => none

def digits? (cs : List Char) : Option (List Char × List Char) :=
  let ds := cs.takeWhile Text.isDigit
  if ds.isEmpty then none else some (ds, cs.drop ds.length)

/-- The digits before the point; a zero stands alone. -/
def whole? (cs : List Char) : Option (List Char × List Char) := do
  let (ds, rest) ← digits? cs
  if ds.length ≠ 1 ∧ ds.head? = some '0' then none else some (ds, rest)

/-- A point and digits, if there is a point. -/
def fraction? : List Char → Option (Option (List Char) × List Char)
  | '.' :: rest => do
    let (ds, rest) ← digits? rest
    return (some ds, rest)
  | cs => some (none, cs)

/-- A letter `e`, a sign and digits, if there is the letter. -/
def exponent? : List Char → Option (Option Int × List Char)
  | c :: rest =>
    if c == 'e' || c == 'E' then do
      let (negative, rest) := match rest with
        | '-' :: rest => (true, rest)
        | '+' :: rest => (false, rest)
        | rest => (false, rest)
      let (ds, rest) ← digits? rest
      let n : Int := Text.natOfDigits ds
      return (some (if negative then -n else n), rest)
    else some (none, c :: rest)
  | [] => some (none, [])

/-- A number with its parts. One without fraction and exponent is an integer if 64 bits hold it, apart
from a negative zero; all others are rounded to a double, which must be finite. -/
def numberOf? (negative : Bool) (whole : List Char) (fraction : Option (List Char))
    (exponent : Option Int) : Option JsonNumber :=
  let n := Text.natOfDigits whole
  let isInteger := fraction.isNone && exponent.isNone &&
    (if negative then decide (n ≠ 0 ∧ n ≤ powerOfTwo 63) else decide (n < powerOfTwo 64))
  if isInteger then some (.integer (if negative then -(n : Int) else n))
  else
    let places := fraction.getD []
    let bits := BinaryFormat.double.ofDecimal (Text.natOfDigits (whole ++ places))
      (exponent.getD 0 - places.length)
    if BinaryFormat.double.isFinite bits then
      some (.double (UInt64.ofNat (BinaryFormat.double.withSign negative bits)))
    else none

def number? (cs : List Char) : Option (JsonNumber × List Char) := do
  let (negative, cs) := match cs with
    | '-' :: rest => (true, rest)
    | cs => (false, cs)
  let (whole, cs) ← whole? cs
  let (fraction, cs) ← fraction? cs
  let (exponent, cs) ← exponent? cs
  let n ← numberOf? negative whole fraction exponent
  return (n, cs)

mutual

/-- A value at the start of the text, and what follows it. The first argument bounds the number of
values and separators. -/
def value? : Nat → List Char → Option (Json × List Char)
  | 0, _ => none
  | n + 1, cs =>
    match skip cs with
    | 'n' :: 'u' :: 'l' :: 'l' :: rest => some (null, rest)
    | 't' :: 'r' :: 'u' :: 'e' :: rest => some (bool true, rest)
    | 'f' :: 'a' :: 'l' :: 's' :: 'e' :: rest => some (bool false, rest)
    | '\x22' :: rest => do
      let (body, rest) ← stringBody? rest
      return (string (String.ofList body), rest)
    | '[' :: rest =>
      match skip rest with
      | ']' :: rest => some (array [], rest)
      | rest => do
        let (elements, rest) ← elementsFrom? n rest
        return (array elements, rest)
    | '\x7b' :: rest =>
      match skip rest with
      | '\x7d' :: rest => some (object [], rest)
      | rest => do
        let (members, rest) ← membersFrom? n rest
        return (object members, rest)
    | cs => do
      let (x, rest) ← number? cs
      return (number x, rest)

def elementsFrom? : Nat → List Char → Option (List Json × List Char)
  | 0, _ => none
  | n + 1, cs => do
    let (element, rest) ← value? n cs
    match skip rest with
    | ',' :: rest => do
      let (elements, rest) ← elementsFrom? n rest
      return (element :: elements, rest)
    | ']' :: rest => return ([element], rest)
    | _ => none

def membersFrom? : Nat → List Char → Option (List (String × Json) × List Char)
  | 0, _ => none
  | n + 1, cs =>
    match skip cs with
    | '\x22' :: rest => do
      let (key, rest) ← stringBody? rest
      match skip rest with
      | ':' :: rest => do
        let (element, rest) ← value? n rest
        match skip rest with
        | ',' :: rest => do
          let (members, rest) ← membersFrom? n rest
          return ((String.ofList key, element) :: members, rest)
        | '\x7d' :: rest => return ([(String.ofList key, element)], rest)
        | _ => none
      | _ => none
    | _ => none

end

def ofChars? (cs : List Char) : Option Json := do
  let (j, rest) ← value? (cs.length + 1) cs
  if (skip rest).isEmpty then some j else none

def ofText? (text : String) : Option Json := ofChars? text.toList

def escape (c : Char) : List Char :=
  if c = '\x22' then ['\\', '\x22']
  else if c = '\\' then ['\\', '\\']
  else if c = '\n' then ['\\', 'n']
  else if c = '\t' then ['\\', 't']
  else if c = '\r' then ['\\', 'r']
  else if c = '\x08' then ['\\', 'b']
  else if c = '\x0c' then ['\\', 'f']
  else if c.toNat < 0x20 then '\\' :: 'u' :: Text.hex false 4 c.toNat
  else [c]

def quote (s : String) : String := String.ofList ('\x22' :: s.toList.flatMap escape ++ ['\x22'])

def numberText : JsonNumber → String
  | .integer n => Text.ofInt n
  | .double bits => BinaryFormat.double.render bits.toNat

def bracketed (opening closing : String) (texts : List String) : String :=
  opening ++ Text.joinWith "," texts ++ closing

mutual

def text : Json → String
  | null => "null"
  | bool b => if b then "true" else "false"
  | number n => numberText n
  | string s => quote s
  | array elements => bracketed "[" "]" (elementTexts elements)
  | object members => bracketed "\x7b" "\x7d" (memberTexts members)

def elementTexts : List Json → List String
  | [] => []
  | j :: rest => j.text :: elementTexts rest

def memberTexts : List (String × Json) → List String
  | [] => []
  | (key, j) :: rest => (quote key ++ ":" ++ j.text) :: memberTexts rest

end

end SqlPlan.Json
