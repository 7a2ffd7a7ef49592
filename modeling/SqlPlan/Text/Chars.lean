namespace SqlPlan.Text

/-- White space in the sense of the Unicode property of that name. -/
def isBlank (c : Char) : Bool :=
  let n := c.toNat
  (0x9 ≤ n && n ≤ 0xD) || n == 0x20 || n == 0x85 || n == 0xA0 || n == 0x1680 ||
    (0x2000 ≤ n && n ≤ 0x200A) || n == 0x2028 || n == 0x2029 || n == 0x202F || n == 0x205F ||
    n == 0x3000

def trimStart (cs : List Char) : List Char := cs.dropWhile isBlank

def trimEnd (cs : List Char) : List Char := (cs.reverse.dropWhile isBlank).reverse

def trim (cs : List Char) : List Char := trimEnd (trimStart cs)

/-- The parts before and after the first character that satisfies `p`. -/
def splitFirst? (p : Char → Bool) : List Char → Option (List Char × List Char)
  | [] => none
  | c :: rest =>
    if p c then some ([], rest) else (splitFirst? p rest).map fun (before, after) => (c :: before, after)

/-- The pieces between the characters that satisfy `p`; there is always at least one piece. -/
def splitAll (p : Char → Bool) : List Char → List (List Char)
  | [] => [[]]
  | c :: rest =>
    if p c then [] :: splitAll p rest
    else match splitAll p rest with
      | [] => [[c]]
      | piece :: pieces => (c :: piece) :: pieces

/-- The part before the last character that satisfies `p`, and the part that starts with it. -/
def splitLast? (p : Char → Bool) (cs : List Char) : Option (List Char × List Char) :=
  match splitFirst? p cs.reverse, cs.reverse.find? p with
  | some (after, before), some c => some (before.reverse, c :: after.reverse)
  | _, _ => none

def stripStart? (c : Char) : List Char → Option (List Char)
  | [] => none
  | d :: rest => if d = c then some rest else none

def stripEnd? (c : Char) (cs : List Char) : Option (List Char) :=
  (stripStart? c cs.reverse).map List.reverse

def joinWith (separator : String) : List String → String
  | [] => ""
  | s :: rest => rest.foldl (fun joined t => joined ++ separator ++ t) s

def isDigit (c : Char) : Bool := '0' ≤ c && c ≤ '9'

def digitValue (c : Char) : Nat := c.toNat - '0'.toNat

def natOfDigits (cs : List Char) : Nat := cs.foldl (fun n c => 10 * n + digitValue c) 0

def nat? (cs : List Char) : Option Nat :=
  if !cs.isEmpty && cs.all isDigit then some (natOfDigits cs) else none

/-- Decimal digits after an optional plus sign, denoting a number below `bound`. -/
def natBelow? (bound : Nat) (cs : List Char) : Option Nat := do
  let n ← nat? ((stripStart? '+' cs).getD cs)
  if n < bound then some n else none

def int? (cs : List Char) : Option Int :=
  match stripStart? '-' cs with
  | some rest => (nat? rest).map fun n => -(n : Int)
  | none => (nat? ((stripStart? '+' cs).getD cs)).map fun n => (n : Int)

def digits (n : Nat) : List Char := Nat.toDigits 10 n

def padded (width n : Nat) : String :=
  String.ofList (List.replicate (width - (digits n).length) '0' ++ digits n)

def ofNat (n : Nat) : String := String.ofList (digits n)

def ofInt : Int → String
  | .ofNat n => ofNat n
  | .negSucc n => "-" ++ ofNat (n + 1)

def hexDigit (upper : Bool) (n : Nat) : Char :=
  if n < 10 then Char.ofNat ('0'.toNat + n)
  else Char.ofNat ((if upper then 'A' else 'a').toNat + (n - 10))

/-- The last `width` hexadecimal digits of a number. -/
def hex (upper : Bool) : Nat → Nat → List Char
  | 0, _ => []
  | width + 1, n => hex upper width (n / 16) ++ [hexDigit upper (n % 16)]

def hexValue? (c : Char) : Option Nat :=
  if isDigit c then some (digitValue c)
  else if 'a' ≤ c && c ≤ 'f' then some (c.toNat - 'a'.toNat + 10)
  else if 'A' ≤ c && c ≤ 'F' then some (c.toNat - 'A'.toNat + 10)
  else none

def lowerAscii (c : Char) : Char :=
  if 'A' ≤ c && c ≤ 'Z' then Char.ofNat (c.toNat + 32) else c

end SqlPlan.Text
