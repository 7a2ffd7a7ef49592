import SqlPlan.Text.CaseTable

namespace SqlPlan.Text

open CaseTable

def isIn (c : Char) (ranges : List (Nat × Nat)) : Bool :=
  ranges.any fun (first, last) => first ≤ c.toNat && c.toNat ≤ last

def isCased (c : Char) : Bool := isIn c casedRanges

def isMark (c : Char) : Bool := isIn c markRanges || singleMarks.contains c.toNat

def isCaseIgnorable (c : Char) : Bool :=
  isMark c || isIn c ignorableRanges || singleIgnorables.contains c.toNat

/-- The distance of a character to its lower-case form, if that is one other character. -/
def lowerShift? (c : Char) : Option Int :=
  let n := c.toNat
  match shiftedRanges.find? fun (first, last, _) => first ≤ n && n ≤ last with
  | some (_, _, shift) => some shift
  | none =>
    if alternatingRanges.any fun (first, last) => first ≤ n && n ≤ last && (n - first) % 2 == 0 then some 1
    else shiftedChars.lookup n

/-- The lower-case form of a character that has a one-character form; others stay. -/
def lowerChar (c : Char) : Char :=
  match lowerShift? c with
  | some shift => Char.ofNat ((c.toNat : Int) + shift).toNat
  | none => c

/-- Whether the first character that is not case-ignorable is cased. -/
def startsCased (cs : List Char) : Bool :=
  match cs.dropWhile isCaseIgnorable with
  | [] => false
  | c :: _ => isCased c

/-- Lower case of `after`, where `before` holds the preceding characters, nearest first. -/
def lowerFrom (before : List Char) : (after : List Char) → List Char
  | [] => []
  | c :: rest =>
    let low :=
      if c = '\u03A3' then [if startsCased before && !startsCased rest then '\u03C2' else '\u03C3']
      else if c = '\u0130' then ['i', '\u0307']
      else [lowerChar c]
    low ++ lowerFrom (c :: before) rest

def lowercase (s : String) : String := String.ofList (lowerFrom [] s.toList)

end SqlPlan.Text
