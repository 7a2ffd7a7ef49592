import SqlPlan.Text.Chars
import SqlPlan.Text.Lowercase

namespace SqlPlan.Text

/-- Ranges of controls, formats, separators other than the space, private characters and
noncharacters. -/
def shapelessRanges : List (Nat × Nat) :=
  [(0x0, 0x1F), (0x7F, 0xA0), (0xAD, 0xAD), (0x600, 0x605), (0x61C, 0x61C), (0x6DD, 0x6DD),
   (0x70F, 0x70F), (0x890, 0x891), (0x8E2, 0x8E2), (0x1680, 0x1680), (0x180E, 0x180E),
   (0x2000, 0x200F), (0x2028, 0x202F), (0x205F, 0x2064), (0x2066, 0x206F), (0x3000, 0x3000),
   (0xE000, 0xF8FF), (0xFDD0, 0xFDEF), (0xFEFF, 0xFEFF), (0xFFF9, 0xFFFB), (0xFFFE, 0xFFFF),
   (0x110BD, 0x110BD), (0x110CD, 0x110CD), (0x13430, 0x13438), (0x1BCA0, 0x1BCA3),
   (0x1D173, 0x1D17A), (0x1FFFE, 0x1FFFF), (0x2FFFE, 0x2FFFF), (0x3FFFE, 0x3FFFF),
   (0x4FFFE, 0x4FFFF), (0x5FFFE, 0x5FFFF), (0x6FFFE, 0x6FFFF), (0x7FFFE, 0x7FFFF),
   (0x8FFFE, 0x8FFFF), (0x9FFFE, 0x9FFFF), (0xAFFFE, 0xAFFFF), (0xBFFFE, 0xBFFFF),
   (0xCFFFE, 0xCFFFF), (0xDFFFE, 0xDFFFF), (0xE0001, 0xE0001), (0xE0020, 0xE007F),
   (0xEFFFE, 0x10FFFF)]

/-- Ranges of marks with a width of their own that combine with the character before them. -/
def spacingMarkRanges : List (Nat × Nat) :=
  [(0x9BE, 0x9BE), (0x9D7, 0x9D7), (0xB3E, 0xB3E), (0xB57, 0xB57), (0xBBE, 0xBBE), (0xBD7, 0xBD7),
   (0xCC2, 0xCC2), (0xCD5, 0xCD6), (0xD3E, 0xD3E), (0xD57, 0xD57), (0xDCF, 0xDCF), (0xDDF, 0xDDF),
   (0x1B35, 0x1B35), (0x302E, 0x302F), (0x1133E, 0x1133E), (0x11357, 0x11357), (0x114B0, 0x114B0),
   (0x114BD, 0x114BD), (0x115AF, 0x115AF), (0x11930, 0x11930), (0x1D165, 0x1D165),
   (0x1D16E, 0x1D172)]

def isVisible (c : Char) : Bool := !isIn c shapelessRanges && !isMark c && !isIn c spacingMarkRanges

def numericEscape (c : Char) : List Char :=
  ['\\', 'u', '\x7b'] ++ Nat.toDigits 16 c.toNat ++ ['\x7d']

def visible (c : Char) : List Char :=
  if c = '\x22' then ['\\', '\x22']
  else if c = '\\' then ['\\', '\\']
  else if c = '\n' then ['\\', 'n']
  else if c = '\r' then ['\\', 'r']
  else if c = '\t' then ['\\', 't']
  else if c = '\x00' then ['\\', '0']
  else if isVisible c then [c]
  else numericEscape c

def visiblyQuoted (s : String) : String :=
  String.ofList ('\x22' :: s.toList.flatMap visible ++ ['\x22'])

def visibleList (texts : List String) : String :=
  "[" ++ joinWith ", " (texts.map visiblyQuoted) ++ "]"

end SqlPlan.Text
