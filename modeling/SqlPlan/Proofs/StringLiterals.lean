import Mathlib.Data.List.Basic
import SqlPlan.Proofs.Success

namespace SqlPlan

open List (Forall₂)

namespace Text

theorem collapseQuotes_cons {quote c : Char} (hc : c ≠ quote) (cs : List Char) :
    collapseQuotes quote (c :: cs) = c :: collapseQuotes quote cs := by
  cases cs with
  | nil => rfl
  | cons d cs => simp [collapseQuotes, hc]

/-- Quotes that were doubled are collapsed to what they were, in whatever runs they stand. -/
theorem collapseQuotes_doubleQuotes (quote : Char) (cs : List Char) :
    collapseQuotes quote (doubleQuotes quote cs) = cs := by
  induction cs with
  | nil => rfl
  | cons c cs ih =>
    by_cases hc : c = quote
    · simp [doubleQuotes, collapseQuotes, hc, ih]
    · rw [doubleQuotes, if_neg hc, collapseQuotes_cons hc, ih]

theorem doubleQuotes_of_not_mem {quote : Char} {cs : List Char} (h : quote ∉ cs) :
    doubleQuotes quote cs = cs := by
  induction cs with
  | nil => rfl
  | cons c cs ih =>
    rw [List.mem_cons, not_or] at h
    rw [doubleQuotes, if_neg (Ne.symm h.1), ih h.2]

theorem stripEnd?_append (c : Char) (cs : List Char) : stripEnd? c (cs ++ [c]) = some cs := by
  simp [stripEnd?, stripStart?]

theorem hexValue?_hexDigit (upper : Bool) {n : ℕ} (h : n < 16) : hexValue? (hexDigit upper n) = some n := by
  have hall : ∀ upper, ∀ n < 16, hexValue? (hexDigit upper n) = some n := by decide
  exact hall upper n h

theorem hexDigit_ne_singleQuote (upper : Bool) {n : ℕ} (h : n < 16) : hexDigit upper n ≠ singleQuote := by
  have hall : ∀ upper, ∀ n < 16, hexDigit upper n ≠ singleQuote := by decide
  exact hall upper n h

end Text

namespace StringKind

def marks : StringKind → List Char
  | character => []
  | octet => ['X', 'x']
  | bit => ['B', 'b']

def literal : StringKind → List String → Literal
  | character => .character
  | octet => .octet
  | bit => .bit

/-- Whether a token quotes the characters, with a mark before the first quote or without. -/
def Quotes (kind : StringKind) (piece : List Char) (token : String) : Prop :=
  ∃ mark : Option Char, (∀ c ∈ mark, c ∈ kind.marks) ∧ token.toList =
    mark.toList ++ Text.singleQuote :: Text.doubleQuotes Text.singleQuote piece ++ [Text.singleQuote]

theorem unquote?_of_quotes {kind : StringKind} {piece : List Char} {token : String}
    (h : kind.Quotes piece token) : Text.unquote? kind.marks token = some piece := by
  obtain ⟨mark, hmark, htoken⟩ := h
  cases mark with
  | none =>
    have hquote : Text.singleQuote ∉ kind.marks := by cases kind <;> decide
    simp [Text.unquote?, htoken, hquote, Text.stripStart?, Text.stripEnd?_append,
      Text.collapseQuotes_doubleQuotes]
  | some c =>
    have hc : c ∈ kind.marks := hmark c rfl
    simp [Text.unquote?, htoken, hc, Text.stripStart?, Text.stripEnd?_append, Text.collapseQuotes_doubleQuotes]

end StringKind

namespace Literal

variable {pieces : List (List Char)} {tokens : List String}

theorem characters_of_quotes (h : Forall₂ StringKind.character.Quotes pieces tokens) :
    characters tokens = .ok pieces.flatten := by
  induction h with
  | nil => rfl
  | @cons piece token pieces tokens hpiece _ ih =>
    have hbody : Text.unquote? [] token = some piece := StringKind.unquote?_of_quotes hpiece
    rw [characters, hbody, ih]
    rfl

theorem bits_of_quotes (h : Forall₂ StringKind.bit.Quotes pieces tokens) {bs : List Bool}
    (hbits : pieces.flatten.mapM bit? = some bs) : bits tokens = .ok bs := by
  induction h generalizing bs with
  | nil =>
    cases hbits
    rfl
  | @cons piece token pieces tokens hpiece _ ih =>
    have hbody : Text.unquote? ['B', 'b'] token = some piece := StringKind.unquote?_of_quotes hpiece
    simp only [List.flatten_cons, List.mapM_append, Option.bind_eq_bind, Option.bind_eq_some_iff] at hbits
    obtain ⟨here, hhere, rest, hrest, hjoined⟩ := hbits
    cases hjoined
    rw [bits, hbody, Option.getD_some, hhere, ih hrest]
    rfl

theorem octets_of_quotes (h : Forall₂ StringKind.octet.Quotes pieces tokens) {bytes : List UInt8}
    (hbytes : octets? pieces.flatten = some bytes) : octets tokens = .ok bytes := by
  have hdigits : tokens.flatMap (fun token => (Text.unquote? ['X', 'x'] token).getD []) = pieces.flatten := by
    clear hbytes
    induction h with
    | nil => rfl
    | @cons piece token pieces tokens hpiece _ ih =>
      have hbody : Text.unquote? ['X', 'x'] token = some piece := StringKind.unquote?_of_quotes hpiece
      rw [List.flatMap_cons, ih, hbody, Option.getD_some, List.flatten_cons]
  rw [octets, hdigits, hbytes]

theorem mapM_bit? (bs : List Bool) : (bs.map fun b => if b then '1' else '0').mapM bit? = some bs := by
  induction bs with
  | nil => rfl
  | cons b bs ih =>
    rw [List.map_cons, List.mapM_cons, ih]
    cases b <;> rfl

theorem octets?_hex (upper : Bool) (bytes : List UInt8) :
    octets? (bytes.flatMap fun b => Text.hex upper 2 b.toNat) = some bytes := by
  induction bytes with
  | nil => rfl
  | cons b bytes ih =>
    have hhigh : b.toNat / 16 % 16 < 16 := Nat.mod_lt _ (by decide)
    have hlow : b.toNat % 16 < 16 := Nat.mod_lt _ (by decide)
    have hbyte : 16 * (b.toNat / 16 % 16) + b.toNat % 16 = b.toNat := by
      have := b.toNat_lt
      omega
    have hdigits : Text.hex upper 2 b.toNat =
        [Text.hexDigit upper (b.toNat / 16 % 16), Text.hexDigit upper (b.toNat % 16)] := rfl
    rw [List.flatMap_cons, hdigits]
    simp only [List.cons_append, List.nil_append, octets?, Text.hexValue?_hexDigit upper hhigh,
      Text.hexValue?_hexDigit upper hlow, ih, Option.bind_eq_bind, Option.bind_some, hbyte, UInt8.ofNat_toNat]
    rfl

end Literal

/-- The characters that a string value is written with, where hexadecimal digits have either case. -/
inductive Value.Written : Value → StringKind → List Char → Prop where
  | character (s : String) : Written (.character s) .character s.toList
  | octet (upper : Bool) (bytes : List UInt8) : Written (.octet bytes) .octet (octetText upper bytes).toList
  | bit (bs : List Bool) : Written (.bit bs) .bit (bitText bs).toList

namespace Value

theorem singleQuote_notMem_bitText (bs : List Bool) : Text.singleQuote ∉ (bitText bs).toList := by
  rw [bitText, String.toList_ofList, List.mem_map]
  rintro ⟨b, -, hb⟩
  cases b <;> cases hb

theorem singleQuote_notMem_octetText (upper : Bool) (bytes : List UInt8) :
    Text.singleQuote ∉ (octetText upper bytes).toList := by
  rw [octetText, String.toList_ofList, List.mem_flatMap]
  rintro ⟨b, -, hb⟩
  have hdigits : Text.hex upper 2 b.toNat =
      [Text.hexDigit upper (b.toNat / 16 % 16), Text.hexDigit upper (b.toNat % 16)] := rfl
  rw [hdigits] at hb
  rcases List.mem_pair.mp hb with hb | hb
  · exact Text.hexDigit_ne_singleQuote upper (Nat.mod_lt _ (by decide)) hb.symm
  · exact Text.hexDigit_ne_singleQuote upper (Nat.mod_lt _ (by decide)) hb.symm

theorem quotes_text_character (body : String) :
    StringKind.character.Quotes body.toList (character body).text := by
  have htext : (character body).text = Text.quoted Text.singleQuote body := rfl
  refine ⟨none, by simp, ?_⟩
  rw [htext, Text.quoted, String.toList_ofList]
  rfl

theorem quotes_text_octet (bytes : List UInt8) :
    StringKind.octet.Quotes (octetText true bytes).toList (octet bytes).text := by
  have htext : (octet bytes).text = "X'" ++ octetText true bytes ++ "'" := rfl
  refine ⟨some 'X', by simp [StringKind.marks], ?_⟩
  rw [Text.doubleQuotes_of_not_mem (singleQuote_notMem_octetText true bytes), htext]
  simp [Text.singleQuote]

theorem quotes_text_bit (bs : List Bool) : StringKind.bit.Quotes (bitText bs).toList (bit bs).text := by
  have htext : (bit bs).text = "B'" ++ bitText bs ++ "'" := rfl
  refine ⟨some 'B', by simp [StringKind.marks], ?_⟩
  rw [Text.doubleQuotes_of_not_mem (singleQuote_notMem_bitText bs), htext]
  simp [Text.singleQuote]

/-- The text of a string value is a token of its kind. -/
theorem exists_quotes_text {v : Value} {kind : StringKind} {cs : List Char} (h : v.Written kind cs) :
    ∃ ds, v.Written kind ds ∧ kind.Quotes ds v.text := by
  cases h with
  | character body => exact ⟨body.toList, .character body, quotes_text_character body⟩
  | octet _ bytes => exact ⟨(octetText true bytes).toList, .octet true bytes, quotes_text_octet bytes⟩
  | bit bs => exact ⟨(bitText bs).toList, .bit bs, quotes_text_bit bs⟩

end Value

namespace Literal

variable {σ : Type} {s : σ} {env : Environment} {kind : StringKind} {v : Value} {cs : List Char}

theorem resolve_of_constant {tokens : List String} {type : SqlType}
    (h : (kind.literal tokens).constant env.options = .ok (v, type)) :
    ((kind.literal tokens).resolve none : Step σ Typed) env s = (.ok (.constant v type), s) := by
  rw [resolve_eq]
  have htyped : (kind.literal tokens).typed env.options none = .ok (.constant v type) := by
    cases kind <;> (simp only [StringKind.literal, typed] at h ⊢; rw [h]; rfl)
  rw [htyped]

/-- The pieces of the characters that a value is written with denote the value, each in a token of its own. -/
theorem resolve_pieces (hv : v.Written kind cs) {pieces : List (List Char)} {tokens : List String}
    (hpieces : pieces.flatten = cs) (htokens : Forall₂ kind.Quotes pieces tokens) :
    ((kind.literal tokens).resolve none : Step σ Typed) env s =
      (.ok (.constant v (.string kind true none)), s) := by
  cases hv with
  | character body =>
    refine resolve_of_constant ?_
    rw [StringKind.literal, constant, characters_of_quotes htokens, hpieces]
    simp [Except.map]
  | octet upper bytes =>
    refine resolve_of_constant ?_
    have hbytes : octets? pieces.flatten = some bytes := by
      rw [hpieces, Value.octetText, String.toList_ofList, octets?_hex]
    rw [StringKind.literal, constant, octets_of_quotes htokens hbytes]
    rfl
  | bit bs =>
    refine resolve_of_constant ?_
    have hbits : pieces.flatten.mapM bit? = some bs := by
      rw [hpieces, Value.bitText, String.toList_ofList, mapM_bit?]
    rw [StringKind.literal, constant, bits_of_quotes htokens hbits]
    rfl

/-- String literals denote what was written: a character string the body that it was made of, the text of a
string value that value, and so do tokens that quote consecutive pieces of what the value is written with. -/
theorem resolve_string (env : Environment) (s : σ) :
    (∀ body : String, ((ofString body).resolve none : Step σ Typed) env s =
      (.ok (.constant (.character body) .flexibleVarchar), s)) ∧
    ∀ (v : Value) (kind : StringKind) (cs : List Char), v.Written kind cs →
      ((kind.literal [v.text]).resolve none : Step σ Typed) env s =
        (.ok (.constant v (.string kind true none)), s) ∧
      ∀ (pieces : List (List Char)) (tokens : List String), pieces.flatten = cs →
        Forall₂ kind.Quotes pieces tokens → ((kind.literal tokens).resolve none : Step σ Typed) env s =
          (.ok (.constant v (.string kind true none)), s) := by
  have htext (v : Value) (kind : StringKind) (cs : List Char) (hv : v.Written kind cs) :
      ((kind.literal [v.text]).resolve none : Step σ Typed) env s =
        (.ok (.constant v (.string kind true none)), s) := by
    obtain ⟨ds, hds, hquotes⟩ := Value.exists_quotes_text hv
    exact resolve_pieces hds (List.flatten_singleton) (.cons hquotes .nil)
  refine ⟨fun body => ?_, fun v kind cs hv => ⟨htext v kind cs hv, ?_⟩⟩
  · have hbody : ofString body = StringKind.character.literal [(Value.character body).text] := rfl
    rw [hbody]
    exact htext (.character body) .character body.toList (.character body)
  · intro pieces tokens hpieces htokens
    exact resolve_pieces hv hpieces htokens

end Literal

/-- The byte `0xC3` with its digits in two tokens, the second one without a mark. -/
theorem Literal.resolve_string_splitByte :
    ((Literal.octet ["x'c'", "'3'"]).resolve none : Analysis Typed) { catalog := { name := "db" } } 0 =
      (.ok (.constant (.octet [0xC3]) (.string .octet true none)), 0) := by
  obtain ⟨-, hstrings⟩ := resolve_string { catalog := { name := "db" } } (0 : ℕ)
  obtain ⟨-, hpieces⟩ := hstrings (.octet [0xC3]) .octet _ (.octet false [0xC3])
  have hfirst : StringKind.octet.Quotes ['c'] "x'c'" := ⟨some 'x', by simp [StringKind.marks], by decide⟩
  have hsecond : StringKind.octet.Quotes ['3'] "'3'" := ⟨none, by simp, by decide⟩
  exact hpieces [['c'], ['3']] _ (by decide) (.cons hfirst (.cons hsecond .nil))

end SqlPlan
