import Mathlib.Data.List.Forall2
import SqlPlan.Proofs.PlanColumns
import SqlPlan.Proofs.StringLiterals
import SqlPlan.Proofs.WrittenConstants

namespace SqlPlan

variable {c : Char} {rest : List Char} {v : Value} {bs : List Bool} {bytes : List UInt8}

open List (Forall₂)

namespace Text

theorem forall_char_lt {bound : ℕ} {P : Char → Prop} (h : ∀ n < bound, P (Char.ofNat n)) (hc : c.toNat < bound) :
    P c := by
  have hp := h c.toNat hc
  rwa [Char.ofNat_toNat] at hp

def IsHexDigit (c : Char) : Prop := ('0' ≤ c ∧ c ≤ '9') ∨ ('a' ≤ c ∧ c ≤ 'f') ∨ ('A' ≤ c ∧ c ≤ 'F')

theorem isSome_hexValue?_iff : (hexValue? c).isSome = true ↔ IsHexDigit c := by
  unfold hexValue? IsHexDigit isDigit
  split_ifs <;> simp_all

theorem IsHexDigit.toNat_lt (h : IsHexDigit c) : c.toNat < 103 := by
  have hle : ∀ d : Char, c ≤ d → c.toNat ≤ d.toNat := fun d hd => hd
  rcases h with h | h | h <;> exact Nat.lt_of_le_of_lt (hle _ h.2) (by decide)

theorem lowerAscii_of_hexValue? {n : ℕ} (h : hexValue? c = some n) : n < 16 ∧ lowerAscii c = hexDigit false n := by
  have hlt := (isSome_hexValue?_iff.mp (h ▸ rfl : (hexValue? c).isSome = true)).toNat_lt
  exact forall_char_lt (P := fun c => ∀ n ∈ hexValue? c, n < 16 ∧ lowerAscii c = hexDigit false n)
    (by decide) hlt n h

theorem hexValue?_lowerAscii (c : Char) : hexValue? (lowerAscii c) = hexValue? c := by
  by_cases h : c.toNat < 91
  · exact forall_char_lt (P := fun c => hexValue? (lowerAscii c) = hexValue? c) (by decide) h
  · rw [lowerAscii, if_neg]
    simp only [Bool.and_eq_true, decide_eq_true_eq, not_and]
    exact fun _ hle => h (Nat.lt_succ_of_le hle)

theorem stripStart?_eq_some_iff {cs : List Char} : stripStart? c cs = some rest ↔ cs = c :: rest := by
  cases cs with
  | nil => simp [stripStart?]
  | cons d cs =>
    rw [stripStart?]
    split <;> simp_all

theorem stripEnd?_eq_some_iff {cs : List Char} : stripEnd? c cs = some rest ↔ cs = rest ++ [c] := by
  simp only [stripEnd?, Option.map_eq_some_iff, stripStart?_eq_some_iff]
  constructor
  · rintro ⟨front, hcs, rfl⟩
    rw [← cs.reverse_reverse, hcs, List.reverse_cons]
  · rintro rfl
    exact ⟨rest.reverse, by simp, rest.reverse_reverse⟩

end Text

namespace StringKind

variable {kind : StringKind} {token : String} {tokens : List String} {body cs : List Char}

/-- The token is a body in single quotes, with a mark before the first quote or without. Two quotes in a row
within the body stand for one. -/
def Encloses (kind : StringKind) (body : List Char) (token : String) : Prop :=
  ∃ (mark : Option Char) (inner : List Char), (∀ c ∈ mark, c ∈ kind.marks) ∧
    token.toList = mark.toList ++ Text.singleQuote :: inner ++ [Text.singleQuote] ∧
    body = Text.collapseQuotes Text.singleQuote inner

theorem unquote?_eq_some_iff : Text.unquote? kind.marks token = some body ↔ kind.Encloses body token := by
  constructor
  · intro h
    simp only [Text.unquote?, Option.bind_eq_bind, Option.bind_eq_some_iff, Text.stripStart?_eq_some_iff,
      Text.stripEnd?_eq_some_iff, Option.pure_def, Option.some.injEq] at h
    obtain ⟨opened, hbare, inner, rfl, rfl⟩ := h
    -- What is left without the mark starts with the first quote.
    rcases htoken : token.toList with _ | ⟨c, rest⟩
    · rw [htoken] at hbare
      cases hbare
    · simp only [htoken] at hbare
      split at hbare
      · next hc =>
        refine ⟨some c, inner, ?_, by rw [htoken, hbare]; rfl, rfl⟩
        rintro _ ⟨⟩
        exact List.contains_iff_mem.mp hc
      · exact ⟨none, inner, by simp, htoken.trans hbare, rfl⟩
  · rintro ⟨mark, inner, hmark, htoken, rfl⟩
    cases mark with
    | none =>
      have hquote : Text.singleQuote ∉ kind.marks := by cases kind <;> decide
      simp [Text.unquote?, htoken, hquote, Text.stripStart?, Text.stripEnd?_append]
    | some c => simp [Text.unquote?, htoken, hmark c rfl, Text.stripStart?, Text.stripEnd?_append]

def Quoted (kind : StringKind) (token : String) : Prop := ∃ body, kind.Encloses body token

theorem quoted_iff : kind.Quoted token ↔ (Text.unquote? kind.marks token).isSome = true := by
  rw [Option.isSome_iff_exists]
  exact exists_congr fun body => unquote?_eq_some_iff.symm

instance (kind : StringKind) (token : String) : Decidable (kind.Quoted token) := decidable_of_iff' _ quoted_iff

theorem encloses_filter_iff {bodies : List (List Char)} :
    Forall₂ kind.Encloses bodies (tokens.filter kind.Quoted) ↔
      bodies = tokens.filterMap (Text.unquote? kind.marks) := by
  induction tokens generalizing bodies with
  | nil => rw [List.filter_nil, List.filterMap_nil, List.forall₂_nil_right_iff]
  | cons token tokens ih =>
    cases hbody : Text.unquote? kind.marks token with
    | none =>
      have hnot : ¬kind.Quoted token := by simp [quoted_iff, hbody]
      rw [List.filter_cons_of_neg (by simpa using hnot), List.filterMap_cons_none hbody, ih]
    | some body =>
      have hquoted : kind.Quoted token := ⟨body, unquote?_eq_some_iff.mp hbody⟩
      rw [List.filter_cons_of_pos (by simpa using hquoted), List.filterMap_cons_some hbody,
        List.forall₂_cons_right_iff]
      simp only [ih, ← unquote?_eq_some_iff, hbody]
      simp

/-- The characters that strings of the kind are written with. -/
def Admits : StringKind → List Char → Prop
  | character, _ => True
  | bit, cs => ∀ c ∈ cs, c = '0' ∨ c = '1'
  | octet, cs => (∀ c ∈ cs, Text.IsHexDigit c) ∧ cs.length % 2 = 0

/-- The value that the characters write, where hexadecimal digits have either case. -/
inductive Writes : StringKind → List Char → Value → Prop where
  | character (s : String) : Writes .character s.toList (.character s)
  | bit (bs : List Bool) : Writes .bit (Value.bitText bs).toList (.bit bs)
  | octet {cs : List Char} {bytes : List UInt8} :
      cs.map Text.lowerAscii = (Value.octetText false bytes).toList → Writes .octet cs (.octet bytes)

theorem writes_character_iff : Writes .character cs v ↔ v = .character (String.ofList cs) := by
  constructor
  · rintro ⟨s⟩
    rw [String.ofList_toList]
  · rintro rfl
    have h := Writes.character (String.ofList cs)
    rwa [String.toList_ofList] at h

/-- The tokens are bodies in quotes, and their bodies, joined, write the value. -/
def Reads (kind : StringKind) (tokens : List String) (v : Value) : Prop :=
  ∃ bodies, Forall₂ kind.Encloses bodies tokens ∧ kind.Admits bodies.flatten ∧ kind.Writes bodies.flatten v

end StringKind

namespace Literal

open StringKind

variable {cs : List Char} {tokens : List String}

theorem mapM_bit?_eq_some_iff : cs.mapM bit? = some bs ↔ cs = (Value.bitText bs).toList := by
  have hbit : ∀ {c : Char} {b : Bool}, bit? c = some b → c = if b then '1' else '0' := by
    intro c b h
    unfold bit? at h
    split at h <;> cases h <;> rfl
  rw [Value.bitText, String.toList_ofList]
  constructor
  · intro h
    induction cs generalizing bs with
    | nil =>
      cases h
      rfl
    | cons c cs ih =>
      simp only [List.mapM_cons, Option.bind_eq_bind, Option.bind_eq_some_iff, Option.pure_def,
        Option.some.injEq] at h
      obtain ⟨b, hb, rest, hrest, rfl⟩ := h
      rw [List.map_cons, ← hbit hb, ← ih hrest]
  · rintro rfl
    exact mapM_bit? bs

theorem octets?_lowerAscii (cs : List Char) : octets? (cs.map Text.lowerAscii) = octets? cs := by
  fun_induction octets? cs with
  | case1 => rfl
  | case2 => rfl
  | case3 a b rest ih => simp only [List.map_cons, octets?, Text.hexValue?_lowerAscii, ih]

theorem octets?_eq_some_iff :
    octets? cs = some bytes ↔ cs.map Text.lowerAscii = (Value.octetText false bytes).toList := by
  rw [Value.octetText, String.toList_ofList]
  constructor
  · intro h
    fun_induction octets? cs generalizing bytes with
    | case1 =>
      cases h
      rfl
    | case2 => cases h
    | case3 a b rest ih =>
      simp only [Option.bind_eq_bind, Option.bind_eq_some_iff, Option.pure_def, Option.some.injEq] at h
      obtain ⟨high, hhigh, low, hlow, others, hothers, rfl⟩ := h
      obtain ⟨hhighlt, hhighdigit⟩ := Text.lowerAscii_of_hexValue? hhigh
      obtain ⟨hlowlt, hlowdigit⟩ := Text.lowerAscii_of_hexValue? hlow
      have hbyte : (UInt8.ofNat (16 * high + low)).toNat = 16 * high + low :=
        UInt8.toNat_ofNat_of_lt' (show 16 * high + low < 256 by omega)
      have hdigits : Text.hex false 2 (16 * high + low) = [Text.hexDigit false high, Text.hexDigit false low] := by
        have hh : (16 * high + low) / 16 % 16 = high := by omega
        have hl : (16 * high + low) % 16 = low := by omega
        simp only [Text.hex, hh, hl, List.nil_append, List.singleton_append]
      rw [List.map_cons, List.map_cons, List.flatMap_cons, hbyte, hdigits, hhighdigit, hlowdigit, ih hothers]
      rfl
  · intro h
    rw [← octets?_lowerAscii, h, octets?_hex]

theorem exists_octets?_iff : (∃ bytes, octets? cs = some bytes) ↔ StringKind.octet.Admits cs := by
  have hvalue : ∀ {c : Char}, Text.IsHexDigit c ↔ ∃ n, Text.hexValue? c = some n := by
    intro c
    rw [← Text.isSome_hexValue?_iff, Option.isSome_iff_exists]
  fun_induction octets? cs with
  | case1 => simp [Admits]
  | case2 => simp [Admits]
  | case3 a b rest ih =>
    have hlength : (rest.length + 1 + 1) % 2 = 0 ↔ rest.length % 2 = 0 := by omega
    simp only [Admits] at ih
    simp only [Admits, List.forall_mem_cons, List.length_cons, hlength, hvalue, Option.bind_eq_bind,
      Option.bind_eq_some_iff, Option.pure_def, Option.some.injEq]
    constructor
    · rintro ⟨_, high, ha, low, hb, others, hothers, rfl⟩
      obtain ⟨hdigits, heven⟩ := ih.mp ⟨others, hothers⟩
      simp only [hvalue] at hdigits
      exact ⟨⟨⟨high, ha⟩, ⟨low, hb⟩, hdigits⟩, heven⟩
    · rintro ⟨⟨⟨high, ha⟩, ⟨low, hb⟩, hdigits⟩, heven⟩
      simp only [← hvalue] at hdigits
      obtain ⟨others, hothers⟩ := ih.mpr ⟨hdigits, heven⟩
      exact ⟨_, high, ha, low, hb, others, hothers, rfl⟩

/-- Characters write a value if and only if they are those of the kind. -/
theorem exists_writes_iff {kind : StringKind} : (∃ v, kind.Writes cs v) ↔ kind.Admits cs := by
  cases kind with
  | character => simp [writes_character_iff, Admits]
  | octet =>
    rw [← exists_octets?_iff]
    simp only [octets?_eq_some_iff]
    constructor
    · rintro ⟨_, h⟩
      cases h with
      | octet hbytes => exact ⟨_, hbytes⟩
    · rintro ⟨_, hbytes⟩
      exact ⟨_, .octet hbytes⟩
  | bit =>
    constructor
    · rintro ⟨_, ⟨bs⟩⟩ c hc
      rw [Value.bitText, String.toList_ofList, List.mem_map] at hc
      obtain ⟨b, -, rfl⟩ := hc
      cases b with
      | false => exact .inl rfl
      | true => exact .inr rfl
    · intro h
      have hcs : cs = (Value.bitText (cs.map (· == '1'))).toList := by
        rw [Value.bitText, String.toList_ofList, List.map_map]
        refine (List.map_id cs).symm.trans (List.map_congr_left fun c hc => ?_)
        rcases h c hc with rfl | rfl <;> rfl
      have hbits := Writes.bit (cs.map (· == '1'))
      rw [← hcs] at hbits
      exact ⟨_, hbits⟩

theorem characters_eq_ok_iff : characters tokens = .ok cs ↔
    (∀ token ∈ tokens, StringKind.character.Quoted token) ∧
      cs = (tokens.filterMap (Text.unquote? StringKind.character.marks)).flatten := by
  induction tokens generalizing cs with
  | nil => simp [characters, eq_comm]
  | cons token tokens ih =>
    have hmarks : StringKind.character.marks = [] := rfl
    rw [List.forall_mem_cons, characters, ← hmarks]
    cases hbody : Text.unquote? StringKind.character.marks token with
    | none => simp [quoted_iff, hbody]
    | some body =>
      have hquoted : StringKind.character.Quoted token := ⟨body, unquote?_eq_some_iff.mp hbody⟩
      rw [List.filterMap_cons_some hbody, List.flatten_cons]
      cases hrest : characters tokens with
      | ok rest =>
        obtain ⟨hall, rfl⟩ := ih.mp hrest
        constructor
        · intro h
          cases h
          exact ⟨⟨hquoted, hall⟩, rfl⟩
        · rintro ⟨-, rfl⟩
          rfl
      | error d =>
        have hnot : ¬∀ token ∈ tokens, StringKind.character.Quoted token := by
          intro hall
          cases hrest.symm.trans (ih.mpr ⟨hall, rfl⟩)
        simp [Except.map, hnot]

theorem bits_eq_ok_iff : bits tokens = .ok bs ↔
    (tokens.filterMap (Text.unquote? StringKind.bit.marks)).flatten.mapM bit? = some bs := by
  induction tokens generalizing bs with
  | nil => simp [bits, eq_comm]
  | cons token tokens ih =>
    have hmarks : StringKind.bit.marks = ['B', 'b'] := rfl
    rw [bits, ← hmarks]
    cases hbody : Text.unquote? StringKind.bit.marks token with
    | none =>
      rw [List.filterMap_cons_none hbody, ← ih]
      cases bits tokens <;> simp [Except.map]
    | some body =>
      rw [List.filterMap_cons_some hbody, List.flatten_cons, List.mapM_append, Option.getD_some]
      cases hhere : body.mapM bit? with
      | none => simp
      | some here =>
        cases hrest : bits tokens with
        | ok rest => simp [Except.map, ih.mp hrest]
        | error d =>
          have hnone : (tokens.filterMap (Text.unquote? StringKind.bit.marks)).flatten.mapM bit? = none := by
            refine Option.eq_none_iff_forall_ne_some.mpr fun rest hsome => ?_
            cases hrest.symm.trans (ih.mpr hsome)
          simp [Except.map, hnone]

theorem octets_eq_ok_iff : octets tokens = .ok bytes ↔
    octets? (tokens.filterMap (Text.unquote? StringKind.octet.marks)).flatten = some bytes := by
  have hdigits : tokens.flatMap (fun token => (Text.unquote? StringKind.octet.marks token).getD []) =
      (tokens.filterMap (Text.unquote? StringKind.octet.marks)).flatten := by
    induction tokens with
    | nil => rfl
    | cons token tokens ih =>
      rw [List.flatMap_cons, ih]
      cases hbody : Text.unquote? StringKind.octet.marks token with
      | none => rw [List.filterMap_cons_none hbody, Option.getD_none, List.nil_append]
      | some body => rw [List.filterMap_cons_some hbody, Option.getD_some, List.flatten_cons]
  have hmarks : StringKind.octet.marks = ['X', 'x'] := rfl
  rw [octets, ← hmarks, hdigits]
  split <;> simp_all

/-- The string literals that denote a constant, and what they denote: the tokens in quotes write it, and in a
character string there are no others. -/
theorem constant_literal_iff {kind : StringKind} {o : Options} {t : SqlType} :
    (kind.literal tokens).constant o = .ok (v, t) ↔
      (kind = .character → ∀ token ∈ tokens, kind.Quoted token) ∧
        kind.Writes (tokens.filterMap (Text.unquote? kind.marks)).flatten v ∧ t = .string kind true none := by
  have hmap : ∀ {α β : Type} {x : Except LiteralFault α} {f : α → β} {b : β},
      x.map f = .ok b ↔ ∃ a, x = .ok a ∧ f a = b := by
    intro α β x f b
    cases x <;> simp [Except.map]
  cases kind with
  | character =>
    simp only [StringKind.literal, constant, hmap, characters_eq_ok_iff, writes_character_iff, Prod.mk.injEq]
    constructor
    · rintro ⟨_, ⟨hall, rfl⟩, rfl, rfl⟩
      exact ⟨fun _ => hall, rfl, rfl⟩
    · rintro ⟨hall, rfl, rfl⟩
      exact ⟨_, ⟨hall trivial, rfl⟩, rfl, rfl⟩
  | octet =>
    simp only [StringKind.literal, constant, hmap, octets_eq_ok_iff, octets?_eq_some_iff, Prod.mk.injEq]
    constructor
    · rintro ⟨bytes, hbytes, rfl, rfl⟩
      exact ⟨by simp, .octet hbytes, rfl⟩
    · rintro ⟨-, hbytes, rfl⟩
      cases hbytes with
      | octet hbytes => exact ⟨_, hbytes, rfl, rfl⟩
  | bit =>
    simp only [StringKind.literal, constant, hmap, bits_eq_ok_iff, mapM_bit?_eq_some_iff, Prod.mk.injEq]
    constructor
    · rintro ⟨bs, hbs, rfl, rfl⟩
      exact ⟨by simp, hbs ▸ .bit bs, rfl⟩
    · rintro ⟨-, hbits, rfl⟩
      generalize (tokens.filterMap (Text.unquote? StringKind.bit.marks)).flatten = cs at hbits
      cases hbits with
      | bit bs => exact ⟨bs, rfl, rfl, rfl⟩

/-- A string literal in a position is the constant that it denotes, and is refused if it denotes none. -/
theorem resolve_literal_iff {σ : Type} {env : Environment} {s s' : σ} {kind : StringKind} {target : Option Target}
    {x : Typed} : ((kind.literal tokens).resolve target : Step σ Typed) env s = (.ok x, s') ↔
      (∃ v, ((kind = .character → ∀ token ∈ tokens, kind.Quoted token) ∧
        kind.Writes (tokens.filterMap (Text.unquote? kind.marks)).flatten v) ∧
        x = .placed env.options target v (.string kind true none)) ∧ s = s' := by
  have hnull : kind.literal tokens ≠ .null := by cases kind <;> simp [StringKind.literal]
  have hdefault : kind.literal tokens ≠ .default := by cases kind <;> simp [StringKind.literal]
  rw [resolve_ok, typed_eq_map hnull hdefault]
  refine and_congr_left fun _ => ?_
  cases hconstant : (kind.literal tokens).constant env.options with
  | ok p =>
    obtain ⟨v, t⟩ := p
    obtain ⟨hall, hv, rfl⟩ := constant_literal_iff.mp hconstant
    constructor
    · intro h
      cases h
      exact ⟨v, ⟨hall, hv⟩, rfl⟩
    · rintro ⟨w, ⟨hall', hw⟩, rfl⟩
      cases hconstant.symm.trans (constant_literal_iff.mpr ⟨hall', hw, rfl⟩)
      rfl
  | error d =>
    constructor
    · intro h
      cases h
    · rintro ⟨w, ⟨hall, hw⟩, -⟩
      cases hconstant.symm.trans (constant_literal_iff.mpr ⟨hall, hw, rfl⟩)

variable {σ : Type}

/-- A string literal is accepted if the tokens in quotes hold what its kind is written with, and denotes what
they write. Only a character string has to have all of its tokens in quotes, so the value is that of all tokens
if and only if none of them was passed over. -/
theorem resolve_tokens (env : Environment) (s : σ) (kind : StringKind) (tokens : List String)
    (target : Option Target) :
    ((∃ x, ((kind.literal tokens).resolve target : Step σ Typed) env s = (.ok x, s)) ↔
      (kind = .character → ∀ token ∈ tokens, kind.Quoted token) ∧
        ∃ bodies, Forall₂ kind.Encloses bodies (tokens.filter kind.Quoted) ∧ kind.Admits bodies.flatten) ∧
    ∀ x s', ((kind.literal tokens).resolve target : Step σ Typed) env s = (.ok x, s') →
      ∃ v, x.expr.constant? = some (v, .string kind true none) ∧ kind.Reads (tokens.filter kind.Quoted) v ∧
        (kind.Reads tokens v ↔ ∀ token ∈ tokens, kind.Quoted token) := by
  constructor
  · simp only [resolve_literal_iff, encloses_filter_iff, exists_eq_left, ← exists_writes_iff, and_true]
    constructor
    · rintro ⟨x, v, ⟨hall, hv⟩, -⟩
      exact ⟨hall, v, hv⟩
    · rintro ⟨hall, v, hv⟩
      exact ⟨_, v, ⟨hall, hv⟩, rfl⟩
  · intro x s' h
    obtain ⟨⟨v, ⟨-, hv⟩, rfl⟩, -⟩ := resolve_literal_iff.mp h
    have hreads : kind.Reads (tokens.filter kind.Quoted) v :=
      ⟨_, encloses_filter_iff.mpr rfl, exists_writes_iff.mp ⟨v, hv⟩, hv⟩
    refine ⟨v, Typed.constant?_placed _ _ _ _, hreads, ?_, fun hall => ?_⟩
    · rintro ⟨bodies, hbodies, -⟩ token htoken
      obtain ⟨body, -, hbody⟩ := exists_of_forall₂ hbodies token htoken
      exact ⟨body, hbody⟩
    · rwa [List.filter_eq_self.mpr (by simpa using hall)] at hreads

end Literal

/-- The second token is not in quotes and is passed over: three bits are left as one, and two bytes as one. -/
theorem Literal.resolve_tokens_bare :
    (((Literal.bit ["B'1'", "10"]).resolve none : Analysis Typed) { catalog := { name := "db" } } 0 =
      (.ok (.constant (.bit [true]) (.string .bit true none)), 0) ∧ ¬StringKind.bit.Quoted "10") ∧
    ((Literal.octet ["X'0A'", "0b"]).resolve none : Analysis Typed) { catalog := { name := "db" } } 0 =
      (.ok (.constant (.octet [10]) (.string .octet true none)), 0) ∧ ¬StringKind.octet.Quoted "0b" := by
  exact ⟨⟨rfl, by decide⟩, rfl, by decide⟩

end SqlPlan
