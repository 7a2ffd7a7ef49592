import Mathlib.Data.Nat.Digits.Defs
import SqlPlan.Proofs.NumberRanges
import SqlPlan.Proofs.Sameness
import SqlPlan.Proofs.Success

namespace SqlPlan

variable {p : Char → Bool} {before after cs : List Char} {c : Char}

namespace Text

theorem splitFirst?_append (h : ∀ d ∈ before, p d = false) (hc : p c = true) :
    splitFirst? p (before ++ c :: after) = some (before, after) := by
  induction before with
  | nil => simp [splitFirst?, hc]
  | cons d before ih =>
    obtain ⟨hd, hbefore⟩ := List.forall_mem_cons.mp h
    simp [splitFirst?, hd, ih hbefore]

theorem splitFirst?_eq_none (h : ∀ d ∈ cs, p d = false) : splitFirst? p cs = none := by
  induction cs with
  | nil => rfl
  | cons d cs ih =>
    obtain ⟨hd, hcs⟩ := List.forall_mem_cons.mp h
    simp [splitFirst?, hd, ih hcs]

theorem exists_of_splitFirst? (h : splitFirst? p cs = some (before, after)) :
    ∃ c, p c = true ∧ cs = before ++ c :: after := by
  induction cs generalizing before with
  | nil => cases h
  | cons d cs ih =>
    rw [splitFirst?] at h
    split at h
    · next hd =>
      cases h
      exact ⟨d, hd, rfl⟩
    · obtain ⟨⟨front, _⟩, hsplit, hpair⟩ := Option.map_eq_some_iff.mp h
      cases hpair
      obtain ⟨c, hc, rfl⟩ := ih hsplit
      exact ⟨c, hc, rfl⟩

def placeValue (cs : List Char) : ℕ := Nat.ofDigits 10 (cs.reverse.map digitValue)

theorem placeValue_append (cs ds : List Char) :
    placeValue (cs ++ ds) = placeValue cs * 10 ^ ds.length + placeValue ds := by
  rw [placeValue, List.reverse_append, List.map_append, Nat.ofDigits_append, placeValue, placeValue,
    List.length_map, List.length_reverse]
  ring

theorem placeValue_singleton (c : Char) : placeValue [c] = digitValue c := by
  simp [placeValue]

theorem natOfDigits_eq (cs : List Char) : natOfDigits cs = placeValue cs := by
  induction cs using List.reverseRecOn with
  | nil => rfl
  | append_singleton cs c ih =>
    rw [placeValue_append, ← ih, placeValue_singleton, natOfDigits, natOfDigits, List.foldl_append]
    simp [Nat.mul_comm]

theorem toNat_of_isDigit (h : c.isDigit = true) : 48 ≤ c.toNat ∧ c.toNat ≤ 57 := by
  simpa [Char.isDigit, UInt32.le_iff_toNat_le] using h

theorem digitValue_lt (h : c.isDigit = true) : digitValue c < 10 := by
  have hc := toNat_of_isDigit h
  change c.toNat - 48 < 10
  omega

theorem digitValue_pos (h : c.isDigit = true) (hc : c ≠ '0') : 0 < digitValue c := by
  have hdigit := toNat_of_isDigit h
  have hne : c.toNat ≠ 48 := fun he => hc (Char.toNat_inj.mp he)
  change 0 < c.toNat - 48
  omega

/-- The digits from the first one other than `0` on. -/
def significant (cs : List Char) : List Char := cs.dropWhile (· == '0')

theorem placeValue_significant (cs : List Char) : placeValue (significant cs) = placeValue cs := by
  induction cs with
  | nil => rfl
  | cons c cs ih =>
    by_cases hc : c = '0'
    · subst hc
      rw [← List.singleton_append, placeValue_append, placeValue_singleton, ← ih]
      simp [significant, digitValue]
    · simp [significant, hc]

theorem placeValue_lt (h : ∀ c ∈ cs, c.isDigit = true) : placeValue cs < 10 ^ (significant cs).length := by
  rw [← placeValue_significant, placeValue]
  have hlt := Nat.ofDigits_lt_base_pow_length (b := 10) (l := (significant cs).reverse.map digitValue)
    (by decide) ?_
  · simpa using hlt
  · intro d hd
    obtain ⟨c, hc, rfl⟩ := List.mem_map.mp hd
    exact digitValue_lt (h c ((List.dropWhile_sublist _).mem (List.mem_reverse.mp hc)))

theorem pow_le_placeValue {rest : List Char} (h : ∀ c ∈ cs, c.isDigit = true) (hcs : significant cs = c :: rest) :
    10 ^ rest.length ≤ placeValue cs := by
  have hmem : c ∈ cs := (List.dropWhile_sublist _).mem (hcs ▸ List.mem_cons_self)
  have hne : c ≠ '0' := by
    have hhead := List.head?_dropWhile_not (· == '0') cs
    rw [significant] at hcs
    simpa [hcs] using hhead
  rw [← placeValue_significant, hcs, ← List.singleton_append, placeValue_append, placeValue_singleton]
  have hpos := digitValue_pos (h c hmem) hne
  calc 10 ^ rest.length
    _ ≤ digitValue c * 10 ^ rest.length := Nat.le_mul_of_pos_left _ hpos
    _ ≤ digitValue c * 10 ^ rest.length + placeValue rest := Nat.le_add_right _ _

theorem length_digits_placeValue (h : ∀ c ∈ cs, c.isDigit = true) :
    (digits (placeValue cs)).length = max 1 (significant cs).length := by
  have hpos : 0 < (digits (placeValue cs)).length := Nat.length_toDigits_pos
  refine Nat.le_antisymm ?_ (Nat.max_le.mpr ⟨hpos, ?_⟩)
  · refine (Nat.length_toDigits_le_iff (by decide) (by omega)).mpr ?_
    exact (placeValue_lt h).trans_le (Nat.pow_le_pow_right (by decide) (Nat.le_max_right _ _))
  · rcases hcs : significant cs with _ | ⟨c, rest⟩
    · exact Nat.zero_le _
    · by_contra hlt
      rw [List.length_cons, Nat.not_le, Nat.lt_succ_iff] at hlt
      have hsmall := (Nat.length_toDigits_le_iff (by decide) (hpos.trans_le hlt)).mp hlt
      exact absurd (pow_le_placeValue h hcs) (Nat.not_le.mpr hsmall)

end Text

/-- A number as written: the digits before the point and those after it, at least one in all. -/
structure Numeral where
  whole : List Char
  fraction : List Char
  digits : ∀ c ∈ whole ++ fraction, c.isDigit = true
  nonempty : whole ++ fraction ≠ []

namespace Numeral

/-- Whether the text is the one of the numeral; the point may be left out if no digits follow it. -/
def Spells (k : Numeral) (text : String) : Prop :=
  text.toList = k.whole ++ '.' :: k.fraction ∨ (text.toList = k.whole ∧ k.fraction = [])

def sign (negative : Bool) : ℤ := if negative then -1 else 1

def number (k : Numeral) (negative : Bool) : ℚ :=
  sign negative * (Text.placeValue k.whole + Text.placeValue k.fraction / 10 ^ k.fraction.length)

def unscaled (k : Numeral) (negative : Bool) : ℤ := sign negative * Text.placeValue (k.whole ++ k.fraction)

def scale (k : Numeral) : ℕ := k.fraction.length

def precision (k : Numeral) : ℕ := max (max 1 (Text.significant (k.whole ++ k.fraction)).length) k.scale

variable (k : Numeral) (negative : Bool)

theorem number_mul : k.number negative * 10 ^ k.scale = k.unscaled negative := by
  rw [number, unscaled, Text.placeValue_append, scale]
  push_cast
  field_simp

theorem unscaled_eq : k.unscaled negative =
    if negative then -(Text.natOfDigits (k.whole ++ k.fraction) : ℤ) else Text.natOfDigits (k.whole ++ k.fraction) := by
  rw [Text.natOfDigits_eq, unscaled, sign]
  cases negative <;> simp

theorem precisionOf_eq :
    Literal.precisionOf (Text.natOfDigits (k.whole ++ k.fraction)) k.scale = k.precision := by
  rw [Text.natOfDigits_eq, Literal.precisionOf, Text.length_digits_placeValue k.digits, precision]
  omega

theorem one_le_precision : 1 ≤ k.precision :=
  (Nat.le_max_left _ _).trans (Nat.le_max_left _ _)

theorem scale_le_precision : k.scale ≤ k.precision := Nat.le_max_right _ _

theorem hasDigits : HasDigits k.precision k.scale (k.number negative) := by
  refine ⟨k.unscaled negative, k.number_mul negative, ?_⟩
  have hsign : |sign negative| = 1 := by cases negative <;> rfl
  have hlt := Text.placeValue_lt k.digits
  have hle : (Text.significant (k.whole ++ k.fraction)).length ≤ k.precision :=
    (Nat.le_max_right _ _).trans (Nat.le_max_left _ _)
  rw [unscaled, abs_mul, hsign, one_mul, Nat.abs_cast]
  exact_mod_cast hlt.trans_le (Nat.pow_le_pow_right (by decide) hle)

theorem ne_point (h : c ∈ k.whole ++ k.fraction) : (c == '.') = false := by
  have hdigit := k.digits c h
  rw [beq_eq_false_iff_ne]
  rintro rfl
  cases hdigit

end Numeral

namespace Literal

theorem numeral?_of_spells {k : Numeral} {text : String} (h : k.Spells text) :
    numeral? text = some (k.whole, k.fraction) := by
  have hwhole : ∀ c ∈ k.whole, (c == '.') = false := fun c hc => k.ne_point (List.mem_append_left _ hc)
  have hall : (k.whole ++ k.fraction).all Text.isDigit = true := List.all_eq_true.mpr k.digits
  have hsplit : (Text.splitFirst? (· == '.') text.toList).getD (text.toList, []) = (k.whole, k.fraction) := by
    rcases h with h | ⟨h, hnil⟩
    · rw [h, Text.splitFirst?_append hwhole rfl, Option.getD_some]
    · rw [h, Text.splitFirst?_eq_none hwhole, Option.getD_none, hnil]
  simp [numeral?, hsplit, hall, k.nonempty]

theorem exists_spells {text : String} {whole fraction : List Char}
    (h : numeral? text = some (whole, fraction)) :
    ∃ k : Numeral, k.Spells text ∧ k.whole = whole ∧ k.fraction = fraction := by
  simp only [numeral?] at h
  generalize hsplit : (Text.splitFirst? (· == '.') text.toList).getD (text.toList, []) = parts at h
  obtain ⟨before, after⟩ := parts
  dsimp only at h
  split at h
  · next hdigits =>
    cases h
    simp only [Bool.and_eq_true, Bool.not_eq_true', List.isEmpty_eq_false_iff, List.all_eq_true] at hdigits
    refine ⟨⟨whole, fraction, hdigits.2, hdigits.1⟩, ?_, rfl, rfl⟩
    rcases hfirst : Text.splitFirst? (· == '.') text.toList with _ | parts
    · rw [hfirst] at hsplit
      cases hsplit
      exact .inr ⟨rfl, rfl⟩
    · rw [hfirst] at hsplit
      cases hsplit
      obtain ⟨c, hc, htext⟩ := Text.exists_of_splitFirst? hfirst
      obtain rfl : c = '.' := by simpa using hc
      exact .inl htext
  · cases h

theorem integerWidth_false (n : ℤ) :
    integerWidth false n = if IntWidth.w32.Holds n then .w32 else .w64 := by
  simp [integerWidth]

theorem integerWidth_true {n : ℤ} (h : IntWidth.w64.Holds n) :
    (integerWidth true n).Holds n ∧ ∀ w : IntWidth, w.Holds n → (integerWidth true n).rank ≤ w.rank := by
  simp only [integerWidth, Bool.true_and, decide_eq_true_eq]
  split_ifs with h8 h16 h32
  all_goals
    refine ⟨by assumption, fun w hw => ?_⟩
    cases w <;> simp_all [IntWidth.rank]

end Literal

/-- The number that a constant of an exact type denotes. -/
def Value.number? : Value → Option ℚ
  | .integer _ n => some n
  | .decimal d => some d.number
  | _ => none

/-- What the literal of a numeral stands for: its number, as an integer if it has no fraction and is in the
range of the widest integer type, and as a decimal of its own digits otherwise. -/
structure Numeral.Denotes (o : Options) (negative : Bool) (k : Numeral) (value : Value) (type : SqlType) :
    Prop where
  number : value.number? = some (k.number negative)
  integer : k.scale = 0 → IntWidth.w64.Holds (k.unscaled negative) →
    ∃ w : IntWidth, value = .integer w (k.unscaled negative) ∧ type = .integer w ∧
      if o.preferSmallIntegerLiterals then
        w.Holds (k.unscaled negative) ∧ ∀ v : IntWidth, v.Holds (k.unscaled negative) → w.rank ≤ v.rank
      else w = if IntWidth.w32.Holds (k.unscaled negative) then .w32 else .w64
  decimal : ¬(k.scale = 0 ∧ IntWidth.w64.Holds (k.unscaled negative)) →
    value = .decimal ⟨k.unscaled negative, k.scale⟩ ∧
      if o.preferSmallDecimalLiterals then
        ∃ p, type = .decimal (some p) (some k.scale) ∧ 1 ≤ p ∧ p ≤ o.maxDecimalPrecision ∧ k.scale ≤ p ∧
          type.Represents (k.number negative)
      else type = .flexibleDecimal

namespace Literal

theorem number_decimal (k : Numeral) (negative : Bool) :
    Decimal.number ⟨k.unscaled negative, k.scale⟩ = k.number negative := by
  rw [Decimal.number, ← k.number_mul negative, zpow_neg, zpow_natCast]
  field_simp

theorem number_integer {k : Numeral} (h : k.scale = 0) (negative : Bool) :
    (k.unscaled negative : ℚ) = k.number negative := by
  rw [← k.number_mul negative, h, pow_zero, mul_one]

variable {o : Options} {k : Numeral} {text : String} (negative : Bool)

theorem exactConstant_of_spells (h : k.Spells text) : exactConstant o negative text =
    if o.maxDecimalPrecision < k.precision then
      .error (.diagnostic ⟨.unsupportedDecimalValue, none, "numeric literal '" ++
        (if negative then "-" else "") ++ text ++ "' exceeds the maximum precision " ++
        Text.ofNat o.maxDecimalPrecision⟩)
    else if k.scale = 0 ∧ IntWidth.w64.Holds (k.unscaled negative) then
      .ok (.integer (integerWidth o.preferSmallIntegerLiterals (k.unscaled negative)) (k.unscaled negative),
        .integer (integerWidth o.preferSmallIntegerLiterals (k.unscaled negative)))
    else .ok (.decimal ⟨k.unscaled negative, k.scale⟩,
      if o.preferSmallDecimalLiterals then .decimal (some k.precision) (some k.scale) else .flexibleDecimal) := by
  simp only [exactConstant, numeral?_of_spells h, ← k.unscaled_eq negative, ← k.precisionOf_eq]
  rfl

theorem denotes_of_precision (h : k.Spells text) (hmax : k.precision ≤ o.maxDecimalPrecision) :
    ∃ value type, exactConstant o negative text = .ok (value, type) ∧ k.Denotes o negative value type := by
  rw [exactConstant_of_spells negative h, if_neg (Nat.not_lt.mpr hmax)]
  by_cases hint : k.scale = 0 ∧ IntWidth.w64.Holds (k.unscaled negative)
  · rw [if_pos hint]
    refine ⟨_, _, rfl, congrArg some (number_integer hint.1 negative), fun _ _ => ⟨_, rfl, rfl, ?_⟩,
      fun hdec => absurd hint hdec⟩
    cases o.preferSmallIntegerLiterals with
    | true => exact integerWidth_true hint.2
    | false => exact integerWidth_false _
  · rw [if_neg hint]
    refine ⟨_, _, rfl, congrArg some (number_decimal k negative), fun hscale hholds => absurd ⟨hscale, hholds⟩ hint,
      fun _ => ⟨rfl, ?_⟩⟩
    cases o.preferSmallDecimalLiterals with
    | true =>
      exact ⟨_, rfl, k.one_le_precision, hmax, k.scale_le_precision, k.hasDigits negative⟩
    | false => rfl

variable {σ : Type} {s : σ} {env : Environment}

theorem resolve_exact_eq : ((exact negative text).resolve none : Step σ Typed) env s =
    match exactConstant env.options negative text with
    | .ok (value, type) => (.ok (.constant value type), s)
    | .error (.diagnostic d) => (.error ⟨d, []⟩, s)
    | .error .panic => (⟨.error .panic, []⟩, s) := by
  simp only [resolve_eq, typed, constant]
  rcases exactConstant env.options negative text with (_ | _) | _ <;> rfl

/-- A number literal is accepted if and only if its text is a numeral of no more than the greatest precision.
The refusals tell which of the two it is not, and what is accepted denotes the number exactly. -/
theorem resolve_exact (env : Environment) (s : σ) (negative : Bool) (text : String) :
    ((∃ x, ((exact negative text).resolve none : Step σ Typed) env s = (.ok x, s)) ↔
      ∃ k : Numeral, k.Spells text ∧ k.precision ≤ env.options.maxDecimalPrecision) ∧
    ((¬∃ k : Numeral, k.Spells text) → ∃ message, ((exact negative text).resolve none : Step σ Typed) env s =
      (.error ⟨⟨.malformedSyntax, none, message⟩, []⟩, s)) ∧
    ∀ k : Numeral, k.Spells text →
      (env.options.maxDecimalPrecision < k.precision →
        ∃ message, ((exact negative text).resolve none : Step σ Typed) env s =
          (.error ⟨⟨.unsupportedDecimalValue, none, message⟩, []⟩, s)) ∧
      (k.precision ≤ env.options.maxDecimalPrecision →
        ∃ value type, ((exact negative text).resolve none : Step σ Typed) env s =
          (.ok (.constant value type), s) ∧ k.Denotes env.options negative value type) := by
  have hmalformed (h : ¬∃ k : Numeral, k.Spells text) : ∃ message,
      ((exact negative text).resolve none : Step σ Typed) env s =
        (.error ⟨⟨.malformedSyntax, none, message⟩, []⟩, s) := by
    rcases hnumeral : numeral? text with _ | ⟨whole, fraction⟩
    · rw [resolve_exact_eq, exactConstant, hnumeral]
      exact ⟨_, rfl⟩
    · obtain ⟨k, hk, -⟩ := exists_spells hnumeral
      exact absurd ⟨k, hk⟩ h
  have hlong (k : Numeral) (hk : k.Spells text) (hlt : env.options.maxDecimalPrecision < k.precision) :
      ∃ message, ((exact negative text).resolve none : Step σ Typed) env s =
        (.error ⟨⟨.unsupportedDecimalValue, none, message⟩, []⟩, s) := by
    rw [resolve_exact_eq, exactConstant_of_spells negative hk, if_pos hlt]
    exact ⟨_, rfl⟩
  have hfine (k : Numeral) (hk : k.Spells text) (hle : k.precision ≤ env.options.maxDecimalPrecision) :
      ∃ value type, ((exact negative text).resolve none : Step σ Typed) env s =
        (.ok (.constant value type), s) ∧ k.Denotes env.options negative value type := by
    obtain ⟨value, type, hok, hdenotes⟩ := denotes_of_precision negative hk hle
    rw [resolve_exact_eq, hok]
    exact ⟨value, type, rfl, hdenotes⟩
  refine ⟨⟨?_, ?_⟩, hmalformed, fun k hk => ⟨hlong k hk, hfine k hk⟩⟩
  · rintro ⟨x, hx⟩
    by_cases h : ∃ k : Numeral, k.Spells text
    · obtain ⟨k, hk⟩ := h
      refine ⟨k, hk, Nat.not_lt.mp fun hlt => ?_⟩
      obtain ⟨_, herror⟩ := hlong k hk hlt
      cases hx.symm.trans herror
    · obtain ⟨_, herror⟩ := hmalformed h
      cases hx.symm.trans herror
  · rintro ⟨k, hk, hle⟩
    obtain ⟨value, type, hok, -⟩ := hfine k hk hle
    exact ⟨_, hok⟩

end Literal

namespace Sample

/-- Small types are preferred, and numbers have up to four digits. -/
def fourDigits : Environment where
  options := { preferSmallDecimalLiterals := true, maxDecimalPrecision := 4 }
  catalog := { name := "db" }

/-- `000.0125` -/
def eightieth : Numeral where
  whole := ['0', '0', '0']
  fraction := ['0', '1', '2', '5']
  digits := List.all_eq_true.mp (by decide)
  nonempty := by decide

end Sample

/-- `-000.0125` has four digits, all after the point, and is `-1/80`. -/
theorem Literal.resolve_exact_eightieth :
    ∃ value type, ((Literal.exact true "000.0125").resolve none : Analysis Typed) Sample.fourDigits 0 =
        (.ok (.constant value type), 0) ∧
      value = .decimal ⟨-125, 4⟩ ∧ value.number? = some (-1 / 80) ∧ type.Represents (-1 / 80) := by
  have hspells : Sample.eightieth.Spells "000.0125" := .inl (by decide)
  have hprecision : Sample.eightieth.precision ≤ Sample.fourDigits.options.maxDecimalPrecision := by decide
  have hnumber : Sample.eightieth.number true = -1 / 80 := by
    have hwhole : Text.placeValue Sample.eightieth.whole = 0 := by decide
    have hfraction : Text.placeValue Sample.eightieth.fraction = 125 := by decide
    have hlength : Sample.eightieth.fraction.length = 4 := rfl
    rw [Numeral.number, hwhole, hfraction, hlength]
    norm_num [Numeral.sign]
  obtain ⟨-, -, hnumeral⟩ := resolve_exact Sample.fourDigits (0 : ℕ) true "000.0125"
  obtain ⟨value, type, hok, hdenotes⟩ := (hnumeral Sample.eightieth hspells).2 hprecision
  obtain ⟨hvalue, _, -, -, -, -, hrepresents⟩ := hdenotes.decimal (by decide)
  rw [hnumber] at hrepresents
  exact ⟨value, type, hok, hvalue, hnumber ▸ hdenotes.number, hrepresents⟩

end SqlPlan
