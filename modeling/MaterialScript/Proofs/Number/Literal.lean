import MaterialScript.Proofs.Lexing.Match
import MaterialScript.Proofs.Number.Rounding

/-!
# Number literals

A number literal has an optional minus sign, digits, an optional point with digits and an optional
exponent, each of any length, and stands for a rational number. It is read as the 32-bit float nearest
to that number, unless it is out of range.

* `NumberLiteral`, `NumberLiteral.text`, `NumberLiteral.value` : literals, how they are written and what
  they stand for; `NumberLiteral.mem_number_iff` : they are the words of the number pattern;
* `NumberLiteral.read?_text`, `NumberLiteral.value_decimal` : the decimal that a literal is read as;
* `Binary32.value`, `Binary32.Nearest` : what a float stands for, and the float nearest to a number;
* `NumberLiteral.decode?_eq_none_iff` : the literals out of range;
* `NumberLiteral.nearest_of_decode?` : the others.
-/

namespace MaterialScript

open Lexer Number

/-! ## Literals -/

structure NumberLiteral.Exponent where
  mark : Char
  sign : List Char
  digits : List Char
  mark_eq : mark = 'e' ∨ mark = 'E'
  sign_eq : sign = [] ∨ sign = ['+'] ∨ sign = ['-']
  digits_mem : digits ∈ Lexer.digits

namespace NumberLiteral.Exponent

def text (e : Exponent) : List Char := e.mark :: (e.sign ++ e.digits)

def value (e : Exponent) : Int :=
  if e.sign = ['-'] then -(Nat.ofDigitChars 10 e.digits 0 : Int) else Nat.ofDigitChars 10 e.digits 0

end NumberLiteral.Exponent

/-- A number literal: digits, perhaps places after a point, and perhaps an exponent. -/
structure NumberLiteral where
  negative : Bool
  whole : List Char
  places : Option (List Char)
  exponent : Option NumberLiteral.Exponent
  whole_mem : whole ∈ digits
  places_mem : ∀ ds ∈ places, ds ∈ digits

namespace NumberLiteral

def fractionText (n : NumberLiteral) : List Char := (n.places.map ('.' :: ·)).getD []

def exponentText (n : NumberLiteral) : List Char := (n.exponent.map Exponent.text).getD []

def text (n : NumberLiteral) : List Char :=
  signed n.negative (n.whole ++ (n.fractionText ++ n.exponentText))

def placeDigits (n : NumberLiteral) : List Char := n.places.getD []

def power (n : NumberLiteral) : Int := (n.exponent.map Exponent.value).getD 0

def magnitude (n : NumberLiteral) : ℚ :=
  (Nat.ofDigitChars 10 n.whole 0 +
    Nat.ofDigitChars 10 n.placeDigits 0 / 10 ^ n.placeDigits.length) * 10 ^ n.power

def value (n : NumberLiteral) : ℚ := if n.negative then -n.magnitude else n.magnitude

theorem fractionText_mem (n : NumberLiteral) : n.fractionText ∈ optional fraction := by
  cases hplaces : n.places with
  | none => simp [fractionText, hplaces, mem_optional]
  | some ds =>
    have hds : ds ∈ digits := n.places_mem ds hplaces
    simpa [fractionText, hplaces, mem_optional, mem_fraction] using hds

theorem exponentText_mem (n : NumberLiteral) : n.exponentText ∈ optional Lexer.exponent := by
  cases hexponent : n.exponent with
  | none => simp [exponentText, hexponent, mem_optional]
  | some e =>
    refine mem_optional.2 (.inr (mem_exponent.2 ⟨e.mark, e.mark_eq, e.sign, e.sign_eq, e.digits,
      e.digits_mem, ?_⟩))
    simp [exponentText, hexponent, Exponent.text]

/-- **Literals are the words of the number pattern.** -/
theorem mem_number_iff {w : List Char} :
    w ∈ Pattern.number.language ↔ ∃ n : NumberLiteral, n.text = w := by
  constructor
  · intro hw
    obtain ⟨minus, hminus, ds, hds, f, hf, e, he, rfl⟩ := mem_number.1 hw
    obtain ⟨places, hplaces, hf⟩ : ∃ places : Option (List Char),
        (∀ ps ∈ places, ps ∈ digits) ∧ f = (places.map ('.' :: ·)).getD [] := by
      rcases mem_optional.1 hf with rfl | hf
      · exact ⟨none, by simp, rfl⟩
      · obtain ⟨ps, hps, rfl⟩ := mem_fraction.1 hf
        exact ⟨some ps, by simpa using hps, rfl⟩
    obtain ⟨exponent, he⟩ : ∃ exponent : Option Exponent,
        e = (exponent.map Exponent.text).getD [] := by
      rcases mem_optional.1 he with rfl | he
      · exact ⟨none, rfl⟩
      · obtain ⟨c, hc, sign, hsign, es, hes, rfl⟩ := mem_exponent.1 he
        exact ⟨some ⟨c, sign, es, hc, hsign, hes⟩, rfl⟩
    subst hf he
    rcases hminus with rfl | rfl
    · exact ⟨⟨false, ds, places, exponent, hds, hplaces⟩, rfl⟩
    · exact ⟨⟨true, ds, places, exponent, hds, hplaces⟩, rfl⟩
  · rintro ⟨n, rfl⟩
    refine mem_number.2 ⟨if n.negative then ['-'] else [], ?_, n.whole, n.whole_mem, n.fractionText,
      n.fractionText_mem, n.exponentText, n.exponentText_mem, ?_⟩
    · cases n.negative <;> simp
    · cases hsign : n.negative <;> simp [text, signed, hsign]

/-! ## Reading a literal -/

def decimal (n : NumberLiteral) : Decimal :=
  ⟨digitsValue (n.whole ++ n.placeDigits), n.power - n.placeDigits.length⟩

theorem value_decimal (n : NumberLiteral) : n.decimal.value = n.magnitude := by
  have hdigits : digitsValue (n.whole ++ n.placeDigits) =
      10 ^ n.placeDigits.length * Nat.ofDigitChars 10 n.whole 0 +
        Nat.ofDigitChars 10 n.placeDigits 0 :=
    (Nat.ofDigitChars_append 0).trans Nat.ofDigitChars_eq_ofDigitChars_zero
  unfold decimal Decimal.value magnitude
  rw [hdigits, zpow_sub₀ (by norm_num), zpow_natCast]
  push_cast
  field_simp

theorem readSign_digits {ds : List Char} (hds : ds ∈ digits) (rest : List Char) :
    readSign (ds ++ rest) = (false, ds ++ rest) := by
  obtain ⟨hne, hall⟩ := mem_digits.1 hds
  obtain ⟨d, ds, rfl⟩ := List.exists_cons_of_ne_nil hne
  have hd : d.isDigit = true := hall d List.mem_cons_self
  unfold readSign
  split
  · next heq => cases heq; exact absurd hd (by decide)
  · next heq => cases heq; exact absurd hd (by decide)
  · rfl

theorem readExponent?_text (n : NumberLiteral) : readExponent? n.exponentText = some n.power := by
  cases hexponent : n.exponent with
  | none => simp [exponentText, power, hexponent, readExponent?]
  | some e =>
    obtain ⟨mark, sign, ds, hmark, hsign, hds⟩ := e
    have hne : (ds.isEmpty || !ds.all Char.isDigit) = false := by
      obtain ⟨hne, hall⟩ := mem_digits.1 hds
      simpa [hne] using hall
    have hread : readSign (sign ++ ds) = (decide (sign = ['-']), ds) := by
      rcases hsign with rfl | rfl | rfl
      · simpa using readSign_digits hds []
      · rfl
      · rfl
    simp only [exponentText, power, hexponent, Option.map_some, Option.getD_some, Exponent.text,
      Exponent.value, readExponent?, if_pos hmark, hread, hne, decide_eq_true_eq]
    rfl

theorem splitFraction_text (n : NumberLiteral) :
    splitFraction (n.fractionText ++ n.exponentText) = (n.placeDigits, n.exponentText) := by
  have hstop : n.exponentText.takeWhile Char.isDigit = [] ∧
      n.exponentText.dropWhile Char.isDigit = n.exponentText := by
    rcases mem_optional.1 n.exponentText_mem with hnil | he
    · simp [hnil]
    · have := exponent_stops he []
      rw [List.append_nil] at this
      exact ⟨this.1, this.2.1⟩
  cases hplaces : n.places with
  | none =>
    have hfraction : n.fractionText = [] := by simp [fractionText, hplaces]
    have hdigits : n.placeDigits = [] := by simp [placeDigits, hplaces]
    rw [hfraction, hdigits, List.nil_append]
    rcases mem_optional.1 n.exponentText_mem with hnil | he
    · rw [hnil]
      rfl
    · obtain ⟨e, he', sign, -, ds, -, htext⟩ := mem_exponent.1 he
      rw [htext]
      rcases he' with rfl | rfl <;> rfl
  | some ds =>
    have hfraction : n.fractionText = '.' :: ds := by simp [fractionText, hplaces]
    have hdigits : n.placeDigits = ds := by simp [placeDigits, hplaces]
    obtain ⟨htake, hdrop⟩ := takeWhile_digits (n.places_mem ds hplaces) n.exponentText
    rw [hfraction, hdigits, List.cons_append, splitFraction, htake, hdrop, hstop.1, hstop.2,
      List.append_nil]

/-- **A literal is read as its sign and its decimal.** -/
theorem read?_text (n : NumberLiteral) : Decimal.read? n.text = some (n.negative, n.decimal) := by
  have hsign : readSign n.text = (n.negative, n.whole ++ (n.fractionText ++ n.exponentText)) := by
    unfold text signed
    cases n.negative with
    | true => rfl
    | false => exact readSign_digits n.whole_mem _
  obtain ⟨htake, hdrop⟩ := takeWhile_digits n.whole_mem (n.fractionText ++ n.exponentText)
  have hstop : (n.fractionText ++ n.exponentText).takeWhile Char.isDigit = [] ∧
      (n.fractionText ++ n.exponentText).dropWhile Char.isDigit =
        n.fractionText ++ n.exponentText := by
    rcases fraction_stops n.fractionText_mem n.exponentText_mem [] with ⟨hf, he⟩ | hstop
    · simp [hf, he]
    · rwa [List.append_nil] at hstop
  have hne : n.whole.isEmpty = false := by
    simpa using isEmpty_digits_append n.whole_mem []
  unfold Decimal.read?
  simp only [hsign, htake, hdrop, hstop.1, hstop.2, List.append_nil, splitFraction_text,
    readExponent?_text, hne, Bool.false_and, Bool.false_eq_true, if_false, Option.bind_eq_bind,
    Option.bind_some]
  rfl

end NumberLiteral

/-! ## Floats as numbers -/

namespace Binary32

def magnitude (x : Binary32) : ℚ := Format.binary32.units x.code / 2 ^ Format.binary32.lowest

def value (x : Binary32) : ℚ := if x.negative then -x.magnitude else x.magnitude

/-- A finite float with no other finite float nearer to a number; of two that are as near, the one
with the even significand. -/
structure Nearest (x : Binary32) (q : ℚ) : Prop where
  finite : x.isFinite = true
  near : ∀ y : Binary32, y.isFinite = true → |x.value - q| ≤ |y.value - q|
  even : ∀ y : Binary32, y.isFinite = true → |x.value - q| = |y.value - q| →
    y.value = x.value ∨ Format.binary32.significand x.code % 2 = 0

theorem magnitude_nonneg (x : Binary32) : 0 ≤ x.magnitude := by
  unfold magnitude
  positivity

theorem magnitude_eq_zero_iff {x : Binary32} : x.magnitude = 0 ↔ x.code = 0 := by
  have hunits : Format.binary32.units x.code = 0 ↔ x.code = 0 :=
    Format.binary32.units_strictMono.injective.eq_iff' Format.binary32.units_zero
  unfold magnitude
  rw [div_eq_zero_iff, or_iff_left (by positivity), Nat.cast_eq_zero, hunits]

theorem value_eq_zero_iff {x : Binary32} : x.value = 0 ↔ x.code = 0 := by
  rw [← magnitude_eq_zero_iff]
  unfold value
  split
  · exact neg_eq_zero
  · rfl

theorem abs_value (x : Binary32) : |x.value| = x.magnitude := by
  unfold value
  split
  · rw [abs_neg, abs_of_nonneg x.magnitude_nonneg]
  · exact abs_of_nonneg x.magnitude_nonneg

theorem value_eq_or_neg {x y : Binary32} (h : y.code = x.code) :
    y.value = x.value ∨ y.value = -x.value := by
  have hmagnitude : y.magnitude = x.magnitude := by rw [magnitude, h, magnitude]
  unfold value
  rw [hmagnitude]
  cases y.negative <;> cases x.negative <;> simp

/-- Rounding, in the unit of the numbers themselves. -/
theorem magnitude_nearest {x : Binary32} {q : ℚ}
    (h : Format.binary32.Rounds (q * 2 ^ Format.binary32.lowest) x.code) (y : Binary32) :
    |x.magnitude - q| ≤ |y.magnitude - q| ∧
    (|x.magnitude - q| = |y.magnitude - q| → y.code = x.code ∨ x.code % 2 = 0) := by
  have hpos : (0 : ℚ) < 2 ^ Format.binary32.lowest := by positivity
  have hscale : ∀ z : Binary32, |z.magnitude - q| =
      |(Format.binary32.units z.code : ℚ) - q * 2 ^ Format.binary32.lowest| /
        2 ^ Format.binary32.lowest := by
    intro z
    rw [eq_div_iff hpos.ne', ← abs_of_pos hpos, ← abs_mul, abs_of_pos hpos, sub_mul, magnitude,
      div_mul_cancel₀ _ hpos.ne']
  obtain ⟨hnear, htie⟩ := h.nearest y.code
  rw [hscale x, hscale y, div_le_div_iff_of_pos_right hpos, div_left_inj' hpos.ne']
  exact ⟨hnear, htie⟩

end Binary32

namespace NumberLiteral

theorem magnitude_nonneg (n : NumberLiteral) : 0 ≤ n.magnitude :=
  n.value_decimal ▸ n.decimal.value_nonneg

theorem abs_value (n : NumberLiteral) : |n.value| = n.magnitude := by
  unfold value
  split
  · rw [abs_neg, abs_of_nonneg n.magnitude_nonneg]
  · exact abs_of_nonneg n.magnitude_nonneg

theorem value_eq_zero_iff (n : NumberLiteral) : n.value = 0 ↔ n.magnitude = 0 := by
  rw [← abs_eq_zero, n.abs_value]

/-! ## Decoding a literal -/

/-- A literal is rounded, and refused if that makes it infinite, or zero though it is not. -/
theorem decode?_rounds (n : NumberLiteral) :
    ∃ c, Format.binary32.Rounds (n.magnitude * 2 ^ Format.binary32.lowest) c ∧
      Binary32.decode? (String.ofList n.text) =
        if n.magnitude ≠ 0 ∧ (c = 0 ∨ Format.binary32.infinity ≤ c) then none
        else some (Binary32.ofCode n.negative c) := by
  obtain ⟨c, hc, hcode⟩ := Format.ofDecimal_rounds Format.regular_binary32 n.decimal
  have hpos := Format.regular_binary32.infinity_pos
  rw [n.value_decimal] at hc
  refine ⟨c, hc, ?_⟩
  unfold Binary32.decode?
  rw [String.toList_ofList, n.read?_text]
  simp only [hcode, ← Decimal.value_eq_zero_iff, n.value_decimal]
  by_cases hzero : n.magnitude = 0
  · have : c = 0 := hc.eq_zero (by rw [hzero]; norm_num)
    simp [hzero, this]
  by_cases hout : c = 0 ∨ Format.binary32.infinity ≤ c
  · rw [if_neg hzero, if_pos (by omega), if_pos ⟨hzero, hout⟩]
  · rw [if_neg hzero, if_neg (by omega), if_neg (fun h => hout h.2), Nat.min_eq_left (by omega)]

theorem passes_iff {f : Format} {q h : ℚ} {c : Nat}
    (hhalf : f.halfway c = h * (2 * 2 ^ f.lowest)) :
    f.Passes (q * 2 ^ f.lowest) c ↔ h < q ∨ h = q ∧ c % 2 = 1 := by
  have hpos : (0 : ℚ) < 2 * 2 ^ f.lowest := by positivity
  unfold Format.Passes
  rw [hhalf, mul_left_comm 2 q, mul_lt_mul_iff_left₀ hpos, mul_left_inj' hpos.ne']

/-- What is at most half of the least magnitude is rounded to nothing. -/
theorem eq_zero_iff_of_rounds {q : ℚ} {c : Nat}
    (h : Format.binary32.Rounds (q * 2 ^ Format.binary32.lowest) c) :
    c = 0 ↔ q ≤ 2 ^ (-150 : Int) := by
  have hhalf : Format.binary32.halfway 0 =
      2 ^ (-150 : Int) * (2 * 2 ^ Format.binary32.lowest) := by
    unfold Format.halfway
    rw [show Format.binary32.units 0 = 0 by decide, show Format.binary32.units (0 + 1) = 1 by decide]
    norm_num [Format.binary32]
  have hpasses : c = 0 ↔ ¬ Format.binary32.Passes (q * 2 ^ Format.binary32.lowest) 0 := by
    rw [← h.lt_iff, Nat.not_lt, Nat.le_zero]
  rw [hpasses, passes_iff hhalf]
  simp

/-- What is at least half-way from the greatest finite magnitude to the next power of two is rounded
to infinity or beyond. -/
theorem infinity_le_iff_of_rounds {q : ℚ} {c : Nat}
    (h : Format.binary32.Rounds (q * 2 ^ Format.binary32.lowest) c) :
    Format.binary32.infinity ≤ c ↔ 2 ^ 128 - 2 ^ 103 ≤ q := by
  have hhalf : Format.binary32.halfway 0x7F7FFFFF =
      (2 ^ 128 - 2 ^ 103) * (2 * 2 ^ Format.binary32.lowest) := by
    unfold Format.halfway
    rw [show Format.binary32.units 0x7F7FFFFF = 0xFFFFFF * 2 ^ 253 by decide +kernel,
      show Format.binary32.units (0x7F7FFFFF + 1) = 2 ^ 23 * 2 ^ 254 by decide +kernel]
    norm_num [Format.binary32]
  have hpasses : Format.binary32.infinity ≤ c ↔
      Format.binary32.Passes (q * 2 ^ Format.binary32.lowest) 0x7F7FFFFF := h.lt_iff
  rw [hpasses, passes_iff hhalf, le_iff_lt_or_eq]
  simp

/-- **The literals out of range**: half-way from the greatest finite magnitude to the next power of
two or beyond, or not zero and at most half of the least magnitude. -/
theorem decode?_eq_none_iff (n : NumberLiteral) :
    Binary32.decode? (String.ofList n.text) = none ↔
      2 ^ 128 - 2 ^ 103 ≤ |n.value| ∨ 0 < |n.value| ∧ |n.value| ≤ 2 ^ (-150 : Int) := by
  obtain ⟨c, hc, hdecode⟩ := n.decode?_rounds
  have hbig : (0 : ℚ) < 2 ^ 128 - 2 ^ 103 := by norm_num
  rw [hdecode, n.abs_value, n.magnitude_nonneg.lt_iff_ne', ← eq_zero_iff_of_rounds hc,
    ← infinity_le_iff_of_rounds hc]
  constructor
  · intro h
    split at h
    · next hout =>
      obtain ⟨hne, hzero | hinf⟩ := hout
      · exact .inr ⟨hne, hzero⟩
      · exact .inl hinf
    · cases h
  · rintro (hinf | ⟨hne, hzero⟩)
    · have hle := (infinity_le_iff_of_rounds hc).1 hinf
      rw [if_pos ⟨(hbig.trans_le hle).ne', .inr hinf⟩]
    · rw [if_pos ⟨hne, .inl hzero⟩]

theorem rounds_of_decode? {n : NumberLiteral} {x : Binary32}
    (h : Binary32.decode? (String.ofList n.text) = some x) :
    x.isFinite = true ∧ x.negative = n.negative ∧
      Format.binary32.Rounds (n.magnitude * 2 ^ Format.binary32.lowest) x.code ∧
      (x.code = 0 ↔ n.magnitude = 0) := by
  obtain ⟨c, hc, hdecode⟩ := n.decode?_rounds
  rw [hdecode] at h
  split at h
  · cases h
  · next hin =>
    cases h
    have hzero : n.magnitude = 0 → c = 0 := fun hzero => hc.eq_zero (by rw [hzero]; norm_num)
    have hfinite : c < Format.binary32.infinity := by
      by_contra hinf
      have hne : n.magnitude ≠ 0 := fun hmag => by
        have := hzero hmag
        have := Format.regular_binary32.infinity_pos
        omega
      exact hin ⟨hne, .inr (not_lt.1 hinf)⟩
    have hbound : c < Binary32.signBit := hfinite.trans (by decide)
    rw [Binary32.isFinite, Binary32.code_ofCode hbound, Binary32.negative_ofCode hbound]
    refine ⟨by simpa using hfinite, rfl, hc, fun hcode => ?_, hzero⟩
    by_contra hne
    exact hin ⟨hne, .inl hcode⟩

/-- **A literal in range is decoded to the nearest float**, with the sign that is written; it is zero
only if a zero is written. -/
theorem nearest_of_decode? {n : NumberLiteral} {x : Binary32}
    (h : Binary32.decode? (String.ofList n.text) = some x) :
    x.negative = n.negative ∧ x.Nearest n.value ∧ (x.value = 0 ↔ n.value = 0) := by
  obtain ⟨hfinite, hsign, hrounds, hzero⟩ := rounds_of_decode? h
  have hnear := Binary32.magnitude_nearest hrounds
  have hx : |x.value - n.value| = |x.magnitude - n.magnitude| := by
    unfold Binary32.value value
    rw [hsign]
    split
    · rw [neg_sub_neg, abs_sub_comm]
    · rfl
  have hy : ∀ y : Binary32, |y.magnitude - n.magnitude| ≤ |y.value - n.value| := by
    intro y
    rw [← y.abs_value, ← n.abs_value]
    exact abs_abs_sub_abs_le y.value n.value
  refine ⟨hsign, ⟨hfinite, fun y _ => ?_, fun y _ heq => ?_⟩, ?_⟩
  · rw [hx]
    exact (hnear y).1.trans (hy y)
  · rw [Format.binary32.significand_mod_two Format.regular_binary32.fraction_pos]
    have htie : |x.magnitude - n.magnitude| = |y.magnitude - n.magnitude| :=
      le_antisymm (hnear y).1 ((hy y).trans (heq.symm.trans hx).le)
    rcases (hnear y).2 htie with hcode | heven
    · rcases Binary32.value_eq_or_neg hcode with hsame | hopposite
      · exact .inl hsame
      · rw [hopposite] at heq
        have hcode' : x.code = 0 := by
          rcases abs_eq_abs.1 heq with hsum | hsum
          · exact Binary32.value_eq_zero_iff.1 (by linarith)
          · exact hzero.2 (n.value_eq_zero_iff.1 (by linarith))
        exact .inr (by rw [hcode'])
    · exact .inr heven
  · rw [Binary32.value_eq_zero_iff, n.value_eq_zero_iff, hzero]

end NumberLiteral

end MaterialScript
