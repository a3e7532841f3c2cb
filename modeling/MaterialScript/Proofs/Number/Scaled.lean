import MaterialScript.Proofs.Number.Plain

/-!
# The scaled text of a float

In data formats a float is written with the fewest digits that read back, with a point or an exponent.
That text is a literal without needless zeros in front, and the decimal it stands for is rounded to the
same float.

* `leadingZero` : a zero with a digit behind it in front of a number;
* `Number.Decimal.exists_literal_scaled` : a scaled layout of a decimal is a literal for its value;
* `Binary32.exists_literal_scaled` : so is the text of a finite float, which is rounded to its code.
-/

namespace MaterialScript

open Lexer Number

/-! ## Zeros in front -/

/-- A number with a zero and another digit in front. -/
def leadingZero : List Char → Bool
  | '-' :: '0' :: c :: _ => c.isDigit
  | '0' :: c :: _ => c.isDigit
  | _ => false

/-- A digit from one to nine in front of other characters. -/
def Significant (w : List Char) : Prop := ∃ d more, w = d :: more ∧ d.isDigit = true ∧ d ≠ '0'

theorem significant_toDigits {n : Nat} (hn : 0 < n) : Significant (Nat.toDigits 10 n) := by
  induction n using Nat.strongRecOn with
  | ind n ih =>
  rw [Nat.toDigits_eq_if (by decide)]
  split
  · next hlt =>
    have hdigit : ∀ d < 10, 0 < d → (Nat.digitChar d).isDigit = true ∧ Nat.digitChar d ≠ '0' := by
      decide
    exact ⟨Nat.digitChar n, [], rfl, hdigit n hlt hn⟩
  · next hle =>
    obtain ⟨d, more, hfront, hd⟩ := ih (n / 10) (by omega) (by omega)
    exact ⟨d, more ++ [Nat.digitChar (n % 10)], by rw [hfront, List.cons_append], hd⟩

theorem leadingZero_of_significant {w : List Char} (h : Significant w) (negative : Bool) :
    leadingZero (signed negative w) = false := by
  obtain ⟨d, more, rfl, hd, hzero⟩ := h
  have hminus : d ≠ '-' := by
    rintro rfl
    exact absurd hd (by decide)
  cases negative <;> simp only [signed, Bool.false_eq_true, if_false, if_true] <;>
    unfold leadingZero <;> split <;> simp_all

theorem leadingZero_of_point (w : List Char) (negative : Bool) :
    leadingZero (signed negative ('0' :: '.' :: w)) = false := by
  cases negative <;> rfl

/-! ## Layouts -/

theorem exists_exponent {style : ScaledStyle}
    (hplus : style.plus.toList = [] ∨ style.plus.toList = ['+']) (e : Int) :
    ∃ x : NumberLiteral.Exponent, x.text = style.exponent e ∧ x.value = e := by
  have hdigits : (Nat.ofDigitChars 10 (Nat.toDigits 10 e.natAbs) 0 : Int) = e.natAbs := by
    rw [Nat.ofDigitChars_ten_toDigits]
  by_cases hneg : e < 0
  · refine ⟨⟨'e', ['-'], Nat.toDigits 10 e.natAbs, .inl rfl, .inr (.inr rfl),
      toDigits_mem_digits _⟩, ?_, ?_⟩
    · rw [ScaledStyle.exponent, if_pos hneg]
      rfl
    · rw [NumberLiteral.Exponent.value, if_pos rfl, hdigits]
      omega
  · refine ⟨⟨'e', style.plus.toList, Nat.toDigits 10 e.natAbs, .inl rfl, by tauto,
      toDigits_mem_digits _⟩, ?_, ?_⟩
    · rw [ScaledStyle.exponent, if_neg hneg]
      rfl
    · have hsign : style.plus.toList ≠ ['-'] := by
        rcases hplus with h | h <;> rw [h] <;> decide
      rw [NumberLiteral.Exponent.value, if_neg hsign, hdigits]
      omega

section Layouts
variable {row : List Char} (hrow : row ∈ digits) (negative : Bool)
include hrow

theorem exists_literal_point_zero (k : Nat) :
    ∃ n : NumberLiteral, n.text = signed negative (row ++ zeros k ++ ['.', '0']) ∧
      n.negative = negative ∧ n.magnitude = Decimal.value ⟨digitsValue row, k⟩ := by
  let n : NumberLiteral :=
    { negative, whole := row ++ zeros k, places := some (zeros 1), exponent := none
      whole_mem := (zeros_mem_digits hrow).2
      places_mem := by rintro _ ⟨⟩; exact mem_digits.2 (by simp [zeros]) }
  have hdecimal : n.decimal = ⟨digitsValue row * 10 ^ k * 10 ^ 1, -1⟩ := by
    have hdigits : digitsValue (row ++ zeros k ++ zeros 1) = digitsValue row * 10 ^ k * 10 ^ 1 := by
      rw [digitsValue_append_zeros, digitsValue_append_zeros]
    exact congrArg₂ Decimal.mk hdigits rfl
  refine ⟨n, ?_, rfl, ?_⟩
  · simp [n, NumberLiteral.text, NumberLiteral.fractionText, NumberLiteral.exponentText, zeros]
  · rw [← n.value_decimal, hdecimal]
    simp [Decimal.value]

theorem exists_literal_exponent {style : ScaledStyle}
    (hplus : style.plus.toList = [] ∨ style.plus.toList = ['+']) (e : Int) :
    ∃ n : NumberLiteral, n.text = signed negative (row.take 1 ++
        (if (row.drop 1).isEmpty then [] else '.' :: row.drop 1) ++ style.exponent e) ∧
      n.negative = negative ∧
      n.magnitude = Decimal.value ⟨digitsValue row, e - (row.drop 1).length⟩ := by
  obtain ⟨hne, hall⟩ := mem_digits.1 hrow
  have hwhole : row.take 1 ∈ digits :=
    mem_digits.2 ⟨by simpa using hne, fun c hc => hall c (List.mem_of_mem_take hc)⟩
  obtain ⟨places, hplaces, hdigits, hfraction⟩ : ∃ places : Option (List Char),
      (∀ ds ∈ places, ds ∈ digits) ∧ places.getD [] = row.drop 1 ∧
      (places.map ('.' :: ·)).getD [] =
        if (row.drop 1).isEmpty then [] else '.' :: row.drop 1 := by
    by_cases hnil : row.drop 1 = []
    · exact ⟨none, by simp, by simp [hnil], by simp [hnil]⟩
    · have hmem : row.drop 1 ∈ digits :=
        mem_digits.2 ⟨hnil, fun c hc => hall c (List.mem_of_mem_drop hc)⟩
      refine ⟨some (row.drop 1), by simpa using hmem, rfl, ?_⟩
      rw [if_neg (by simpa only [List.isEmpty_iff] using hnil)]
      rfl
  obtain ⟨exponent, htext, hvalue⟩ := exists_exponent hplus e
  let n : NumberLiteral :=
    { negative, whole := row.take 1, places, exponent := some exponent
      whole_mem := hwhole, places_mem := hplaces }
  have hdecimal : n.decimal = ⟨digitsValue row, e - (row.drop 1).length⟩ := by
    have hplaceDigits : n.placeDigits = row.drop 1 := hdigits
    have hpower : n.power = e := hvalue
    have hrow : n.whole ++ row.drop 1 = row := List.take_append_drop 1 row
    rw [NumberLiteral.decimal, hplaceDigits, hpower, hrow]
  refine ⟨n, ?_, rfl, by rw [← n.value_decimal, hdecimal]⟩
  have hfraction : n.fractionText = if (row.drop 1).isEmpty then [] else '.' :: row.drop 1 :=
    hfraction
  have hexponent : n.exponentText = style.exponent e := htext
  rw [NumberLiteral.text, hfraction, hexponent]
  simp [n]

end Layouts

/-- **A scaled layout of a decimal is a literal that stands for it.** -/
theorem Number.Decimal.exists_literal_scaled {style : ScaledStyle}
    (hplus : style.plus.toList = [] ∨ style.plus.toList = ['+']) (d : Decimal) (negative : Bool) :
    ∃ n : NumberLiteral, n.text = signed negative (d.digits.scaled style) ∧
      n.negative = negative ∧ n.magnitude = d.value := by
  have hplain := d.exists_literal negative
  have hrow := toDigits_mem_digits d.significand
  have hvalue := digitsValue_toDigits d.significand
  have hlength : 0 < (Nat.toDigits 10 d.significand).length :=
    List.length_pos_iff.2 Nat.toDigits_ne_nil
  unfold Digits.scaled
  dsimp only
  split
  · next hwhole =>
    have hliteral := exists_literal_point_zero hrow negative
      (d.digits.point - d.digits.row.length).toNat
    have hexponent : ((d.digits.point - d.digits.row.length).toNat : Int) = d.exponent := by
      simp only [Decimal.digits] at hwhole ⊢
      omega
    rwa [hexponent, hvalue] at hliteral
  split
  · exact hplain
  split
  · exact hplain
  · have hliteral := exists_literal_exponent hrow negative hplus (d.digits.point - 1)
    have hexponent : d.digits.point - 1 - ((Nat.toDigits 10 d.significand).drop 1).length =
        d.exponent := by
      simp only [Decimal.digits, List.length_drop]
      omega
    rwa [hexponent, hvalue] at hliteral

theorem Number.Digits.leadingZero_scaled {ds : Digits} (h : Significant ds.row)
    (style : ScaledStyle) (negative : Bool) :
    leadingZero (signed negative (ds.scaled style)) = false := by
  obtain ⟨d, more, hrow, hd⟩ := h
  have hfront : (∃ w, ds.scaled style = '0' :: '.' :: w) ∨ ∃ w, ds.scaled style = d :: w := by
    have hplain : (∃ w, ds.plain = '0' :: '.' :: w) ∨ ∃ w, ds.plain = d :: w := by
      unfold Digits.plain
      split
      · exact .inl ⟨_, rfl⟩
      · next hpoint =>
        obtain ⟨k, hk⟩ : ∃ k, ds.point.toNat = k + 1 := ⟨ds.point.toNat - 1, by omega⟩
        dsimp only
        rw [hk, hrow]
        split
        · exact .inr ⟨_, rfl⟩
        · exact .inr ⟨_, rfl⟩
    unfold Digits.scaled
    dsimp only
    split
    · rw [hrow]
      exact .inr ⟨_, rfl⟩
    split
    · exact hplain
    split
    · exact hplain
    · rw [hrow]
      exact .inr ⟨_, rfl⟩
  rcases hfront with ⟨w, hw⟩ | ⟨w, hw⟩
  · rw [hw]
    exact leadingZero_of_point w negative
  · rw [hw]
    exact leadingZero_of_significant ⟨d, w, rfl, hd⟩ negative

/-! ## Floats -/

theorem Number.Format.ofDecimal_congr {f : Format} (hf : f.Regular) {d d' : Decimal}
    (h : d.value = d'.value) : f.ofDecimal d = f.ofDecimal d' := by
  obtain ⟨c, hc, hcode⟩ := f.ofDecimal_rounds hf d
  obtain ⟨c', hc', hcode'⟩ := f.ofDecimal_rounds hf d'
  rw [h] at hc
  rw [hcode, hcode', hc.unique hc']

/-- **The scaled text of a finite float is a literal that is rounded to it**, without needless zeros in
front. -/
theorem Binary32.exists_literal_scaled {x : Binary32} (hx : x.isFinite = true) {style : ScaledStyle}
    (hplus : style.plus.toList = [] ∨ style.plus.toList = ['+']) :
    ∃ n : NumberLiteral, n.text = (x.scaledText style).toList ∧ n.negative = x.negative ∧
      Format.binary32.ofDecimal n.decimal = x.code ∧
      leadingZero (x.scaledText style).toList = false := by
  have hfinite : x.code < Format.binary32.infinity := by simpa [isFinite] using hx
  unfold scaledText
  split
  · next hzero =>
    have hliteral : signed x.negative (zeros 1 ++ zeros 0 ++ ['.', '0']) =
        signed x.negative ['0', '.', '0'] := rfl
    have hzeros : zeros 1 ∈ digits := mem_digits.2 (by simp [zeros])
    obtain ⟨n, htext, hsign, hvalue⟩ := exists_literal_point_zero hzeros x.negative 0
    refine ⟨n, by rw [String.toList_ofList, htext, hliteral], hsign, ?_, ?_⟩
    · have hcongr : n.decimal.value = Decimal.value ⟨0, 0⟩ := by
        rw [n.value_decimal, hvalue]
        rfl
      rw [Format.ofDecimal_congr Format.regular_binary32 hcongr, hzero]
      rfl
    · rw [String.toList_ofList]
      exact leadingZero_of_point _ _
  · next hne =>
    let d := Format.binary32.shortest .even x.code
    have hcode : Format.binary32.ofDecimal d = x.code :=
      Format.ofDecimal_shortest Format.regular_binary32 .even hfinite.le
    have hpos : 0 < d.significand := by
      by_contra hzero
      have hsignificand : d.significand = 0 := by omega
      rw [Format.ofDecimal, if_pos hsignificand] at hcode
      exact hne hcode.symm
    obtain ⟨n, htext, hsign, hvalue⟩ := d.exists_literal_scaled hplus x.negative
    have hcongr : n.decimal.value = d.value := by rw [n.value_decimal, hvalue]
    refine ⟨n, by rw [String.toList_ofList, htext], hsign, ?_, ?_⟩
    · rw [Format.ofDecimal_congr Format.regular_binary32 hcongr, hcode]
    · rw [String.toList_ofList]
      exact Digits.leadingZero_scaled (significant_toDigits hpos) style x.negative

end MaterialScript
