import MaterialScript.Proofs.Number.Literal

/-!
# The plain text of a float

A float is written with the fewest digits that read back, in positional notation. That text is a
literal, and it is decoded to the same float, bit for bit.

* `Number.Decimal.exists_literal` : positional notation of a decimal is a literal for its value;
* `Binary32.exists_literal` : so is the text of a finite float, rounded to its code;
* `Binary32.decode?_text` : the text of a finite float is decoded to that float.
-/

namespace MaterialScript

open Lexer Number

/-! ## Digits -/

theorem zeros_mem_digits {n : Nat} {ds : List Char} (hds : ds ∈ digits) :
    zeros n ++ ds ∈ digits ∧ ds ++ zeros n ∈ digits := by
  obtain ⟨hne, hall⟩ := mem_digits.1 hds
  have hzeros : ∀ c ∈ zeros n, c.isDigit = true := by
    intro c hc
    rw [List.eq_of_mem_replicate hc]
    rfl
  have hboth : ∀ c, c ∈ zeros n ∨ c ∈ ds → c.isDigit = true :=
    fun c hc => hc.elim (hzeros c) (hall c)
  refine ⟨mem_digits.2 ⟨by simp [hne], fun c hc => hboth c (List.mem_append.1 hc)⟩,
    mem_digits.2 ⟨by simp [hne], fun c hc => hboth c (List.mem_append.1 hc).symm⟩⟩

theorem toDigits_mem_digits (n : Nat) : Nat.toDigits 10 n ∈ digits :=
  mem_digits.2 ⟨Nat.toDigits_ne_nil, fun _ hc => Nat.isDigit_of_mem_toDigits (by decide) (by decide) hc⟩

theorem digitsValue_toDigits (n : Nat) : digitsValue (Nat.toDigits 10 n) = n :=
  Nat.ofDigitChars_ten_toDigits

theorem digitsValue_zeros_append (n : Nat) (ds : List Char) :
    digitsValue (zeros n ++ ds) = digitsValue ds := by
  have happend : digitsValue (zeros n ++ ds) =
      Nat.ofDigitChars 10 ds (Nat.ofDigitChars 10 (zeros n) 0) := Nat.ofDigitChars_append 0
  rw [happend, zeros, Nat.ofDigitChars_replicate_zero, Nat.mul_zero]
  rfl

theorem digitsValue_append_zeros (n : Nat) (ds : List Char) :
    digitsValue (ds ++ zeros n) = digitsValue ds * 10 ^ n := by
  have happend : digitsValue (ds ++ zeros n) =
      Nat.ofDigitChars 10 (zeros n) (digitsValue ds) := Nat.ofDigitChars_append 0
  rw [happend, zeros, Nat.ofDigitChars_replicate_zero, Nat.mul_comm]

/-! ## Positional notation -/

section Layouts
variable {row : List Char} (hrow : row ∈ digits) (negative : Bool)
include hrow

theorem exists_literal_below_one (k : Nat) :
    ∃ n : NumberLiteral, n.text = signed negative ('0' :: '.' :: zeros k ++ row) ∧
      n.negative = negative ∧ n.magnitude = Decimal.value ⟨digitsValue row, -(k + row.length)⟩ := by
  let n : NumberLiteral :=
    { negative, whole := zeros 1, places := some (zeros k ++ row), exponent := none
      whole_mem := mem_digits.2 (by simp [zeros])
      places_mem := by rintro _ ⟨⟩; exact (zeros_mem_digits hrow).1 }
  have hdecimal : n.decimal = ⟨digitsValue row, -(k + row.length)⟩ := by
    have hlength : (0 : Int) - (zeros k ++ row).length = -(k + row.length) := by simp [zeros]
    have hdigits : digitsValue (zeros 1 ++ (zeros k ++ row)) = digitsValue row := by
      rw [digitsValue_zeros_append, digitsValue_zeros_append]
    exact congrArg₂ Decimal.mk hdigits hlength
  refine ⟨n, ?_, rfl, by rw [← n.value_decimal, hdecimal]⟩
  simp [n, NumberLiteral.text, NumberLiteral.fractionText, NumberLiteral.exponentText, zeros]

theorem exists_literal_with_point {k : Nat} (hpos : 0 < k) (hlt : k < row.length) :
    ∃ n : NumberLiteral, n.text = signed negative (row.take k ++ '.' :: row.drop k) ∧
      n.negative = negative ∧ n.magnitude = Decimal.value ⟨digitsValue row, k - row.length⟩ := by
  have hall := (mem_digits.1 hrow).2
  have hwhole : row.take k ∈ digits :=
    mem_digits.2 ⟨List.ne_nil_of_length_pos (by rw [List.length_take]; omega),
      fun c hc => hall c (List.mem_of_mem_take hc)⟩
  have hplaces : row.drop k ∈ digits :=
    mem_digits.2 ⟨List.ne_nil_of_length_pos (by rw [List.length_drop]; omega),
      fun c hc => hall c (List.mem_of_mem_drop hc)⟩
  let n : NumberLiteral :=
    { negative, whole := row.take k, places := some (row.drop k), exponent := none
      whole_mem := hwhole, places_mem := by rintro _ ⟨⟩; exact hplaces }
  have hdecimal : n.decimal = ⟨digitsValue row, k - row.length⟩ := by
    have hlength : (0 : Int) - (row.drop k).length = k - row.length := by
      rw [List.length_drop]
      omega
    have hdigits : digitsValue (row.take k ++ row.drop k) = digitsValue row := by
      rw [List.take_append_drop]
    exact congrArg₂ Decimal.mk hdigits hlength
  refine ⟨n, ?_, rfl, by rw [← n.value_decimal, hdecimal]⟩
  simp [n, NumberLiteral.text, NumberLiteral.fractionText, NumberLiteral.exponentText]

theorem exists_literal_whole (k : Nat) :
    ∃ n : NumberLiteral, n.text = signed negative (row ++ zeros k) ∧ n.negative = negative ∧
      n.magnitude = Decimal.value ⟨digitsValue row, k⟩ := by
  let n : NumberLiteral :=
    { negative, whole := row ++ zeros k, places := none, exponent := none
      whole_mem := (zeros_mem_digits hrow).2, places_mem := by simp }
  have hdecimal : n.decimal = ⟨digitsValue row * 10 ^ k, 0⟩ := by
    have hdigits : digitsValue (row ++ zeros k ++ []) = digitsValue row * 10 ^ k := by
      rw [List.append_nil, digitsValue_append_zeros]
    exact congrArg₂ Decimal.mk hdigits rfl
  refine ⟨n, ?_, rfl, ?_⟩
  · simp [n, NumberLiteral.text, NumberLiteral.fractionText, NumberLiteral.exponentText]
  · rw [← n.value_decimal, hdecimal]
    simp [Decimal.value]

end Layouts

/-- **Positional notation of a decimal is a literal that stands for it.** -/
theorem Number.Decimal.exists_literal (d : Decimal) (negative : Bool) :
    ∃ n : NumberLiteral, n.text = signed negative d.digits.plain ∧ n.negative = negative ∧
      n.magnitude = d.value := by
  obtain ⟨s, e⟩ := d
  have hrow := toDigits_mem_digits s
  have hvalue := digitsValue_toDigits s
  unfold Decimal.digits Digits.plain
  dsimp only
  generalize Nat.toDigits 10 s = row at *
  subst hvalue
  split
  · next hpoint =>
    have hexponent : -(((-(row.length + e)).toNat : Int) + row.length) = e := by omega
    have hliteral := exists_literal_below_one hrow negative (-(row.length + e)).toNat
    rwa [hexponent] at hliteral
  · next hpoint =>
    split
    · next hlt =>
      have hexponent : ((row.length + e).toNat : Int) - row.length = e := by omega
      have hliteral := exists_literal_with_point hrow negative (by omega) hlt
      rwa [hexponent] at hliteral
    · next hlt =>
      have hexponent : (((row.length + e).toNat - row.length : Nat) : Int) = e := by omega
      have hliteral := exists_literal_whole hrow negative ((row.length + e).toNat - row.length)
      rwa [hexponent] at hliteral

/-! ## Floats -/

namespace Binary32

/-- The text of a finite float is a literal that is rounded to its code. -/
theorem exists_literal {x : Binary32} (hx : x.isFinite = true) :
    ∃ n : NumberLiteral, String.ofList n.text = x.text ∧ n.negative = x.negative ∧
      Format.binary32.Rounds (n.magnitude * 2 ^ Format.binary32.lowest) x.code ∧
      (x.code = 0 → n.magnitude = 0) := by
  have hfinite : x.code < Format.binary32.infinity := by simpa [isFinite] using hx
  unfold text Format.plainText
  rw [if_neg (by omega), if_neg (by omega)]
  split
  · next hzero =>
    obtain ⟨n, htext, hsign, hvalue⟩ := Decimal.exists_literal ⟨0, 0⟩ x.negative
    have hmagnitude : n.magnitude = 0 := by
      rw [hvalue, Decimal.value_eq_zero_iff]
    refine ⟨n, congrArg String.ofList htext, hsign, ?_, fun _ => hmagnitude⟩
    rw [hmagnitude, hzero]
    simpa [Format.units_zero] using Format.binary32.rounds_units 0
  · next hzero =>
    let d := Format.binary32.shortest .up x.code
    obtain ⟨n, htext, hsign, hvalue⟩ := d.exists_literal x.negative
    obtain ⟨c, hc, hcode⟩ := Format.ofDecimal_rounds Format.regular_binary32 d
    rw [Format.ofDecimal_shortest Format.regular_binary32 .up hfinite.le] at hcode
    have hcx : c = x.code := by omega
    rw [hcx, ← hvalue] at hc
    exact ⟨n, congrArg String.ofList htext, hsign, hc, fun h => absurd h hzero⟩

/-- **The text of a finite float is a number, and decoded to that float.** -/
theorem decode?_text {x : Binary32} (hx : x.isFinite = true) :
    x.text.toList ∈ Pattern.number.language ∧ decode? x.text = some x := by
  have hfinite : x.code < Format.binary32.infinity := by simpa [isFinite] using hx
  obtain ⟨n, htext, hsign, hrounds, hzero⟩ := exists_literal hx
  obtain ⟨c, hc, hdecode⟩ := n.decode?_rounds
  obtain rfl := hc.unique hrounds
  have hin : ¬ (n.magnitude ≠ 0 ∧ (x.code = 0 ∨ Format.binary32.infinity ≤ x.code)) := by
    rintro ⟨hne, h | h⟩
    · exact hne (hzero h)
    · omega
  rw [if_neg hin, hsign, ofCode_code, htext] at hdecode
  refine ⟨?_, hdecode⟩
  rw [← htext, String.toList_ofList]
  exact NumberLiteral.mem_number_iff.2 ⟨n, rfl⟩

end Binary32

end MaterialScript
