import MaterialScript.Number.Layout
import Mathlib.Algebra.Order.Field.Basic
import Mathlib.Algebra.Order.Field.Power
import Mathlib.Data.Rat.Cast.Order
import Mathlib.Tactic.FieldSimp
import Mathlib.Tactic.Linarith
import Mathlib.Tactic.Positivity
import Mathlib.Tactic.Ring

/-!
# Rounding to the nearest magnitude

The codes of a format count up its magnitudes. A number is rounded to the first code whose upper
half-way point it does not pass, where a half-way point is passed only from an odd code. That settles
the code, so that it does not matter how the number is given.

* `Format.units_binade`, `Format.units_strictMono` : the magnitudes in the order of their codes;
* `Format.Passes x c`, `Format.Rounds x c` : the number `x` is rounded beyond `c`, or to `c`;
* `Format.Rounds.unique`, `Format.Rounds.nearest` : the code is the only one, no other is nearer, and
  only an even one has an equal;
* `Format.nearest_rounds`, `Format.ofDecimal_rounds` : fractions and decimals are rounded;
* `Format.ofDecimal_shortest` : the shortest decimal of a code reads back.

Numbers are counted in units of the least magnitude here.
-/

namespace MaterialScript.Number

/-! ## Quotients -/

/-- The nearest natural number is at most half a unit off, and an even one if it is that far off. -/
theorem nearestQuotient_spec (num : Nat) {den : Nat} (hden : 0 < den) :
    (2 * nearestQuotient num den - 1 : ℚ) ≤ 2 * (num / den) ∧
    (2 * (num / den) : ℚ) ≤ 2 * nearestQuotient num den + 1 ∧
    ((2 * nearestQuotient num den - 1 : ℚ) = 2 * (num / den) ∨
      (2 * (num / den) : ℚ) = 2 * nearestQuotient num den + 1 →
        nearestQuotient num den % 2 = 0) := by
  have hden' : (0 : ℚ) < den := by exact_mod_cast hden
  have hsplit : (num / den : ℚ) = (num / den : Nat) + (num % den : Nat) / den := by
    rw [div_eq_iff hden'.ne', add_mul, div_mul_cancel₀ _ hden'.ne', mul_comm]
    exact_mod_cast (Nat.div_add_mod num den).symm
  rw [hsplit]
  unfold nearestQuotient
  dsimp only
  generalize num / den = q at *
  have hrest : num % den < den := Nat.mod_lt num hden
  generalize num % den = r at *
  have hr : 0 ≤ (r / den : ℚ) := by positivity
  have hr1 : (r / den : ℚ) < 1 := (div_lt_one hden').2 (by exact_mod_cast hrest)
  split
  · next h =>
    have h' : 2 * (r / den : ℚ) < 1 := by
      rw [← mul_div_assoc, div_lt_one hden']
      exact_mod_cast h
    refine ⟨by linarith, by linarith, ?_⟩
    rintro (heq | heq) <;> linarith
  split
  · next h =>
    have h' : 1 < 2 * (r / den : ℚ) := by
      rw [← mul_div_assoc, one_lt_div hden']
      exact_mod_cast h
    push_cast
    refine ⟨by linarith, by linarith, ?_⟩
    rintro (heq | heq) <;> linarith
  · next h h' =>
    have hhalf : 2 * (r / den : ℚ) = 1 := by
      rw [← mul_div_assoc, div_eq_one_iff_eq hden'.ne']
      exact_mod_cast (by omega : 2 * r = den)
    have hparity : (q + q % 2) % 2 = 0 := by omega
    refine ⟨?_, ?_, fun _ => hparity⟩
    · have : ((q % 2 : Nat) : ℚ) ≤ 1 := by exact_mod_cast Nat.le_of_lt_succ (Nat.mod_lt q two_pos)
      push_cast at *
      linarith
    · have : (0 : ℚ) ≤ (q % 2 : Nat) := Nat.cast_nonneg _
      push_cast at *
      linarith

/-! ## The number of a decimal -/

def Decimal.value (d : Decimal) : ℚ := d.significand * 10 ^ d.exponent

theorem Decimal.value_nonneg (d : Decimal) : 0 ≤ d.value := by
  unfold Decimal.value
  positivity

@[simp] theorem Decimal.value_eq_zero_iff {d : Decimal} : d.value = 0 ↔ d.significand = 0 := by
  unfold Decimal.value
  rw [mul_eq_zero, or_iff_left (zpow_ne_zero _ (by norm_num)), Nat.cast_eq_zero]

namespace Format

/-! ## Magnitudes -/

theorem units_binade (f : Format) {k m : Nat} (hm : m ≤ 2 * 2 ^ f.fraction)
    (hk : k = 0 ∨ 2 ^ f.fraction ≤ m) : f.units (k * 2 ^ f.fraction + m) = m * 2 ^ k := by
  unfold units significand shift
  simp only [Nat.pow_eq]
  have hF : 0 < 2 ^ f.fraction := Nat.two_pow_pos _
  generalize 2 ^ f.fraction = F at *
  by_cases hsmall : m < F
  · obtain rfl : k = 0 := by omega
    rw [Nat.zero_mul, Nat.zero_add, if_pos hsmall, Nat.div_eq_of_lt hsmall]
  have hnot : ¬ k * F + m < F := by
    have : 0 ≤ k * F := Nat.zero_le _
    omega
  rw [if_neg hnot, Nat.mul_comm k F, Nat.mul_add_mod, Nat.mul_add_div hF]
  rcases Nat.lt_or_eq_of_le hm with hlt | rfl
  · have hmod : m % F = m - F := by
      rw [Nat.mod_eq_sub_mod (by omega), Nat.mod_eq_of_lt (by omega)]
    have hdiv : m / F = 1 := Nat.div_eq_of_lt_le (by omega) (by omega)
    rw [hmod, hdiv]
    have : F + (m - F) = m := by omega
    rw [this, Nat.add_sub_cancel]
  · rw [Nat.mul_mod_left, Nat.mul_div_cancel _ hF]
    have : k + 2 - 1 = k + 1 := by omega
    rw [this, Nat.pow_succ]
    ring

theorem exists_binade (f : Format) (c : Nat) :
    ∃ k m, c = k * 2 ^ f.fraction + m ∧ m < 2 * 2 ^ f.fraction ∧ (k = 0 ∨ 2 ^ f.fraction ≤ m) := by
  have hF : 0 < 2 ^ f.fraction := Nat.two_pow_pos _
  generalize 2 ^ f.fraction = F at *
  by_cases hc : c < F
  · exact ⟨0, c, by omega, by omega, .inl rfl⟩
  · have hsplit := Nat.div_add_mod c F
    have hrest := Nat.mod_lt c hF
    have hdiv : 1 ≤ c / F := (Nat.one_le_div_iff hF).2 (by omega)
    refine ⟨c / F - 1, F + c % F, ?_, by omega, .inr (by omega)⟩
    obtain ⟨j, hj⟩ : ∃ j, c / F = j + 1 := ⟨c / F - 1, by omega⟩
    rw [hj] at hsplit ⊢
    rw [Nat.add_sub_cancel, ← Nat.add_assoc, ← Nat.succ_mul, Nat.mul_comm]
    exact hsplit.symm

/-- **Codes count up the magnitudes.** -/
theorem units_strictMono (f : Format) : StrictMono f.units := by
  refine strictMono_nat_of_lt_succ fun c => ?_
  obtain ⟨k, m, rfl, hm, hk⟩ := f.exists_binade c
  rw [f.units_binade (by omega) hk, Nat.add_assoc, f.units_binade (by omega) (by omega)]
  exact Nat.mul_lt_mul_of_pos_right (Nat.lt_succ_self m) (Nat.two_pow_pos k)

theorem units_lt_succ (f : Format) (c : Nat) : (f.units c : ℚ) < f.units (c + 1) := by
  exact_mod_cast f.units_strictMono c.lt_succ_self

theorem significand_mod_two (f : Format) (hf : 0 < f.fraction) (c : Nat) :
    f.significand c % 2 = c % 2 := by
  have htwo : 2 ∣ 2 ^ f.fraction := dvd_pow_self 2 hf.ne'
  unfold significand
  simp only [Nat.pow_eq]
  split
  · rfl
  · rw [Nat.add_mod, Nat.mod_mod_of_dvd _ htwo, Nat.mod_eq_zero_of_dvd htwo, Nat.zero_add,
      Nat.mod_mod]

theorem units_zero (f : Format) : f.units 0 = 0 := by
  simpa using f.units_binade (Nat.zero_le _) (.inl (rfl : (0 : Nat) = 0))

/-! ## Half-way points -/

/-- Twice the number half-way between a code and the next one. -/
def halfway (f : Format) (c : Nat) : ℚ := f.units c + f.units (c + 1)

/-- Whether a number is rounded to a code beyond `c`. -/
def Passes (f : Format) (x : ℚ) (c : Nat) : Prop :=
  f.halfway c < 2 * x ∨ f.halfway c = 2 * x ∧ c % 2 = 1

/-- A number is rounded to the first code that it does not pass. -/
structure Rounds (f : Format) (x : ℚ) (c : Nat) : Prop where
  below : ∀ b, b + 1 = c → f.Passes x b
  above : ¬ f.Passes x c

variable {f : Format} {x : ℚ} {b c : Nat}

theorem halfway_strictMono (f : Format) : StrictMono f.halfway := by
  intro b c h
  have hlow : (f.units b : ℚ) < f.units c := by exact_mod_cast f.units_strictMono h
  have hhigh : (f.units (b + 1) : ℚ) < f.units (c + 1) := by
    exact_mod_cast f.units_strictMono (Nat.succ_lt_succ h)
  exact add_lt_add hlow hhigh

theorem Passes.le (h : f.Passes x c) : f.halfway c ≤ 2 * x := by
  rcases h with h | ⟨h, -⟩
  · exact h.le
  · exact h.le

theorem Passes.mono (h : f.Passes x c) (hb : b ≤ c) : f.Passes x b := by
  rcases Nat.lt_or_eq_of_le hb with hlt | rfl
  · exact .inl ((f.halfway_strictMono hlt).trans_le h.le)
  · exact h

/-- A code is beyond those, and only those, that the number passes. -/
theorem Rounds.lt_iff (h : f.Rounds x c) : b < c ↔ f.Passes x b := by
  constructor
  · intro hlt
    obtain ⟨d, rfl⟩ : ∃ d, c = d + 1 := ⟨c - 1, by omega⟩
    exact (h.below d rfl).mono (by omega)
  · intro hpass
    by_contra hle
    exact h.above (hpass.mono (by omega))

/-- **A number is rounded to one code only.** -/
theorem Rounds.unique (hb : f.Rounds x b) (hc : f.Rounds x c) : b = c := by
  have hiff : ∀ d, d < b ↔ d < c := fun d => hb.lt_iff.trans hc.lt_iff.symm
  have hbc := hiff b
  have hcb := hiff c
  omega

/-- **No code is nearer than the one that a number is rounded to**, and another one is as near only
if the chosen one is even. -/
theorem Rounds.nearest (h : f.Rounds x c) (b : Nat) :
    |(f.units c : ℚ) - x| ≤ |(f.units b : ℚ) - x| ∧
    (|(f.units c : ℚ) - x| = |(f.units b : ℚ) - x| → b = c ∨ c % 2 = 0) := by
  rcases lt_trichotomy b c with hlt | rfl | hlt
  · obtain ⟨d, rfl⟩ : ∃ d, c = d + 1 := ⟨c - 1, by omega⟩
    have hpass : f.Passes x d := h.below d rfl
    have hbd : (f.units b : ℚ) ≤ f.units d := by
      exact_mod_cast f.units_strictMono.monotone (Nat.le_of_lt_succ hlt)
    have hdc := f.units_lt_succ d
    have hhalf : (f.units d : ℚ) + f.units (d + 1) ≤ 2 * x := hpass.le
    have hb : |(f.units b : ℚ) - x| = x - f.units b := by
      rw [abs_sub_comm]
      exact abs_of_nonneg (by linarith)
    rw [hb, abs_le]
    refine ⟨⟨by linarith, by linarith⟩, fun heq => .inr ?_⟩
    rcases hpass with hfar | ⟨-, hodd⟩
    · have hfar' : (f.units d : ℚ) + f.units (d + 1) < 2 * x := hfar
      rcases abs_cases ((f.units (d + 1) : ℚ) - x) with hc | hc <;> linarith [hc.1, hc.2]
    · omega
  · exact ⟨le_rfl, fun _ => .inl rfl⟩
  · have hcb : (f.units (c + 1) : ℚ) ≤ f.units b := by
      exact_mod_cast f.units_strictMono.monotone (Nat.succ_le_of_lt hlt)
    have hcc := f.units_lt_succ c
    have hhalf : 2 * x ≤ (f.units c : ℚ) + f.units (c + 1) := by
      by_contra hfar
      exact h.above (.inl (not_le.1 hfar))
    have hb : |(f.units b : ℚ) - x| = f.units b - x := abs_of_nonneg (by linarith)
    rw [hb, abs_le]
    refine ⟨⟨by linarith, by linarith⟩, fun heq => .inr ?_⟩
    have hmid : f.halfway c = 2 * x := by
      unfold halfway
      rcases abs_cases ((f.units c : ℚ) - x) with hc | hc <;> linarith [hc.1, hc.2]
    by_contra hodd
    exact h.above (.inr ⟨hmid, by omega⟩)

theorem rounds_units (f : Format) (c : Nat) : f.Rounds (f.units c) c where
  below := by
    rintro b rfl
    have hlt := f.units_lt_succ b
    refine .inl ?_
    unfold halfway
    linarith
  above := by
    intro hpass
    have hle : (f.units c : ℚ) + f.units (c + 1) ≤ 2 * f.units c := hpass.le
    have hlt := f.units_lt_succ c
    linarith

/-! ## Fractions -/

/-- Within a binade, or at its end, the half-way points lie between the multiples. -/
theorem halfway_binade (f : Format) {k m : Nat} (hm : m < 2 * 2 ^ f.fraction)
    (hk : k = 0 ∨ 2 ^ f.fraction ≤ m) :
    f.halfway (k * 2 ^ f.fraction + m) = (2 * m + 1) * 2 ^ k := by
  unfold halfway
  rw [Nat.add_assoc, f.units_binade (by omega) hk, f.units_binade (by omega) (by omega)]
  push_cast
  ring

theorem binade_span (f : Format) (n : Nat) {den : Nat} (hden : 0 < den) {k : Nat}
    (hk : k = (n / den).log2 - f.fraction) :
    n < 2 * 2 ^ f.fraction * (den * 2 ^ k) ∧ (k = 0 ∨ 2 ^ f.fraction * (den * 2 ^ k) ≤ n) := by
  have hupper : n < 2 ^ ((n / den).log2 + 1) * den :=
    (Nat.div_lt_iff_lt_mul hden).1 Nat.lt_log2_self
  rcases Nat.le_total (n / den).log2 f.fraction with hle | hle
  · obtain rfl : k = 0 := by omega
    have hpow : 2 ^ ((n / den).log2 + 1) ≤ 2 * 2 ^ f.fraction := by
      rw [← Nat.pow_succ']
      exact Nat.pow_le_pow_right (by decide) (by omega)
    refine ⟨?_, .inl rfl⟩
    rw [Nat.pow_zero, Nat.mul_one]
    exact hupper.trans_le (Nat.mul_le_mul_right den hpow)
  · have hsum : (n / den).log2 = f.fraction + k := by omega
    rw [hsum] at hupper
    constructor
    · calc n < 2 ^ (f.fraction + k + 1) * den := hupper
        _ = 2 * 2 ^ f.fraction * (den * 2 ^ k) := by ring
    by_cases hq : n / den = 0
    · rw [hq, Nat.log2_zero] at hsum
      exact .inl (by omega)
    · right
      calc 2 ^ f.fraction * (den * 2 ^ k) = 2 ^ (n / den).log2 * den := by rw [hsum]; ring
        _ ≤ n / den * den := Nat.mul_le_mul_right den (Nat.log2_self_le hq)
        _ ≤ n := Nat.div_mul_le_self n den

/-- A number of a binade is rounded to the nearest multiple of the power of two, to an even one if
two are as near. -/
theorem rounds_binade (hf : 0 < f.fraction) {k m : Nat} {y : ℚ} (hlow : 2 * m - 1 ≤ 2 * y)
    (hhigh : 2 * y ≤ 2 * m + 1) (htie : 2 * m - 1 = 2 * y ∨ 2 * y = 2 * m + 1 → m % 2 = 0)
    (hy : y < 2 * 2 ^ f.fraction) (hk : k = 0 ∨ 2 ^ f.fraction ≤ y) :
    f.Rounds (y * 2 ^ k) (k * 2 ^ f.fraction + m) := by
  have hpow : (0 : ℚ) < 2 ^ k := by positivity
  have heven : (k * 2 ^ f.fraction + m) % 2 = m % 2 := by
    rw [← Nat.succ_pred_eq_of_pos hf, Nat.pow_succ, ← Nat.mul_assoc, Nat.mul_add_mod_self_right]
  have hm : m ≤ 2 * 2 ^ f.fraction := by
    have : (2 * m : ℚ) < (2 * (2 * 2 ^ f.fraction) + 1 : Nat) := by push_cast; linarith
    have : 2 * m < 2 * (2 * 2 ^ f.fraction) + 1 := by exact_mod_cast this
    omega
  have hk' : k = 0 ∨ 2 ^ f.fraction ≤ m := by
    refine hk.imp_right fun hle => ?_
    have : ((2 * 2 ^ f.fraction : Nat) : ℚ) ≤ (2 * m + 1 : Nat) := by push_cast; linarith
    have : 2 * 2 ^ f.fraction ≤ 2 * m + 1 := by exact_mod_cast this
    omega
  constructor
  · intro b hb
    by_cases hstart : k = 0 ∨ 2 ^ f.fraction < m
    · obtain ⟨j, rfl⟩ : ∃ j, m = j + 1 := ⟨m - 1, by rcases hstart with rfl | h <;> omega⟩
      obtain rfl : b = k * 2 ^ f.fraction + j := by omega
      unfold Passes
      rw [f.halfway_binade (by omega) (by omega), ← mul_assoc, mul_lt_mul_iff_left₀ hpow,
        mul_left_inj' hpow.ne']
      push_cast at hlow htie
      rcases hlow.lt_or_eq with hlt | heq
      · exact .inl (by linarith)
      · have hparity := htie (.inl heq)
        exact .inr ⟨by linarith, by omega⟩
    · -- the first code of a binade: the half-way point below it lies outside the binade
      obtain ⟨hk0, hmF⟩ := not_or.1 hstart
      have hle : (2 ^ f.fraction : ℚ) ≤ y := hk.resolve_left hk0
      have hmF' : m = 2 ^ f.fraction := le_antisymm (not_lt.1 hmF) (hk'.resolve_left hk0)
      have hunits : (f.units (b + 1) : ℚ) = 2 ^ f.fraction * 2 ^ k := by
        rw [hb, f.units_binade hm hk', hmF']
        push_cast
        rfl
      have hbelow := f.units_lt_succ b
      have hscaled : (2 ^ f.fraction * 2 ^ k : ℚ) ≤ y * 2 ^ k :=
        mul_le_mul_of_nonneg_right hle hpow.le
      refine .inl ?_
      unfold halfway
      linarith
  · intro hpass
    rcases Nat.lt_or_eq_of_le hm with hlt | hend
    · unfold Passes at hpass
      rw [f.halfway_binade hlt hk', ← mul_assoc, mul_lt_mul_iff_left₀ hpow,
        mul_left_inj' hpow.ne'] at hpass
      rcases hpass with hfar | ⟨heq, hodd⟩
      · linarith
      · have hparity := htie (.inr heq.symm)
        omega
    · have hunits : (f.units (k * 2 ^ f.fraction + m) : ℚ) = 2 * 2 ^ f.fraction * 2 ^ k := by
        rw [f.units_binade hm hk', hend]
        push_cast
        rfl
      have habove := f.units_lt_succ (k * 2 ^ f.fraction + m)
      have hscaled : y * 2 ^ k < 2 * 2 ^ f.fraction * 2 ^ k :=
        mul_lt_mul_of_pos_right hy hpow
      have hle := hpass.le
      unfold halfway at hle
      linarith

/-- **The nearest code of a fraction is the one it is rounded to**, cut off at infinity. -/
theorem nearest_rounds (hf : 0 < f.fraction) (num : Nat) {den : Nat} (hden : 0 < den) :
    ∃ c, f.Rounds (num * 2 ^ f.lowest / den) c ∧ f.nearest num den = min c f.infinity := by
  unfold Format.nearest
  simp only [Nat.pow_eq]
  rw [show (num : ℚ) * 2 ^ f.lowest = (num * 2 ^ f.lowest : Nat) by push_cast; rfl]
  generalize num * 2 ^ f.lowest = n
  generalize hk : (n / den).log2 - f.fraction = k
  obtain ⟨hupper, hlower⟩ := f.binade_span n hden hk.symm
  have hD : 0 < den * 2 ^ k := Nat.mul_pos hden (Nat.two_pow_pos k)
  have hD' : (0 : ℚ) < (den * 2 ^ k : Nat) := by exact_mod_cast hD
  obtain ⟨hlow, hhigh, htie⟩ := nearestQuotient_spec n hD
  have hx : (n : ℚ) / den = n / (den * 2 ^ k : Nat) * 2 ^ k := by
    push_cast
    rw [div_mul_eq_mul_div, mul_div_mul_right _ _ (by positivity)]
  refine ⟨_, ?_, rfl⟩
  rw [hx]
  refine rounds_binade hf hlow hhigh htie ?_ (hlower.imp_right fun h => ?_)
  · rw [div_lt_iff₀ hD']
    exact_mod_cast hupper
  · rw [le_div_iff₀ hD']
    exact_mod_cast h

/-! ## Decimals -/

/-- A format whose codes from infinity on lie below the decimals that are not expanded for their
size. -/
structure Regular (f : Format) : Prop where
  fraction_pos : 0 < f.fraction
  infinity_pos : 0 < f.infinity
  bounded : f.units f.infinity ≤ 10 ^ f.lowest * 2 ^ f.lowest

theorem regular_binary32 : binary32.Regular where
  fraction_pos := by decide
  infinity_pos := by decide
  bounded := by decide +kernel

theorem Rounds.infinity_le (h : f.Rounds x c) (hpos : 0 < f.infinity)
    (hx : f.units f.infinity ≤ x) : f.infinity ≤ c := by
  obtain ⟨b, hb⟩ : ∃ b, f.infinity = b + 1 := ⟨f.infinity - 1, by omega⟩
  rw [hb] at hx ⊢
  refine h.lt_iff.2 (.inl ?_)
  have hlt := f.units_lt_succ b
  unfold halfway
  linarith

theorem Rounds.eq_zero (h : f.Rounds x c) (hx : 2 * x < 1) : c = 0 := by
  by_contra hc
  have hle := (h.lt_iff.1 (Nat.pos_of_ne_zero hc)).le
  have hlt : (1 : ℚ) ≤ f.units 1 := by
    exact_mod_cast (Nat.zero_le _).trans_lt (f.units_strictMono Nat.zero_lt_one)
  unfold halfway at hle
  rw [f.units_zero, Nat.cast_zero] at hle
  linarith

theorem rounds_expanded (hf : 0 < f.fraction) (s : Nat) (e : Int) :
    ∃ c, f.Rounds (s * 10 ^ e * 2 ^ f.lowest) c ∧
      (if 0 ≤ e then f.nearest (s * Nat.pow 10 e.toNat) 1
        else f.nearest s (Nat.pow 10 (-e).toNat)) = min c f.infinity := by
  split
  · next he =>
    obtain ⟨n, rfl⟩ := Int.eq_ofNat_of_zero_le he
    obtain ⟨c, hc, hnear⟩ := nearest_rounds hf (s * 10 ^ n) Nat.one_pos
    refine ⟨c, ?_, hnear⟩
    simpa using hc
  · next he =>
    obtain ⟨n, rfl⟩ : ∃ n : Nat, e = -n := ⟨(-e).toNat, by omega⟩
    obtain ⟨c, hc, hnear⟩ := nearest_rounds hf s (Nat.pow_pos (n := n) (by decide : 0 < 10))
    refine ⟨c, ?_, by simpa using hnear⟩
    have hx : (s * 10 ^ (-n : Int) * 2 ^ f.lowest : ℚ) = s * 2 ^ f.lowest / (10 ^ n : Nat) := by
      push_cast
      rw [zpow_neg, zpow_natCast]
      ring
    rwa [hx]

/-- A decimal that is not expanded for its smallness is below half of the least magnitude. -/
theorem value_small {s l : Nat} {e : Int} (h : e + l + s.log2 + 2 ≤ 0) :
    2 * (s * 10 ^ e * 2 ^ l : ℚ) < 1 := by
  obtain ⟨n, rfl⟩ : ∃ n : Nat, e = -n := ⟨(-e).toNat, by omega⟩
  have hn : l + s.log2 + 2 ≤ n := by omega
  have hbound : 2 * (s * 2 ^ l) < 10 ^ n :=
    calc 2 * (s * 2 ^ l) < 2 * (2 ^ (s.log2 + 1) * 2 ^ l) := by
          have := Nat.mul_lt_mul_of_pos_right (Nat.lt_log2_self (n := s)) (Nat.two_pow_pos l)
          omega
      _ = 2 ^ (l + s.log2 + 2) := by ring
      _ ≤ 2 ^ n := Nat.pow_le_pow_right (by decide) hn
      _ ≤ 10 ^ n := Nat.pow_le_pow_left (by decide) n
  have hbound' : 2 * (s * 2 ^ l) < (10 ^ n : ℚ) := by exact_mod_cast hbound
  rw [zpow_neg, zpow_natCast]
  calc (2 * (s * (10 ^ n)⁻¹ * 2 ^ l) : ℚ) = 2 * (s * 2 ^ l) / 10 ^ n := by ring
    _ < 1 := (div_lt_one (by positivity)).2 hbound'

/-- A decimal that is not expanded for its size is beyond the magnitude of infinity. -/
theorem Regular.le_value (hf : f.Regular) {s : Nat} (hs : ¬ s = 0) {e : Int}
    (h : (f.lowest : Int) < e) : (f.units f.infinity : ℚ) ≤ s * 10 ^ e * 2 ^ f.lowest := by
  have hone : (1 : ℚ) ≤ s := by exact_mod_cast Nat.pos_of_ne_zero hs
  have hpow : (10 : ℚ) ^ f.lowest ≤ 10 ^ e := by
    rw [← zpow_natCast]
    exact zpow_le_zpow_right₀ (by norm_num) h.le
  calc (f.units f.infinity : ℚ) ≤ 10 ^ f.lowest * 2 ^ f.lowest := by exact_mod_cast hf.bounded
    _ ≤ s * 10 ^ e * 2 ^ f.lowest := by
      refine mul_le_mul_of_nonneg_right ?_ (by positivity)
      calc (10 : ℚ) ^ f.lowest ≤ 10 ^ e := hpow
        _ ≤ s * 10 ^ e := le_mul_of_one_le_left (by positivity) hone

/-- **The nearest code of a decimal is the one it is rounded to**, cut off at infinity. -/
theorem ofDecimal_rounds (hf : f.Regular) (d : Decimal) :
    ∃ c, f.Rounds (d.value * 2 ^ f.lowest) c ∧ f.ofDecimal d = min c f.infinity := by
  obtain ⟨s, e⟩ := d
  obtain ⟨c, hc, hnear⟩ := rounds_expanded (f := f) hf.fraction_pos s e
  refine ⟨c, hc, ?_⟩
  unfold Format.ofDecimal
  dsimp only
  split
  · next hs =>
    have hzero : c = 0 := hc.eq_zero (by simp [hs])
    rw [hzero, Nat.zero_min]
  · next hs =>
    split
    · next hbig =>
      have hinf : f.infinity ≤ c := hc.infinity_le hf.infinity_pos (hf.le_value hs hbig)
      rw [Nat.min_eq_right hinf]
    split
    · next hsmall => rw [hc.eq_zero (value_small hsmall), Nat.zero_min]
    · exact hnear

theorem ofDecimal_of_units (hf : f.Regular) {d : Decimal} (h : d.value * 2 ^ f.lowest = f.units c)
    (hc : c ≤ f.infinity) : f.ofDecimal d = c := by
  obtain ⟨b, hb, hd⟩ := ofDecimal_rounds hf d
  rw [h] at hb
  rw [hd, hb.unique (f.rounds_units c), Nat.min_eq_left hc]

/-- **The shortest decimal of a code reads back.** -/
theorem ofDecimal_shortest (hf : f.Regular) (tie : Tie) (hc : c ≤ f.infinity) :
    f.ofDecimal (f.shortest tie c) = c := by
  refine f.ofDecimal_search tie c _ (ofDecimal_of_units hf ?_ hc)
  simp only [Format.search, Decimal.value, Nat.pow_eq]
  rw [zpow_neg, zpow_natCast, show (10 : ℚ) = 5 * 2 by norm_num, mul_pow]
  push_cast
  field_simp

end Format

end MaterialScript.Number
