import MaterialScript.Number.Decimal
import MaterialScript.Text.Quoted
import Mathlib.Data.List.Basic

/-!
# Reading quoted texts back

A quoted text can be told from its form between quotes, since the form of each character can be read back
in front of any text.

* `natural?_toDigits` : a number is read back from its digits;
* `unescape` : the first character of the form of a text; `unescape_escape` : the forms are read back;
* `quoted_inj` : quoted texts can be told apart; `newline_not_mem_quoted` : they stay on one line.
-/

namespace MaterialScript.Number

/-! ## Digits -/

theorem digitOf?_digitChar {base d : Nat} (hbase : base ≤ 16) (hd : d < base) :
    digitOf? base (Nat.digitChar d) = some d := by
  have hall : ∀ base ≤ 16, ∀ d < base, digitOf? base (Nat.digitChar d) = some d := by
    decide +kernel
  exact hall base hbase d hd

theorem natural?_concat {base n d : Nat} {ds : List Char} {c : Char}
    (hn : natural? base ds = some n) (hd : digitOf? base c = some d) :
    natural? base (ds ++ [c]) = some (n * base + d) := by
  cases ds with
  | nil => cases hn
  | cons first ds =>
    rw [natural?, List.isEmpty_cons, if_neg Bool.false_ne_true] at hn
    rw [natural?, List.cons_append, List.isEmpty_cons, if_neg Bool.false_ne_true,
      ← List.cons_append, List.foldl_append, hn, List.foldl_cons, List.foldl_nil, hd]
    rfl

variable {base : Nat}

theorem natural?_toDigits (hone : 1 < base) (hbase : base ≤ 16) (n : Nat) :
    natural? base (Nat.toDigits base n) = some n := by
  induction n using Nat.strongRecOn with
  | ind n ih =>
  rw [Nat.toDigits_eq_if hone]
  split
  · next hlt => simp [natural?, digitOf?_digitChar hbase hlt]
  · next hle =>
    have hn := ih (n / base) (Nat.div_lt_self (by omega) hone)
    have hd := digitOf?_digitChar hbase (Nat.mod_lt n (by omega))
    rw [natural?_concat hn hd, Nat.div_add_mod']

theorem digitOf?_of_mem_toDigits (hone : 1 < base) (hbase : base ≤ 16) {n : Nat} :
    ∀ c ∈ Nat.toDigits base n, (digitOf? base c).isSome := by
  induction n using Nat.strongRecOn with
  | ind n ih =>
  rw [Nat.toDigits_eq_if hone]
  split
  · next hlt => simp [digitOf?_digitChar hbase hlt]
  · next hle =>
    have hd := digitOf?_digitChar hbase (Nat.mod_lt n (by omega))
    rw [List.forall_mem_append]
    exact ⟨ih (n / base) (Nat.div_lt_self (by omega) hone), by simp [hd]⟩

end MaterialScript.Number

namespace MaterialScript.Text

open Number

/-! ## Characters -/

/-- The first character of the form of a text between quotes, and the form after it. -/
def unescape : List Char → Char × List Char
  | '\\' :: 'u' :: '{' :: rest =>
    (Char.ofNat ((natural? 16 (rest.takeWhile (· != '}'))).getD 0),
      (rest.dropWhile (· != '}')).drop 1)
  | '\\' :: '0' :: rest => ('\x00', rest)
  | '\\' :: 't' :: rest => ('\t', rest)
  | '\\' :: 'n' :: rest => ('\n', rest)
  | '\\' :: 'r' :: rest => ('\r', rest)
  | '\\' :: c :: rest => (c, rest)
  | c :: rest => (c, rest)
  | [] => ('\x00', [])

theorem unescape_codePoint (c : Char) (rest : List Char) :
    unescape (codePoint c ++ rest) = (c, rest) := by
  have hdigits : ∀ d ∈ Nat.toDigits 16 c.toNat, (d != '}') = true := by
    intro d hd
    by_contra hbrace
    obtain rfl : d = '}' := by simpa using hbrace
    exact absurd (digitOf?_of_mem_toDigits (by decide) (by decide) _ hd) (by decide)
  have htext : codePoint c ++ rest =
      '\\' :: 'u' :: '{' :: (Nat.toDigits 16 c.toNat ++ '}' :: rest) := by
    simp [codePoint]
  rw [htext, unescape, List.takeWhile_append_of_pos hdigits, List.dropWhile_append_of_pos hdigits]
  simp [natural?_toDigits]

/-- **The form of a character is read back.** -/
theorem unescape_escape (c : Char) (rest : List Char) : unescape (escape c ++ rest) = (c, rest) := by
  unfold escape
  split_ifs with hquote hslash hzero htab hnewline hreturn hprintable
  · rw [hquote]; rfl
  · rw [hslash]; rfl
  · rw [hzero]; rfl
  · rw [htab]; rfl
  · rw [hnewline]; rfl
  · rw [hreturn]; rfl
  · unfold unescape
    split <;> simp_all
  · exact unescape_codePoint c rest

theorem escape_ne_nil (c : Char) : escape c ≠ [] := by
  unfold escape codePoint
  split_ifs <;> simp

theorem flatMap_escape_inj {xs ys : List Char} (h : xs.flatMap escape = ys.flatMap escape) :
    xs = ys := by
  induction xs generalizing ys with
  | nil =>
    cases ys with
    | nil => rfl
    | cons y ys => simp [escape_ne_nil] at h
  | cons x xs ih =>
    cases ys with
    | nil => simp [escape_ne_nil] at h
    | cons y ys =>
      have hread := congrArg unescape h
      rw [List.flatMap_cons, List.flatMap_cons, unescape_escape, unescape_escape,
        Prod.mk.injEq] at hread
      rw [hread.1, ih hread.2]

/-- **Texts can be told from their quoted form.** -/
theorem quoted_inj {s t : String} (h : quoted s = quoted t) : s = t := by
  unfold quoted at h
  rw [String.ofList_inj, List.cons_append, List.cons_append, List.cons.injEq,
    List.append_cancel_right_eq] at h
  exact String.toList_inj.1 (flatMap_escape_inj h.2)

theorem newline_not_mem_escape (c : Char) : '\n' ∉ escape c := by
  unfold escape
  split_ifs with hquote hslash hzero htab hnewline hreturn hprintable
  all_goals try decide
  · simpa [eq_comm] using hnewline
  · intro hmem
    have hdigit : '\n' ∈ Nat.toDigits 16 c.toNat := by simpa [codePoint] using hmem
    exact absurd (digitOf?_of_mem_toDigits (by decide) (by decide) _ hdigit) (by decide)

theorem newline_not_mem_quoted (s : String) : '\n' ∉ (quoted s).toList := by
  simp [quoted, newline_not_mem_escape]

end MaterialScript.Text
