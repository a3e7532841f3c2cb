import MaterialScript.Token.Lexer
import Mathlib.Computability.Language

/-!
# The patterns of a text

A text is made of pieces: layout and tokens. Every kind of piece has a pattern, a regular language
over characters, and a piece is the longest match of any pattern at its start.

* `Blank`, `Digit`, `Letter` : character classes, with what decides them;
* `oneOf`, `oneOrMore`, `optional` : building blocks of regular languages;
* `Pattern`, `Pattern.language` : the patterns; `LongestMatch` : what is taken at the front of a text;
* `mem_comment`, `mem_number`, `mem_literal`, … : the words of a pattern, piece by piece.
-/

namespace MaterialScript.Lexer

open Computability

/-! ## Character classes -/

/-- The characters of layout: space, tab, carriage return, line feed and form feed. -/
def Blank (c : Char) : Prop := c ∈ [' ', '\t', '\r', '\n', '\x0c']

def Digit (c : Char) : Prop := '0' ≤ c ∧ c ≤ '9'

def Letter (c : Char) : Prop := 'A' ≤ c ∧ c ≤ 'Z' ∨ 'a' ≤ c ∧ c ≤ 'z' ∨ c = '_'

theorem isBlank_iff (c : Char) : isBlank c = true ↔ Blank c := by
  simp [isBlank, Blank, or_assoc]

theorem isDigit_iff (c : Char) : c.isDigit = true ↔ Digit c := by
  have hdigit : c.isDigit = (decide ('0' ≤ c) && decide (c ≤ '9')) := rfl
  simp [Digit, hdigit]

theorem isIdentStart_iff (c : Char) : isIdentStart c = true ↔ Letter c := by
  have halpha : c.isAlpha = (c.isUpper || c.isLower) := rfl
  have hupper : c.isUpper = decide ('A' ≤ c ∧ c ≤ 'Z') := rfl
  have hlower : c.isLower = (decide ('a' ≤ c) && decide (c ≤ 'z')) := rfl
  simp [isIdentStart, Letter, halpha, hupper, hlower, or_assoc]

theorem isIdentRest_iff (c : Char) : isIdentRest c = true ↔ Letter c ∨ Digit c := by
  rw [← isIdentStart_iff, ← isDigit_iff]
  simp only [isIdentRest, isIdentStart, Char.isAlphanum, Bool.or_eq_true]
  tauto

/-! ## Regular languages -/

def oneOf (p : Char → Prop) : Language Char := {w | ∃ c, p c ∧ w = [c]}

def oneOrMore (l : Language Char) : Language Char := l * l∗

def optional (l : Language Char) : Language Char := 1 + l

theorem mem_oneOf {p : Char → Prop} {w : List Char} : w ∈ oneOf p ↔ ∃ c, p c ∧ w = [c] := Iff.rfl

theorem mem_optional {l : Language Char} {w : List Char} : w ∈ optional l ↔ w = [] ∨ w ∈ l := by
  rw [optional, Language.mem_add, Language.mem_one]

theorem mem_singleton {v w : List Char} : w ∈ ({v} : Language Char) ↔ w = v := Iff.rfl

theorem append_mem_kstar {l : Language Char} {v w : List Char} (hv : v ∈ l) (hw : w ∈ l∗) :
    v ++ w ∈ l∗ := by
  have hsub : l * l∗ ≤ l∗ := mul_kstar_le_kstar
  exact hsub (Language.append_mem_mul hv hw)

theorem mem_kstar_oneOf {p : Char → Prop} {w : List Char} : w ∈ (oneOf p)∗ ↔ ∀ c ∈ w, p c := by
  constructor
  · intro h
    obtain ⟨ws, rfl, hws⟩ := Language.mem_kstar.1 h
    intro c hc
    obtain ⟨v, hv, hcv⟩ := List.mem_flatten.1 hc
    obtain ⟨d, hd, rfl⟩ := hws v hv
    obtain rfl := List.mem_singleton.1 hcv
    exact hd
  · intro h
    induction w with
    | nil => exact Language.nil_mem_kstar _
    | cons c w ih =>
      have hc : [c] ∈ oneOf p := ⟨c, h c List.mem_cons_self, rfl⟩
      exact append_mem_kstar hc (ih fun d hd => h d (List.mem_cons_of_mem c hd))

theorem mem_oneOrMore_oneOf {p : Char → Prop} {w : List Char} :
    w ∈ oneOrMore (oneOf p) ↔ w ≠ [] ∧ ∀ c ∈ w, p c := by
  rw [oneOrMore, Language.mem_mul]
  constructor
  · rintro ⟨v, ⟨c, hc, rfl⟩, w, hw, rfl⟩
    rw [mem_kstar_oneOf] at hw
    simpa using ⟨hc, hw⟩
  · rintro ⟨hne, h⟩
    obtain ⟨c, w, rfl⟩ := List.exists_cons_of_ne_nil hne
    refine ⟨[c], ⟨c, h c List.mem_cons_self, rfl⟩, w, ?_, rfl⟩
    exact mem_kstar_oneOf.2 fun d hd => h d (List.mem_cons_of_mem c hd)

/-! ## Patterns -/

def digits : Language Char := oneOrMore (oneOf Digit)

def fraction : Language Char := {['.']} * digits

/-- An exponent: `e` or `E`, an optional sign, and digits. -/
def exponent : Language Char := oneOf (· ∈ ['e', 'E']) * optional (oneOf (· ∈ ['+', '-'])) * digits

/-- What stands between the quotes of a string literal: other characters than quotes, backslashes and
line ends, and quotes and backslashes after a backslash. -/
def stringBody : Language Char :=
  (oneOf (· ∉ ['"', '\\', '\r', '\n']) + {['\\', '"'], ['\\', '\\']})∗

/-- The kinds of pieces that a text is made of. -/
inductive Pattern where
  | blanks
  | comment
  | punctuation
  | identifier
  | number
  | literal
deriving DecidableEq, Repr

def Pattern.language : Pattern → Language Char
  | blanks => oneOrMore (oneOf Blank)
  | comment => {['/', '/']} * (oneOf (· ≠ '\n'))∗
  | punctuation => oneOf (· ∈ ['{', '}', '(', ')', ',', ':'])
  | identifier => oneOf Letter * (oneOf fun c => Letter c ∨ Digit c)∗
  | number => optional {['-']} * digits * optional fraction * optional exponent
  | literal => {['"']} * stringBody * {['"']}

/-- The word `w` of the pattern `p` is what longest match takes at the front of the text `cs`: no
longer word of any pattern stands there. -/
structure LongestMatch (cs : List Char) (p : Pattern) (w : List Char) : Prop where
  mem : w ∈ p.language
  front : w <+: cs
  longest : ∀ q v, v ∈ Pattern.language q → v <+: cs → v.length ≤ w.length

/-! ## Closed forms -/

theorem mem_digits {w : List Char} : w ∈ digits ↔ w ≠ [] ∧ ∀ c ∈ w, c.isDigit = true := by
  simp only [digits, mem_oneOrMore_oneOf, isDigit_iff]

theorem mem_fraction {w : List Char} : w ∈ fraction ↔ ∃ ds ∈ digits, w = '.' :: ds := by
  rw [fraction, Language.mem_mul]
  constructor
  · rintro ⟨_, rfl, ds, hds, rfl⟩
    exact ⟨ds, hds, rfl⟩
  · rintro ⟨ds, hds, rfl⟩
    exact ⟨['.'], rfl, ds, hds, rfl⟩

theorem mem_exponent {w : List Char} : w ∈ exponent ↔
    ∃ e, (e = 'e' ∨ e = 'E') ∧ ∃ sign, (sign = [] ∨ sign = ['+'] ∨ sign = ['-']) ∧
      ∃ ds ∈ digits, w = e :: (sign ++ ds) := by
  have hsign : ∀ sign : List Char, sign ∈ optional (oneOf (· ∈ ['+', '-'])) ↔
      sign = [] ∨ sign = ['+'] ∨ sign = ['-'] := by
    intro sign
    rw [mem_optional, mem_oneOf]
    simp
  simp only [exponent, Language.mem_mul, hsign]
  constructor
  · rintro ⟨_, ⟨_, ⟨e, he, rfl⟩, sign, hs, rfl⟩, ds, hds, rfl⟩
    exact ⟨e, by simpa using he, sign, hs, ds, hds, rfl⟩
  · rintro ⟨e, he, sign, hs, ds, hds, rfl⟩
    exact ⟨_, ⟨[e], ⟨e, by simpa using he, rfl⟩, sign, hs, rfl⟩, ds, hds, rfl⟩

theorem mem_blanks {w : List Char} :
    w ∈ Pattern.blanks.language ↔ w ≠ [] ∧ ∀ c ∈ w, isBlank c = true := by
  simp only [Pattern.language, mem_oneOrMore_oneOf, isBlank_iff]

theorem mem_comment {w : List Char} :
    w ∈ Pattern.comment.language ↔ ∃ v, w = '/' :: '/' :: v ∧ ∀ c ∈ v, c ≠ '\n' := by
  rw [Pattern.language, Language.mem_mul]
  constructor
  · rintro ⟨_, rfl, v, hv, rfl⟩
    exact ⟨v, rfl, mem_kstar_oneOf.1 hv⟩
  · rintro ⟨v, rfl, hv⟩
    exact ⟨['/', '/'], rfl, v, mem_kstar_oneOf.2 hv, rfl⟩

theorem mem_punctuation {w : List Char} :
    w ∈ Pattern.punctuation.language ↔ ∃ c, (punctuation? c).isSome ∧ w = [c] := by
  have hclass : ∀ c, (punctuation? c).isSome ↔ c ∈ ['{', '}', '(', ')', ',', ':'] := by
    intro c
    unfold punctuation?
    split_ifs <;> simp_all
  simp only [Pattern.language, mem_oneOf, hclass]

theorem mem_identifier {w : List Char} : w ∈ Pattern.identifier.language ↔
    ∃ c v, w = c :: v ∧ isIdentStart c = true ∧ ∀ d ∈ v, isIdentRest d = true := by
  simp only [isIdentStart_iff, isIdentRest_iff]
  rw [Pattern.language, Language.mem_mul]
  constructor
  · rintro ⟨_, ⟨c, hc, rfl⟩, v, hv, rfl⟩
    exact ⟨c, v, rfl, hc, mem_kstar_oneOf.1 hv⟩
  · rintro ⟨c, v, rfl, hc, hv⟩
    exact ⟨[c], ⟨c, hc, rfl⟩, v, mem_kstar_oneOf.2 hv, rfl⟩

theorem mem_number {w : List Char} : w ∈ Pattern.number.language ↔
    ∃ minus, (minus = [] ∨ minus = ['-']) ∧ ∃ ds ∈ digits, ∃ f ∈ optional fraction,
      ∃ e ∈ optional exponent, w = minus ++ (ds ++ (f ++ e)) := by
  simp only [Pattern.language, Language.mem_mul, mem_optional, mem_singleton]
  constructor
  · rintro ⟨_, ⟨_, ⟨minus, hm, ds, hds, rfl⟩, f, hf, rfl⟩, e, he, rfl⟩
    exact ⟨minus, hm, ds, hds, f, hf, e, he, by simp⟩
  · rintro ⟨minus, hm, ds, hds, f, hf, e, he, rfl⟩
    exact ⟨_, ⟨_, ⟨minus, hm, ds, hds, rfl⟩, f, hf, rfl⟩, e, he, by simp⟩

theorem mem_stringBody {w : List Char} : w ∈ stringBody ↔
    ∃ content : List Char, (∀ c ∈ content, isLineEnd c = false) ∧
      w = content.flatMap Token.spellChar := by
  constructor
  · intro h
    obtain ⟨ws, rfl, hws⟩ := Language.mem_kstar.1 h
    clear h
    induction ws with
    | nil => exact ⟨[], by simp, rfl⟩
    | cons v ws ih =>
      obtain ⟨content, hcontent, hflat⟩ := ih fun u hu => hws u (List.mem_cons_of_mem v hu)
      obtain ⟨c, hc, rfl⟩ : ∃ c, isLineEnd c = false ∧ v = Token.spellChar c := by
        rcases hws v List.mem_cons_self with ⟨c, hc, rfl⟩ | rfl | rfl
        · simp only [List.mem_cons, List.not_mem_nil, or_false, not_or] at hc
          exact ⟨c, by simp [isLineEnd, hc], by simp [Token.spellChar, hc]⟩
        · exact ⟨'"', by decide, by decide⟩
        · exact ⟨'\\', by decide, by decide⟩
      refine ⟨c :: content, by simpa using ⟨hc, hcontent⟩, ?_⟩
      rw [List.flatten_cons, List.flatMap_cons, hflat]
  · rintro ⟨content, hcontent, rfl⟩
    induction content with
    | nil => exact Language.nil_mem_kstar _
    | cons c content ih =>
      rw [List.flatMap_cons]
      refine append_mem_kstar ?_ (ih fun d hd => hcontent d (List.mem_cons_of_mem c hd))
      have hend : isLineEnd c = false := hcontent c List.mem_cons_self
      by_cases hquote : c = '"'
      · subst hquote
        exact .inr (.inl rfl)
      by_cases hslash : c = '\\'
      · subst hslash
        exact .inr (.inr rfl)
      · refine .inl ⟨c, ?_, by simp [Token.spellChar, hquote, hslash]⟩
        simpa [isLineEnd, hquote, hslash] using hend

theorem mem_literal {w : List Char} : w ∈ Pattern.literal.language ↔
    ∃ content : List Char, (∀ c ∈ content, isLineEnd c = false) ∧
      w = '"' :: content.flatMap Token.spellChar ++ ['"'] := by
  simp only [Pattern.language, Language.mem_mul, mem_singleton, mem_stringBody]
  constructor
  · rintro ⟨_, ⟨_, rfl, _, ⟨content, hcontent, rfl⟩, rfl⟩, _, rfl, rfl⟩
    exact ⟨content, hcontent, rfl⟩
  · rintro ⟨content, hcontent, rfl⟩
    exact ⟨_, ⟨_, rfl, _, ⟨content, hcontent, rfl⟩, rfl⟩, _, rfl, rfl⟩

end MaterialScript.Lexer
