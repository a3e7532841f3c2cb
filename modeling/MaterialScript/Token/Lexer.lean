import MaterialScript.Number.Binary32
import MaterialScript.Token.Basic

/-!
# From text to lexemes

Blanks and comments separate lexemes. A lexeme is the longest match at its start, and the first
text that is neither ends the reading with an error.

* `takeNumber?`, `takeString?` : the longest number, the string literal at the front of a text;
* `stringError` : what is wrong with a string literal that cannot be read;
* `head` : what stands at the front of a text; `Head.Splits` : its pieces make up the text
  (`head_splits`);
* `lexFrom`, `lex` : all lexemes of a text;
* `stripByteOrderMark` : a text without the mark that some editors put in front.
-/

namespace MaterialScript.Lexer

open Text

/-! ## Character classes -/

/-- The characters that only separate tokens. -/
def isBlank (c : Char) : Bool :=
  c == ' ' || c == '\t' || c == '\r' || c == '\n' || c == '\x0c'

/-- The characters that start an identifier: ASCII letters and the underscore. -/
def isIdentStart (c : Char) : Bool := c.isAlpha || c == '_'

/-- The characters inside an identifier: ASCII letters, digits and the underscore. -/
def isIdentRest (c : Char) : Bool := c.isAlphanum || c == '_'

/-- The characters that end a line. -/
def isLineEnd (c : Char) : Bool := c == '\r' || c == '\n'

/-! ## Numbers -/

/-- Splits an optional minus sign off. -/
def takeMinus : List Char → List Char × List Char
  | '-' :: rest => (['-'], rest)
  | cs => ([], cs)

/-- Splits an optional point with at least one digit off. -/
def takeFraction : List Char → List Char × List Char
  | '.' :: rest =>
    if (rest.takeWhile Char.isDigit).isEmpty then ([], '.' :: rest)
    else ('.' :: rest.takeWhile Char.isDigit, rest.dropWhile Char.isDigit)
  | cs => ([], cs)

/-- Splits an optional sign of an exponent off. -/
def takeSign : List Char → List Char × List Char
  | '+' :: rest => (['+'], rest)
  | '-' :: rest => (['-'], rest)
  | cs => ([], cs)

/-- Splits an optional exponent off: `e` or `E`, an optional sign and at least one digit. -/
def takeExponent : List Char → List Char × List Char
  | [] => ([], [])
  | e :: rest =>
    let (sign, ds) := takeSign rest
    if (e == 'e' || e == 'E') && !(ds.takeWhile Char.isDigit).isEmpty then
      (e :: sign ++ ds.takeWhile Char.isDigit, ds.dropWhile Char.isDigit)
    else ([], e :: rest)

/-- The longest number at the front of a text, and the text after it. -/
def takeNumber? (cs : List Char) : Option (List Char × List Char) :=
  let (minus, body) := takeMinus cs
  let whole := body.takeWhile Char.isDigit
  if whole.isEmpty then none
  else
    let (fraction, afterFraction) := takeFraction (body.dropWhile Char.isDigit)
    let (exponent, rest) := takeExponent afterFraction
    some (minus ++ whole ++ fraction ++ exponent, rest)

theorem takeMinus_append (cs : List Char) : (takeMinus cs).1 ++ (takeMinus cs).2 = cs := by
  unfold takeMinus; split <;> rfl

theorem takeFraction_append (cs : List Char) :
    (takeFraction cs).1 ++ (takeFraction cs).2 = cs := by
  unfold takeFraction
  split
  · split
    · rfl
    · simp [List.takeWhile_append_dropWhile]
  · rfl

theorem takeSign_append (cs : List Char) : (takeSign cs).1 ++ (takeSign cs).2 = cs := by
  unfold takeSign; split <;> rfl

theorem takeExponent_append (cs : List Char) :
    (takeExponent cs).1 ++ (takeExponent cs).2 = cs := by
  cases cs with
  | nil => rfl
  | cons e rest =>
    have h := takeSign_append rest
    simp only [takeExponent]
    split
    · simp [List.takeWhile_append_dropWhile, h]
    · rfl

theorem takeNumber?_append {cs taken rest : List Char} (h : takeNumber? cs = some (taken, rest)) :
    taken ≠ [] ∧ taken ++ rest = cs := by
  have hm := takeMinus_append cs
  have hw := List.takeWhile_append_dropWhile (p := Char.isDigit) (l := (takeMinus cs).2)
  have hf := takeFraction_append ((takeMinus cs).2.dropWhile Char.isDigit)
  have he := takeExponent_append (takeFraction ((takeMinus cs).2.dropWhile Char.isDigit)).2
  simp only [takeNumber?] at h
  split at h
  · exact absurd h (by simp)
  · next hne =>
    simp only [Option.some.injEq, Prod.mk.injEq] at h
    obtain ⟨rfl, rfl⟩ := h
    refine ⟨by simp_all, ?_⟩
    simp [he, hf, hw, hm]

/-! ## String literals -/

/-- The content of a string literal whose opening quote has been read, and the text after it.
Nothing when the literal is not closed on its line or has a backslash before another character than
a quote or a backslash. -/
def takeString? : List Char → Option (List Char × List Char)
  | [] => none
  | c :: cs =>
    if c = '"' then some ([], cs)
    else if c = '\\' then
      match cs with
      | [] => none
      | e :: rest =>
        if e = '"' ∨ e = '\\' then (takeString? rest).map (fun r => (e :: r.1, r.2)) else none
    else if isLineEnd c then none
    else (takeString? cs).map (fun r => (c :: r.1, r.2))

theorem takeString?_append {cs content rest : List Char}
    (h : takeString? cs = some (content, rest)) :
    content.flatMap Token.spellChar ++ '"' :: rest = cs := by
  fun_induction takeString? cs generalizing content rest with
  | case1 => simp at h
  | case2 cs => simp at h; obtain ⟨rfl, rfl⟩ := h; simp
  | case3 => simp at h
  | case4 e rest' he _ ih =>
    obtain ⟨⟨s, t⟩, hr, hs⟩ := Option.map_eq_some_iff.1 h
    simp at hs
    obtain ⟨rfl, rfl⟩ := hs
    simp [ih hr, Token.spellChar, he]
  | case5 => simp at h
  | case6 => simp at h
  | case7 c cs hq hb hl ih =>
    obtain ⟨⟨s, t⟩, hr, hs⟩ := Option.map_eq_some_iff.1 h
    simp at hs
    obtain ⟨rfl, rfl⟩ := hs
    simp [ih hr, Token.spellChar, hq, hb]

/-- The error of a literal that ends at offset `at`, given the first bad escape in it. -/
def closeError (start stop : Nat) : Option (Char × Nat) → LexError
  | some (c, p) => ⟨.invalidEscape c, p, p + 1 + c.utf8Size⟩
  | none => ⟨.unterminatedString, start, stop⟩

/-- What is wrong with the string literal opened at `start`, reading on from offset `pos`. The first
bad escape so far is reported if the literal is closed, or if the text ends before the line does. -/
def stringError (start pos : Nat) (bad : Option (Char × Nat)) : List Char → LexError
  | [] => closeError start pos bad
  | c :: cs =>
    if c = '"' then closeError start pos bad
    else if c = '\\' then
      match cs with
      | [] => ⟨.unterminatedString, start, pos + 1⟩
      | e :: rest =>
        if e = '"' ∨ e = '\\' then stringError start (pos + 2) bad rest
        else if isLineEnd e then ⟨.unterminatedString, start, pos + 1⟩
        else stringError start (pos + 1 + e.utf8Size) (bad.or (some (e, pos))) rest
    else if isLineEnd c then ⟨.unterminatedString, start, pos⟩
    else stringError start (pos + c.utf8Size) bad cs

/-! ## The front of a text -/

/-- What stands at the front of a text: nothing, something to skip, a token, or an error. -/
inductive Head where
  | finish
  | layout (taken rest : List Char)
  | token (token : Token) (rest : List Char)
  | error (error : LexError)
deriving DecidableEq, Repr

/-- The punctuation that a character stands for. -/
def punctuation? (c : Char) : Option Token :=
  if c = '{' then some .leftBrace
  else if c = '}' then some .rightBrace
  else if c = '(' then some .leftParen
  else if c = ')' then some .rightParen
  else if c = ',' then some .comma
  else if c = ':' then some .colon
  else none

/-- The front of a text that starts with neither layout, punctuation, an identifier nor a quote:
a number in range, a number out of range, or a character that starts no token. -/
def numberHead (offset : Nat) (c : Char) (cs : List Char) : Head :=
  match takeNumber? (c :: cs) with
  | some (taken, rest) =>
    let text := String.ofList taken
    match Binary32.decode? text with
    | some _ => .token (.number text) rest
    | none => .error ⟨.numberOutOfRange text, offset, offset + bytes taken⟩
  | none => .error ⟨.unexpectedCharacter c, offset, offset + c.utf8Size⟩

/-- The longest match at the front of a text that starts at an offset. -/
def head (offset : Nat) : List Char → Head
  | [] => .finish
  | c :: cs =>
    if isBlank c then .layout [c] cs
    else if c = '/' ∧ cs.head? = some '/' then
      .layout ((c :: cs).takeWhile (· != '\n')) ((c :: cs).dropWhile (· != '\n'))
    else if isIdentStart c then
      .token (.ident (String.ofList ((c :: cs).takeWhile isIdentRest)))
        ((c :: cs).dropWhile isIdentRest)
    else if c = '"' then
      match takeString? cs with
      | some (content, rest) => .token (.str (String.ofList content)) rest
      | none => .error (stringError offset (offset + 1) none cs)
    else
      match punctuation? c with
      | some t => .token t cs
      | none => numberHead offset c cs

/-- The pieces of a front make up the text, and none that is taken is empty. -/
def Head.Splits (cs : List Char) : Head → Prop
  | .finish => cs = []
  | .layout taken rest => taken ≠ [] ∧ taken ++ rest = cs
  | .token t rest => t.spelling ≠ [] ∧ t.spelling ++ rest = cs
  | .error _ => cs ≠ []

theorem spelling_of_punctuation? {c : Char} {t : Token} (h : punctuation? c = some t) :
    t.spelling = [c] := by
  unfold punctuation? at h
  repeat' split at h
  all_goals simp_all [Token.spelling]
  all_goals subst h; rfl

theorem numberHead_splits (offset : Nat) (c : Char) (cs : List Char) :
    (numberHead offset c cs).Splits (c :: cs) := by
  unfold numberHead
  split
  · next taken rest h =>
    obtain ⟨hne, happ⟩ := takeNumber?_append h
    dsimp only
    split
    · simp [Head.Splits, Token.spelling, hne, happ]
    · simp [Head.Splits]
  · simp [Head.Splits]

theorem isIdentRest_of_isIdentStart {c : Char} (h : isIdentStart c = true) :
    isIdentRest c = true := by
  simp only [isIdentStart, isIdentRest, Char.isAlphanum, Bool.or_eq_true] at *
  rcases h with h | h
  · exact .inl (.inl h)
  · exact .inr h

theorem head_splits (offset : Nat) (cs : List Char) : (head offset cs).Splits cs := by
  cases cs with
  | nil => rfl
  | cons c cs =>
    simp only [head]
    split
    · simp [Head.Splits]
    split
    · next h =>
      refine ⟨?_, List.takeWhile_append_dropWhile⟩
      simp [h.1]
    split
    · next h =>
      have := isIdentRest_of_isIdentStart h
      refine ⟨?_, ?_⟩
      · simp [Token.spelling, this]
      · simp only [Token.spelling, String.toList_ofList]
        exact List.takeWhile_append_dropWhile
    split
    · next h =>
      split
      · next content rest hs =>
        have := takeString?_append hs
        simp [Head.Splits, Token.spelling, h, this]
      · simp [Head.Splits]
    split
    · next t ht =>
      simp [Head.Splits, spelling_of_punctuation? ht]
    · exact numberHead_splits offset c cs

/-! ## All lexemes -/

/-- The lexemes of a text that starts at an offset. -/
def lexFrom (offset : Nat) (cs : List Char) : Except LexError (List Lexeme) :=
  match _h : head offset cs with
  | .finish => .ok []
  | .layout taken rest => lexFrom (offset + bytes taken) rest
  | .token t rest =>
    match lexFrom (offset + bytes t.spelling) rest with
    | .ok ls => .ok (Lexeme.spelled offset t :: ls)
    | .error e => .error e
  | .error e => .error e
termination_by cs.length
decreasing_by
  · have hs := head_splits offset cs
    rw [_h] at hs
    have := List.length_pos_iff.2 hs.1
    simp [← hs.2]; omega
  · have hs := head_splits offset cs
    rw [_h] at hs
    have := List.length_pos_iff.2 hs.1
    simp [← hs.2]; omega

def lex (text : List Char) : Except LexError (List Lexeme) := lexFrom 0 text

/-- Lexemes that are read can be told without comparing errors. -/
theorem lex_eq_ok {text : List Char} {ls : List Lexeme} (h : (lex text).toOption = some ls) :
    lex text = .ok ls := by
  cases hresult : lex text with
  | ok ls' =>
    rw [hresult] at h
    rw [Option.some.inj h]
  | error e =>
    rw [hresult] at h
    cases h

/-! ## Byte order mark -/

/-- The character that some editors put in front of a text. -/
def byteOrderMark : Char := '\uFEFF'

/-- A text without the byte order mark in front, and whether it had one. -/
def stripByteOrderMark : List Char → List Char × Bool
  | [] => ([], false)
  | c :: cs => if c = byteOrderMark then (cs, true) else (c :: cs, false)

end MaterialScript.Lexer
