import MaterialScript.Output.Printer
import MaterialScript.Proofs.Lexing.Seam
import MaterialScript.Proofs.Number.Scaled
import MaterialScript.Proofs.Output.Quoted

/-!
# Reading JSON

A reader of JSON texts that knows nothing of documents. Numbers are read exactly, as decimals; strings
may have any escapes, with surrogate pairs for code points of more than four digits; and there may be
blanks between all parts.

* `Json.Value` : what JSON texts stand for;
* `string?`, `number?`, `sequence?`, `value?` : the parts of a text; `read?` : whole texts;
* `string?_content`, `number?_text` : strings and numbers that are written in front of any text are read
  back;
* `value?_quote`, `value?_bracket`, `value?_brace`, `member?_content` : what is read behind the first
  character of a value, and of a field.
-/

namespace MaterialScript.Json

open Lexer Number Text

inductive Value where
  | null
  | bool (value : Bool)
  | number (negative : Bool) (magnitude : Decimal)
  | string (value : String)
  | array (items : List Value)
  | object (members : List (String × Value))

/-! ## Blanks -/

/-- The characters that may stand between the parts of a text. -/
def isSpace (c : Char) : Bool := c == ' ' || c == '\t' || c == '\n' || c == '\r'

def skip (cs : List Char) : List Char := cs.dropWhile isSpace

theorem skip_append {blanks : List Char} (h : ∀ c ∈ blanks, isSpace c = true) (cs : List Char) :
    skip (blanks ++ cs) = skip cs :=
  List.dropWhile_append_of_pos h

theorem skip_cons {c : Char} (h : isSpace c = false) (cs : List Char) : skip (c :: cs) = c :: cs :=
  List.dropWhile_cons_of_neg (by simp [h])

/-! ## Strings -/

/-- Four hexadecimal digits. -/
def codeUnit? : List Char → Option (Nat × List Char)
  | a :: b :: c :: d :: rest => (natural? 16 [a, b, c, d]).map (·, rest)
  | _ => none

/-- The second of two surrogates, behind the first one. -/
def surrogate? (first : Nat) : List Char → Option (Char × List Char)
  | '\\' :: 'u' :: cs => do
    let (second, rest) ← codeUnit? cs
    if 0xDC00 ≤ second ∧ second < 0xE000 then
      return (Char.ofNat (0x10000 + 0x400 * (first - 0xD800) + (second - 0xDC00)), rest)
    else none
  | _ => none

/-- A code point by its digits: one code unit, or two that are surrogates of each other. -/
def codePoint? (cs : List Char) : Option (Char × List Char) := do
  let (n, rest) ← codeUnit? cs
  if n < 0xD800 ∨ 0xE000 ≤ n then return (Char.ofNat n, rest)
  else if n < 0xDC00 then surrogate? n rest
  else none

/-- The letters that may stand behind a backslash, and what they stand for. -/
def escapes : List (Char × Char) :=
  [('"', '"'), ('\\', '\\'), ('/', '/'), ('b', '\x08'), ('f', '\x0c'), ('n', '\n'), ('r', '\r'),
    ('t', '\t')]

/-- What stands behind a backslash. -/
def escaped? : List Char → Option (Char × List Char)
  | [] => none
  | e :: rest => if e = 'u' then codePoint? rest else (escapes.lookup e).map (·, rest)

theorem codeUnit?_length {cs rest : List Char} {n : Nat} (h : codeUnit? cs = some (n, rest)) :
    rest.length < cs.length := by
  unfold codeUnit? at h
  split at h
  · obtain ⟨_, -, h⟩ := Option.map_eq_some_iff.1 h
    obtain ⟨-, rfl⟩ := Prod.mk.inj h
    simp only [List.length_cons]
    omega
  · cases h

theorem surrogate?_length {first : Nat} {cs rest : List Char} {c : Char}
    (h : surrogate? first cs = some (c, rest)) : rest.length < cs.length := by
  unfold surrogate? at h
  split at h
  · simp only [Option.bind_eq_bind, Option.bind_eq_some_iff] at h
    obtain ⟨⟨second, more⟩, hunit, h⟩ := h
    have hlt := codeUnit?_length hunit
    dsimp only at h
    split at h
    · obtain ⟨-, rfl⟩ := Prod.mk.inj (Option.some.inj h)
      simp only [List.length_cons]
      omega
    · cases h
  · cases h

theorem codePoint?_length {cs rest : List Char} {c : Char} (h : codePoint? cs = some (c, rest)) :
    rest.length < cs.length := by
  unfold codePoint? at h
  simp only [Option.bind_eq_bind, Option.bind_eq_some_iff] at h
  obtain ⟨⟨n, more⟩, hunit, h⟩ := h
  have hlt := codeUnit?_length hunit
  dsimp only at h
  split at h
  · obtain ⟨-, rfl⟩ := Prod.mk.inj (Option.some.inj h)
    exact hlt
  split at h
  · exact (surrogate?_length h).trans hlt
  · cases h

theorem escaped?_length {cs rest : List Char} {c : Char} (h : escaped? cs = some (c, rest)) :
    rest.length < cs.length := by
  cases cs with
  | nil => cases h
  | cons e cs =>
    rw [escaped?] at h
    split at h
    · have hlt := codePoint?_length h
      rw [List.length_cons]
      omega
    · obtain ⟨d, -, h⟩ := Option.map_eq_some_iff.1 h
      obtain ⟨-, rfl⟩ := Prod.mk.inj h
      rw [List.length_cons]
      omega

/-- The content of a string whose opening quote has been read, and the text after it. Control characters
are not allowed in it. -/
def string? : List Char → Option (List Char × List Char)
  | [] => none
  | c :: cs =>
    if c = '"' then some ([], cs)
    else if c = '\\' then
      match _h : escaped? cs with
      | none => none
      | some (d, rest) => (string? rest).map fun r => (d :: r.1, r.2)
    else if c.toNat < 0x20 then none
    else (string? cs).map fun r => (c :: r.1, r.2)
termination_by cs => cs.length
decreasing_by
  · have := escaped?_length _h
    rw [List.length_cons]
    omega
  · exact Nat.lt_succ_self _

theorem string?_quote (rest : List Char) : string? ('"' :: rest) = some ([], rest) := by
  rw [string?, if_pos rfl]

theorem string?_escaped {cs rest : List Char} {d : Char} (h : escaped? cs = some (d, rest)) :
    string? ('\\' :: cs) = (string? rest).map fun r => (d :: r.1, r.2) := by
  rw [string?, if_neg (by decide), if_pos rfl]
  split
  · next hnone =>
    rw [h] at hnone
    cases hnone
  · next hsome =>
    rw [h] at hsome
    cases hsome
    rfl

theorem string?_plain {c : Char} (hquote : c ≠ '"') (hslash : c ≠ '\\') (hcontrol : ¬ c.toNat < 0x20)
    (cs : List Char) : string? (c :: cs) = (string? cs).map fun r => (c :: r.1, r.2) := by
  rw [string?, if_neg hquote, if_neg hslash, if_neg hcontrol]

theorem codePoint?_hexPair {c : Char} (hc : c.toNat < 256) (rest : List Char) :
    codePoint? ('0' :: '0' :: (hexPair c.toNat ++ rest)) = some (c, rest) := by
  have hhigh : digitOf? 16 (Nat.digitChar (c.toNat / 16)) = some (c.toNat / 16) :=
    digitOf?_digitChar (by decide) (by omega)
  have hlow : digitOf? 16 (Nat.digitChar (c.toNat % 16)) = some (c.toNat % 16) :=
    digitOf?_digitChar (by decide) (by omega)
  have hzeros : natural? 16 ['0', '0'] = some 0 := rfl
  have hunit : codeUnit? ('0' :: '0' :: (hexPair c.toNat ++ rest)) = some (c.toNat, rest) := by
    have hvalue := natural?_concat (natural?_concat hzeros hhigh) hlow
    rw [Nat.zero_mul, Nat.zero_add, Nat.div_add_mod'] at hvalue
    exact congrArg (Option.map (·, rest)) hvalue
  rw [codePoint?, hunit, Option.bind_eq_bind, Option.bind_some]
  dsimp only
  rw [if_pos (.inl (by omega)), Char.ofNat_toNat]
  rfl

/-- **The form of a character is read back.** -/
theorem string?_escape (c : Char) (rest : List Char) :
    string? (escape c ++ rest) = (string? rest).map fun r => (c :: r.1, r.2) := by
  unfold escape
  split_ifs with hquote hslash hback hfeed hnewline hreturn htab hcontrol
  · rw [hquote]; exact string?_escaped rfl
  · rw [hslash]; exact string?_escaped rfl
  · rw [hback]; exact string?_escaped rfl
  · rw [hfeed]; exact string?_escaped rfl
  · rw [hnewline]; exact string?_escaped rfl
  · rw [hreturn]; exact string?_escaped rfl
  · rw [htab]; exact string?_escaped rfl
  · have hescaped : escaped? ('u' :: '0' :: '0' :: (hexPair c.toNat ++ rest)) = some (c, rest) := by
      rw [escaped?, if_pos rfl]
      exact codePoint?_hexPair (by omega) rest
    exact string?_escaped hescaped
  · exact string?_plain hquote hslash hcontrol rest

/-- **The content of a string is read back.** -/
theorem string?_content (content rest : List Char) :
    string? (content.flatMap escape ++ '"' :: rest) = some (content, rest) := by
  induction content with
  | nil => exact string?_quote rest
  | cons c content ih =>
    rw [List.flatMap_cons, List.append_assoc, string?_escape, ih]
    rfl

/-! ## Numbers -/

/-- The number at the front of a text, exactly, and the text after it. A number has no zero in front of
another digit. -/
def number? (cs : List Char) : Option (Value × List Char) := do
  let (w, rest) ← takeNumber? cs
  if leadingZero w then none
  else
    let (negative, magnitude) ← Decimal.read? w
    return (.number negative magnitude, rest)

/-- A text that may stand behind a number: it does not go on with a character of a number. -/
def Stops (rest : List Char) : Prop := ∀ c ∈ rest.head?, isNumeric c = false

theorem takeNumber?_append_stops {w rest : List Char} (hw : w ∈ Pattern.number.language)
    (hrest : Stops rest) : takeNumber? (w ++ rest) = some (w, rest) := by
  obtain ⟨taken, more, htake, hle⟩ := takeNumber?_complete hw (List.prefix_append w rest)
  obtain ⟨-, happend⟩ := takeNumber?_append htake
  have hprefix : w <+: taken := List.prefix_of_prefix_length_le (List.prefix_append w rest)
    (happend ▸ List.prefix_append taken more) hle
  obtain ⟨v, rfl⟩ := hprefix
  rw [List.append_assoc, List.append_cancel_left_eq] at happend
  cases v with
  | nil =>
    rw [htake, List.append_nil]
    exact congrArg (fun rest => some (w, rest)) happend
  | cons c v =>
    have hnumeric := isNumeric_of_mem_number (takeNumber?_mem htake) c (by simp)
    have hstop := hrest c (by rw [← happend]; rfl)
    rw [hnumeric] at hstop
    cases hstop

/-- **A literal without needless zeros is read back**, exactly. -/
theorem number?_text (n : NumberLiteral) (hzero : leadingZero n.text = false) {rest : List Char}
    (hrest : Stops rest) :
    number? (n.text ++ rest) = some (.number n.negative n.decimal, rest) := by
  have hmem : n.text ∈ Pattern.number.language := NumberLiteral.mem_number_iff.2 ⟨n, rfl⟩
  rw [number?, takeNumber?_append_stops hmem hrest, Option.bind_eq_bind, Option.bind_some]
  dsimp only
  rw [if_neg (by simp [hzero]), n.read?_text]
  rfl

/-! ## Lists and records -/

section Sequences
variable {α : Type}

/-- Entries with commas between them, up to a closing character, at most as many as given. -/
def entries? (close : Char) (entry : List Char → Option (α × List Char)) :
    Nat → List Char → Option (List α × List Char)
  | 0, _ => none
  | n + 1, cs => do
    let (x, rest) ← entry cs
    match skip rest with
    | [] => none
    | c :: rest =>
      if c = ',' then
        let (xs, rest) ← entries? close entry n rest
        return (x :: xs, rest)
      else if c = close then return ([x], rest)
      else none

/-- Entries between brackets, the opening one having been read. -/
def sequence? (close : Char) (entry : List Char → Option (α × List Char)) (cs : List Char) :
    Option (List α × List Char) :=
  match skip cs with
  | [] => none
  | c :: rest => if c = close then some ([], rest) else entries? close entry cs.length cs

end Sequences

def member? {α : Type} (value : List Char → Option (α × List Char)) (cs : List Char) :
    Option ((String × α) × List Char) :=
  match skip cs with
  | '"' :: rest => do
    let (name, rest) ← string? rest
    match skip rest with
    | ':' :: rest =>
      let (v, rest) ← value rest
      return ((String.ofList name, v), rest)
    | _ => none
  | _ => none

/-! ## Texts -/

/-- The value at the front of a text, with at most as many levels as given, and the text after it. -/
def value? : Nat → List Char → Option (Value × List Char)
  | 0, _ => none
  | depth + 1, cs =>
    match skip cs with
    | 'n' :: 'u' :: 'l' :: 'l' :: rest => some (.null, rest)
    | 't' :: 'r' :: 'u' :: 'e' :: rest => some (.bool true, rest)
    | 'f' :: 'a' :: 'l' :: 's' :: 'e' :: rest => some (.bool false, rest)
    | '"' :: rest => (string? rest).map fun r => (.string (String.ofList r.1), r.2)
    | '[' :: rest => (sequence? ']' (value? depth) rest).map fun r => (.array r.1, r.2)
    | '{' :: rest => (sequence? '}' (member? (value? depth)) rest).map fun r => (.object r.1, r.2)
    | rest => number? rest

section Steps
variable {blanks : List Char} (hblanks : ∀ c ∈ blanks, isSpace c = true) (cs : List Char) (depth : Nat)
include hblanks

theorem value?_quote : value? (depth + 1) (blanks ++ '"' :: cs) =
    (string? cs).map fun r => (.string (String.ofList r.1), r.2) := by
  rw [value?, skip_append hblanks, skip_cons rfl]
  rfl

theorem value?_bracket : value? (depth + 1) (blanks ++ '[' :: cs) =
    (sequence? ']' (value? depth) cs).map fun r => (.array r.1, r.2) := by
  rw [value?, skip_append hblanks, skip_cons rfl]
  rfl

theorem value?_brace : value? (depth + 1) (blanks ++ '{' :: cs) =
    (sequence? '}' (member? (value? depth)) cs).map fun r => (.object r.1, r.2) := by
  rw [value?, skip_append hblanks, skip_cons rfl]
  rfl

theorem value?_word : value? (depth + 1) (blanks ++ ("null".toList ++ cs)) = some (.null, cs) ∧
    value? (depth + 1) (blanks ++ ("true".toList ++ cs)) = some (.bool true, cs) ∧
    value? (depth + 1) (blanks ++ ("false".toList ++ cs)) = some (.bool false, cs) := by
  have hnull : skip ("null".toList ++ cs) = 'n' :: 'u' :: 'l' :: 'l' :: cs := skip_cons rfl _
  have htrue : skip ("true".toList ++ cs) = 't' :: 'r' :: 'u' :: 'e' :: cs := skip_cons rfl _
  have hfalse : skip ("false".toList ++ cs) = 'f' :: 'a' :: 'l' :: 's' :: 'e' :: cs :=
    skip_cons rfl _
  refine ⟨?_, ?_, ?_⟩
  · rw [value?, skip_append hblanks, hnull]
    rfl
  · rw [value?, skip_append hblanks, htrue]
    rfl
  · rw [value?, skip_append hblanks, hfalse]
    rfl

theorem member?_content {α : Type} (value : List Char → Option (α × List Char)) (name : List Char) :
    member? value (blanks ++ '"' :: (name.flatMap escape ++ '"' :: ':' :: cs)) =
      (value cs).map fun r => ((String.ofList name, r.1), r.2) := by
  have hread : member? value (blanks ++ '"' :: (name.flatMap escape ++ '"' :: ':' :: cs)) =
      (string? (name.flatMap escape ++ '"' :: ':' :: cs)).bind fun r =>
        match skip r.2 with
        | ':' :: rest => (value rest).bind fun v => some ((String.ofList r.1, v.1), v.2)
        | _ => none := by
    rw [member?, skip_append hblanks, skip_cons rfl]
    rfl
  rw [hread, string?_content, Option.bind_some, skip_cons rfl]
  show ((value cs).bind fun v => some ((String.ofList name, v.1), v.2)) = _
  cases value cs <;> rfl

end Steps

/-- The value that a whole text stands for. -/
def read? (text : String) : Option Value := do
  let (v, rest) ← value? text.toList.length text.toList
  if skip rest = [] then return v else none

end MaterialScript.Json
