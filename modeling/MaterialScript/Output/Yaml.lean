import MaterialScript.Output.Data

/-!
# YAML texts

Documents are written in block style. A list stands at the indentation of the field that holds it, a
record two blanks further in, and a value with a tag has the tag in front.

* `Yaml.Style`, `Yaml.style` : how a text is written; `Yaml.scalarText` : a text in its style;
* `Yaml.afterKey`, `Yaml.afterDash` : data after a field name, after the dash of an item;
* `Document.yaml` : the text of a document.
-/

namespace MaterialScript.Yaml

open Number

/-! ## Texts that would read as something else -/

/-- The bases that a mark after a zero stands for. -/
def baseMarks : List (Char × Nat) := [('x', 16), ('o', 8), ('b', 2)]

/-- The value of a whole number without a sign and with a mark for its base. -/
def markedValue? : List Char → Option Nat
  | '0' :: mark :: ds => do natural? (← baseMarks.lookup mark) ds
  | _ => none

/-- Whether a text reads as a whole number with a mark for its base. Such numbers have 128 bits. -/
def isMarkedInteger : List Char → Bool
  | '-' :: cs => (markedValue? cs).any (· ≤ Nat.pow 2 127)
  | '+' :: cs => (markedValue? cs).any (· < Nat.pow 2 128)
  | cs => (markedValue? cs).any (· < Nat.pow 2 128)

/-- A text without a sign in front. -/
def dropSign : List Char → List Char
  | '+' :: cs => cs
  | '-' :: cs => cs
  | cs => cs

/-- Whether a text has only digits and more of them than its value needs. -/
def isPadded (cs : List Char) : Bool :=
  match dropSign cs with
  | '0' :: d :: ds => (d :: ds).all Char.isDigit
  | _ => false

/-- Whether a text reads as a number of the 64-bit format. -/
def isReal (cs : List Char) : Bool :=
  [".inf", ".Inf", ".INF"].contains (String.ofList (dropSign cs))
    || [".nan", ".NaN", ".NAN"].contains (String.ofList cs)
    || match Decimal.read? cs with
      | some (_, d) => Format.binary64.ofDecimal d < Format.binary64.infinity
      | none => false

/-- Whether a text, left as it is, would read as something else than a text. -/
def isAmbiguous (cs : List Char) : Bool :=
  ["", "~", "null", "Null", "NULL", "true", "True", "TRUE", "false", "False", "FALSE"].contains
      (String.ofList cs)
    || isMarkedInteger cs || isPadded cs || isReal cs

/-! ## Styles -/

/-- How a text is written. -/
inductive Style where
  /-- As it is. -/
  | plain
  /-- Between single quotes. -/
  | single
  /-- Between double quotes, with escapes. -/
  | double
  /-- Line by line below its field. -/
  | block
deriving DecidableEq, Repr

/-- Whether a character can stand outside double quotes. -/
def isPrintable (c : Char) : Bool :=
  c == '\n' || (0x20 ≤ c.toNat && c.toNat ≤ 0x7E)
    || (0xA0 ≤ c.toNat && c.toNat != 0xFEFF && c.toNat != 0xFFFE && c.toNat != 0xFFFF)

def isBreak (c : Char) : Bool := c == '\n' || c == '\u2028' || c == '\u2029'

def isBlank (c : Char) : Bool := c == ' '

/-- Whether a text has a character of one sort right before one of another. -/
def hasPair (p q : Char → Bool) : List Char → Bool
  | x :: y :: rest => (p x && q y) || hasPair p q (y :: rest)
  | _ => false

/-- The characters that cannot start a plain text. -/
def indicators : List Char := "#,[]\x7b\x7d&*!|>'\"%@`".toList

/-- Whether the start of a text would read as a mark. -/
def startsWithMark : List Char → Bool
  | [] => true
  | c :: cs =>
    indicators.contains c || ((c == '-' || c == '?' || c == ':') && (cs.isEmpty || cs.head? == some ' '))
      || (c :: cs).take 3 == "---".toList || (c :: cs).take 3 == "...".toList

/-- Whether a text can stand as it is. It has one line. -/
def isPlain (cs : List Char) : Bool :=
  !(cs.any isBreak || startsWithMark cs || cs.head? == some ' ' || cs.getLast? == some ' '
    || cs.getLast? == some ':' || hasPair (· == ':') isBlank cs || hasPair isBlank (· == '#') cs)

/-- The style of a text. A blank at the end of a line shows only between double quotes, and one at the
start of a line does not between single quotes. -/
def style (cs : List Char) : Style :=
  if !cs.all isPrintable || hasPair isBlank isBreak cs then .double
  else if cs.contains '\n' then
    if cs.getLast? == some ' ' then .double else .block
  else if isPlain cs && !isAmbiguous cs then .plain
  else if hasPair isBreak isBlank cs then .double
  else .single

/-! ## Texts in their styles -/

/-- A digit of a number written in base sixteen, in capitals. -/
def hexDigit (n : Nat) : Char := (Nat.digitChar n).toUpper

/-- A number in base sixteen with a fixed count of digits. -/
def hex (width n : Nat) : List Char :=
  ((List.range width).map fun i => hexDigit (n / Nat.pow 16 i % 16)).reverse

/-- The letters that stand for a character after a backslash. -/
def escapeLetters : List (Char × Char) :=
  [('\x00', '0'), ('\x07', 'a'), ('\x08', 'b'), ('\t', 't'), ('\n', 'n'), ('\x0b', 'v'), ('\x0c', 'f'),
    ('\r', 'r'), ('\x1b', 'e'), ('"', '"'), ('\\', '\\'), ('\u0085', 'N'), ('\u2028', 'L'),
    ('\u2029', 'P')]

/-- A character as it is written between double quotes. -/
def escape (c : Char) : List Char :=
  match escapeLetters.lookup c with
  | some letter => ['\\', letter]
  | none =>
    if isPrintable c then [c]
    else if c.toNat ≤ 0xFF then '\\' :: 'x' :: hex 2 c.toNat
    else '\\' :: 'u' :: hex 4 c.toNat

def doubleQuoted (cs : List Char) : List Char := '"' :: cs.flatMap escape ++ ['"']

def blanks (n : Nat) : List Char := List.replicate n ' '

/-- The content of a text between single quotes, with those in it doubled, told whether a line starts
here. Lines after the first are indented, also one with the closing quote only. -/
def singleLines (indent : Nat) : Bool → List Char → List Char
  | fresh, [] => if fresh then blanks indent else []
  | fresh, c :: cs =>
    if isBreak c then c :: singleLines indent true cs
    else
      (if fresh then blanks indent else []) ++ (if c = '\'' then ['\'', '\''] else [c])
        ++ singleLines indent false cs

def singleQuoted (indent : Nat) (cs : List Char) : List Char :=
  '\'' :: singleLines indent false cs ++ ['\'']

/-- The content of a text below its field, told whether a line starts here. Lines that are not empty
are indented. -/
def blockLines (indent : Nat) : Bool → List Char → List Char
  | _, [] => []
  | fresh, c :: cs =>
    if isBreak c then c :: blockLines indent true cs
    else (if fresh then blanks indent else []) ++ c :: blockLines indent false cs

/-- The header of a text that is written line by line: an indentation mark if its first line starts
with a blank or is empty, and a mark for how it ends. -/
def blockHeader (cs : List Char) : List Char :=
  '|' :: (if (cs.head?.map fun c => isBlank c || isBreak c).getD false then ['2'] else [])
    ++ match cs.reverse with
      | [] => ['-']
      | c :: before =>
        if !isBreak c then ['-'] else if (before.head?.map isBreak).getD true then ['+'] else []

def blockText (indent : Nat) (cs : List Char) : List Char :=
  blockHeader cs ++ '\n' :: blockLines indent true cs

/-- A text as the value of a field; its lines after the first are indented. -/
def scalarText (indent : Nat) (s : String) : List Char :=
  let cs := s.toList
  match style cs with
  | .plain => cs
  | .single => singleQuoted indent cs
  | .double => doubleQuoted cs
  | .block => blockText indent cs

/-- A text with its last line ended. -/
def endLine (cs : List Char) : List Char :=
  if (cs.getLast?.map isBreak).getD false then cs else cs ++ ['\n']

/-- Floats have no sign in front of an exponent that is not negative. -/
def floatStyle : ScaledStyle := ⟨""⟩

def number (x : Binary32) : List Char :=
  if x.isNaN then ".nan".toList
  else if x.isFinite then (x.scaledText floatStyle).toList
  else signed x.negative ".inf".toList

/-! ## Data -/

mutual

/-- Data after a field name at an indentation, with the end of its last line. -/
def afterKey (indent : Nat) : Data → List Char
  | .null => " null\n".toList
  | .bool b => (if b then " true\n" else " false\n").toList
  | .nat n => ' ' :: (toString n).toList ++ ['\n']
  | .float x => ' ' :: number x ++ ['\n']
  | .text s => ' ' :: endLine (scalarText (indent + 2) s)
  | .list [] => " []\n".toList
  | .list items => '\n' :: dashed indent items
  | .record [] => " \x7b\x7d\n".toList
  | .record fields => '\n' :: keyed (indent + 2) fields
  | .variant tag v => ' ' :: '!' :: tag.toList ++ afterKey indent v

/-- Data after the dash of an item at an indentation, with the end of its last line. -/
def afterDash (indent : Nat) : Data → List Char
  | .record ((name, v) :: fields) =>
    ' ' :: name.toList ++ ':' :: afterKey (indent + 2) v ++ keyed (indent + 2) fields
  | .variant tag (.record fields) => ' ' :: '!' :: tag.toList ++ '\n' :: keyed (indent + 2) fields
  | .null => " null\n".toList
  | .bool b => (if b then " true\n" else " false\n").toList
  | .nat n => ' ' :: (toString n).toList ++ ['\n']
  | .float x => ' ' :: number x ++ ['\n']
  | .text s => ' ' :: endLine (scalarText (indent + 2) s)
  | .list items => '\n' :: dashed (indent + 2) items
  | .record [] => " \x7b\x7d\n".toList
  | .variant tag v => ' ' :: '!' :: tag.toList ++ afterKey indent v

def dashed (indent : Nat) : List Data → List Char
  | [] => []
  | v :: vs => blanks indent ++ '-' :: afterDash indent v ++ dashed indent vs

def keyed (indent : Nat) : List (String × Data) → List Char
  | [] => []
  | (name, v) :: fields =>
    blanks indent ++ name.toList ++ ':' :: afterKey indent v ++ keyed indent fields

end

def text : Data → String
  | .record fields => String.ofList (keyed 0 fields)
  | v => String.ofList ((afterKey 0 v).drop 1)

end MaterialScript.Yaml

namespace MaterialScript

def Document.yaml (d : Document) : String := Yaml.text d.toData

end MaterialScript
