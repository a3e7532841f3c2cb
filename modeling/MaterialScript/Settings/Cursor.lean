/-!
# Places and tokens of a settings text

Settings are written in YAML, where the column and the line of a place matter.

* `Token` : the marks and texts of a settings text, with marks for where indented lists and tables
  start and end;
* `isBlank`, `isBreak`, `isFlowMark` : kinds of characters; `separates`, `endsLine` : the same for what
  follows a place, the end of the text included;
* `Cursor` : a place, with the text from there on; `Cursor.take`, `Cursor.skip`, `Cursor.breakLine?` :
  places further on;
* `Cursor.skipSpacing?` : over blanks and a comment.
-/

namespace MaterialScript.SettingsText

/-! ## Tokens -/

inductive Token where
  /-- A directive for the version of the format. -/
  | version
  /-- A directive that gives tags with a handle a name. -/
  | tagNames (handle name : String)
  | documentStart
  | documentEnd
  /-- An indented list starts. -/
  | listStart
  /-- An indented table starts. -/
  | tableStart
  /-- An indented list or table ends. -/
  | levelEnd
  | openBracket
  | closeBracket
  | openBrace
  | closeBrace
  /-- The dash of an item. -/
  | item
  | comma
  /-- A field name follows. -/
  | key
  /-- The value of a field follows. -/
  | value
  /-- Stands for the value that an anchor marks. -/
  | alias (name : String)
  /-- Marks the value that follows. -/
  | anchor (name : String)
  /-- Says of what type the value that follows is. -/
  | tag (handle suffix : String)
  /-- A text, as it is or written in another way. -/
  | scalar (asIs : Bool) (content : String)
deriving DecidableEq, Repr

/-! ## Places -/

def isBlank (c : Char) : Bool := c == ' ' || c == '\t'

def isBreak (c : Char) : Bool := c == '\n' || c == '\r'

/-- The marks of lists and tables between brackets. -/
def isFlowMark (c : Char) : Bool := ",[]\x7b\x7d".toList.contains c

def isWordChar (c : Char) : Bool := c.isAlphanum || c == '_' || c == '-'

def endsLine (next : Option Char) : Bool := (next.map isBreak).getD true

/-- Whether what follows separates words. -/
def separates (next : Option Char) : Bool := (next.map fun c => isBlank c || isBreak c).getD true

/-- A place in a text: what follows, the number of characters before it in all and on its line, the
number of its line, and whether only blanks stand before it on the line. -/
structure Cursor where
  rest : List Char
  index : Nat := 0
  line : Nat := 0
  column : Nat := 0
  fresh : Bool := true
deriving DecidableEq, Repr

namespace Cursor

def ofText (s : String) : Cursor := { rest := s.toList.takeWhile (· != '\x00') }

def peek? (c : Cursor) (n : Nat) : Option Char := c.rest[n]?

def head? (c : Cursor) : Option Char := c.rest.head?

/-- The place after some blanks. -/
def skip (c : Cursor) (n : Nat) : Cursor :=
  { c with rest := c.rest.drop n, index := c.index + n, column := c.column + n }

/-- The place after some characters, not all of them blanks. -/
def take (c : Cursor) (n : Nat) : Cursor := { c.skip n with fresh := false }

/-- The characters of a kind from here on, and the place after them. -/
def takeWhile (c : Cursor) (p : Char → Bool) : List Char × Cursor :=
  let taken := c.rest.takeWhile p
  (taken, if taken.isEmpty then c else c.take taken.length)

def nextLine (c : Cursor) (n : Nat) : Cursor :=
  { rest := c.rest.drop n, index := c.index + n, line := c.line + 1, column := 0, fresh := true }

/-- The place after the line end here: a carriage return, a line feed, or both. -/
def breakLine? (c : Cursor) : Option Cursor :=
  match c.rest with
  | '\r' :: '\n' :: _ => some (c.nextLine 2)
  | ch :: _ => if isBreak ch then some (c.nextLine 1) else none
  | [] => none

/-- The place at the end of the line, after a comment. -/
def skipComment (c : Cursor) : Cursor := (c.takeWhile (fun ch => !isBreak ch)).2

/-- Whether three characters stand here on their own. -/
def isMark (c : Cursor) (mark : Char) : Bool :=
  c.rest.take 3 == [mark, mark, mark] && separates (c.peek? 3)

/-- Whether a mark between documents stands here. -/
def isDocumentMark (c : Cursor) : Bool := c.column == 0 && (c.isMark '-' || c.isMark '.')

end Cursor

structure Spacing where
  tabs : Bool
  blanks : Bool
deriving DecidableEq, Repr

/-- The place after blanks and a comment, which needs a blank before it. -/
def Cursor.skipSpacing? (c : Cursor) : Option (Spacing × Cursor) :=
  let blanks := c.rest.takeWhile isBlank
  let spacing : Spacing := ⟨blanks.contains '\t', blanks.contains ' '⟩
  let after := c.skip blanks.length
  if after.head? = some '#' then if blanks.isEmpty then none else some (spacing, after.skipComment)
  else some (spacing, after)

end MaterialScript.SettingsText
