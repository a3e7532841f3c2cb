import MaterialScript.Text.Basic

/-!
# Positions and diagnostics

Every failure ends the compilation of the whole document with one diagnostic, at a position in the
text.

* `Position` : a line and a column, both counted from zero; columns count bytes;
* `Position.advance`, `Position.after` : the position after one more character, after a text;
* `Position.ofOffset` : the position of a byte offset;
* `Span` : a range of byte offsets;
* `Diagnostic.Kind` : what a diagnostic is about; `Kind.isInternal` : it is about the compiler and not
  about its input;
* `Diagnostic` : a located message; `Diagnostic.display` : the line a reader sees.
-/

namespace MaterialScript

/-- A line and a byte column, counted from zero. -/
structure Position where
  line : Nat
  column : Nat
deriving DecidableEq, Repr

namespace Position

def start : Position := ⟨0, 0⟩

/-- The position after one more character. -/
def advance (p : Position) (c : Char) : Position :=
  if c = '\n' then ⟨p.line + 1, 0⟩ else ⟨p.line, p.column + c.utf8Size⟩

def after (text : List Char) : Position := text.foldl advance start

/-- The position of a byte offset. An offset that is past the end or inside a character has the
position of the end. -/
def ofOffset (text : List Char) (offset : Nat) : Position :=
  after ((Text.takeBytes? offset text).getD text)

def displayLine (p : Position) : Nat := p.line + 1

def displayColumn (p : Position) : Nat := p.column + 1

def display (p : Position) : String :=
  toString p.displayLine ++ ":" ++ toString p.displayColumn

theorem after_append (xs ys : List Char) : after (xs ++ ys) = ys.foldl advance (after xs) := by
  simp [after]

theorem ofOffset_append (xs ys : List Char) :
    ofOffset (xs ++ ys) (Text.bytes xs) = after xs := by
  simp [ofOffset, Text.takeBytes?_append]

end Position

/-- The bytes from offset `start` up to, but not with, offset `stop`. -/
structure Span where
  start : Nat
  stop : Nat
deriving DecidableEq, Repr

/-- From the start of one span to the end of another. -/
def Span.through (a b : Span) : Span := ⟨a.start, b.stop⟩

/-! ## Diagnostics -/

inductive Diagnostic.Kind where
  | syntaxError
  | scopeImbalance
  | stackUnderflow
  | unconsumedValues
  | resourceError
  | ioError
deriving DecidableEq, Repr

namespace Diagnostic.Kind

/-- Whether the grammar and the assembly of documents disagree, which no input should bring about. -/
def isInternal : Kind → Bool
  | scopeImbalance | stackUnderflow | unconsumedValues => true
  | syntaxError | resourceError | ioError => false

def display : Kind → String
  | syntaxError => "syntax error"
  | scopeImbalance => "scope imbalance"
  | stackUnderflow => "value stack underflow"
  | unconsumedValues => "unconsumed values"
  | resourceError => "resource error"
  | ioError => "i/o error"

end Diagnostic.Kind

/-- A failure, with the file it concerns and, where it has one, the position in that file. -/
structure Diagnostic where
  kind : Diagnostic.Kind
  file : String
  position : Option Position := none
  message : String
deriving DecidableEq, Repr

namespace Diagnostic

def atOffset (d : Diagnostic) (text : List Char) (offset : Nat) : Diagnostic :=
  { d with position := some (Position.ofOffset text offset) }

/-- The line, counted from one; zero without a position. -/
def line (d : Diagnostic) : Nat := (d.position.map Position.displayLine).getD 0

/-- The column, counted from one; zero without a position. -/
def column (d : Diagnostic) : Nat := (d.position.map Position.displayColumn).getD 0

def display (d : Diagnostic) : String :=
  d.file ++ ":" ++ toString d.line ++ ":" ++ toString d.column ++ ": " ++ d.kind.display ++ ": "
    ++ d.message

end Diagnostic

end MaterialScript
