import MaterialScript.Position
import MaterialScript.Text.Quoted

/-!
# Tokens and lexical errors

* `Token` : punctuation, identifiers, numbers and string literals;
* `Token.spelling` : the one way a token is written in a document;
* `Token.display` : a token in a message;
* `Lexeme` : a token with the span it was read from;
* `LexError.Cause` : what a document has that is no token; `LexError.Cause.message` : its wording;
* `LexError` : a cause and the bytes it lies in.

Keywords are identifiers: the grammar compares whole identifier texts.
-/

namespace MaterialScript

/-- The smallest units of a document. Identifiers and numbers keep their text, string literals
their content. -/
inductive Token where
  | leftBrace
  | rightBrace
  | leftParen
  | rightParen
  | comma
  | colon
  | ident (text : String)
  | number (text : String)
  | str (content : String)
deriving DecidableEq, Repr

namespace Token

/-- A character of a string literal as a document spells it. -/
def spellChar (c : Char) : List Char :=
  if c = '"' ∨ c = '\\' then ['\\', c] else [c]

def spelling : Token → List Char
  | leftBrace => ['{']
  | rightBrace => ['}']
  | leftParen => ['(']
  | rightParen => [')']
  | comma => [',']
  | colon => [':']
  | ident text => text.toList
  | number text => text.toList
  | str content => '"' :: content.toList.flatMap spellChar ++ ['"']

def display : Token → String
  | leftBrace => "\x7b"
  | rightBrace => "\x7d"
  | leftParen => "("
  | rightParen => ")"
  | comma => ","
  | colon => ":"
  | ident text => text
  | number text => text
  | str content => Text.quoted content

def isKeyword (t : Token) (word : String) : Bool := t == ident word

@[simp] theorem isKeyword_iff {t : Token} {word : String} :
    t.isKeyword word = true ↔ t = ident word := by
  simp [isKeyword]

end Token

/-- A token and the bytes it was read from. -/
structure Lexeme where
  token : Token
  span : Span
deriving DecidableEq, Repr

def Lexeme.spelled (offset : Nat) (t : Token) : Lexeme :=
  ⟨t, offset, offset + Text.bytes t.spelling⟩

/-! ## Lexical errors -/

/-- Why a text is no token. -/
inductive LexError.Cause where
  /-- A string literal is not closed on its line. -/
  | unterminatedString
  /-- A closed string literal has a backslash before a character that takes none. -/
  | invalidEscape (found : Char)
  /-- A number is too large, or too small to be told from zero. -/
  | numberOutOfRange (text : String)
  /-- No token starts with this character. -/
  | unexpectedCharacter (found : Char)
deriving DecidableEq, Repr

structure LexError where
  cause : LexError.Cause
  span : Span
deriving DecidableEq, Repr

/-- The wording for a number that no 32-bit float stands for. -/
def outOfRangeMessage (text : String) : String :=
  "number `" ++ text ++ "` out of range for a 32-bit float"

def LexError.Cause.message : LexError.Cause → String
  | unterminatedString => "unterminated string literal"
  | invalidEscape found => "invalid escape sequence `\\" ++ found.toString ++ "` in string literal"
  | numberOutOfRange text => outOfRangeMessage text
  | unexpectedCharacter found => "unexpected character `" ++ found.toString ++ "`"

def LexError.message (e : LexError) : String := e.cause.message

end MaterialScript
