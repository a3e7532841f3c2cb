import MaterialScript.Assembly
import MaterialScript.Files
import MaterialScript.Grammar.Document
import MaterialScript.Settings.Basic
import MaterialScript.Token.Lexer

/-!
# Compilation of documents

A text is cut into lexemes, these are matched against the grammar, and the firings assemble the
document. The first failure of any step ends the compilation.

* `sourceText` : the text of a source that is read;
* `Parsed`, `parseSource` : the lexemes and firings of a source;
* `assemble` : the document of a parsed source; `compile` : both steps;
* `compileFile` : the document in a file.
-/

namespace MaterialScript

/-- A source that matches the grammar. -/
structure Parsed where
  text : List Char
  lexemes : List Lexeme
  firings : List Firing
deriving DecidableEq, Repr

/-- The text of a source that is read, and whether a byte order mark was dropped. -/
def sourceText (settings : Settings) (source : String) : List Char × Bool :=
  if settings.stripByteOrderMark then Lexer.stripByteOrderMark source.toList
  else (source.toList, false)

def LexError.diagnostic (e : LexError) (file : String) (text : List Char) : Diagnostic :=
  { kind := .syntaxError, file, message := e.message : Diagnostic }.atOffset text e.span.start

/-- The diagnostic of a failure of the grammar: at the failing lexeme, or at the end of the text. -/
def Grammar.Failure.diagnostic (e : Grammar.Failure) (file : String) (text : List Char) :
    Diagnostic :=
  { kind := .syntaxError, file, message := e.message : Diagnostic }.atOffset text
    ((e.found?.map (fun l => l.span.start)).getD (Text.bytes text))

def parseText (path : String) (text : List Char) : Except Diagnostic Parsed :=
  match Lexer.lex text with
  | .error e => .error (e.diagnostic path text)
  | .ok lexemes =>
    match Grammar.parse lexemes with
    | .error e => .error (e.diagnostic path text)
    | .ok firings => .ok ⟨text, lexemes, firings⟩

def parseSource (settings : Settings) (path source : String) : Except Diagnostic Parsed :=
  parseText path (sourceText settings source).1

variable {σ : Type}

/-- The document of a parsed source, and the state of the resolver after loading its resources. -/
def assemble (resolver : Resolver σ) (path : String) (p : Parsed) (host : σ) :
    Except Diagnostic Document × σ :=
  match (Assembly.fireAll resolver path p.firings).run (Assembly.start host) with
  | .error misfire a => (.error (misfire.diagnostic path p.text), a.host)
  | .ok _ a =>
    match a.close with
    | .error fault => (.error (fault.diagnosticAtEnd path p.text), a.host)
    | .ok document => (.ok document, a.host)

/-- The document of a source, and the state of the resolver after the compilation. The path names
the source in diagnostics, and references start at its directory. -/
def compile (resolver : Resolver σ) (settings : Settings) (path source : String) (host : σ) :
    Except Diagnostic Document × σ :=
  match parseSource settings path source with
  | .error e => (.error e, host)
  | .ok p => assemble resolver path p host

def slashed (path : String) : String :=
  String.ofList (path.toList.map fun c => if c = '\\' then '/' else c)

def ReadError.diagnostic (e : ReadError) (file : String) : Diagnostic :=
  { kind := .ioError, file, message := e.message }

def compileFile (files : Files) (resolver : Resolver σ) (settings : Settings) (path : String)
    (host : σ) : Except Diagnostic Document × σ :=
  match files.readText path with
  | .error e => (.error (e.diagnostic (slashed path)), host)
  | .ok source => compile resolver settings (slashed path) source host

end MaterialScript
