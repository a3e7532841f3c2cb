import MaterialScript.Compiler
import MaterialScript.Registry

/-!
# Log of a compilation

* `LogEntry` : a line of the log;
* `Resolver.logging` : a registry as a resolver that notes every new registration;
* `compileLogged`, `compileFileLogged` : a compilation with its log.
-/

namespace MaterialScript

inductive LogLevel where
  | info
  | warn
  | debug
deriving DecidableEq, Repr

def LogLevel.name : LogLevel → String
  | info => "INFO"
  | warn => "WARN"
  | debug => "DEBUG"

structure LogEntry where
  level : LogLevel
  message : String
deriving DecidableEq, Repr

structure LoggedRegistry where
  registry : Registry
  log : List LogEntry := []

/-- How the log shows the handles of a kind. -/
def ResourceKind.handleName : ResourceKind → String
  | shader => "ShaderHandle"
  | texture => "TextureHandle"

def registrationEntry (kind : ResourceKind) (path : String) (handle : Nat) : LogEntry where
  level := .debug
  message := "registered " ++ kind.noun ++ " `" ++ path ++ "` as " ++ kind.handleName ++ "("
    ++ toString handle ++ ")"

/-- Notes every path that a resolver registers. -/
def Resolver.logging (r : Resolver Registry) : Resolver LoggedRegistry where
  locate s := r.locate s.registry
  load kind path s :=
    let before := (s.registry.table kind).size
    let (answer, registry) := r.load kind path s.registry
    let new := if before < (registry.table kind).size then [registrationEntry kind path before] else []
    (answer, { registry, log := s.log ++ new })

/-- A compilation: its result, the registry after it, and its log. -/
structure Compilation where
  result : Except Diagnostic Document
  registry : Registry
  log : List LogEntry

def openingEntries (settings : Settings) (path source : String) : List LogEntry :=
  [⟨.info, "compiling material `" ++ path ++ "`"⟩]
    ++ (if (sourceText settings source).2 then
        [⟨.warn, path ++ ": ignoring UTF-8 byte order mark"⟩] else [])
    ++ match parseSource settings path source with
      | .ok p =>
        [⟨.debug, path ++ ": " ++ toString p.lexemes.length ++ " tokens, "
          ++ toString p.firings.length ++ " actions"⟩]
      | .error _ => []

def closingEntries (path : String) : Except Diagnostic Document → List LogEntry
  | .ok d =>
    [⟨.debug, path ++ ": " ++ toString d.techniques.length ++ " techniques, "
      ++ toString d.passCount ++ " passes"⟩]
  | .error _ => []

def compileLogged (resolver : Resolver Registry) (settings : Settings) (path source : String)
    (registry : Registry) : Compilation :=
  let (result, s) := compile resolver.logging settings path source { registry }
  { result, registry := s.registry,
    log := openingEntries settings path source ++ s.log ++ closingEntries path result }

def compileFileLogged (files : Files) (resolver : Resolver Registry) (settings : Settings)
    (path : String) (registry : Registry) : Compilation :=
  match files.readText path with
  | .error e => { result := .error (e.diagnostic (slashed path)), registry, log := [] }
  | .ok source => compileLogged resolver settings (slashed path) source registry

end MaterialScript
