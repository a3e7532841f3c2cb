import MaterialScript.Compiler
import MaterialScript.Material
import MaterialScript.Output.Printer
import MaterialScript.Registry
import MaterialScript.Settings.Loader

/-!
# Command line

* `Invocation` : what a user asks for; `Request.ofArguments` : reads it off the arguments;
* `Outcome` : exit code and output;
* `Invocation.run` : performs it on a storage; `runArguments` : both steps;
* `Invocation.inspected`, `Invocation.assets` : the files that a run may ask for.
-/

namespace MaterialScript

/-! ## Arguments -/

/-- The work that a user asks for. -/
inductive Task where
  /-- Compile documents and report errors. -/
  | check (paths : List String)
  /-- Print a document. -/
  | dump (path : String) (format : Option String)
  /-- Print the state of every pass of a document. -/
  | apply (path : String)
deriving DecidableEq, Repr

structure Invocation where
  config : Option String
  task : Task
deriving DecidableEq, Repr

inductive Request where
  | help
  | version
  | invoke (invocation : Invocation)
deriving DecidableEq, Repr

inductive UsageError where
  | missingTask
  | unknownTask (name : String)
  | unknownOption (argument : String)
  | missingValue (option : String)
  | repeatedOption (option : String)
  | missingPath
  | extraArgument (argument : String)
deriving DecidableEq, Repr

def UsageError.message : UsageError → String
  | missingTask => "a command is required: check, dump or apply"
  | unknownTask name => "there is no command '" ++ name ++ "'"
  | unknownOption argument => "there is no option '" ++ argument ++ "' here"
  | missingValue option => "'--" ++ option ++ "' needs a value"
  | repeatedOption option => "'--" ++ option ++ "' is given more than once"
  | missingPath => "a path is required"
  | extraArgument argument => "there is no place for '" ++ argument ++ "'"

inductive ValueOption where
  | config
  | format
deriving DecidableEq, Repr

def ValueOption.long : ValueOption → String
  | config => "config"
  | format => "format"

def ValueOption.short : ValueOption → Char
  | config => 'c'
  | format => 'f'

inductive Shape where
  | word
  /-- Ends the options. -/
  | divider
  | help
  | version
  | option (option : ValueOption) (value : Option String)
  | unknown
deriving DecidableEq, Repr

/-- Splits a text at its first equals sign. -/
def splitEquals (cs : List Char) : String × Option String :=
  let name := String.ofList (cs.takeWhile (· != '='))
  match cs.dropWhile (· != '=') with
  | [] => (name, none)
  | _ :: value => (name, some (String.ofList value))

/-- What an argument looks like where some options are allowed. -/
def shapeOf (allowed : List ValueOption) (argument : String) : Shape :=
  match argument.toList with
  | ['-', '-'] => .divider
  | '-' :: '-' :: body =>
    let (name, value) := splitEquals body
    match allowed.find? (fun o => o.long == name) with
    | some o => .option o value
    | none =>
      if value.isSome then .unknown
      else if name = "help" then .help
      else if name = "version" then .version
      else .unknown
  | '-' :: c :: rest =>
    match allowed.find? (fun o => o.short == c) with
    | some o =>
      match rest with
      | [] => .option o none
      | '=' :: value => .option o (some (String.ofList value))
      | value => .option o (some (String.ofList value))
    | none => if c = 'h' then .help else if c = 'V' then .version else .unknown
  | _ => .word

/-- What has been read so far of the arguments of a task. -/
structure Arguments where
  config : Option String := none
  format : Option String := none
  paths : List String := []
deriving DecidableEq, Repr

namespace Arguments

def value? (a : Arguments) : ValueOption → Option String
  | .config => a.config
  | .format => a.format

def set (a : Arguments) (o : ValueOption) (value : String) : Except UsageError Arguments :=
  if (a.value? o).isSome then .error (.repeatedOption o.long)
  else
    match o with
    | .config => .ok { a with config := some value }
    | .format => .ok { a with format := some value }

/-- Adds a path where at most `limit` are allowed. -/
def addPath (a : Arguments) (limit : Option Nat) (path : String) : Except UsageError Arguments :=
  if (limit.map (fun n => decide (n ≤ a.paths.length))).getD false then .error (.extraArgument path)
  else .ok { a with paths := a.paths ++ [path] }

/-- Whether an argument can be the value of the option before it. -/
def isValue (argument : String) : Bool := shapeOf [] argument == .word

/-- Reads the arguments of a task; nothing stands for a request for help. -/
def read (allowed : List ValueOption) (limit : Option Nat) (a : Arguments) :
    List String → Except UsageError (Option Arguments)
  | [] => .ok (some a)
  | argument :: rest =>
    match shapeOf allowed argument with
    | .word => do read allowed limit (← a.addPath limit argument) rest
    | .divider => do return some (← rest.foldlM (fun a path => a.addPath limit path) a)
    | .help => .ok none
    | .option o (some value) => do read allowed limit (← a.set o value) rest
    | .option o none =>
      match rest with
      | value :: rest =>
        if isValue value then do read allowed limit (← a.set o value) rest
        else .error (.missingValue o.long)
      | [] => .error (.missingValue o.long)
    | .version | .unknown => .error (.unknownOption argument)

end Arguments

def taskNames : List String := ["check", "dump", "apply", "help"]

/-- The request for a task with its arguments. A settings file named among them goes before one named
in front of the task. -/
def Request.ofTask (outer : Option String) (name : String) (arguments : List String) :
    Except UsageError Request := do
  let invoke (allowed : List ValueOption) (limit : Option Nat)
      (task : Arguments → String → List String → Task) : Except UsageError Request := do
    match ← Arguments.read allowed limit {} arguments with
    | none => return .help
    | some a =>
      match a.paths with
      | [] => throw .missingPath
      | path :: more => return .invoke ⟨a.config.or outer, task a path more⟩
  match name with
  | "check" => invoke [.config] none fun _ path more => .check (path :: more)
  | "dump" => invoke [.config, .format] (some 1) fun a path _ => .dump path a.format
  | "apply" => invoke [.config] (some 1) fun _ path _ => .apply path
  | "help" =>
    match arguments with
    | [] => return .help
    | topic :: more =>
      if topic ∈ taskNames && more.isEmpty then return .help
      else throw (.unknownTask (more.headD topic))
  | _ => throw (.unknownTask name)

/-- The request that arguments stand for, after a settings file has been named. -/
def Request.ofArgumentsFrom (config : Option String) : List String → Except UsageError Request
  | [] => .error .missingTask
  | argument :: rest =>
    let named (value : String) : Except UsageError (Option String) :=
      if config.isSome then .error (.repeatedOption ValueOption.config.long) else .ok (some value)
    match shapeOf [.config] argument with
    | .word => Request.ofTask config argument rest
    | .help => .ok .help
    | .version => .ok .version
    | .option _ (some value) => do Request.ofArgumentsFrom (← named value) rest
    | .option o none =>
      match rest with
      | value :: rest =>
        if Arguments.isValue value then do Request.ofArgumentsFrom (← named value) rest
        else .error (.missingValue o.long)
      | [] => .error (.missingValue o.long)
    | .divider | .unknown => .error (.unknownOption argument)

def Request.ofArguments (arguments : List String) : Except UsageError Request :=
  Request.ofArgumentsFrom none arguments

/-! ## Outcomes -/

structure Outcome where
  exit : Nat := 0
  stdout : String := ""
  stderr : String := ""
deriving DecidableEq, Repr

/-- Lines, each ended. -/
def ended (lines : List String) : String := String.join (lines.map (· ++ "\n"))

def Outcome.failure (line : String) : Outcome := { exit := 1, stderr := ended [line] }

def compileAlone (files : Files) (settings : Settings) (path : String) :
    Except Diagnostic Document × Registry :=
  compileFile files (Registry.resolver files.isFile) settings path settings.registry

def checkOne (files : Files) (settings : Settings) (o : Outcome) (path : String) : Outcome :=
  match (compileAlone files settings path).1 with
  | .ok d =>
    { o with
      stdout := o.stdout ++ ended [path ++ ": ok (" ++ toString d.techniques.length
        ++ " techniques, " ++ toString d.passCount ++ " passes)"] }
  | .error e => { o with exit := 1, stderr := o.stderr ++ ended [e.display] }

/-- The format to print in: the one asked for, or that of the settings. -/
def chosenFormat (settings : Settings) : Option String → Except String OutputFormat
  | none => .ok settings.outputFormat
  | some name =>
    match OutputFormat.ofName? name with
    | some f => .ok f
    | none => .error (OutputFormat.notFoundMessage name)

def endLastLine (text : String) : String :=
  if text.toList.getLast? = some '\n' then text else text ++ "\n"

def dumpOne (files : Files) (settings : Settings) (path : String) (format : Option String) : Outcome :=
  match chosenFormat settings format with
  | .error message => .failure ("Error: " ++ message)
  | .ok f =>
    match (compileAlone files settings path).1 with
    | .ok d => { stdout := endLastLine (d.print f) }
    | .error e => .failure e.display

def passLines (registry : Registry) (p : PassState) : List String :=
  let shader := match p.shader with
    | some handle =>
      match registry.path? handle with
      | some path => ["# shader #" ++ toString handle.id ++ " = " ++ path]
      | none => []
    | none => []
  ("  pass " ++ nameLabel p.name) :: (p.lines ++ shader).map ("    " ++ ·)

def techniqueLines (registry : Registry) (t : MaterialTechnique) : List String :=
  ("technique " ++ nameLabel t.name) :: t.passes.flatMap (passLines registry)

def applyOne (files : Files) (settings : Settings) (path : String) : Outcome :=
  match compileAlone files settings path with
  | (.ok d, registry) =>
    { stdout := ended ((Material.ofDocument d).techniques.flatMap (techniqueLines registry)) }
  | (.error e, _) => .failure e.display

def Task.run (files : Files) (settings : Settings) : Task → Outcome
  | check paths => paths.foldl (checkOne files settings) {}
  | dump path format => dumpOne files settings path format
  | apply path => applyOne files settings path

def Invocation.run (files : Files) (i : Invocation) : Outcome :=
  match Settings.load files i.config with
  | .error e => .failure ("Error: " ++ e.message)
  | .ok settings => i.task.run files settings

def versionLine : String := "matc 0.1.0"

def usageText : String :=
  ended ["Compile and inspect material description files", "",
    "Usage: matc [--config FILE] check PATH...",
    "       matc [--config FILE] dump PATH [--format treeviz|json|yaml]",
    "       matc [--config FILE] apply PATH"]

def Request.run (files : Files) : Request → Outcome
  | help => { stdout := usageText }
  | version => { stdout := ended [versionLine] }
  | invoke i => i.run files

def runArguments (files : Files) (arguments : List String) : Outcome :=
  match Request.ofArguments arguments with
  | .ok request => request.run files
  | .error e => { exit := 2, stderr := "error: " ++ e.message ++ "\n\n" ++ usageText }

/-! ## Files that a run asks for -/

def Task.paths : Task → List String
  | check paths => paths
  | dump path _ => [path]
  | apply path => [path]

/-- The paths that a run may read or look at before it loads resources. -/
def Invocation.inspected (i : Invocation) : List String :=
  i.task.paths ++ i.config.toList.flatMap fun path => [path, path ++ ".yaml", path ++ ".yml"]

/-- The paths of resources that a run looks at if all of them exist. -/
def Invocation.assets (files : Files) (i : Invocation) : List String :=
  match Settings.load files i.config with
  | .error _ => []
  | .ok settings =>
    let all : Files := { files with isFile := fun _ => true }
    i.task.paths.flatMap fun path =>
      let registry := (compileAlone all settings path).2
      (registry.shaders.paths.toList ++ registry.textures.paths.toList).map registry.filePath

end MaterialScript
