import MaterialScript.Files
import MaterialScript.Settings.Basic
import MaterialScript.Settings.KeyPath
import MaterialScript.Settings.Tree
import MaterialScript.Text.Quoted

/-!
# Layered settings

Settings are laid over each other key by key: first the built-in ones, then the sources in their
order, then the overrides in theirs. Only then are the values read.

* `SettingsError` : what can be wrong with settings; `SettingsError.message` : its wording;
* `SettingsSource`, `Override` : what settings come from;
* `SettingTable` : values by key, each with the file it came from; `SettingTable.set` : lays a value over;
* `SettingTable.read` : the settings of a table;
* `Settings.build` : the settings of sources and overrides; `Settings.load` : those of one file.
-/

namespace MaterialScript

open Number

/-! ## Errors -/

inductive SettingsError where
  /-- A value is not of the type that its key needs. -/
  | wrongType (found expected key : String) (origin : Option String)
  | unknownFormat (name : String)
  | formatShape
  | fileNotFound (path : String)
  | invalidText
  /-- The key of an override is no key. -/
  | badKey (fault : KeyFault)
  /-- A source is not in the format of settings. -/
  | malformed
deriving DecidableEq, Repr

def SettingsError.message : SettingsError → String
  | wrongType found expected key origin =>
    "invalid config: invalid type: " ++ found ++ ", expected " ++ expected ++ " for key `" ++ key ++ "`"
      ++ match origin with
        | some path => " in " ++ path
        | none => ""
  | unknownFormat name =>
    "invalid config: enum OutputFormat does not have variant constructor " ++ name
  | formatShape =>
    "invalid config: value of enum OutputFormat should be represented by either string or table "
      ++ "with exactly one key"
  | fileNotFound path => "invalid config: configuration file \"" ++ path ++ "\" not found"
  | invalidText => "invalid config: " ++ ReadError.invalidText.message
  | badKey fault => "invalid config: " ++ fault.word
  | malformed => "invalid config: malformed settings"

/-! ## Tables -/

structure SettingEntry where
  value : SettingValue
  origin : Option String := none

abbrev SettingTable := List (String × SettingEntry)

namespace SettingTable

/-- Replaces the entry of a key, or adds one at the end. -/
def put (t : SettingTable) (key : String) (e : SettingEntry) : SettingTable :=
  match t with
  | [] => [(key, e)]
  | (k, old) :: rest => if k = key then (k, e) :: rest else (k, old) :: put rest key e

/-- Lays a value over that of a key. A table that gains fields has no origin of its own. -/
def overlay (t : SettingTable) (key : String) (e : SettingEntry) : SettingTable :=
  match e.value with
  | .table [] => if (t.lookup key).isSome then t else t.put key ⟨.table [], none⟩
  | .table fields =>
    let old := ((t.lookup key).map SettingEntry.value).getD (.table [])
    t.put key ⟨old.merge fields, none⟩
  | _ => t.put key e

/-- Lays a value over that at a place inside a key. A list that stays one keeps its origin. -/
def setInside (t : SettingTable) (key : String) (steps : List KeyStep) (v : SettingValue) :
    SettingTable :=
  let old := (t.lookup key).getD ⟨.null, none⟩
  let origin := match steps, old.value with
    | .item _ :: _, .list _ => old.origin
    | _, _ => none
  t.put key ⟨old.value.setAt v steps, origin⟩

/-- Lays a value over that of a key with parts; capital and small letters are the same in keys. -/
def setPath (t : SettingTable) (path : KeyPath) (e : SettingEntry) : SettingTable :=
  let name := Text.lowercase path.name
  if path.steps.isEmpty then t.overlay name e else t.setInside name path.steps e.value

/-- Lays a value over that of a key; what is no key with parts names a field as a whole. -/
def set (t : SettingTable) (key : String) (e : SettingEntry) : SettingTable :=
  match KeyPath.read key with
  | .ok path => t.setPath path e
  | .error _ => t.overlay (Text.lowercase key) e

def entry (t : SettingTable) (key : String) : SettingEntry := (t.lookup key).getD ⟨.null, none⟩

def builtIn : SettingTable :=
  [("strip_byte_order_mark", ⟨.bool true, none⟩), ("asset_root", ⟨.null, none⟩),
    ("check_assets_exist", ⟨.bool false, none⟩), ("output_format", ⟨.text "treeviz", none⟩)]

/-! ## Reading values -/

/-- A value that is not of the right type, as a message names it. -/
def describe : SettingValue → String
  | .text s => "string " ++ Text.quoted s
  | .list _ => "sequence"
  | .table _ => "map"
  | _ => "unit value"

/-- The switch at a key. Numbers other than zero are on, and some words are on or off. -/
def switch (t : SettingTable) (key : String) : Except SettingsError Bool :=
  let e := t.entry key
  let wrong (v : SettingValue) := Except.error (.wrongType (describe v) "a boolean" key e.origin)
  match e.value with
  | .bool b => .ok b
  | .int n => .ok (n != 0)
  | .real _ code => .ok (code != 0)
  | .text s =>
    let word := Text.lowercase s
    if ["1", "true", "on", "yes"].contains word then .ok true
    else if ["0", "false", "off", "no"].contains word then .ok false
    else wrong (.text word)
  | v => wrong v

/-- The text at a key, if it has one. Numbers and switches stand for their texts. -/
def path? (t : SettingTable) (key : String) : Except SettingsError (Option String) :=
  let e := t.entry key
  match e.value with
  | .null => .ok none
  | .text s => .ok (some s)
  | .bool b => .ok (some (if b then "true" else "false"))
  | .int n => .ok (some (toString n))
  | .real negative code => .ok (some (Format.binary64.plainText negative code))
  | v => .error (.wrongType (describe v) "a string" key e.origin)

def formatNamed (name : String) : Except SettingsError OutputFormat :=
  match OutputFormat.all.find? (fun f => f.name == Text.lowercase name) with
  | some f => .ok f
  | none => .error (.unknownFormat name)

/-- The output format at a key: a name, or a table with a name as its only key. -/
def format (t : SettingTable) (key : String) : Except SettingsError OutputFormat :=
  match (t.entry key).value with
  | .text s => formatNamed s
  | .table [(name, _)] => formatNamed name
  | _ => .error .formatShape

def read (t : SettingTable) : Except SettingsError Settings := do
  return {
    stripByteOrderMark := ← t.switch "strip_byte_order_mark"
    assetRoot := ← t.path? "asset_root"
    checkAssetsExist := ← t.switch "check_assets_exist"
    outputFormat := ← t.format "output_format" }

def addText (t : SettingTable) (origin : Option String) (text : String) :
    Except SettingsError SettingTable :=
  match SettingsText.readFields? text with
  | some fields => .ok (fields.foldl (fun t (key, v) => t.set key ⟨v, origin⟩) t)
  | none => .error .malformed

end SettingTable

/-! ## Sources -/

inductive SettingsSource where
  | text (content : String)
  | file (path : String) (required : Bool)
deriving DecidableEq, Repr

structure Override where
  key : String
  value : SettingValue

/-- A path up to the name of a file, without parts after it that stand for nothing. A path that leads up
has none. -/
def fileStem? (path : String) : Option String :=
  match (FileTree.components path).reverse.dropWhile (fun part => part == "" || part == ".") with
  | [] => none
  | name :: parents =>
    if name = ".." then none else some (String.intercalate "/" (parents.reverse ++ [name]))

/-- The file that a path stands for: the path itself, or its name with an ending. -/
def settingsFile? (files : Files) (path : String) : Option String :=
  let named := match fileStem? path with
    | some stem => [stem ++ ".yaml", stem ++ ".yml"]
    | none => []
  (path :: named).find? files.isFile

/-- A relative path as a message shows it, without parts that stand for nothing. -/
def shownPath (path : String) : String :=
  String.intercalate "/" ((FileTree.components path).filter (fun c => c ≠ "" ∧ c ≠ "."))

/-- Lays a source over a table. An optional file that is missing or no text changes nothing. -/
def SettingsSource.addTo (files : Files) (t : SettingTable) :
    SettingsSource → Except SettingsError SettingTable
  | text content => t.addText none content
  | file path required =>
    match settingsFile? files path with
    | none => if required then .error (.fileNotFound path) else .ok t
    | some found =>
      match files.readText found with
      | .ok content => t.addText (some (shownPath found)) content
      | .error _ => if required then .error .invalidText else .ok t

/-- The settings of sources and overrides. The keys of the overrides are read first. -/
def Settings.build (files : Files) (sources : List SettingsSource) (overrides : List Override) :
    Except SettingsError Settings := do
  let paths ← overrides.mapM fun o =>
    match KeyPath.read o.key with
    | .ok path => Except.ok (path, o.value)
    | .error fault => .error (SettingsError.badKey fault)
  let t ← sources.foldlM (SettingsSource.addTo files) SettingTable.builtIn
  (paths.foldl (fun t (path, v) => SettingTable.setPath t path ⟨v, none⟩) t).read

/-- The built-in settings, or those of a file over them. -/
def Settings.load (files : Files) (path : Option String) : Except SettingsError Settings :=
  Settings.build files (path.map (SettingsSource.file · true)).toList []

end MaterialScript
