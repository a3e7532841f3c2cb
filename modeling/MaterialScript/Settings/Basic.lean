import MaterialScript.Number.Layout
import MaterialScript.Text.Letters

/-!
# Settings

* `OutputFormat` : the formats that a document is printed in; `OutputFormat.ofName?` : the format of a
  name, in capital or small letters;
* `Settings` : what a user can set; the field defaults are the settings of a user who sets nothing;
* `SettingValue` : what a settings file can hold;
* `SettingValue.ofPlain?` : what an unquoted text stands for;
* `SettingValue.merge` : a table laid over a value.
-/

namespace MaterialScript

inductive OutputFormat where
  | treeviz
  | json
  | yaml
deriving DecidableEq, Repr

namespace OutputFormat

def name : OutputFormat → String
  | treeviz => "treeviz"
  | json => "json"
  | yaml => "yaml"

def all : List OutputFormat := [treeviz, json, yaml]

/-- The format of a name; ASCII letters may be in capitals. -/
def ofName? (text : String) : Option OutputFormat :=
  all.find? (fun format => format.name.toList == text.toList.map Char.toLower)

@[simp] theorem ofName?_name (format : OutputFormat) : ofName? format.name = some format := by
  cases format <;> decide

def notFoundMessage (text : String) : String := "format '" ++ text ++ "' not found"

end OutputFormat

structure Settings where
  /-- Whether a byte order mark in front of a document is dropped. -/
  stripByteOrderMark : Bool := true
  /-- The directory of shaders and textures; the working directory if there is none. -/
  assetRoot : Option String := none
  /-- Whether shaders and textures have to exist. -/
  checkAssetsExist : Bool := false
  /-- The format that documents are printed in. -/
  outputFormat : OutputFormat := .treeviz
deriving DecidableEq, Repr

/-! ## Values -/

open Number

/-- What a settings file can hold. A real number is given by its sign and its code in the 64-bit
format. -/
inductive SettingValue where
  | null
  | bool (value : Bool)
  | int (value : Int)
  | real (negative : Bool) (code : Nat)
  | text (value : String)
  | list (items : List SettingValue)
  | table (fields : List (String × SettingValue))

namespace SettingValue

/-! ### Unquoted texts -/

def inRange? (n : Int) : Option Int :=
  if -0x8000000000000000 ≤ n ∧ n < 0x8000000000000000 then some n else none

/-- The integer of 64 bits written to a base, with an optional sign. -/
def integer? (base : Nat) : List Char → Option Int
  | '-' :: cs => do inRange? (-(← natural? base cs))
  | '+' :: cs => do inRange? (← natural? base cs)
  | cs => do inRange? (← natural? base cs)

/-- The integer that a text stands for: decimal, or to base sixteen or eight after a mark. -/
def plainInteger? (cs : List Char) : Option Int :=
  let marked :=
    match cs with
    | '0' :: 'x' :: rest => integer? 16 rest
    | '0' :: 'o' :: rest => integer? 8 rest
    | '+' :: rest => integer? 10 rest
    | _ => none
  marked.or (integer? 10 cs)

/-- The words for infinity and for no number, which may have a sign in front. -/
def namedReal? (cs : List Char) : Option SettingValue :=
  let (negative, body) := readSign cs
  let word := String.ofList (body.map Char.toLower)
  if word = "inf" ∨ word = "infinity" then some (.real negative Format.binary64.infinity)
  else if word = "nan" then some (.real negative (Format.binary64.infinity + 1))
  else none

/-- The texts that stand for infinity and for no number in documents, but for no setting. -/
def refusedReals : List String :=
  [".inf", ".Inf", ".INF", "+.inf", "+.Inf", "+.INF", "-.inf", "-.Inf", "-.INF", ".nan", ".NAN"]

def plainReal? (cs : List Char) : Option SettingValue :=
  match Decimal.read? cs with
  | some (negative, d) => some (.real negative (Format.binary64.ofDecimal d))
  | none => namedReal? cs

/-- What an unquoted text stands for, unless it is one of the refused numbers. The empty one, after an
anchor, is a text. -/
def ofPlain? (s : String) : Option SettingValue :=
  if s = "~" ∨ s = "null" then some .null
  else if s = "true" then some (.bool true)
  else if s = "false" then some (.bool false)
  else
    match plainInteger? s.toList with
    | some n => some (.int n)
    | none => if refusedReals.contains s then none else some ((plainReal? s.toList).getD (.text s))

/-- The field name that a value stands for. Only texts and integers do. -/
def key? : SettingValue → Option String
  | text s => some s
  | int n => some (toString n)
  | _ => none

/-! ### Tables -/

/-- The fields of a table; other values have none. -/
def fields : SettingValue → List (String × SettingValue)
  | table fs => fs
  | _ => []

/-- Fields with one of them replaced, or added at the end. -/
def put (fs : List (String × SettingValue)) (key : String) (v : SettingValue) :
    List (String × SettingValue) :=
  match fs with
  | [] => [(key, v)]
  | (k, u) :: rest => if k = key then (k, v) :: rest else (k, u) :: put rest key v

/-- A table of names and values; of two values with a name, the last one counts. -/
def ofPairs (pairs : List (SettingValue × SettingValue)) : SettingValue :=
  .table (pairs.foldl (fun fs (key, v) => (key.key?.map (put fs · v)).getD fs) [])

mutual

/-- Lays a value over what a field holds. A table goes over it field by field, so a table without
fields changes nothing; anything else takes its place. -/
def overlay (old : Option SettingValue) : SettingValue → SettingValue
  | .table fs => merge (old.getD (.table [])) fs
  | v => v

/-- Lays fields over a value, which becomes a table if there are any. Capital and small letters are the
same in names. -/
def merge (target : SettingValue) : List (String × SettingValue) → SettingValue
  | [] => target
  | (key, v) :: rest =>
    let name := Text.lowercase key
    merge (.table (put target.fields name (overlay (target.fields.lookup name) v))) rest

end

end SettingValue

end MaterialScript
