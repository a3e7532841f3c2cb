import MaterialScript.Settings.Basic

/-!
# Keys with several parts

A key names a field, and after points and between brackets fields and items inside it.

* `KeyPath`, `KeyPath.read` : a key and its parts; `KeyFault` : what can be wrong with a key;
* `SettingValue.setAt` : puts a value at a place inside another.
-/

namespace MaterialScript

/-- A place inside a value. -/
inductive KeyStep where
  | field (name : String)
  | item (index : Int)
deriving DecidableEq, Repr

/-- A key: the name of a field, and places inside it. -/
structure KeyPath where
  name : String
  steps : List KeyStep := []
deriving DecidableEq, Repr

inductive KeyFault where
  /-- It starts with no name. -/
  | noName
  /-- A part starts with something else than a point or bracket, or does not end. -/
  | badPart
  /-- No number stands between brackets. -/
  | noNumber
  /-- A number between brackets is too large. -/
  | largeNumber
deriving DecidableEq, Repr

def KeyFault.word : KeyFault → String
  | noName => "IsA"
  | badPart => "Char"
  | noNumber => "Digit"
  | largeNumber => "MapRes"

namespace KeyPath

def isNameChar (c : Char) : Bool := c.isAlphanum || c == ' ' || c == '_' || c == '-'

def isBlank (c : Char) : Bool := c == ' ' || c == '\t'

/-- A number after an opening bracket, with the closing one, and what follows. -/
def readIndex (cs : List Char) : Except KeyFault (Int × List Char) :=
  let cs := cs.dropWhile isBlank
  let (negative, cs) := match cs with
    | '-' :: rest => (true, rest)
    | _ => (false, cs)
  match Number.natural? 10 (cs.takeWhile Char.isDigit) with
  | none => .error .noNumber
  | some n =>
    let value : Int := if negative then -n else n
    if (SettingValue.inRange? value).isNone then .error .largeNumber
    else
      match (cs.dropWhile Char.isDigit).dropWhile isBlank with
      | ']' :: rest => .ok (value, rest)
      | _ => .error .badPart

/-- The parts after a name. -/
def readSteps : Nat → List Char → Except KeyFault (List KeyStep)
  | _, [] => .ok []
  | 0, _ => .error .badPart
  | fuel + 1, '.' :: rest =>
    let name := rest.takeWhile isNameChar
    if name.isEmpty then .error .badPart
    else do
      return .field (String.ofList name) :: (← readSteps fuel (rest.dropWhile isNameChar))
  | fuel + 1, '[' :: rest => do
    let (index, rest) ← readIndex rest
    return .item index :: (← readSteps fuel rest)
  | _, _ => .error .badPart

def read (key : String) : Except KeyFault KeyPath :=
  let cs := key.toList
  let name := cs.takeWhile isNameChar
  if name.isEmpty then .error .noName
  else do
    return ⟨String.ofList name, ← readSteps cs.length (cs.dropWhile isNameChar)⟩

end KeyPath

namespace SettingValue

def items : SettingValue → List SettingValue
  | list vs => vs
  | _ => []

/-- The place of an item in a list with some number of items; negative numbers count from the end. -/
def itemPlace (index : Int) (length : Nat) : Nat :=
  if 0 ≤ index then index.toNat else ((length : Int) + index).toNat

/-- Puts a value at a place inside another, which becomes a table or a list for it. A table goes over a
field of a table field by field. -/
def setAt (target v : SettingValue) : List KeyStep → SettingValue
  | [] => v
  | [.field name] => (table target.fields).merge [(name, v)]
  | .field name :: steps =>
    let name := Text.lowercase name
    let inner := (target.fields.lookup name).getD .null
    .table (put target.fields name (setAt inner v steps))
  | .item index :: steps =>
    let place := itemPlace index target.items.length
    let padded := target.items ++ List.replicate (place + 1 - target.items.length) .null
    .list (padded.set place (setAt (padded.getD place .null) v steps))

end SettingValue

end MaterialScript
