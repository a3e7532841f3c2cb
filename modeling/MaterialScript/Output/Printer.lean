import MaterialScript.Output.Yaml
import MaterialScript.Settings.Basic

/-!
# Printing documents

An outline shows a document as a tree, one line for each node, with connectors drawn in front. In JSON
each item of a list and each field of a record has a line of its own, indented by two blanks for each
level. A value with a tag is a record with the tag as its only field.

* `Outline` : a label with the outlines below it; `Outline.lines`, `Outline.childLines` : its lines;
* `Document.outline` : the nodes below a document; `Document.treeviz` : the text of its outline;
* `Json.string` : a quoted text; `Json.number` : a float;
* `Json.value` : the text of data; `Document.json` : the text of a document;
* `Document.print` : the text of a document in a format.
-/

namespace MaterialScript

/-! ## Outlines -/

/-- A label with the outlines below it. -/
inductive Outline where
  | node (label : String) (children : List Outline)

namespace Outline

/-- The connector in front of a label; the last node of a level has one of its own. -/
def connector (last : Bool) : String := if last then "└─" else "├─"

/-- What stands below a connector in the lines of the nodes below. -/
def continuation (last : Bool) : String := if last then "  " else "│ "

mutual

/-- The lines of a node whose level starts with `pad`. -/
def lines (pad : String) (last : Bool) : Outline → List String
  | .node label children =>
    (pad ++ connector last ++ " " ++ label) :: childLines (pad ++ continuation last) children

/-- The lines of the nodes of one level. -/
def childLines (pad : String) : List Outline → List String
  | [] => []
  | t :: ts => lines pad ts.isEmpty t ++ childLines pad ts

end

end Outline

def Layer.outline (l : Layer) : List Outline :=
  l.options.map (fun o => .node ("⚙ " ++ o.display) [])
    ++ l.uniforms.map (fun u => .node ("≡ SetUniform " ++ u.name ++ ": " ++ u.value.display) [])

def Pass.outline (p : Pass) : Outline := .node ("▭ pass: " ++ nameLabel p.name) p.layer.outline

def Technique.outline (t : Technique) : Outline :=
  .node ("◆ technique: " ++ nameLabel t.name) (t.layer.outline ++ t.passes.map Pass.outline)

def Document.outline (d : Document) : List Outline :=
  d.layer.outline ++ d.techniques.map Technique.outline

/-- The outline of a document, each line ended. -/
def Document.treeviz (d : Document) : String :=
  String.join (("⧉ document" :: Outline.childLines "" d.outline).map (· ++ "\n"))

/-! ## JSON -/

namespace Json

def hexPair (n : Nat) : List Char := [Nat.digitChar (n / 16), Nat.digitChar (n % 16)]

/-- A character as it is written between quotes. -/
def escape (c : Char) : List Char :=
  if c = '"' then ['\\', '"']
  else if c = '\\' then ['\\', '\\']
  else if c = '\x08' then ['\\', 'b']
  else if c = '\x0c' then ['\\', 'f']
  else if c = '\n' then ['\\', 'n']
  else if c = '\r' then ['\\', 'r']
  else if c = '\t' then ['\\', 't']
  else if c.toNat < 0x20 then ['\\', 'u', '0', '0'] ++ hexPair c.toNat
  else [c]

def string (s : String) : String := String.ofList ('"' :: s.toList.flatMap escape ++ ['"'])

/-- Floats have a plus sign in front of an exponent that is not negative. -/
def floatStyle : Number.ScaledStyle := ⟨"+"⟩

/-- A float; what is not finite has no number. -/
def number (x : Binary32) : String := if x.isFinite then x.scaledText floatStyle else "null"

def lineStart (level : Nat) : String := "\n" ++ String.ofList (List.replicate (2 * level) ' ')

/-- Puts entries of a level between brackets. -/
def block (level : Nat) (left right : String) : List String → String
  | [] => left ++ right
  | entries =>
    left ++ lineStart (level + 1) ++ String.intercalate ("," ++ lineStart (level + 1)) entries
      ++ lineStart level ++ right

mutual

def value (level : Nat) : Data → String
  | .null => "null"
  | .bool b => if b then "true" else "false"
  | .nat n => toString n
  | .float x => number x
  | .text s => string s
  | .list items => block level "[" "]" (values (level + 1) items)
  | .record fields => block level "\x7b" "\x7d" (entries (level + 1) fields)
  | .variant tag v => block level "\x7b" "\x7d" [string tag ++ ": " ++ value (level + 1) v]

def values (level : Nat) : List Data → List String
  | [] => []
  | v :: vs => value level v :: values level vs

def entries (level : Nat) : List (String × Data) → List String
  | [] => []
  | (name, v) :: fields => (string name ++ ": " ++ value level v) :: entries level fields

end

end Json

def Document.json (d : Document) : String := Json.value 0 d.toData

/-! ## Formats -/

def Document.print (d : Document) : OutputFormat → String
  | .treeviz => d.treeviz
  | .json => d.json
  | .yaml => d.yaml

end MaterialScript
