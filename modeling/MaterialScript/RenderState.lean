/-!
# Values of the fixed render state

* `CullFace` : which faces are not drawn;
* `BlendFactor` : what a colour is multiplied with when it is blended;
* `Blend` : whether and how a pass blends;
* `keyword`, `ofKeyword?` : the words for them (`ofKeyword?_keyword`, `keyword_of_ofKeyword?`).
-/

namespace MaterialScript

/-- Which faces of a surface are left out. -/
inductive CullFace where
  | none
  | front
  | back
deriving DecidableEq, Repr

namespace CullFace

def keyword : CullFace → String
  | none => "None"
  | front => "Front"
  | back => "Back"

def all : List CullFace := [front, back, none]

def ofKeyword? (word : String) : Option CullFace := all.find? (fun face => face.keyword == word)

@[simp] theorem ofKeyword?_keyword (face : CullFace) : ofKeyword? face.keyword = some face := by
  cases face <;> decide

theorem keyword_of_ofKeyword? {word : String} {face : CullFace}
    (h : ofKeyword? word = some face) : face.keyword = word := by
  simpa using List.find?_some h

end CullFace

/-- What the source or destination colour is multiplied with. -/
inductive BlendFactor where
  | zero
  | one
  | srcColor
  | srcAlpha
  | srcAlphaSaturate
  | dstColor
  | dstAlpha
  | oneMinusSrcColor
  | oneMinusSrcAlpha
  | oneMinusDstColor
  | oneMinusDstAlpha
deriving DecidableEq, Repr

namespace BlendFactor

def keyword : BlendFactor → String
  | zero => "Zero"
  | one => "One"
  | srcColor => "SrcColor"
  | srcAlpha => "SrcAlpha"
  | srcAlphaSaturate => "SrcAlphaSaturate"
  | dstColor => "DstColor"
  | dstAlpha => "DstAlpha"
  | oneMinusSrcColor => "OneMinusSrcColor"
  | oneMinusSrcAlpha => "OneMinusSrcAlpha"
  | oneMinusDstColor => "OneMinusDstColor"
  | oneMinusDstAlpha => "OneMinusDstAlpha"

def all : List BlendFactor :=
  [zero, one, srcColor, srcAlpha, srcAlphaSaturate, dstColor, dstAlpha, oneMinusSrcColor,
    oneMinusSrcAlpha, oneMinusDstColor, oneMinusDstAlpha]

def ofKeyword? (word : String) : Option BlendFactor :=
  all.find? (fun factor => factor.keyword == word)

@[simp] theorem ofKeyword?_keyword (factor : BlendFactor) :
    ofKeyword? factor.keyword = some factor := by
  cases factor <;> decide

theorem keyword_of_ofKeyword? {word : String} {factor : BlendFactor}
    (h : ofKeyword? word = some factor) : factor.keyword = word := by
  simpa using List.find?_some h

end BlendFactor

/-- Blending of a pass with what is already drawn. The factors count only while it is enabled. -/
structure Blend where
  enabled : Bool
  src : BlendFactor
  dst : BlendFactor
deriving DecidableEq, Repr

namespace Blend

/-- Blending with the given factors. -/
def factors (src dst : BlendFactor) : Blend := ⟨true, src, dst⟩

def disabled : Blend := ⟨false, .srcAlpha, .oneMinusSrcAlpha⟩

/-- The words for a blending state. -/
def display (b : Blend) : String :=
  if b.enabled then b.src.keyword ++ ", " ++ b.dst.keyword else "Disabled"

end Blend

def switchWord (on : Bool) : String := if on then "On" else "Off"

end MaterialScript
