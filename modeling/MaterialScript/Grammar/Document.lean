import MaterialScript.Action
import MaterialScript.Grammar.Rule

/-!
# The grammar of documents

```text
document      = (technique | option | uniform)* end
technique     = "technique" ident? "{" (pass | option | uniform)* "}"
pass          = "pass" ident? "{" (option | uniform)* "}"
option        = cullFace | blend | depthTest | depthWrite | shader
cullFace      = "CullFace" ":"? ("None" | "Front" | "Back")
blend         = "BlendFunc" ":"? ("Disabled" | factor "," factor)
depthTest     = "DepthTest" ":"? ("On" | "Off")
depthWrite    = "DepthWrite" ":"? ("On" | "Off")
shader        = "Shader" ":"? string
uniform       = "SetUniform" ident uniformValue
uniformValue  = "(" number ("," number)^1..3 ")" | number | string
```

Each rule yields the firings of its match, in the order of the text: literals before the composite
that uses them up, and the body of a scope between its begin and its end.

* `boolValue`, `floatValue`, `stringValue`, `blendFactorValue` : literals;
* `option`, `uniformValue`, `uniform`, `pass`, `technique`, `document` : the rules above;
* `parse` : the firings of a whole document.
-/

namespace MaterialScript.Grammar

/-! ## Words and punctuation -/

/-- A given punctuation token. -/
def punctuation (t : Token) : Rule Span := satisfy (· == t)

def keyword (word : String) : Rule Span := satisfy (·.isKeyword word)

/-- The colon that may stand between the word of an option and its value. -/
def separator : Rule Unit := do
  let _ ← optional (punctuation .colon)
  return ()

/-! ## Literals -/

def identifier : Rule (String × Span) :=
  classify fun l =>
    match l.token with
    | .ident text => .ok (text, l.span)
    | _ => .error .identifierExpected

/-- `On` or `Off`. -/
def boolValue : Rule Firing :=
  classify fun l =>
    if l.token = .ident "On" then .ok ⟨.bool true, l.span⟩
    else if l.token = .ident "Off" then .ok ⟨.bool false, l.span⟩
    else .error .switchExpected

/-- A number in the range of 32-bit floats. -/
def floatValue : Rule Firing :=
  classify fun l =>
    match l.token with
    | .number text =>
      match Binary32.decode? text with
      | some x => .ok ⟨.float x, l.span⟩
      | none => .error .numberOutOfRange
    | _ => .error .numberExpected

def stringValue : Rule Firing :=
  classify fun l =>
    match l.token with
    | .str content => .ok ⟨.string content, l.span⟩
    | _ => .error .stringExpected

def cullFaceValue : Rule (CullFace × Span) :=
  classify fun l =>
    match l.token with
    | .ident text =>
      match CullFace.ofKeyword? text with
      | some face => .ok (face, l.span)
      | none => .error .unknownCullFace
    | _ => .error .unknownCullFace

def blendFactorValue : Rule Firing :=
  classify fun l =>
    match l.token with
    | .ident text =>
      match BlendFactor.ofKeyword? text with
      | some factor => .ok ⟨.blendFactor factor, l.span⟩
      | none => .error .unknownBlendFactor
    | _ => .error .unknownBlendFactor

/-! ## Options -/

def cullFaceOption : Rule (List Firing) := do
  let start ← keyword "CullFace"
  separator
  let (face, stop) ← cullFaceValue
  return [⟨.cullFaceOption face, start.through stop⟩]

/-- The word for no blending; the value is what it fires before the option, whether blending is
enabled, and its span. -/
def blendDisabled : Rule (List Firing × Bool × Span) := do
  let stop ← keyword "Disabled"
  return ([], false, stop)

/-- A source and a destination factor, as in `blendDisabled`. -/
def blendFactors : Rule (List Firing × Bool × Span) := do
  let src ← blendFactorValue
  let _ ← punctuation .comma
  let dst ← blendFactorValue
  return ([src, dst], true, dst.span)

def blendOption : Rule (List Firing) := do
  let start ← keyword "BlendFunc"
  separator
  let (factors, enabled, stop) ← orElse blendDisabled blendFactors
  return factors ++ [⟨.blendOption enabled, start.through stop⟩]

def switchOption (word : String) (action : Action) : Rule (List Firing) := do
  let start ← keyword word
  separator
  let value ← boolValue
  return [value, ⟨action, start.through value.span⟩]

/-- A shader. The option has the span of the string literal, where its errors belong. -/
def shaderOption : Rule (List Firing) := do
  let _ ← keyword "Shader"
  separator
  let path ← stringValue
  return [path, ⟨.shaderOption, path.span⟩]

def option : Rule (List Firing) :=
  choice cullFaceOption
    [blendOption, switchOption "DepthTest" .depthTestOption,
      switchOption "DepthWrite" .depthWriteOption, shaderOption]

/-! ## Uniforms -/

/-- Numbers with commas between them, `n` more after the first. -/
def numbers : Nat → Rule (List Firing)
  | 0 => do
    let x ← floatValue
    return [x]
  | n + 1 => do
    let x ← floatValue
    let _ ← punctuation .comma
    let xs ← numbers n
    return x :: xs

/-- A vector in parentheses, with `n` components after the first. -/
def vectorValue (n : Nat) (action : Action) : Rule (List Firing) := do
  let left ← punctuation .leftParen
  let components ← numbers n
  let right ← punctuation .rightParen
  return components ++ [⟨action, left.through right⟩]

def scalarValue : Rule (List Firing) := do
  let x ← floatValue
  return [x, ⟨.uniformFloat, x.span⟩]

def textureValue : Rule (List Firing) := do
  let path ← stringValue
  return [path, ⟨.uniformTexture, path.span⟩]

/-- The value of a uniform; the longest vector is tried first. -/
def uniformValue : Rule (List Firing) :=
  choice (vectorValue 3 .uniformVec4)
    [vectorValue 2 .uniformVec3, vectorValue 1 .uniformVec2, scalarValue, textureValue]

/-- The span of the last firing, or a given one if there is none. -/
def lastSpan (firings : List Firing) (default : Span) : Span :=
  (firings.getLast?.map Firing.span).getD default

def uniform : Rule (List Firing) := do
  let start ← keyword "SetUniform"
  let (name, nameSpan) ← identifier
  let value ← uniformValue
  return ⟨.identifier name, nameSpan⟩ :: value
    ++ [⟨.uniform, start.through (lastSpan value nameSpan)⟩]

/-! ## Scopes -/

/-- A scope: a word, an optional name, and statements between braces. -/
def scope (word : String) (opening : Option String → Action) (statement : Rule (List Firing))
    (closing : Action) : Rule (List Firing) := do
  let start ← keyword word
  let name ← optional identifier
  let left ← punctuation .leftBrace
  let body ← many statement
  let right ← punctuation .rightBrace
  return ⟨opening (name.map Prod.fst), start.through left⟩ :: body.flatten ++ [⟨closing, right⟩]

def pass : Rule (List Firing) :=
  scope "pass" .passBegin (orElse option uniform) .passEnd

def technique : Rule (List Firing) :=
  scope "technique" .techniqueBegin (choice pass [option, uniform]) .techniqueEnd

def document : Rule (List Firing) := do
  let statements ← many (choice technique [option, uniform])
  finish
  return statements.flatten

/-- The firings of a whole document, or the failure that got furthest. -/
def parse (ls : List Lexeme) : Except Failure (List Firing) := document.run ls

end MaterialScript.Grammar
