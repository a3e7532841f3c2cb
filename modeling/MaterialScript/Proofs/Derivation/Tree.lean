import MaterialScript.Grammar.Document

/-!
# Derivation trees of the document grammar

A tree has one constructor for each production of the grammar, and at its leaves the spans of the
lexemes it derives.

* `Located`, `Numeral`, `Introducer` : the leaves;
* `BlendTree`, `OptionTree`, `ValueTree`, `UniformTree` : statements and their values;
* `Item`, `ScopeTree` : what a scope may hold, and scopes; passes hold no scopes (`PassTree`),
  techniques hold passes (`TechniqueTree`), documents hold techniques (`DocumentTree`);
* `lexemes` : what a tree derives, from left to right;
* `firings` : what a tree fires, from left to right: the literals of a statement before the
  composite that uses them up, the body of a scope between its begin and its end.
-/

namespace MaterialScript.Grammar

/-! ## Leaves -/

/-- A value and the bytes it is written in. -/
structure Located (α : Type) where
  value : α
  span : Span
deriving DecidableEq, Repr

def Located.lexeme {α : Type} (token : α → Token) (x : Located α) : Lexeme :=
  ⟨token x.value, x.span⟩

def Located.firing {α : Type} (action : α → Action) (x : Located α) : Firing :=
  ⟨action x.value, x.span⟩

/-- The text of a number, and the 32-bit float that it stands for. -/
structure Numeral where
  text : String
  value : Binary32
  decodes : Binary32.decode? text = some value

def Numeral.token (n : Numeral) : Token := .number n.text

def Numeral.action (n : Numeral) : Action := .float n.value

def faceToken (face : CullFace) : Token := .ident face.keyword

def factorToken (factor : BlendFactor) : Token := .ident factor.keyword

def switchToken (on : Bool) : Token := .ident (switchWord on)

/-- The word of an option, and the colon that may follow it. -/
structure Introducer where
  word : Span
  colon : Option Span
deriving DecidableEq, Repr

def Introducer.lexemes (keyword : String) (i : Introducer) : List Lexeme :=
  ⟨.ident keyword, i.word⟩ :: (i.colon.map (Lexeme.mk .colon)).toList

/-! ## Options -/

inductive BlendTree where
  | disabled (off : Span)
  | factors (src : Located BlendFactor) (comma : Span) (dst : Located BlendFactor)

namespace BlendTree

def lexemes : BlendTree → List Lexeme
  | disabled off => [⟨.ident "Disabled", off⟩]
  | factors src comma dst => [src.lexeme factorToken, ⟨.comma, comma⟩, dst.lexeme factorToken]

def literals : BlendTree → List Firing
  | disabled _ => []
  | factors src _ dst => [src.firing .blendFactor, dst.firing .blendFactor]

def enabled : BlendTree → Bool
  | disabled _ => false
  | factors .. => true

def stop : BlendTree → Span
  | disabled off => off
  | factors _ _ dst => dst.span

end BlendTree

inductive OptionTree where
  | cullFace (head : Introducer) (face : Located CullFace)
  | blend (head : Introducer) (value : BlendTree)
  | depthTest (head : Introducer) (on : Located Bool)
  | depthWrite (head : Introducer) (on : Located Bool)
  | shader (head : Introducer) (path : Located String)

namespace OptionTree

def lexemes : OptionTree → List Lexeme
  | cullFace head face => head.lexemes "CullFace" ++ [face.lexeme faceToken]
  | blend head value => head.lexemes "BlendFunc" ++ value.lexemes
  | depthTest head on => head.lexemes "DepthTest" ++ [on.lexeme switchToken]
  | depthWrite head on => head.lexemes "DepthWrite" ++ [on.lexeme switchToken]
  | shader head path => head.lexemes "Shader" ++ [path.lexeme .str]

/-- What an option fires. A shader has the span of its string literal, any other option that of the
whole statement. -/
def firings : OptionTree → List Firing
  | cullFace head face => [⟨.cullFaceOption face.value, head.word.through face.span⟩]
  | blend head value =>
    value.literals ++ [⟨.blendOption value.enabled, head.word.through value.stop⟩]
  | depthTest head on => [on.firing .bool, ⟨.depthTestOption, head.word.through on.span⟩]
  | depthWrite head on => [on.firing .bool, ⟨.depthWriteOption, head.word.through on.span⟩]
  | shader _ path => [path.firing .string, ⟨.shaderOption, path.span⟩]

end OptionTree

/-! ## Uniforms -/

/-- The derivations of the value of a uniform. The components of a vector have the commas between
them. -/
inductive ValueTree where
  | scalar (x : Located Numeral)
  | vec2 (left : Span) (x : Located Numeral) (comma : Span) (y : Located Numeral) (right : Span)
  | vec3 (left : Span) (x : Located Numeral) (comma : Span) (y : Located Numeral) (comma' : Span)
      (z : Located Numeral) (right : Span)
  | vec4 (left : Span) (x : Located Numeral) (comma : Span) (y : Located Numeral) (comma' : Span)
      (z : Located Numeral) (comma'' : Span) (w : Located Numeral) (right : Span)
  | texture (path : Located String)

namespace ValueTree

def lexemes : ValueTree → List Lexeme
  | scalar x => [x.lexeme Numeral.token]
  | vec2 left x comma y right =>
    [⟨.leftParen, left⟩, x.lexeme Numeral.token, ⟨.comma, comma⟩, y.lexeme Numeral.token,
      ⟨.rightParen, right⟩]
  | vec3 left x comma y comma' z right =>
    [⟨.leftParen, left⟩, x.lexeme Numeral.token, ⟨.comma, comma⟩, y.lexeme Numeral.token,
      ⟨.comma, comma'⟩, z.lexeme Numeral.token, ⟨.rightParen, right⟩]
  | vec4 left x comma y comma' z comma'' w right =>
    [⟨.leftParen, left⟩, x.lexeme Numeral.token, ⟨.comma, comma⟩, y.lexeme Numeral.token,
      ⟨.comma, comma'⟩, z.lexeme Numeral.token, ⟨.comma, comma''⟩, w.lexeme Numeral.token,
      ⟨.rightParen, right⟩]
  | texture path => [path.lexeme .str]

def span : ValueTree → Span
  | scalar x => x.span
  | vec2 left _ _ _ right => left.through right
  | vec3 left _ _ _ _ _ right => left.through right
  | vec4 left _ _ _ _ _ _ _ right => left.through right
  | texture path => path.span

/-- What a value fires: its literals, then the value. -/
def firings : ValueTree → List Firing
  | scalar x => [x.firing Numeral.action, ⟨.uniformFloat, x.span⟩]
  | vec2 left x _ y right =>
    [x.firing Numeral.action, y.firing Numeral.action, ⟨.uniformVec2, left.through right⟩]
  | vec3 left x _ y _ z right =>
    [x.firing Numeral.action, y.firing Numeral.action, z.firing Numeral.action,
      ⟨.uniformVec3, left.through right⟩]
  | vec4 left x _ y _ z _ w right =>
    [x.firing Numeral.action, y.firing Numeral.action, z.firing Numeral.action,
      w.firing Numeral.action, ⟨.uniformVec4, left.through right⟩]
  | texture path => [path.firing .string, ⟨.uniformTexture, path.span⟩]

end ValueTree

structure UniformTree where
  word : Span
  name : Located String
  value : ValueTree

namespace UniformTree

def lexemes (u : UniformTree) : List Lexeme :=
  ⟨.ident "SetUniform", u.word⟩ :: u.name.lexeme .ident :: u.value.lexemes

/-- What a uniform fires: its name, its value, then the uniform. -/
def firings (u : UniformTree) : List Firing :=
  u.name.firing .identifier :: u.value.firings ++ [⟨.uniform, u.word.through u.value.span⟩]

end UniformTree

/-! ## Scopes -/

/-- What stands in a scope: a statement, or a scope of the kind `N` that may be nested there. -/
inductive Item (N : Type) where
  | option (o : OptionTree)
  | uniform (u : UniformTree)
  | nested (n : N)

/-- A scope: a word, an optional name, and items between braces. -/
structure ScopeTree (N : Type) where
  word : Span
  name : Option (Located String)
  left : Span
  body : List (Item N)
  right : Span

section Scopes
variable {N : Type}

/-- The lexemes of an item, given those of nested scopes. -/
def Item.lexemes (inner : N → List Lexeme) : Item N → List Lexeme
  | option o => o.lexemes
  | uniform u => u.lexemes
  | nested n => inner n

/-- What an item fires, given what nested scopes fire. -/
def Item.firings (inner : N → List Firing) : Item N → List Firing
  | option o => o.firings
  | uniform u => u.firings
  | nested n => inner n

def ScopeTree.lexemes (keyword : String) (inner : N → List Lexeme) (t : ScopeTree N) :
    List Lexeme :=
  ⟨.ident keyword, t.word⟩ :: (t.name.map (Located.lexeme .ident)).toList
    ++ ⟨.leftBrace, t.left⟩ :: t.body.flatMap (Item.lexemes inner) ++ [⟨.rightBrace, t.right⟩]

/-- What a scope fires: its begin, its items in order, its end. -/
def ScopeTree.firings (opening : Option String → Action) (closing : Action)
    (inner : N → List Firing) (t : ScopeTree N) : List Firing :=
  ⟨opening (t.name.map Located.value), t.word.through t.left⟩
    :: t.body.flatMap (Item.firings inner) ++ [⟨closing, t.right⟩]

end Scopes

abbrev PassTree := ScopeTree Empty

/-- The derivations of a technique, which holds passes. -/
abbrev TechniqueTree := ScopeTree PassTree

/-- The derivations of a document, which holds techniques. -/
structure DocumentTree where
  items : List (Item TechniqueTree)

def PassTree.lexemes : PassTree → List Lexeme := ScopeTree.lexemes "pass" Empty.elim

def PassTree.firings : PassTree → List Firing :=
  ScopeTree.firings .passBegin .passEnd Empty.elim

def TechniqueTree.lexemes : TechniqueTree → List Lexeme :=
  ScopeTree.lexemes "technique" PassTree.lexemes

def TechniqueTree.firings : TechniqueTree → List Firing :=
  ScopeTree.firings .techniqueBegin .techniqueEnd PassTree.firings

def DocumentTree.lexemes (d : DocumentTree) : List Lexeme :=
  d.items.flatMap (Item.lexemes TechniqueTree.lexemes)

def DocumentTree.firings (d : DocumentTree) : List Firing :=
  d.items.flatMap (Item.firings TechniqueTree.firings)

end MaterialScript.Grammar
