import MaterialScript.Settings.Scalar
import MaterialScript.Settings.Cursor
import MaterialScript.Text.Letters

/-!
# From a settings text to tokens

A field name shows as one only at the colon after it, so a token that can start a name is remembered as
a candidate, and the marks of a name are put in front of it once the colon is met. Indentation opens and
closes levels; between brackets it only has to be kept.

* `Slot` : a token with the marks in front of it; `Candidate` : a token that can start a field name;
  `Level` : an indentation that has been opened;
* `Scanner` : what has been read, and what may follow; `Scanner.fetch` : reads one token;
* `tokens?` : the tokens of a text.
-/

namespace MaterialScript.SettingsText

/-- A token, with marks that were put in front of it. -/
structure Slot where
  marks : List Token := []
  token : Token
  /-- The column where the token starts. -/
  column : Nat
deriving DecidableEq, Repr

/-- A token that can start a field name. -/
structure Candidate where
  possible : Bool := false
  /-- Whether nothing but a field name can stand here. -/
  required : Bool := false
  /-- The place of the token. -/
  slot : Nat := 0
  start : Cursor := { rest := [] }
deriving DecidableEq, Repr

/-- An open indentation: the one around it, and whether it belongs to a list or table or only holds the
value of a field or item. -/
structure Level where
  outer : Int
  isBlock : Bool
deriving DecidableEq, Repr

/-- What has been read, and what may follow. -/
structure Scanner where
  cursor : Cursor
  slots : Array Slot := #[]
  /-- Whether a field name can start here. -/
  nameAllowed : Bool := true
  /-- The candidates, one for each open bracket and one outside them, the innermost first. -/
  candidates : List Candidate := [{}]
  /-- The indentation of the innermost level. -/
  indent : Int := -1
  levels : List Level := []
  /-- The number of open brackets. -/
  depth : Nat := 0
  /-- Whether a table between braces has been started. -/
  inTable : Bool := false
  /-- Whether a table without braces is open inside brackets. -/
  impliedTable : Bool := false
  /-- Where a value may follow its colon without a blank. -/
  adjacentAt : Nat := 0
  /-- Whether the end has been met. -/
  ended : Bool := false

/-- Reading that changes the state of a scanner, or fails. -/
abbrev Scan := StateT Scanner Option

namespace Scanner

def inFlow (s : Scanner) : Bool := s.depth != 0

/-! ## Small steps -/

def push (column : Nat) (token : Token) : Scan Unit :=
  modify fun s => { s with slots := s.slots.push { token, column } }

/-- Puts a mark in front of a token and the marks that it has. -/
def putMark (place : Nat) (mark : Token) : Scan Unit :=
  modify fun s => { s with slots := s.slots.modify place fun t => { t with marks := mark :: t.marks } }

/-- Puts a mark in front of a token, or adds one at the end. -/
def putOrPush (place : Option Nat) (column : Nat) (mark : Token) : Scan Unit :=
  match place with
  | some n => putMark n mark
  | none => push column mark

def goto (c : Cursor) : Scan Unit := modify fun s => { s with cursor := c }

/-- Says whether a field name can start. -/
def allowName (allowed : Bool) : Scan Unit := modify fun s => { s with nameAllowed := allowed }

/-- Goes over blanks and a comment. -/
def skipSpacing : Scan Spacing := do
  let (spacing, c) ← (← get).cursor.skipSpacing?
  goto c
  return spacing

/-! ## Levels -/

/-- Closes the levels that are indented further than a column. -/
def closeLevels (column : Int) : Nat → Scan Unit
  | 0 => pure ()
  | fuel + 1 => do
    let s ← get
    if s.inFlow || decide (s.indent ≤ column) then return
    match s.levels with
    | [] => return
    | level :: levels =>
      set { s with indent := level.outer, levels }
      if level.isBlock then push s.cursor.column .levelEnd
      closeLevels column fuel

/-- Closes all levels that are indented further than a column. -/
def unroll (column : Int) : Scan Unit := do closeLevels column (← get).levels.length

/-- Closes the innermost levels that belong to no list or table. -/
def unrollLoose : Scan Unit := modify fun s =>
  let loose := s.levels.takeWhile (fun l => !l.isBlock)
  { s with
    indent := (loose.getLast?.map Level.outer).getD s.indent
    levels := s.levels.drop loose.length }

/-- Opens a level for a list or table at a column, unless it is open; its mark goes in front of a token
or to the end. -/
def roll (column : Nat) (place : Option Nat) (mark : Token) : Scan Unit := do
  let s ← get
  if s.inFlow then return
  let s := match s.levels with
    | level :: levels =>
      if s.indent ≤ (column : Int) && !level.isBlock then { s with indent := level.outer, levels } else s
    | [] => s
  set s
  if s.indent < (column : Int) then
    set { s with indent := (column : Int), levels := ⟨s.indent, true⟩ :: s.levels }
    putOrPush place column mark

def rollLoose : Scan Unit := modify fun s =>
  if !s.inFlow && (s.levels.head?.map Level.isBlock).getD false then
    { s with indent := s.indent + 1, levels := ⟨s.indent, false⟩ :: s.levels }
  else s

/-! ## Candidates -/

/-- Remembers the token that starts here as a candidate. -/
def saveCandidate : Scan Unit := modify fun s =>
  if s.nameAllowed then
    let required := !s.inFlow && s.indent == (s.cursor.column : Int)
      && (s.levels.head?.map Level.isBlock).getD false
    let candidate : Candidate := { possible := true, required, slot := s.slots.size, start := s.cursor }
    { s with candidates := candidate :: s.candidates.tail }
  else s

/-- Gives up the innermost candidate, which fails if it had to be a name. -/
def dropCandidate : Scan Unit := do
  let s ← get
  match s.candidates with
  | candidate :: candidates =>
    if candidate.possible && candidate.required then failure
    set { s with candidates := { candidate with possible := false } :: candidates }
  | [] => failure

/-- Gives up the candidates of which some condition holds, which fails if one had to be a name. -/
def dropCandidates (stale : Candidate → Bool) : Scan Unit := do
  let s ← get
  if s.candidates.any (fun k => k.possible && stale k && k.required) then failure
  set { s with
    candidates := s.candidates.map fun k => if stale k then { k with possible := false } else k }

/-- The longest field name, in characters. -/
def longestName : Nat := 1024

/-- Gives up the candidates whose name would be over several lines or too long. -/
def dropStale : Scan Unit := do
  let s ← get
  if !s.inFlow then
    dropCandidates fun k =>
      k.start.line < s.cursor.line || k.start.index + longestName < s.cursor.index

/-! ## Blanks -/

/-- Goes to the next token. Where an indentation is expected, a tab may stand on an empty line only. -/
def skipToToken : Nat → Scan Unit
  | 0 => failure
  | fuel + 1 => do
    let s ← get
    let c := s.cursor
    match c.breakLine? with
    | some c =>
      goto c
      if !s.inFlow then allowName true
      skipToToken fuel
    | none =>
      match c.head? with
      | some '\t' =>
        if !s.levels.isEmpty && c.fresh && decide ((c.column : Int) < s.indent) then
          let _ ← skipSpacing
          if !endsLine (← get).cursor.head? then failure
        else goto (c.skip 1)
        skipToToken fuel
      | some ' ' =>
        goto (c.skip 1)
        skipToToken fuel
      | some '#' =>
        goto c.skipComment
        skipToToken fuel
      | _ => return

def skipBlanks : Scan Unit := do skipToToken ((← get).cursor.rest.length + 1)

def skipLines : Nat → Bool → Scan Bool
  | 0, _ => failure
  | fuel + 1, met => do
    let s ← get
    let c := s.cursor
    match c.breakLine? with
    | some c =>
      goto c
      if !s.inFlow then allowName true
      skipLines fuel true
    | none =>
      match c.head? with
      | some ' ' =>
        goto (c.skip 1)
        skipLines fuel true
      | some '#' =>
        goto c.skipComment
        skipLines fuel met
      | _ => return met

/-! ## Directives and marks between documents -/

/-- Digits of a version, at most nine. -/
def versionNumber : Scan Unit := do
  let (digits, c) := (← get).cursor.takeWhile Char.isDigit
  if digits.isEmpty || 9 < digits.length then failure
  goto c

/-- The handle of a tag. In a directive it is a single mark or ends with one. -/
def tagHandle (directive : Bool) : Scan String := do
  let c := (← get).cursor
  if c.head? ≠ some '!' then failure
  let (name, after) := (c.take 1).takeWhile isWordChar
  if after.head? = some '!' then
    goto (after.take 1)
    return String.ofList ('!' :: name ++ ['!'])
  else
    if directive && !name.isEmpty then failure
    goto after
    return String.ofList ('!' :: name)

def isNameChar (c : Char) : Bool :=
  c.isAlphanum || c == '-' || "#;/?:@&=+$,_.!~*'()[]%".toList.contains c

def isSuffixChar (c : Char) : Bool := isNameChar c && !isFlowMark c && c != '!'

/-- The bytes after percent signs that make up one character, packed into a number. -/
def packedBytes? : Nat → Nat → List Char → Option (Nat × Nat)
  | 0, code, _ => some (code, 0)
  | left + 1, code, '%' :: a :: b :: rest => do
    let byte ← Number.natural? 16 [a, b]
    if byte / 64 = 2 then
      let (code, used) ← packedBytes? left (code * 256 + byte) rest
      return (code, used + 3)
    else none
  | _, _, _ => none

/-- The character that percent signs with bytes stand for, and how many characters they take. -/
def percentChar? : List Char → Option (Char × Nat)
  | '%' :: a :: b :: rest => do
    let byte ← Number.natural? 16 [a, b]
    let left ← if byte < 128 then some 0 else if byte / 32 = 6 then some 1
      else if byte / 16 = 14 then some 2 else if byte / 8 = 30 then some 3 else none
    let (code, used) ← packedBytes? left byte rest
    return (← charOf? code, used + 3)
  | _ => none

/-- A name of characters of a kind, some of them written with percent signs. -/
def percentText (p : Char → Bool) : Nat → Scan (List Char)
  | 0 => failure
  | fuel + 1 => do
    let c := (← get).cursor
    match c.head? with
    | some ch =>
      if !p ch then return []
      let (char, used) ← if ch = '%' then percentChar? c.rest else some (ch, 1)
      goto (c.take used)
      return char :: (← percentText p fuel)
    | none => return []

def nameText (p : Char → Bool) : Scan String := do
  return String.ofList (← percentText p ((← get).cursor.rest.length + 1))

def skipInner : Scan Unit := modify fun s =>
  { s with cursor := s.cursor.skip (s.cursor.rest.takeWhile isBlank).length }

/-- A directive, up to the end of its line. Unknown ones are passed over. -/
def directive : Scan Unit := do
  unroll (-1)
  dropCandidate
  allowName false
  let (name, c) := ((← get).cursor.take 1).takeWhile isWordChar
  if name.isEmpty || !separates c.head? then failure
  goto c
  match String.ofList name with
  | "YAML" =>
    skipInner
    versionNumber
    if (← get).cursor.head? ≠ some '.' then failure
    goto ((← get).cursor.take 1)
    versionNumber
    push 0 .version
  | "TAG" =>
    skipInner
    let handle ← tagHandle true
    skipInner
    let name ← nameText isNameChar
    if !separates (← get).cursor.head? then failure
    push 0 (.tagNames handle name)
  | _ =>
    goto c.skipComment
    push 0 (.tagNames "" "")
  let _ ← skipSpacing
  let c := (← get).cursor
  if !endsLine c.head? then failure
  goto (c.breakLine?.getD c)

def documentMark (mark : Token) : Scan Unit := do
  unroll (-1)
  dropCandidate
  allowName false
  let c := (← get).cursor
  goto (c.take 3)
  push c.column mark

def finish : Scan Unit := do
  dropCandidates fun _ => true
  unroll (-1)
  modify fun s => { s with ended := true }

/-! ## Brackets and commas -/

/-- The number of brackets that can be open. -/
def deepest : Nat := 255

def openFlow (mark : Token) : Scan Unit := do
  saveCandidate
  rollLoose
  let s ← get
  if s.depth = deepest then failure
  set { s with
    depth := s.depth + 1
    candidates := {} :: s.candidates
    nameAllowed := true
    cursor := s.cursor.take 1
    inTable := s.inTable || mark == Token.openBrace }
  let _ ← skipSpacing
  push s.cursor.column mark

def endImplied : Scan Unit := do
  let s ← get
  if s.impliedTable then
    set { s with impliedTable := false, inTable := false }
    push s.cursor.column .closeBrace

def closeFlow (mark : Token) : Scan Unit := do
  dropCandidate
  modify fun s =>
    if s.inFlow then { s with depth := s.depth - 1, candidates := s.candidates.tail } else s
  allowName false
  endImplied
  let c := (← get).cursor
  goto (c.take 1)
  let _ ← skipSpacing
  modify fun s => if s.inFlow then { s with adjacentAt := s.cursor.index } else s
  push c.column mark

def comma : Scan Unit := do
  dropCandidate
  allowName true
  endImplied
  let c := (← get).cursor
  goto (c.take 1)
  let _ ← skipSpacing
  push c.column .comma

/-! ## Items and fields -/

def item : Scan Unit := do
  let s ← get
  let c := s.cursor
  if s.inFlow || !s.nameAllowed then failure
  match s.slots.back? with
  | some { token := .anchor _, column := 0, .. } | some { token := .tag .., column := 0, .. } =>
    if c.column = 0 && decide (-1 < s.indent) then failure
  | _ => pure ()
  goto (c.take 1)
  roll c.column none .listStart
  let spacing ← skipSpacing
  let next := (← get).cursor
  if spacing.tabs && next.head? == some '-' && separates (next.peek? 1) then failure
  if (next.head?.map fun ch => isBreak ch || isFlowMark ch).getD false then rollLoose
  dropCandidate
  allowName true
  push next.column .item

/-- The mark of a field name that is no single token. -/
def longName : Scan Unit := do
  let s ← get
  let c := s.cursor
  if s.inFlow then set { s with inTable := true }
  else
    if !s.nameAllowed then failure
    roll c.column none .tableStart
  dropCandidate
  allowName !s.inFlow
  goto (c.take 1)
  if !(← skipLines (c.rest.length + 1) false) then failure
  if (← get).cursor.head? = some '\t' then failure
  push c.column .key

/-- The colon of a field. The candidate before it becomes the name of the field. -/
def colon : Scan Unit := do
  let s ← get
  let c := s.cursor
  let implied := s.inFlow && !s.inTable
  set { s with impliedTable := implied, cursor := c.take 1 }
  if (c.peek? 1) = some '\t' then
    let spacing ← skipSpacing
    let next := (← get).cursor.head?
    if !spacing.blanks && (next == some '-' || (next.map Text.isAlphanumeric).getD false) then failure
  match s.candidates with
  | [] => failure
  | candidate :: candidates =>
    if candidate.possible then
      putMark candidate.slot .key
      if implied then
        if candidate.start.line < c.line then failure
        putMark candidate.slot .openBrace
      roll candidate.start.column (some candidate.slot) .tableStart
      rollLoose
      modify fun s => { s with candidates := { candidate with possible := false } :: candidates }
      allowName false
    else
      if implied then push c.column .openBrace
      if !s.inFlow then
        if !s.nameAllowed then failure
        roll c.column none .tableStart
      rollLoose
      allowName !s.inFlow
  push c.column .value

/-! ## Anchors and tags -/

/-- Whether a character can stand in the name of an anchor. -/
def isAnchorChar (c : Char) : Bool :=
  !isBlank c && !isBreak c && !isFlowMark c && c != '\uFEFF'

def anchor (token : String → Token) : Scan Unit := do
  saveCandidate
  allowName false
  let start := (← get).cursor
  let (name, c) := (start.take 1).takeWhile isAnchorChar
  if name.isEmpty then failure
  goto c
  push start.column (token (String.ofList name))

def verbatimTag : Scan String := do
  goto ((← get).cursor.take 2)
  let name ← nameText isNameChar
  if (← get).cursor.head? ≠ some '>' then failure
  goto ((← get).cursor.take 1)
  return name

def tag : Scan Unit := do
  saveCandidate
  allowName false
  let start := (← get).cursor
  if start.peek? 1 = some '<' then
    let name ← verbatimTag
    push start.column (.tag "" name)
  else
    let handle ← tagHandle false
    if 2 ≤ handle.length && handle.toList.getLast? == some '!' then
      let suffix ← nameText isSuffixChar
      if suffix = "" then failure
      push start.column (.tag handle suffix)
    else
      let suffix := String.ofList (handle.toList.drop 1) ++ (← nameText isSuffixChar)
      push start.column (if suffix = "" then .tag "" "!" else .tag "!" suffix)
  let s ← get
  let next := s.cursor.head?
  if !(separates next || (s.inFlow && (next.map isFlowMark).getD false)) then failure

/-! ## Texts -/

def quotedText : Scan Unit := do
  saveCandidate
  allowName false
  let s ← get
  let (content, c) ← quoted? s.inFlow s.indent s.cursor
  goto c
  skipBlanks
  modify fun s => { s with adjacentAt := s.cursor.index }
  push s.cursor.column (.scalar false (String.ofList content))

def plainText : Scan Unit := do
  saveCandidate
  allowName false
  unrollLoose
  let s ← get
  let (content, broken, c) ← plain? s.inFlow (s.indent + 1) s.cursor
  goto c
  if broken then allowName true
  push s.cursor.column (.scalar true (String.ofList content))

def blockText (literal : Bool) : Scan Unit := do
  saveCandidate
  allowName true
  unrollLoose
  let s ← get
  let (content, c) ← block? literal s.indent s.cursor
  goto c
  push s.cursor.column (.scalar false (String.ofList content))

/-! ## All tokens -/

/-- The token that starts with a character, which is not the end of the text. -/
def token (ch : Char) : Scan Unit := do
  let s ← get
  let next := s.cursor.peek? 1
  let alone := separates next
  match ch with
  | '[' => openFlow .openBracket
  | '{' => openFlow .openBrace
  | ']' => closeFlow .closeBracket
  | '}' => closeFlow .closeBrace
  | ',' => comma
  | '*' => anchor .alias
  | '&' => anchor .anchor
  | '!' => tag
  | '\'' | '"' => quotedText
  | '%' | '@' | '\x60' => failure
  | '|' => if s.inFlow then plainText else blockText true
  | '>' => if s.inFlow then plainText else blockText false
  | '-' => if alone then item else plainText
  | '?' => if alone then longName else plainText
  | ':' =>
    if alone || (s.inFlow && ((next.map isFlowMark).getD false || s.cursor.index == s.adjacentAt)) then
      colon
    else plainText
  | _ => plainText

def fetch : Scan Unit := do
  skipBlanks
  dropStale
  unroll (← get).cursor.column
  let s ← get
  let c := s.cursor
  match c.head? with
  | none => finish
  | some ch =>
    if c.column = 0 && ch == '%' then directive
    else if c.column = 0 && c.isMark '-' then documentMark .documentStart
    else if c.column = 0 && c.isMark '.' then
      documentMark .documentEnd
      let _ ← skipSpacing
      if !endsLine (← get).cursor.head? then failure
    else if (c.column : Int) < s.indent then failure
    else token ch

def fetchAll : Nat → Scan Unit
  | 0 => failure
  | fuel + 1 => do
    fetch
    if !(← get).ended then fetchAll fuel

end Scanner

/-- The tokens of a text. Each of them takes a character at least. -/
def tokens? (text : String) : Option (List Token) := do
  let c := Cursor.ofText text
  let (_, s) ← (Scanner.fetchAll (c.rest.length + 2)).run { cursor := c }
  return s.slots.toList.flatMap fun slot => slot.marks ++ [slot.token]

end MaterialScript.SettingsText
