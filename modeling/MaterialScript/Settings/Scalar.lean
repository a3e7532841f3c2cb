import MaterialScript.Number.Decimal
import MaterialScript.Settings.Cursor

/-!
# Texts in settings

A text is quoted, or stands as it is, or is written line by line below a header. Over several lines,
one line end counts as a blank, and more of them as one less.

* `Gap` : blanks and line ends between words; `gapFrom?` : reads one;
* `quoted?` : a quoted text; `plain?` : a text as it is; `block?` : a text below a header.
-/

namespace MaterialScript.SettingsText

/-! ## Gaps -/

/-- What stands between words: blanks on a line, or line ends with blanks around them. -/
structure Gap where
  /-- Whether a line has ended. -/
  broken : Bool := false
  /-- The blanks, if no line has ended. -/
  blanks : List Char := []
  /-- Whether the first line end counts. -/
  counted : Bool := false
  /-- The line ends after the first. -/
  more : Nat := 0
deriving DecidableEq, Repr

def Gap.text (g : Gap) : List Char :=
  if g.broken then
    if g.counted && g.more == 0 then [' '] else List.replicate g.more '\n'
  else g.blanks

def Gap.breakLine (g : Gap) : Gap :=
  if g.broken then { g with more := g.more + 1 } else { broken := true, counted := true }

/-- Goes on with a gap. Where a line is indented less than `least`, a tab is refused; with `lenient`
set, only if the line has more than blanks. -/
def gapFrom? (lenient : Bool) (least : Int) : Nat → Gap → Cursor → Option (Gap × Cursor)
  | 0, _, _ => none
  | fuel + 1, g, c =>
    match c.breakLine? with
    | some c => gapFrom? lenient least fuel g.breakLine c
    | none =>
      match c.head? with
      | none => some (g, c)
      | some ch =>
        if !isBlank ch then some (g, c)
        else if !g.broken then gapFrom? lenient least fuel { g with blanks := g.blanks ++ [ch] } (c.skip 1)
        else if ch == '\t' && decide ((c.column : Int) < least) then do
          let (_, c) ← if lenient then c.skipSpacing? else none
          if endsLine c.head? then gapFrom? lenient least fuel g c else none
        else gapFrom? lenient least fuel g (c.skip 1)

/-! ## Quoted texts -/

/-- The characters that a letter after a backslash stands for. -/
def escapes : List (Char × Char) :=
  [('0', '\x00'), ('a', '\x07'), ('b', '\x08'), ('t', '\t'), ('\t', '\t'), ('n', '\n'), ('v', '\x0b'),
    ('f', '\x0c'), ('r', '\r'), ('e', '\x1b'), (' ', ' '), ('"', '"'), ('/', '/'), ('\\', '\\'),
    ('N', '\u0085'), ('_', '\u00a0'), ('L', '\u2028'), ('P', '\u2029')]

/-- The number of hexadecimal digits after a letter that takes some. -/
def hexWidth? (c : Char) : Option Nat :=
  if c = 'x' then some 2 else if c = 'u' then some 4 else if c = 'U' then some 8 else none

def charOf? (n : Nat) : Option Char := if n.isValidChar then some (Char.ofNat n) else none

/-- The character that a backslash here stands for with what follows it, and the place after them. -/
def escape? (c : Cursor) : Option (Char × Cursor) := do
  let letter ← c.peek? 1
  match hexWidth? letter with
  | some width =>
    let digits := (c.rest.drop 2).take width
    if digits.length = width then
      return (← charOf? (← Number.natural? 16 digits), c.take (width + 2))
    else none
  | none => return (← escapes.lookup letter, c.take 2)

/-- A word of a quoted text, up to a blank, a line end or the closing quote; whether a backslash before
a line end follows; and the place after them. -/
def quotedWord? (quote : Char) : Nat → Cursor → Option (List Char × Bool × Cursor)
  | 0, _ => none
  | fuel + 1, c =>
    match c.head? with
    | none => some ([], false, c)
    | some ch =>
      if isBlank ch || isBreak ch then some ([], false, c)
      else if ch = '\'' ∧ quote = '\'' then
        if c.peek? 1 = some '\'' then do
          let (word, escaped, c) ← quotedWord? quote fuel (c.take 2)
          return ('\'' :: word, escaped, c)
        else some ([], false, c)
      else if ch = '"' ∧ quote = '"' then some ([], false, c)
      else if ch = '\\' ∧ quote = '"' then
        match (c.take 1).breakLine? with
        | some c => some ([], true, c)
        | none => do
          let (char, c) ← escape? c
          let (word, escaped, c) ← quotedWord? quote fuel c
          return (char :: word, escaped, c)
      else do
        let (word, escaped, c) ← quotedWord? quote fuel (c.take 1)
        return (ch :: word, escaped, c)

/-- The content of a quoted text up to its closing quote, and the place of the quote. Its lines are
indented by at least `least`. -/
def quotedFrom? (quote : Char) (least : Int) : Nat → Cursor → Option (List Char × Cursor)
  | 0, _ => none
  | fuel + 1, c =>
    if c.isDocumentMark || c.rest.isEmpty || decide ((c.column : Int) < least) then none
    else do
      let (word, escaped, c) ← quotedWord? quote (c.rest.length + 1) c
      if c.head? = some quote then return (word, c)
      else
        let (gap, c) ← gapFrom? false least (c.rest.length + 1) { broken := escaped } c
        let (content, c) ← quotedFrom? quote least fuel c
        return (word ++ gap.text ++ content, c)

/-- Whether a quoted text may be followed by what follows it: the end of its line, a mark between
brackets, or the colon of a field name, which outside brackets ends on the line it started on. -/
def quotedEndsWell (flow : Bool) (start : Cursor) (c : Cursor) : Bool :=
  match c.head? with
  | none => true
  | some ch =>
    isBreak ch || (ch == ':' && (flow || start.line == c.line))
      || (flow && (ch == ',' || ch == ']' || ch == '}'))

/-- The content of the quoted text that starts here, and the place after it and the blanks and the
comment on its line. -/
def quoted? (flow : Bool) (least : Int) (start : Cursor) : Option (List Char × Cursor) := do
  let quote ← start.head?
  let (content, c) ← quotedFrom? quote least (start.rest.length + 1) (start.take 1)
  let (_, c) ← (c.take 1).skipSpacing?
  if quotedEndsWell flow start c then return (content, c) else none

/-! ## Texts as they are -/

/-- The number of characters of the word here: it ends at a blank, at a colon before one, and between
brackets also at a mark and at a colon before one. -/
def wordLength (flow : Bool) : List Char → Nat
  | [] => 0
  | ch :: cs =>
    if isBlank ch || isBreak ch || (flow && isFlowMark ch) then 0
    else if ch == ':' && (separates cs.head? || (flow && (cs.head?.map isFlowMark).getD false)) then 0
    else wordLength flow cs + 1

/-- The content of a text as it is, told the gap before it; whether it ended with a line; and the place
after it. Outside brackets its lines are indented by at least `least`. -/
def plainFrom? (flow : Bool) (least : Int) : Nat → Gap → Cursor → Option (List Char × Bool × Cursor)
  | 0, _, _ => none
  | fuel + 1, gap, c =>
    if c.isDocumentMark || c.head? == some '#' then some ([], gap.broken, c)
    else if flow && c.head? == some '-' && ((c.peek? 1).map isFlowMark).getD false then none
    else
      let n := wordLength flow c.rest
      let word := if n = 0 then [] else gap.text ++ c.rest.take n
      let gap := if n = 0 then gap else {}
      let c := if n = 0 then c else c.take n
      if c.rest.isEmpty || !separates c.head? then some (word, gap.broken, c)
      else do
        let (gap, c) ← gapFrom? true least (c.rest.length + 1) gap c
        if !flow && decide ((c.column : Int) < least) then return (word, gap.broken, c)
        else
          let (content, broken, c) ← plainFrom? flow least fuel gap c
          return (word ++ content, broken, c)

/-- The text as it is that starts here; whether it ended with a line; and the place after it. -/
def plain? (flow : Bool) (least : Int) (c : Cursor) : Option (List Char × Bool × Cursor) :=
  if flow && decide ((c.column : Int) < least) then none
  else plainFrom? flow least (c.rest.length + 1) {} c

/-! ## Texts below a header -/

/-- What becomes of the line ends at the end of a text. -/
inductive Chomping where
  | clip
  | strip
  | keep
deriving DecidableEq, Repr

/-- A sign that says what becomes of the line ends. -/
def chomping? : Option Char → Option Chomping
  | some '+' => some .keep
  | some '-' => some .strip
  | _ => none

/-- A digit that says how far lines are indented; zero is none. -/
def increment? (next : Option Char) : Option (Option Nat) :=
  match next.bind (Number.digitOf? 10) with
  | some 0 => none
  | n => some n

/-- The marks of a header, in either order, and the place after them. -/
def blockMarks? (c : Cursor) : Option (Chomping × Nat × Cursor) := do
  match chomping? c.head? with
  | some chomping =>
    let c := c.take 1
    match ← increment? c.head? with
    | some n => return (chomping, n, c.take 1)
    | none => return (chomping, 0, c)
  | none =>
    match ← increment? c.head? with
    | some n =>
      let c := c.take 1
      match chomping? c.head? with
      | some chomping => return (chomping, n, c.take 1)
      | none => return (.clip, n, c)
    | none => return (.clip, 0, c)

/-- Goes over empty lines and up to a column of the next one; counts the lines. -/
def skipIndent (column : Nat) : Nat → Nat → Cursor → Nat × Cursor
  | 0, lines, c => (lines, c)
  | fuel + 1, lines, c =>
    let c := c.skip ((c.rest.takeWhile (· == ' ')).take (column - c.column)).length
    match c.breakLine? with
    | some c => skipIndent column fuel (lines + 1) c
    | none => (lines, c)

/-- Goes over empty lines and the blanks of the next one; counts the lines and finds the column that
goes furthest. -/
def findIndent : Nat → Nat → Nat → Cursor → Nat × Nat × Cursor
  | 0, lines, furthest, c => (lines, furthest, c)
  | fuel + 1, lines, furthest, c =>
    let c := c.skip (c.rest.takeWhile (· == ' ')).length
    let furthest := max furthest c.column
    match c.breakLine? with
    | some c => findIndent fuel (lines + 1) furthest c
    | none => (lines, furthest, c)

/-- The state of a text below a header: its content so far, whether a line end is open after it, the
empty lines after that, and whether the last line started with a blank. -/
structure BlockState where
  content : List Char := []
  ended : Bool := false
  lines : Nat := 0
  indented : Bool := false
deriving DecidableEq, Repr

/-- The line ends before the next line. Where lines are folded, one between lines that do not start with
a blank counts as a blank. -/
def BlockState.separator (s : BlockState) (literal blank : Bool) : List Char :=
  let ends := List.replicate s.lines '\n'
  if !literal && s.ended && !s.indented && !blank then if s.lines = 0 then [' '] else ends
  else (if s.ended then ['\n'] else []) ++ ends

def blockLines (literal : Bool) (column : Nat) : Nat → BlockState → Cursor → BlockState × Cursor
  | 0, s, c => (s, c)
  | fuel + 1, s, c =>
    if c.column != column || c.rest.isEmpty || (column == 0 && c.isMark '.') then (s, c)
    else
      let blank := (c.head?.map isBlank).getD false
      let line := c.rest.takeWhile (fun ch => !isBreak ch)
      let content := s.content ++ s.separator literal blank ++ line
      let c := c.skip line.length
      match c.breakLine? with
      | none => ({ content, indented := blank }, c)
      | some c =>
        let (lines, c) := skipIndent column (c.rest.length + 1) 0 c
        blockLines literal column fuel { content, ended := true, lines, indented := blank } c

/-- The content of a text that has no lines. -/
def emptyBlock (chomping : Chomping) (sameLine : Bool) (lines : Nat) : List Char :=
  match chomping with
  | .strip => []
  | .clip => if sameLine then [] else ['\n']
  | .keep => if sameLine then [] else List.replicate (max 1 lines) '\n'

/-- The content of the text whose header starts here, inside a given indentation, and the place after
it. -/
def block? (literal : Bool) (indent : Int) (start : Cursor) : Option (List Char × Cursor) := do
  let (chomping, increment, c) ← blockMarks? (start.take 1)
  let (_, c) ← c.skipSpacing?
  if !endsLine c.head? then none
  let c := c.breakLine?.getD c
  if c.head? = some '\t' then none
  let (lines, column, c) :=
    if increment = 0 then
      let (lines, furthest, c) := findIndent (c.rest.length + 1) 0 0 c
      let column := max furthest (indent + 1).toNat
      (lines, if 0 < indent then max column 1 else column, c)
    else
      let column := (max indent 0).toNat + increment
      let (lines, c) := skipIndent column (c.rest.length + 1) 0 c
      (lines, column, c)
  if c.rest.isEmpty then return (emptyBlock chomping (c.line == start.line) lines, c)
  if c.column < column && decide (indent < (c.column : Int)) then none
  let (s, c) := blockLines literal column (c.rest.length + 1) { lines } c
  let closing :=
    if chomping = .strip then []
    else
      (if s.ended then ['\n'] else [])
        ++ (if c.rest.isEmpty && decide (max column 1 ≤ c.column) then ['\n'] else [])
  let kept := if chomping = .keep then List.replicate s.lines '\n' else []
  return (s.content ++ closing ++ kept, c)

end MaterialScript.SettingsText
