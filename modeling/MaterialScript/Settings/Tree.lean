import MaterialScript.Settings.Scanner
import MaterialScript.Settings.Basic

/-!
# From tokens to values

* `Reader` : the tokens left, the tags that directives gave names, and the values of anchors;
* `Reader.node` and the functions beside it : a value and what it is made of;
* `Reader.documents` : the values of all documents; `readFields?` : the fields of a settings text.

A value with a tag that it does not fit is none; it counts as nothing, and no field has it as its name.
-/

namespace MaterialScript.SettingsText

/-- A value, unless it does not fit its tag. -/
abbrev Node := Option SettingValue

/-- The state of reading. -/
structure Reader where
  tokens : List Token
  /-- The names that directives gave to tags, by their handles. -/
  tagNames : List (String × String) := []
  /-- The numbers of the anchors of a document, by their names. -/
  anchors : List (String × Nat) := []
  /-- The values of anchors, by their numbers. -/
  values : List (Nat × Node) := []
  /-- The number of the next anchor. -/
  next : Nat := 1

/-- Reading that uses up tokens, or fails. -/
abbrev Read := StateT Reader Option

namespace Reader

/-! ## Single tokens -/

def peek? : Read (Option Token) := return (← get).tokens.head?

def skip : Read Unit := modify fun r => { r with tokens := r.tokens.tail }

def isNext (tokens : List Token) : Read Bool := do
  return ((← peek?).map tokens.contains).getD false

def accept (token : Token) : Read Bool := do
  if ← isNext [token] then
    skip
    return true
  else return false

/-! ## Properties of values -/

/-- The handle of the tags of the format itself. -/
def coreHandle : String := "tag:yaml.org,2002:"

/-- The name that the handle of a tag stands for. -/
def resolve (handle suffix : String) : Read (String × String) := do
  match (← get).tagNames.lookup handle with
  | some name => return (name, suffix)
  | none =>
    if handle = "!!" then return (coreHandle, suffix)
    else if 2 ≤ handle.length && handle.toList.getLast? == some '!' then failure
    else return (handle, suffix)

def register (name : String) : Read Nat := do
  let r ← get
  set { r with anchors := (name, r.next) :: r.anchors, next := r.next + 1 }
  return r.next

def anchor? : Read (Option Nat) := do
  match ← peek? with
  | some (.anchor name) =>
    skip
    return some (← register name)
  | _ => return none

def tag? : Read (Option (String × String)) := do
  match ← peek? with
  | some (.tag handle suffix) =>
    skip
    return some (← resolve handle suffix)
  | _ => return none

/-- The value of an anchor. One that is not complete yet has none. -/
def aliased (name : String) : Read Node := do
  let r ← get
  let n ← r.anchors.lookup name
  return (r.values.lookup n).getD none

def keep (anchor : Option Nat) (v : Node) : Read Node := do
  if let some n := anchor then modify fun r => { r with values := (n, v) :: r.values }
  return v

def scalar (asIs : Bool) (content : String) (tag : Option (String × String)) : Read Node := do
  if !asIs then return some (.text content)
  else
    match tag with
    | none => return some (← SettingValue.ofPlain? content)
    | some (handle, suffix) =>
      if handle ≠ coreHandle then return some (.text content)
      else
        match suffix with
        | "bool" =>
          return if content = "true" then some (.bool true)
            else if content = "false" then some (.bool false) else none
        | "int" => return (SettingValue.integer? 10 content.toList).map .int
        | "float" =>
          if SettingValue.refusedReals.contains content then failure
          return SettingValue.plainReal? content.toList
        | "null" => return if content = "~" ∨ content = "null" then some .null else none
        | _ => return some (.text content)

def listOf (nodes : List Node) : Node := some (.list (nodes.map (·.getD .null)))

/-- Pairs names with the values after them. What fits no tag is no name. -/
def pairs : List Node → List (SettingValue × SettingValue)
  | none :: rest => pairs rest
  | some key :: v :: rest => (key, v.getD .null) :: pairs rest
  | _ => []

/-- A table of names and values, one after the other. -/
def tableOf (nodes : List Node) : Node := some (.ofPairs (pairs nodes))

/-! ## Values -/

def missing : Node := some .null

mutual

/-- A value. By indentation it may be a list or table if `block` is set, and a list that is not indented
if `loose` is set. -/
def node (block loose : Bool) : Nat → Read Node
  | 0 => failure
  | fuel + 1 => do
    if let some (.alias name) ← peek? then
      skip
      return ← aliased name
    let first ← anchor?
    let tag ← tag?
    let anchor ← if first.isSome then pure first else if tag.isSome then anchor? else pure none
    match ← peek? with
    | some (.scalar asIs content) =>
      skip
      keep anchor (← scalar asIs content tag)
    | some .openBracket =>
      skip
      keep anchor (listOf (← flowItems true fuel))
    | some .openBrace =>
      skip
      keep anchor (tableOf (← flowFields true fuel))
    | some .item =>
      if loose then keep anchor (listOf (← looseItems fuel))
      else if tag.isSome || anchor.isSome then keep anchor (← scalar true "" tag)
      else failure
    | some .listStart =>
      if block then
        skip
        keep anchor (listOf (← blockItems fuel))
      else if tag.isSome || anchor.isSome then keep anchor (← scalar true "" tag)
      else failure
    | some .tableStart =>
      if block then
        skip
        keep anchor (tableOf (← blockFields fuel))
      else if tag.isSome || anchor.isSome then keep anchor (← scalar true "" tag)
      else failure
    | _ =>
      if tag.isSome || anchor.isSome then keep anchor (← scalar true "" tag) else failure

/-- A value, unless one of some tokens comes first. -/
def nodeUnless (stops : List Token) (block loose : Bool) : Nat → Read Node
  | 0 => failure
  | fuel + 1 => do
    if ← isNext stops then return missing else node block loose fuel

def blockItems : Nat → Read (List Node)
  | 0 => failure
  | fuel + 1 => do
    if ← accept .levelEnd then return []
    else if ← accept .item then
      let v ← nodeUnless [.item, .levelEnd] true false fuel
      return v :: (← blockItems fuel)
    else failure

def looseItems : Nat → Read (List Node)
  | 0 => failure
  | fuel + 1 => do
    if ← accept .item then
      let v ← nodeUnless [.item, .key, .value, .levelEnd] true false fuel
      return v :: (← looseItems fuel)
    else return []

def blockFields : Nat → Read (List Node)
  | 0 => failure
  | fuel + 1 => do
    if ← accept .levelEnd then return []
    else
      let named ← accept .key
      if !named && !(← isNext [.value]) then failure
      let name ← if named then nodeUnless [.key, .value, .levelEnd] true true fuel else pure missing
      let v ← if ← accept .value then nodeUnless [.key, .value, .levelEnd] true true fuel
        else pure missing
      return name :: v :: (← blockFields fuel)

def flowItems (first : Bool) : Nat → Read (List Node)
  | 0 => failure
  | fuel + 1 => do
    if ← accept .closeBracket then return []
    if !first && !(← accept .comma) then failure
    if ← accept .closeBracket then return []
    let v ← if ← accept .key then pure (tableOf (← flowPair fuel)) else node false false fuel
    return v :: (← flowItems false fuel)

def flowPair : Nat → Read (List Node)
  | 0 => failure
  | fuel + 1 => do
    let name ←
      if ← isNext [.value, .comma, .closeBracket] then
        skip
        pure missing
      else node false false fuel
    let v ← if ← accept .value then nodeUnless [.comma, .closeBracket] false false fuel
      else pure missing
    return [name, v]

def flowFields (first : Bool) : Nat → Read (List Node)
  | 0 => failure
  | fuel + 1 => do
    if ← accept .closeBrace then return []
    if !first && !(← accept .comma) then failure
    if ← accept .closeBrace then return []
    let named ← accept .key
    let nameless ← isNext [.value]
    let name ←
      if named then nodeUnless [.value, .comma, .closeBrace] false false fuel
      else if nameless then pure missing
      else node false false fuel
    let valued ← if named || nameless then accept .value else pure false
    let v ← if valued then nodeUnless [.comma, .closeBrace] false false fuel else pure missing
    return name :: v :: (← flowFields false fuel)

end

/-! ## Documents -/

def isDirective : Option Token → Bool
  | some .version => true
  | some (.tagNames ..) => true
  | _ => false

/-- The directives before a document; at most one gives a version, and the last one alone has an effect
on tags. -/
def directives : Nat → Bool → Read Unit
  | 0, _ => failure
  | fuel + 1, versioned => do
    match ← peek? with
    | some .version =>
      if versioned then failure
      modify fun r => { r with tagNames := [] }
      skip
      directives fuel true
    | some (.tagNames handle name) =>
      modify fun r => { r with tagNames := [(handle, name)] }
      skip
      directives fuel versioned
    | _ => return

def markedDocument (fuel : Nat) : Read Node := do
  directives fuel false
  if !(← accept .documentStart) then failure
  let next ← peek?
  if next.isNone || isDirective next || next == some .documentStart || next == some .documentEnd then
    return missing
  else node true false fuel

/-- The values of all documents. The start of a document need not be marked at the front and after the
end of another one is. -/
def documents (implicit : Bool) : Nat → Read (List Node)
  | 0 => failure
  | fuel + 1 => do
    if ← accept .documentEnd then return ← documents implicit fuel
    let next ← peek?
    if next.isNone then return []
    modify fun r => { r with anchors := [] }
    let marked := !implicit || isDirective next || next == some .documentStart
    let v ← if marked then markedDocument fuel else node true false fuel
    modify fun r => { r with tagNames := [] }
    let ended ← accept .documentEnd
    if !ended && isDirective (← peek?) then failure
    return v :: (← documents ended fuel)

end Reader

/-- The fields of a settings text: one document at most, which is a table. -/
def readFields? (text : String) : Option (List (String × SettingValue)) := do
  let tokens ← tokens? text
  let (documents, _) ← (Reader.documents true (4 * tokens.length + 8)).run { tokens }
  match documents with
  | [] => some []
  | [some (.table fields)] => some fields
  | _ => none

end MaterialScript.SettingsText
