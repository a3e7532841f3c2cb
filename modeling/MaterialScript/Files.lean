/-!
# Files

* `ReadError` : why a file cannot be read;
* `Files` : what a storage answers about paths; `Files.readText` : the text of a file;
* `FileTree` : directories and files in memory; `FileTree.walk` : the entry at a path;
  `FileTree.files` : a tree as a storage.
-/

namespace MaterialScript

inductive ReadError where
  | notFound
  | notDirectory
  | isDirectory
  | nameTooLong
  | nulInPath
  | invalidText
  | other (text : String)
deriving DecidableEq, Repr

def ReadError.message : ReadError → String
  | notFound => "No such file or directory (os error 2)"
  | notDirectory => "Not a directory (os error 20)"
  | isDirectory => "Is a directory (os error 21)"
  | nameTooLong => "File name too long (os error 36)"
  | nulInPath => "file name contained an unexpected NUL byte"
  | invalidText => "stream did not contain valid UTF-8"
  | other text => text

/-- What a storage answers about paths. -/
structure Files where
  read : String → Except ReadError ByteArray
  isFile : String → Bool

def Files.readText (files : Files) (path : String) : Except ReadError String :=
  match files.read path with
  | .error e => .error e
  | .ok content =>
    match String.fromUTF8? content with
    | some text => .ok text
    | none => .error .invalidText

/-! ## Trees in memory -/

inductive FileTree where
  | file (content : ByteArray)
  | directory (entries : List (String × FileTree))

namespace FileTree

def empty : FileTree := .directory []

def entries : FileTree → List (String × FileTree)
  | file _ => []
  | directory es => es

def entry? (t : FileTree) (name : String) : Option FileTree := t.entries.lookup name

def setEntry (es : List (String × FileTree)) (name : String) (t : FileTree) :
    List (String × FileTree) :=
  match es with
  | [] => [(name, t)]
  | (n, u) :: rest => if n = name then (n, t) :: rest else (n, u) :: setEntry rest name t

/-- Changes the entry at a path of names, making the directories on the way. -/
def updateAt (f : FileTree → FileTree) : List String → FileTree → FileTree
  | [], t => f t
  | name :: names, t =>
    .directory (setEntry t.entries name (updateAt f names ((t.entry? name).getD empty)))

/-- The parts of a path between slashes. -/
def components (path : String) : List String :=
  (path.toList.splitOnP (· == '/')).map String.ofList

/-- Adds a file, or a directory if the path ends in a slash. -/
def add (t : FileTree) (path : String) (content : ByteArray) : FileTree :=
  let names := (components path).filter (· ≠ "")
  if path.toList.getLast? = some '/' then updateAt (fun t => .directory t.entries) names t
  else updateAt (fun _ => .file content) names t

/-- Follows names from an entry, given the directories above it from the innermost on. An empty
name and a dot stay, two dots go up; above the tree are directories without entries. -/
def walk : List FileTree → FileTree → List String → Except ReadError FileTree
  | _, t, [] => .ok t
  | above, t, name :: names =>
    match t with
    | .file _ => .error .notDirectory
    | .directory es =>
      if name = "" ∨ name = "." then walk above t names
      else if name = ".." then walk above.tail (above.head?.getD empty) names
      else if 255 < name.utf8ByteSize then .error .nameTooLong
      else
        match es.lookup name with
        | some u => walk (t :: above) u names
        | none => .error .notFound

/-- The entry at a path relative to the tree. The tree does not hold the paths with a slash in
front. -/
def find (t : FileTree) (path : String) : Except ReadError FileTree :=
  if path = "" then .error .notFound
  else if path.toList.contains '\x00' then .error .nulInPath
  else if 4095 < path.utf8ByteSize then .error .nameTooLong
  else if path.toList.head? = some '/' then walk [] empty (components path)
  else walk [] t (components path)

def read (t : FileTree) (path : String) : Except ReadError ByteArray :=
  match t.find path with
  | .error e => .error e
  | .ok (.file content) => .ok content
  | .ok (.directory _) => .error .isDirectory

def isFile (t : FileTree) (path : String) : Bool :=
  match t.find path with
  | .ok (.file _) => true
  | _ => false

def files (t : FileTree) : Files where
  read := t.read
  isFile := t.isFile

end FileTree

end MaterialScript
