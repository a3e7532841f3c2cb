import Std.Data.TreeMap
import MaterialScript.Resource
import MaterialScript.Settings.Basic

/-!
# Registry of resources

A registry gives each path of a kind one handle, counting from zero in the order in which paths are
first loaded.

* `PathTable` : the paths of one kind, with an index for fast look-up; `PathTable.handle?`,
  `PathTable.path?` : from path to handle and back; `PathTable.insert` : a new path;
* `Registry` : one table for each kind, and which paths have to exist;
* `Registry.load` : the handle of a path; `Registry.resolver` : the registry as a resolver.
-/

namespace MaterialScript

/-- The paths of one kind: a handle is the place of its path in `paths`, and `index` finds it. -/
structure PathTable where
  paths : Array String := #[]
  index : Std.TreeMap String Nat := ∅

namespace PathTable

def size (t : PathTable) : Nat := t.paths.size

def handle? (t : PathTable) (path : String) : Option Nat := t.index[path]?

def path? (t : PathTable) (handle : Nat) : Option String := t.paths[handle]?

/-- Gives a new path the next handle. -/
def insert (t : PathTable) (path : String) : PathTable where
  paths := t.paths.push path
  index := t.index.insert path t.size

theorem handle?_insert (t : PathTable) (path other : String) :
    (t.insert path).handle? other = if path = other then some t.size else t.handle? other := by
  simp [insert, handle?, Std.TreeMap.getElem?_insert]

theorem path?_insert (t : PathTable) (path : String) (handle : Nat) :
    (t.insert path).path? handle = if handle = t.size then some path else t.path? handle := by
  unfold insert path? size
  rw [Array.getElem?_push]

end PathTable

/-- The resources loaded so far. If `check` is set, a path has to name a file below `root`. -/
structure Registry where
  root : Option String := none
  check : Bool := false
  shaders : PathTable := {}
  textures : PathTable := {}

namespace Registry

def table (r : Registry) : ResourceKind → PathTable
  | .shader => r.shaders
  | .texture => r.textures

def setTable (r : Registry) (kind : ResourceKind) (t : PathTable) : Registry :=
  match kind with
  | .shader => { r with shaders := t }
  | .texture => { r with textures := t }

def path? (r : Registry) {kind : ResourceKind} (handle : Handle kind) : Option String :=
  (r.table kind).path? handle.id

/-- A path below a directory. A path with a slash in front stands for itself. -/
def joinPath (root path : String) : String :=
  if path.toList.head? = some '/' ∨ root.toList = [] then path
  else if root.toList.getLast? = some '/' then root ++ path
  else root ++ "/" ++ path

/-- The file that has to exist for a path to be loaded. -/
def filePath (r : Registry) (path : String) : String :=
  match r.root with
  | some root => joinPath root path
  | none => path

/-- Whether a path may be loaded, when `isFile` tells which files exist. -/
def admits (r : Registry) (isFile : String → Bool) (path : String) : Bool :=
  !r.check || isFile (r.filePath path)

/-- The handle of a path: the one it has, or the next one if the path may be loaded. -/
def load (isFile : String → Bool) (kind : ResourceKind) (path : String) (r : Registry) :
    Except ResourceError (Handle kind) × Registry :=
  match (r.table kind).handle? path with
  | some n => (.ok ⟨n⟩, r)
  | none =>
    if r.admits isFile path then
      (.ok ⟨(r.table kind).size⟩, r.setTable kind ((r.table kind).insert path))
    else (.error (.notFound kind path), r)

/-- A registry as a resolver, when `isFile` tells which files exist. -/
def resolver (isFile : String → Bool) : Resolver Registry where
  load := load isFile

@[simp] theorem table_setTable_self (r : Registry) (kind : ResourceKind) (t : PathTable) :
    (r.setTable kind t).table kind = t := by
  cases kind <;> rfl

theorem table_setTable_of_ne (r : Registry) {kind other : ResourceKind} (t : PathTable)
    (h : other ≠ kind) : (r.setTable kind t).table other = r.table other := by
  cases kind <;> cases other <;> simp_all [setTable, table]

end Registry

def Settings.registry (s : Settings) : Registry :=
  match s.assetRoot with
  | some root => { root := some root, check := s.checkAssetsExist }
  | none => if s.checkAssetsExist then { root := some ".", check := true } else {}

end MaterialScript
