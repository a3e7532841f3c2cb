import MaterialScript.Command

/-!
# Program

* `snapshot` : what the disk holds at some paths, as a storage;
* `main` : performs what the arguments ask for.
-/

namespace MaterialScript

/-- What the disk holds at a path. -/
structure DiskEntry where
  path : String
  content : Except ReadError ByteArray
  isFile : Bool

/-- The read error for a failure of the disk. A wrong kind of file is met at a path when it is
opened, and without one when it is read: only a directory can be opened and not read. -/
def ReadError.ofDisk : IO.Error → ReadError
  | .noFileOrDirectory .. => .notFound
  | .inappropriateType (some _) _ _ => .notDirectory
  | .inappropriateType none _ _ => .isDirectory
  | .permissionDenied .. => .other "Permission denied (os error 13)"
  | e => .other (toString e)

def inspect (path : String) : IO DiskEntry := do
  try
    let content ← IO.FS.readBinFile path
    return ⟨path, .ok content, true⟩
  catch e => return ⟨path, .error (.ofDisk e), false⟩

def snapshot (paths : List String) : IO Files := do
  let entries ← paths.mapM inspect
  let find (path : String) := entries.find? (fun e => e.path == path)
  return {
    read := fun path => ((find path).map DiskEntry.content).getD (.error .notFound)
    isFile := fun path => ((find path).map DiskEntry.isFile).getD false }

/-- What the disk holds, as far as a request asks for it. -/
def Request.files : Request → IO Files
  | .invoke i => do
    let first ← snapshot i.inspected
    snapshot (i.inspected ++ i.assets first)
  | _ => snapshot []

end MaterialScript

open MaterialScript

def main (arguments : List String) : IO UInt32 := do
  let files ← match Request.ofArguments arguments with
    | .ok request => request.files
    | .error _ => snapshot []
  let outcome := runArguments files arguments
  IO.print outcome.stdout
  IO.eprint outcome.stderr
  return UInt32.ofNat outcome.exit
