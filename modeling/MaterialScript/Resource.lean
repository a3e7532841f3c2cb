/-!
# Shaders and textures

* `ResourceKind`, `Handle`, `Reference` : resources, the handles they are known by, and references
  from a document to them;
* `ResourceError` : why a resource is not available;
* `fullPath` : where a reference found in a document points to;
* `Resolver` : what loads resources while a document is compiled; `Resolver.refusing` : the same,
  but for some resources.
-/

namespace MaterialScript

/-- The kinds of resources that a document refers to. -/
inductive ResourceKind where
  | shader
  | texture
deriving DecidableEq, Repr

def ResourceKind.noun : ResourceKind → String
  | shader => "shader"
  | texture => "texture"

/-- What a loaded resource is known by. -/
structure Handle (kind : ResourceKind) where
  id : Nat
deriving DecidableEq, Repr

/-- A reference to a loaded resource. -/
structure Reference (kind : ResourceKind) where
  path : String
  handle : Handle kind
deriving DecidableEq, Repr

inductive ResourceError where
  | notFound (kind : ResourceKind) (path : String)
  | loadFailed (kind : ResourceKind) (path reason : String)
deriving DecidableEq, Repr

def ResourceError.message : ResourceError → String
  | notFound kind path => kind.noun ++ " `" ++ path ++ "` not found"
  | loadFailed kind path reason =>
    "failed to load " ++ kind.noun ++ " `" ++ path ++ "`: " ++ reason

/-- The directory of a path: everything up to the last slash, with it. -/
def directory (path : List Char) : List Char :=
  (path.reverse.dropWhile (· != '/')).reverse

/-- Where a reference found in the document at `base` points to. A reference with a slash in front
starts at the asset root, any other one at the directory of the document. -/
def fullPath (reference base : String) : String :=
  match reference.toList with
  | '/' :: rest => String.ofList rest
  | cs => String.ofList (directory base.toList ++ cs)

/-- What loads resources while a document is compiled. It keeps a state of type `σ`, and an answer
may depend on all that was asked before. -/
structure Resolver (σ : Type) where
  /-- Where a reference found in the document at a base path points to. -/
  locate : σ → String → String → String := fun _ => fullPath
  /-- Loads the resource at a path. -/
  load : (kind : ResourceKind) → String → σ → Except ResourceError (Handle kind) × σ

structure Refusal where
  kind : ResourceKind
  path : String
  reason : Option String
deriving DecidableEq, Repr

def Refusal.error (r : Refusal) : ResourceError :=
  match r.reason with
  | none => .notFound r.kind r.path
  | some reason => .loadFailed r.kind r.path reason

/-- A resolver that refuses some resources, the first refusal of a resource counting, and asks
another one for the others. -/
def Resolver.refusing {σ : Type} (refusals : List Refusal) (r : Resolver σ) : Resolver σ where
  locate := r.locate
  load kind path s :=
    match refusals.find? (fun refusal => refusal.kind == kind && refusal.path == path) with
    | some refusal => (.error refusal.error, s)
    | none => r.load kind path s

end MaterialScript
