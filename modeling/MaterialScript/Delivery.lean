import MaterialScript.Material

/-!
# Delivery of a document to passes

A document is delivered to passes that somebody else keeps. For each pass of the document a target is
asked for by its technique and pass names; it receives the layers of the document, of the technique
and of the pass.

* `Target` : the names that a target is asked for by;
* `PassHost` : keeps passes; `Material.host` : a material as a host; `Recording.host` : a host that
  notes what it receives;
* `Delivery`, `Document.deliver` : the delivery of a document.
-/

namespace MaterialScript

/-- The names of a technique and a pass. No name stands for an unnamed one, or for the pass that is
implied where none is spelled out. -/
structure Target where
  technique : Option String
  pass : Option String
deriving DecidableEq, Repr

/-- Keeps passes in a state of type `σ`: a target receives setters, unless there is no such pass. -/
structure PassHost (σ : Type) where
  receive : Target → List Setter → σ → Option σ

/-- What becomes of a document: the state of the host, the number of targets that were there, and
the notes on those that were not. -/
structure Delivery (σ : Type) where
  state : σ
  applied : Nat := 0
  missed : List String := []

/-- Delivers setters to one target; `note` says what is missing if there is none. -/
def Delivery.send {σ : Type} (host : PassHost σ) (target : Target) (setters : List Setter)
    (note : String) (d : Delivery σ) : Delivery σ :=
  match host.receive target setters d.state with
  | some state => { d with state, applied := d.applied + 1 }
  | none => { d with missed := d.missed ++ [note] }

variable {σ : Type}

def Technique.deliver (host : PassHost σ) (base : Layer) (d : Delivery σ) (t : Technique) :
    Delivery σ :=
  match t.passes with
  | [] =>
    d.send host ⟨t.name, none⟩ (base.setters ++ t.layer.setters)
      ("no target for technique " ++ Text.quotedOption t.name)
  | passes =>
    passes.foldl (fun d p =>
      d.send host ⟨t.name, p.name⟩ (base.setters ++ t.layer.setters ++ p.layer.setters)
        ("no target for pass " ++ Text.quotedOption p.name ++ " of technique "
          ++ Text.quotedOption t.name)) d

def Document.deliver (host : PassHost σ) (doc : Document) (state : σ) : Delivery σ :=
  match doc.techniques with
  | [] =>
    Delivery.send host ⟨none, none⟩ doc.layer.setters "no target for document-level pass" { state }
  | techniques => techniques.foldl (Technique.deliver host doc.layer) { state }

/-! ## Hosts -/

def Material.host : PassHost Material where
  receive target setters m := m.update? target.technique target.pass (·.setAll setters)

structure Recording where
  target : Target
  setters : List Setter
deriving DecidableEq, Repr

/-- A host that notes what every target receives, but for declined ones. -/
def Recording.host (declined : List Target) : PassHost (List Recording) where
  receive target setters notes :=
    if declined.contains target then none else some (notes ++ [⟨target, setters⟩])

end MaterialScript
