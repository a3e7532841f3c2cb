import MaterialScript.Delivery

/-!
# Delivered passes are built passes

A document is walked twice in this library: `Material.ofDocument` builds the passes that it
describes, and `Document.deliver` hands setters to the passes of a host. Both walks go through the
same parcels.

* `Parcel` : what a document sends to one target; `Document.parcels` : all of it, in order;
* `Document.deliver_eq_foldl` : a delivery sends the parcels one by one, to any host;
* `Material.entries` : the passes of a material with their targets; `entries_ofDocument` : those of
  a document are its parcels, put on new passes;
* `PassState.maker` : a host with a new pass for every target; `foldl_send_maker` : what it makes.
-/

namespace MaterialScript

variable {σ : Type}

/-! ## Parcels -/

/-- What a document sends to one target: layers, the outermost one first, and a note for the case
that the target is missing. -/
structure Parcel where
  target : Target
  layers : List Layer
  note : String

def Parcel.setters (p : Parcel) : List Setter := p.layers.flatMap Layer.setters

/-- The pass that a parcel describes: its layers over the state that the engine starts from. -/
def Parcel.pass (p : Parcel) : PassState := Material.buildPass p.target.pass p.layers

def Parcel.send (host : PassHost σ) (d : Delivery σ) (p : Parcel) : Delivery σ :=
  d.send host p.target p.setters p.note

/-- What a technique sends below the layer of its document: a parcel for each pass, or one for the
pass that is implied. -/
def Technique.parcels (base : Layer) (t : Technique) : List Parcel :=
  if t.passes.isEmpty then
    [⟨⟨t.name, none⟩, [base, t.layer], "no target for technique " ++ Text.quotedOption t.name⟩]
  else
    t.passes.map fun p =>
      ⟨⟨t.name, p.name⟩, [base, t.layer, p.layer],
        "no target for pass " ++ Text.quotedOption p.name ++ " of technique "
          ++ Text.quotedOption t.name⟩

def Document.parcels (doc : Document) : List Parcel :=
  if doc.techniques.isEmpty then
    [⟨⟨none, none⟩, [doc.layer], "no target for document-level pass"⟩]
  else doc.techniques.flatMap (Technique.parcels doc.layer)

/-! ## Delivery -/

theorem Technique.deliver_eq_foldl (host : PassHost σ) (base : Layer) (d : Delivery σ)
    (t : Technique) : t.deliver host base d = (t.parcels base).foldl (Parcel.send host) d := by
  cases hpasses : t.passes with
  | nil => simp [deliver, parcels, Parcel.send, Parcel.setters, hpasses]
  | cons p ps =>
    simp only [deliver, parcels, hpasses, List.isEmpty_cons, Bool.false_eq_true, if_false,
      List.foldl_map]
    simp [Parcel.send, Parcel.setters]

/-- **A delivery sends the parcels of the document one by one.** -/
theorem Document.deliver_eq_foldl (host : PassHost σ) (doc : Document) (state : σ) :
    doc.deliver host state = doc.parcels.foldl (Parcel.send host) { state } := by
  cases htechniques : doc.techniques with
  | nil => simp [deliver, parcels, Parcel.send, Parcel.setters, htechniques]
  | cons t ts =>
    have hstep : Technique.deliver host doc.layer =
        fun d t => (t.parcels doc.layer).foldl (Parcel.send host) d := by
      funext d t
      exact t.deliver_eq_foldl host doc.layer d
    simp only [deliver, parcels, htechniques, List.isEmpty_cons, Bool.false_eq_true, if_false,
      List.foldl_flatMap, hstep]

/-! ## Materials -/

/-- The passes of a material, technique by technique, with the names they are asked for by. -/
def Material.entries (m : Material) : List (Target × PassState) :=
  m.techniques.flatMap fun t => t.passes.map fun p => (⟨t.name, p.name⟩, p)

theorem Material.length_entries (m : Material) : m.entries.length = m.passCount := by
  simp [entries, passCount, List.length_flatMap]

theorem PassState.foldl_apply (layers : List Layer) (p : PassState) :
    layers.foldl apply p = p.setAll (layers.flatMap Layer.setters) := by
  induction layers generalizing p with
  | nil => rfl
  | cons l layers ih => rw [List.foldl_cons, ih, List.flatMap_cons, setAll_append]; rfl

@[simp] theorem Material.name_buildPass (name : Option String) (layers : List Layer) :
    (buildPass name layers).name = name := by
  rw [buildPass, PassState.foldl_apply, PassState.name_setAll]
  rfl

theorem Parcel.pass_eq (p : Parcel) : p.pass = (PassState.new p.target.pass).setAll p.setters :=
  PassState.foldl_apply p.layers _

theorem Technique.parcels_entries (base : Layer) (t : Technique) :
    (t.parcels base).map (fun p => (p.target, p.pass)) =
      (Material.buildTechnique base t).passes.map fun p => (⟨t.name, p.name⟩, p) := by
  unfold parcels Material.buildTechnique
  split <;> simp [Parcel.pass]

/-- **The passes of a material are the parcels of its document**, put on new passes. -/
theorem Material.entries_ofDocument (doc : Document) :
    (ofDocument doc).entries = doc.parcels.map fun p => (p.target, p.pass) := by
  unfold entries ofDocument Document.parcels
  split
  · simp [Parcel.pass]
  · rw [List.map_flatMap, List.flatMap_map]
    congr 1
    funext t
    exact (t.parcels_entries doc.layer).symm

/-! ## New passes -/

/-- A host that makes a new pass for every target that is asked for, and keeps all of them. -/
def PassState.maker : PassHost (List (Target × PassState)) where
  receive target setters made := some (made ++ [(target, (new target.pass).setAll setters)])

theorem Parcel.send_maker (p : Parcel) (d : Delivery (List (Target × PassState))) :
    p.send PassState.maker d =
      { d with state := d.state ++ [(p.target, p.pass)], applied := d.applied + 1 } := by
  rw [p.pass_eq]
  rfl

theorem foldl_send_maker (ps : List Parcel) (d : Delivery (List (Target × PassState))) :
    ps.foldl (Parcel.send PassState.maker) d =
      { d with
        state := d.state ++ ps.map fun p => (p.target, p.pass)
        applied := d.applied + ps.length } := by
  induction ps generalizing d with
  | nil => simp
  | cons p ps ih =>
    rw [List.foldl_cons, ih, p.send_maker]
    simp [Nat.add_assoc, Nat.add_comm 1]

/-- **A document that is delivered to new passes gives the passes of its material**, in the same
order and asked for by their names, and counts all of them. -/
theorem deliver_to_new_passes (doc : Document) :
    doc.deliver PassState.maker [] =
      { state := (Material.ofDocument doc).entries
        applied := (Material.ofDocument doc).passCount
        missed := [] } := by
  rw [doc.deliver_eq_foldl, foldl_send_maker, ← Material.length_entries,
    Material.entries_ofDocument, List.length_map]
  simp

end MaterialScript
