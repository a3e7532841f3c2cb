import MaterialScript.Proofs.Output.Labels

/-!
# What an outline tells about a document

Compiled documents with the same outline are the same but for the handles of their resources: the lines
tell the labels and how they are nested, the icons tell the kinds of nodes, and the labels tell the rest.

* `Layer.outline_inj`, …, `Document.outline_inj` : documents are told from their outlines;
* `Document.outline_withoutHandles` : handles leave no trace in an outline;
* `Document.nodeCount`, `Document.length_labels` : the nodes of a document;
* `Document.Legible.lines` : no line holds the end of a line.
-/

namespace MaterialScript

open Lexer Text

/-! ## Levels -/

def Outline.icon : Outline → Option Char
  | node label _ => label.toList.head?

/-- Two lists are told apart at the first element without a property. -/
theorem append_inj_of_all {α : Type} {p : α → Bool} {xs xs' ys ys' : List α}
    (hxs : ∀ x ∈ xs, p x = true) (hxs' : ∀ x ∈ xs', p x = true) (hys : ∀ y ∈ ys, p y = false)
    (hys' : ∀ y ∈ ys', p y = false) (h : xs ++ ys = xs' ++ ys') : xs = xs' ∧ ys = ys' := by
  have htake : ∀ {xs ys : List α}, (∀ x ∈ xs, p x = true) → (∀ y ∈ ys, p y = false) →
      (xs ++ ys).takeWhile p = xs := by
    intro xs ys hxs hys
    have hnil : ys.takeWhile p = [] := by
      cases ys with
      | nil => rfl
      | cons y ys => rw [List.takeWhile_cons_of_neg (by simp [hys y List.mem_cons_self])]
    rw [List.takeWhile_append_of_pos hxs, hnil, List.append_nil]
  have hfront : xs = xs' := by rw [← htake hxs hys, h, htake hxs' hys']
  rw [hfront] at h
  exact ⟨hfront, List.append_cancel_left h⟩

theorem map_eq_map_of_inj {α β γ : Type} {f : α → β} {g : α → γ} {xs ys : List α}
    (hinj : ∀ x ∈ xs, ∀ y ∈ ys, f x = f y → g x = g y) (h : xs.map f = ys.map f) :
    xs.map g = ys.map g := by
  induction xs generalizing ys with
  | nil =>
    cases ys with
    | nil => rfl
    | cons y ys => cases h
  | cons x xs ih =>
    cases ys with
    | nil => cases h
    | cons y ys =>
      rw [List.map_cons, List.map_cons, List.cons.injEq] at h
      rw [List.map_cons, List.map_cons, hinj x List.mem_cons_self y List.mem_cons_self h.1,
        ih (fun x hx y hy => hinj x (List.mem_cons_of_mem _ hx) y (List.mem_cons_of_mem _ hy)) h.2]

def RenderOption.outline (o : RenderOption) : Outline := .node ("⚙ " ++ o.display) []

def Uniform.outline (u : Uniform) : Outline := .node u.label []

theorem Layer.outline_eq (l : Layer) :
    l.outline = l.options.map RenderOption.outline ++ l.uniforms.map Uniform.outline := rfl

/-- The nodes of scopes: they have neither the icon of options nor that of uniforms. -/
def Scopes (ts : List Outline) : Prop := ∀ t ∈ ts, t.icon ≠ some '⚙' ∧ t.icon ≠ some '≡'

theorem scopes_nil : Scopes [] := by
  intro t ht
  cases ht

theorem scopes_passes (ps : List Pass) : Scopes (ps.map Pass.outline) := by
  intro t ht
  obtain ⟨p, -, rfl⟩ := List.mem_map.1 ht
  simp [Pass.outline, Outline.icon]

theorem scopes_techniques (ts : List Technique) : Scopes (ts.map Technique.outline) := by
  intro t ht
  obtain ⟨t, -, rfl⟩ := List.mem_map.1 ht
  simp [Technique.outline, Outline.icon]

/-- **A level is told from its nodes**: its options and uniforms, and the scopes in it. -/
theorem Layer.outline_inj {l l' : Layer} (hl : l.Legible) (hl' : l'.Legible) {ts ts' : List Outline}
    (hts : Scopes ts) (hts' : Scopes ts') (h : l.outline ++ ts = l'.outline ++ ts') :
    l.withoutHandles = l'.withoutHandles ∧ ts = ts' := by
  rw [outline_eq, outline_eq, List.append_assoc, List.append_assoc] at h
  have hoption : ∀ l : Layer, ∀ t ∈ l.options.map RenderOption.outline,
      (t.icon == some '⚙') = true := by
    intro l t ht
    obtain ⟨o, -, rfl⟩ := List.mem_map.1 ht
    simp [RenderOption.outline, Outline.icon]
  have huniform : ∀ l : Layer, ∀ t ∈ l.uniforms.map Uniform.outline,
      t.icon = some '≡' := by
    intro l t ht
    obtain ⟨u, -, rfl⟩ := List.mem_map.1 ht
    simp [Uniform.outline, Uniform.toList_label, Outline.icon]
  have hmore : ∀ l : Layer, ∀ ts, Scopes ts → ∀ t ∈ l.uniforms.map Uniform.outline ++ ts,
      (t.icon == some '⚙') = false := by
    intro l ts hts t ht
    rcases List.mem_append.1 ht with ht | ht
    · rw [huniform l t ht]
      rfl
    · simpa using (hts t ht).1
  obtain ⟨hoptions, h⟩ := append_inj_of_all (hoption l) (hoption l') (hmore l ts hts)
    (hmore l' ts' hts') h
  obtain ⟨huniforms, hnested⟩ := append_inj_of_all (p := fun t : Outline => t.icon == some '≡')
    (fun t ht => by simp [huniform l t ht]) (fun t ht => by simp [huniform l' t ht])
    (fun t ht => by simpa using (hts t ht).2) (fun t ht => by simpa using (hts' t ht).2) h
  have hos := map_eq_map_of_inj (g := RenderOption.withoutHandle) (fun o ho o' ho' ho'' => by
    have hdisplay : o.display = o'.display := by
      simpa [RenderOption.outline] using ho''
    exact RenderOption.display_inj (hl.options o ho) (hl'.options o' ho') hdisplay) hoptions
  have hus := map_eq_map_of_inj (g := Uniform.withoutHandle) (fun u hu u' hu' hu'' => by
    have hlabel : u.label = u'.label := by simpa [Uniform.outline] using hu''
    exact Uniform.label_inj (hl.uniforms u hu) (hl'.uniforms u' hu') hlabel) huniforms
  refine ⟨?_, hnested⟩
  rw [withoutHandles, hos, hus]
  rfl

theorem Pass.outline_inj {p p' : Pass} (hp : p.Legible) (hp' : p'.Legible)
    (h : p.outline = p'.outline) : p.withoutHandles = p'.withoutHandles := by
  obtain ⟨hlabel, hnodes⟩ := Outline.node.inj h
  have hname : p.name = p'.name :=
    nameLabel_inj hp.name hp'.name (by simpa using hlabel)
  obtain ⟨hlayer, -⟩ := Layer.outline_inj hp.layer hp'.layer scopes_nil scopes_nil
    (by rw [hnodes])
  rw [withoutHandles, hname, hlayer]
  rfl

theorem Technique.outline_inj {t t' : Technique} (ht : t.Legible) (ht' : t'.Legible)
    (h : t.outline = t'.outline) : t.withoutHandles = t'.withoutHandles := by
  obtain ⟨hlabel, hnodes⟩ := Outline.node.inj h
  have hname : t.name = t'.name :=
    nameLabel_inj ht.name ht'.name (by simpa using hlabel)
  obtain ⟨hlayer, hpasses⟩ := Layer.outline_inj ht.layer ht'.layer (scopes_passes t.passes)
    (scopes_passes t'.passes) hnodes
  have hpasses := map_eq_map_of_inj (g := Pass.withoutHandles)
    (fun p hp p' hp' => Pass.outline_inj (ht.passes p hp) (ht'.passes p' hp')) hpasses
  rw [withoutHandles, hname, hlayer, hpasses]
  rfl

/-- **A document is told from its nodes**, but for handles. -/
theorem Document.outline_inj {d d' : Document} (hd : d.Legible) (hd' : d'.Legible)
    (h : d.outline = d'.outline) : d.withoutHandles = d'.withoutHandles := by
  obtain ⟨hlayer, htechniques⟩ := Layer.outline_inj hd.layer hd'.layer
    (scopes_techniques d.techniques) (scopes_techniques d'.techniques) h
  have htechniques := map_eq_map_of_inj (g := Technique.withoutHandles) (fun t ht t' ht' =>
    Technique.outline_inj (hd.techniques t ht) (hd'.techniques t' ht')) htechniques
  rw [withoutHandles, hlayer, htechniques]
  rfl

/-! ## Handles leave no trace -/

theorem RenderOption.outline_withoutHandle (o : RenderOption) :
    o.withoutHandle.outline = o.outline := by
  cases o <;> rfl

theorem Uniform.outline_withoutHandle (u : Uniform) : u.withoutHandle.outline = u.outline := by
  obtain ⟨name, value⟩ := u
  cases value <;> rfl

theorem Layer.outline_withoutHandles (l : Layer) : l.withoutHandles.outline = l.outline := by
  simp [outline_eq, withoutHandles, Function.comp_def, RenderOption.outline_withoutHandle,
    Uniform.outline_withoutHandle]

theorem Pass.outline_withoutHandles (p : Pass) : p.withoutHandles.outline = p.outline := by
  simp [outline, withoutHandles, Layer.outline_withoutHandles]

theorem Technique.outline_withoutHandles (t : Technique) : t.withoutHandles.outline = t.outline := by
  simp [outline, withoutHandles, Layer.outline_withoutHandles, Function.comp_def,
    Pass.outline_withoutHandles]

theorem Document.outline_withoutHandles (d : Document) : d.withoutHandles.outline = d.outline := by
  simp [outline, withoutHandles, Layer.outline_withoutHandles, Function.comp_def,
    Technique.outline_withoutHandles]

/-! ## Lines -/

def Layer.nodeCount (l : Layer) : Nat := l.options.length + l.uniforms.length

/-- The number of nodes of a technique: itself, its statements, and its passes with theirs. -/
def Technique.nodeCount (t : Technique) : Nat :=
  1 + t.layer.nodeCount + (t.passes.map fun p => 1 + p.layer.nodeCount).sum

/-- The number of options, uniforms, techniques and passes of a document, at all levels. -/
def Document.nodeCount (d : Document) : Nat :=
  d.layer.nodeCount + (d.techniques.map Technique.nodeCount).sum

theorem Layer.length_labels (l : Layer) : (Outline.labels l.outline).length = l.nodeCount := by
  simp [outline_eq, Outline.labels_map, nodeCount, RenderOption.outline, Uniform.outline]

theorem Outline.length_labels_map {α : Type} (f : α → Outline) (count : α → Nat)
    (h : ∀ x, (labels [f x]).length = count x) (xs : List α) :
    (labels (xs.map f)).length = (xs.map count).sum := by
  rw [labels_map, List.length_flatMap]
  simp only [h]

theorem Pass.length_labels (p : Pass) :
    (Outline.labels [p.outline]).length = 1 + p.layer.nodeCount := by
  simp [outline, Layer.length_labels, Nat.add_comm]

theorem Technique.length_labels (t : Technique) :
    (Outline.labels [t.outline]).length = t.nodeCount := by
  have hpasses := Outline.length_labels_map _ _ Pass.length_labels t.passes
  simp [outline, nodeCount, Layer.length_labels, hpasses]
  omega

theorem Document.length_labels (d : Document) :
    (Outline.labels d.outline).length = d.nodeCount := by
  have htechniques := Outline.length_labels_map _ _ Technique.length_labels d.techniques
  simp [outline, nodeCount, Layer.length_labels, htechniques]

/-! ## Ends of lines -/

theorem newline_not_mem_number {x : Binary32} (hx : x.isFinite = true) : '\n' ∉ x.text.toList :=
  newline_not_mem (by decide) (Binary32.decode?_text hx).1

theorem newline_not_mem_name {text : String} (h : text.toList ∈ Pattern.identifier.language) :
    '\n' ∉ text.toList :=
  newline_not_mem (by decide) h

theorem newline_not_mem_nameLabel {name : Option String} (h : LegibleName name) :
    '\n' ∉ (nameLabel name).toList := by
  cases name with
  | none => decide
  | some text => exact newline_not_mem_name (h text rfl)

theorem RenderOption.newline_not_mem_display (o : RenderOption) : '\n' ∉ o.display.toList := by
  have hkeyword := newline_not_mem_name (mem_identifier_keyword o)
  have hvalue : '\n' ∉ o.valueText.toList := by
    cases o with
    | cullFace face => cases face <;> decide
    | blend b =>
      have hfactor : ∀ factor : BlendFactor, '\n' ∉ factor.keyword.toList := by
        intro factor
        cases factor <;> decide
      by_cases henabled : b.enabled = true
      · simp [valueText, Blend.display, henabled, hfactor]
      · simp [valueText, Blend.display, henabled]
    | depthTest on => cases on <;> decide
    | depthWrite on => cases on <;> decide
    | shader s => exact newline_not_mem_quoted s.path
  simp [display, hkeyword, hvalue]

theorem UniformValue.newline_not_mem_display {v : UniformValue}
    (hv : ∀ x ∈ v.components, x.isFinite = true) : '\n' ∉ v.display.toList := by
  have hnumber : ∀ x ∈ v.components, '\n' ∉ x.text.toList := fun x hx => newline_not_mem_number (hv x hx)
  cases v with
  | texture t => exact newline_not_mem_quoted t.path
  | float x => exact hnumber x List.mem_cons_self
  | _ => simp_all [components, display, tupleText]

theorem Uniform.newline_not_mem_label {u : Uniform} (hu : u.Legible) : '\n' ∉ u.label.toList := by
  have hname := newline_not_mem_name hu.name
  have hvalue := UniformValue.newline_not_mem_display hu.finite
  rw [toList_label]
  simp [hname, hvalue]

theorem Layer.Legible.labels {l : Layer} (hl : l.Legible) :
    ∀ label ∈ Outline.labels l.outline, '\n' ∉ label.toList := by
  intro label hlabel
  rw [Layer.outline_eq, Outline.labels_append, Outline.labels_map, Outline.labels_map] at hlabel
  rcases List.mem_append.1 hlabel with h | h
  · obtain ⟨o, -, ho⟩ := List.mem_flatMap.1 h
    obtain rfl : label = "⚙ " ++ o.display := by simpa [RenderOption.outline] using ho
    simp [o.newline_not_mem_display]
  · obtain ⟨u, hu, hlabel⟩ := List.mem_flatMap.1 h
    obtain rfl : label = u.label := by simpa [Uniform.outline] using hlabel
    exact Uniform.newline_not_mem_label (hl.uniforms u hu)

theorem Pass.Legible.labels {p : Pass} (hp : p.Legible) :
    ∀ label ∈ Outline.labels [p.outline], '\n' ∉ label.toList := by
  have hname := newline_not_mem_nameLabel hp.name
  simpa [Pass.outline, hname] using hp.layer.labels

theorem Technique.Legible.labels {t : Technique} (ht : t.Legible) :
    ∀ label ∈ Outline.labels [t.outline], '\n' ∉ label.toList := by
  have hname := newline_not_mem_nameLabel ht.name
  have hpasses : ∀ label ∈ Outline.labels (t.passes.map Pass.outline), '\n' ∉ label.toList := by
    intro label hlabel
    rw [Outline.labels_map] at hlabel
    obtain ⟨p, hp, hlabel⟩ := List.mem_flatMap.1 hlabel
    exact (ht.passes p hp).labels label hlabel
  simp only [Technique.outline, Outline.labels_cons, Outline.labels_append, Outline.labels_nil,
    List.append_nil, List.forall_mem_cons, List.forall_mem_append]
  exact ⟨by simp [hname], ht.layer.labels, hpasses⟩

/-- **No label holds the end of a line.** -/
theorem Document.Legible.labels {d : Document} (hd : d.Legible) :
    ∀ label ∈ Outline.labels d.outline, '\n' ∉ label.toList := by
  have htechniques : ∀ label ∈ Outline.labels (d.techniques.map Technique.outline),
      '\n' ∉ label.toList := by
    intro label hlabel
    rw [Outline.labels_map] at hlabel
    obtain ⟨t, ht, hlabel⟩ := List.mem_flatMap.1 hlabel
    exact (hd.techniques t ht).labels label hlabel
  simp only [Document.outline, Outline.labels_append, List.forall_mem_append]
  exact ⟨hd.layer.labels, htechniques⟩

/-! ## Texts -/

def Document.lines (d : Document) : List String := "⧉ document" :: Outline.childLines "" d.outline

theorem Document.treeviz_eq (d : Document) : d.treeviz = joined d.lines := rfl

theorem Document.Legible.lines {d : Document} (hd : d.Legible) : ∀ l ∈ d.lines, '\n' ∉ l.toList := by
  have hpad : '\n' ∉ "".toList := by decide
  have hmore := Outline.not_mem_childLines (by decide) hpad hd.labels
  exact List.forall_mem_cons.2 ⟨by decide, hmore⟩

/-- **The outline of a compiled document tells all of it but its handles**, whatever its source, its path
and the resolver were, and has one line for the document and one for each node. -/
theorem treeviz_eq_iff_of_compile {σ σ' : Type} (resolver : Resolver σ) (resolver' : Resolver σ')
    (settings settings' : Settings) (path path' source source' : String) (host last : σ)
    (host' last' : σ') (d d' : Document)
    (h : compile resolver settings path source host = (.ok d, last))
    (h' : compile resolver' settings' path' source' host' = (.ok d', last')) :
    (d.treeviz = d'.treeviz ↔ d.withoutHandles = d'.withoutHandles) ∧
      ∃ ls : List String, (∀ l ∈ ls, '\n' ∉ l.toList) ∧ d.treeviz = joined ls ∧
        ls.length = 1 + d.nodeCount := by
  have hd := legible_of_compile resolver h
  have hd' := legible_of_compile resolver' h'
  refine ⟨⟨fun htext => ?_, fun hsame => ?_⟩, d.lines, hd.lines, d.treeviz_eq, ?_⟩
  · rw [d.treeviz_eq, d'.treeviz_eq] at htext
    have hlines : d.lines = d'.lines := joined_inj hd.lines hd'.lines htext
    exact Document.outline_inj hd hd' (Outline.childLines_inj (List.cons.inj hlines).2)
  · rw [Document.treeviz, ← d.outline_withoutHandles, hsame, d'.outline_withoutHandles]
    rfl
  · rw [Document.lines, List.length_cons, Outline.length_childLines, d.length_labels, Nat.add_comm]

/-- A source with a quote in a path and an unnamed pass, compiled after other resources have been loaded: the
handles differ, and the outlines do not. -/
theorem treeviz_of_later_handles :
    let counting : Resolver Nat := { load := fun _ _ n => (.ok ⟨n⟩, n + 1) }
    let source := "technique main \x7b Shader \"a\\\"b\" " ++
      "pass \x7b SetUniform tint (1, -0.0) \x7d \x7d"
    let document (n : Nat) : Document :=
      { techniques := [{
          name := some "main", layer := { options := [.shader ⟨"a\"b", ⟨n⟩⟩] },
          passes := [{ name := none,
                       layer := { uniforms := [⟨"tint", .vec2 ⟨0x3F800000⟩ ⟨0x80000000⟩⟩] } }] }] }
    compile counting {} "x.mat" source 0 = (.ok (document 0), 1) ∧
      compile counting {} "y.mat" source 7 = (.ok (document 7), 8) ∧ document 0 ≠ document 7 ∧
      ((document 0).treeviz = (document 7).treeviz ↔
        (document 0).withoutHandles = (document 7).withoutHandles) ∧
      ∃ ls : List String, (∀ l ∈ ls, '\n' ∉ l.toList) ∧ (document 0).treeviz = joined ls ∧
        ls.length = 1 + (document 0).nodeCount := by
  intro counting source document
  have hcompile : compile counting {} "x.mat" source 0 = (.ok (document 0), 1) := by decide +kernel
  have hcompile' : compile counting {} "y.mat" source 7 = (.ok (document 7), 8) := by decide +kernel
  exact ⟨hcompile, hcompile', by decide, treeviz_eq_iff_of_compile counting counting {} {} "x.mat"
    "y.mat" source source 0 1 7 8 (document 0) (document 7) hcompile hcompile'⟩

end MaterialScript
