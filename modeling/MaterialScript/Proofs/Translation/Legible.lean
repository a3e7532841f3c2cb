import MaterialScript.Proofs.Translation.Numbers

/-!
# What compiled documents hold

A compiled document can be shown to a reader: its names are identifiers, its numbers are finite, and
blending that is off has the default factors.

* `RenderOption.Legible`, `Uniform.Legible`, …, `Document.Legible` : what can be shown;
* `Gives P m` : a translation whose value has a property; `Item.gives`, …, `DocumentTree.gives` : this is
  so of trees with identifiers for words, by induction on the tree;
* `legible_of_compile` : compiled documents are legible.
-/

namespace MaterialScript

open Grammar Lexer

/-! ## What can be shown -/

/-- Blending that is off has the default factors. -/
def RenderOption.Legible : RenderOption → Prop
  | blend b => b.enabled = true ∨ b = Blend.disabled
  | _ => True

/-- A name, if there is one, is an identifier. -/
def LegibleName (name : Option String) : Prop :=
  ∀ text ∈ name, text.toList ∈ Pattern.identifier.language

/-- The name is an identifier, and the numbers are finite. -/
structure Uniform.Legible (u : Uniform) : Prop where
  name : u.name.toList ∈ Pattern.identifier.language
  finite : ∀ x ∈ u.value.components, x.isFinite = true

structure Layer.Legible (l : Layer) : Prop where
  options : ∀ o ∈ l.options, o.Legible
  uniforms : ∀ u ∈ l.uniforms, u.Legible

structure Pass.Legible (p : Pass) : Prop where
  name : LegibleName p.name
  layer : p.layer.Legible

structure Technique.Legible (t : Technique) : Prop where
  name : LegibleName t.name
  layer : t.layer.Legible
  passes : ∀ p ∈ t.passes, p.Legible

/-- A document whose names are identifiers, whose numbers are finite, and whose blending has the default
factors where it is off. -/
structure Document.Legible (d : Document) : Prop where
  layer : d.layer.Legible
  techniques : ∀ t ∈ d.techniques, t.Legible

theorem Binary32.isFinite_of_decode? {text : String} {x : Binary32} (h : decode? text = some x) :
    x.isFinite = true := by
  unfold decode? at h
  split at h
  · cases h
  · next negative d _ =>
    have hpos : 0 < Number.Format.binary32.infinity := Number.Format.regular_binary32.infinity_pos
    have hle := Number.Format.binary32.ofDecimal_le d
    have hbound : Number.Format.binary32.infinity < signBit := by decide
    dsimp only at h
    split at h
    · cases h
      rw [isFinite, code_ofCode (by decide)]
      simpa using hpos
    · split at h
      · cases h
      · next hin =>
        cases h
        rw [isFinite, code_ofCode (by omega)]
        simp only [decide_eq_true_eq]
        omega

namespace Grammar

variable {σ α β : Type}

/-! ## Properties of translations -/

/-- A translation whose value has a property. -/
def Gives (P : α → Prop) (m : TranslateM σ α) : Prop := ∀ s x s', m.run s = .ok x s' → P x

theorem Gives.map {P : α → Prop} {Q : β → Prop} {m : TranslateM σ α} (h : Gives P m) {f : α → β}
    (hf : ∀ x, P x → Q (f x)) : Gives Q (f <$> m) := by
  intro s y s' hrun
  obtain ⟨x, hx, rfl⟩ := run_map_eq_ok hrun
  exact hf x (h s x s' hx)

theorem Gives.mapM {ι : Type} {P : α → Prop} {f : ι → TranslateM σ α} {is : List ι}
    (h : ∀ i ∈ is, Gives P (f i)) : Gives (fun xs => ∀ x ∈ xs, P x) (is.mapM f) := by
  induction is with
  | nil =>
    intro s xs s' hrun x hx
    cases hrun
    cases hx
  | cons i is ih =>
    obtain ⟨hi, his⟩ := List.forall_mem_cons.1 h
    intro s y s' hrun
    rw [List.mapM_cons] at hrun
    obtain ⟨x, t, hx, hrun⟩ := run_bind_eq_ok hrun
    rw [bind_pure_comp] at hrun
    obtain ⟨xs, hxs, rfl⟩ := run_map_eq_ok hrun
    exact List.forall_mem_cons.2 ⟨hi s x t hx, ih his t xs s' hxs⟩

/-! ## Trees -/

/-- The words among lexemes are identifiers. -/
def Worded (ls : List Lexeme) : Prop :=
  ∀ l ∈ ls, ∀ text, l.token = .ident text → text.toList ∈ Pattern.identifier.language

variable (resolver : Resolver σ) (base : String)

theorem OptionTree.gives (o : OptionTree) :
    Gives RenderOption.Legible (o.translate resolver base) := by
  intro s x s' hrun
  cases o with
  | cullFace head face => cases hrun; trivial
  | blend head value =>
    cases hrun
    cases value with
    | disabled off => exact .inr rfl
    | factors src comma dst => exact .inl rfl
  | depthTest head on => cases hrun; trivial
  | depthWrite head on => cases hrun; trivial
  | shader head path =>
    rw [OptionTree.translate, bind_pure_comp] at hrun
    obtain ⟨shader, -, rfl⟩ := run_map_eq_ok hrun
    trivial

theorem ValueTree.gives (v : ValueTree) :
    Gives (fun x => ∀ c ∈ x.components, c.isFinite = true) (v.translate resolver base) := by
  have hfinite : ∀ x : Located Numeral, x.value.value.isFinite = true :=
    fun x => Binary32.isFinite_of_decode? x.value.decodes
  intro s x s' hrun
  cases v with
  | texture path =>
    rw [ValueTree.translate, bind_pure_comp] at hrun
    obtain ⟨texture, -, rfl⟩ := run_map_eq_ok hrun
    simp [UniformValue.components]
  | _ =>
    cases hrun
    simp [UniformValue.components, hfinite]

section Scopes
variable {N M : Type}

/-- A node that can be shown, given this of nested scopes. -/
def Node.Legible (inner : M → Prop) : Node M → Prop
  | option o => o.Legible
  | uniform u => u.Legible
  | nested m => inner m

theorem legible_layerOf {inner : M → Prop} {nodes : List (Node M)}
    (h : ∀ node ∈ nodes, node.Legible inner) :
    (layerOf nodes).Legible ∧ ∀ m ∈ nestedOf nodes, inner m := by
  refine ⟨⟨fun o ho => ?_, fun u hu => ?_⟩, fun m hm => ?_⟩
  · obtain ⟨node, hnode, hoption⟩ := List.mem_filterMap.1 ho
    cases node <;> cases hoption
    exact h _ hnode
  · obtain ⟨node, hnode, huniform⟩ := List.mem_filterMap.1 hu
    cases node <;> cases huniform
    exact h _ hnode
  · obtain ⟨node, hnode, hnested⟩ := List.mem_filterMap.1 hm
    cases node <;> cases hnested
    exact h _ hnode

theorem Item.gives {lexemes : N → List Lexeme} {inner : N → TranslateM σ M} {P : M → Prop}
    (h : ∀ n, Worded (lexemes n) → Gives P (inner n)) (item : Item N)
    (hwords : Worded (item.lexemes lexemes)) :
    Gives (Node.Legible P) (item.translate resolver base inner) := by
  cases item with
  | option o => exact (o.gives resolver base).map fun _ ho => ho
  | uniform u =>
    have hname : u.name.value.toList ∈ Pattern.identifier.language :=
      hwords (u.name.lexeme .ident) (by simp [Item.lexemes, UniformTree.lexemes]) _ rfl
    have huniform : Gives Uniform.Legible (u.translate resolver base) := by
      rw [UniformTree.translate, bind_pure_comp]
      exact (u.value.gives resolver base).map fun _ hvalue => ⟨hname, hvalue⟩
    exact huniform.map fun _ hu => hu
  | nested n => exact (h n hwords).map fun _ hm => hm

theorem ScopeTree.worded {keyword : String} {inner : N → List Lexeme} {t : ScopeTree N}
    (h : Worded (t.lexemes keyword inner)) :
    LegibleName (t.name.map Located.value) ∧ ∀ item ∈ t.body, Worded (item.lexemes inner) := by
  refine ⟨fun text htext => ?_, fun item hitem l hl => h l ?_⟩
  · obtain ⟨name, hname, rfl⟩ := Option.mem_map.1 htext
    refine h (name.lexeme .ident) ?_ _ rfl
    simp [ScopeTree.lexemes, Option.mem_def.1 hname]
  · have hbody : l ∈ t.body.flatMap (Item.lexemes inner) := List.mem_flatMap.2 ⟨item, hitem, hl⟩
    simp only [ScopeTree.lexemes, List.cons_append, List.mem_cons, List.mem_append]
    tauto

end Scopes

theorem PassTree.gives (t : PassTree) (hwords : Worded t.lexemes) :
    Gives Pass.Legible (t.translate resolver base) := by
  obtain ⟨hname, hbody⟩ := ScopeTree.worded hwords
  have hnested : ∀ n : Empty, Worded (n.elim : List Lexeme) →
      Gives (fun m : Empty => (m.elim : Prop)) (n.elim : TranslateM σ Empty) := fun n => n.elim
  have hitems := Gives.mapM fun item hitem =>
    Item.gives resolver base hnested item (hbody item hitem)
  rw [PassTree.translate, bind_pure_comp]
  exact hitems.map fun nodes hnodes => ⟨hname, (legible_layerOf hnodes).1⟩

theorem TechniqueTree.gives (t : TechniqueTree) (hwords : Worded t.lexemes) :
    Gives Technique.Legible (t.translate resolver base) := by
  obtain ⟨hname, hbody⟩ := ScopeTree.worded hwords
  have hitems := Gives.mapM fun item hitem =>
    Item.gives resolver base (PassTree.gives resolver base) item (hbody item hitem)
  rw [TechniqueTree.translate, bind_pure_comp]
  refine hitems.map fun nodes hnodes => ?_
  obtain ⟨hlayer, hpasses⟩ := legible_layerOf hnodes
  exact ⟨hname, hlayer, hpasses⟩

/-- **A tree with identifiers for words is translated to a document that can be shown.** -/
theorem DocumentTree.gives (d : DocumentTree) (hwords : Worded d.lexemes) :
    Gives Document.Legible (d.translate resolver base) := by
  have hitem : ∀ item ∈ d.items, Worded (item.lexemes TechniqueTree.lexemes) :=
    fun item hitem l hl => hwords l (List.mem_flatMap.2 ⟨item, hitem, hl⟩)
  have hitems := Gives.mapM fun item hmem =>
    Item.gives resolver base (TechniqueTree.gives resolver base) item (hitem item hmem)
  rw [DocumentTree.translate, bind_pure_comp]
  refine hitems.map fun nodes hnodes => ?_
  obtain ⟨hlayer, htechniques⟩ := legible_layerOf hnodes
  exact ⟨hlayer, htechniques⟩

/-- The words of a text that is read are identifiers. -/
theorem worded_of_lex {text : List Char} {ls : List Lexeme} (h : lex text = .ok ls) : Worded ls := by
  intro l hl word hword
  have hmem := ((segments_of_lexFrom h).token_mem hl).1
  rw [hword] at hmem
  exact hmem

end Grammar

/-- **Compiled documents can be shown to a reader.** -/
theorem legible_of_compile {σ : Type} (resolver : Resolver σ) {settings : Settings}
    {path source : String} {host last : σ} {document : Document}
    (h : compile resolver settings path source host = (.ok document, last)) : document.Legible := by
  obtain ⟨d, hparse, hrun⟩ := translate_of_compile_ok resolver h
  obtain ⟨-, hlex, -⟩ := parseText_eq_ok hparse
  exact d.gives resolver path (worded_of_lex hlex) host document last hrun

end MaterialScript
