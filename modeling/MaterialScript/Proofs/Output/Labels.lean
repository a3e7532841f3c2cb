import MaterialScript.Proofs.Output.Outline
import MaterialScript.Proofs.Output.Quoted
import MaterialScript.Proofs.Translation.Legible
import MaterialScript.Proofs.Translation.Printed

/-!
# Labels

The labels of an outline tell the statements and the names of a compiled document, but for the handles of
its resources.

* `Document.withoutHandles` : a document without its handles;
* `Statement.text_inj` : printed statements are told apart, since they compile to themselves;
* `RenderOption.display_inj`, `Uniform.label_inj`, `nameLabel_inj` : labels are told apart.
-/

namespace MaterialScript

open Grammar Lexer Text

/-! ## Documents without handles -/

/-- A reference to the path alone. -/
def Reference.withoutHandle {kind : ResourceKind} (r : Reference kind) : Reference kind :=
  { r with handle := ⟨0⟩ }

def RenderOption.withoutHandle : RenderOption → RenderOption
  | shader s => shader s.withoutHandle
  | o => o

def UniformValue.withoutHandle : UniformValue → UniformValue
  | texture t => texture t.withoutHandle
  | v => v

def Uniform.withoutHandle (u : Uniform) : Uniform := { u with value := u.value.withoutHandle }

def Layer.withoutHandles (l : Layer) : Layer where
  options := l.options.map RenderOption.withoutHandle
  uniforms := l.uniforms.map Uniform.withoutHandle

def Pass.withoutHandles (p : Pass) : Pass := { p with layer := p.layer.withoutHandles }

def Technique.withoutHandles (t : Technique) : Technique where
  name := t.name
  layer := t.layer.withoutHandles
  passes := t.passes.map Pass.withoutHandles

/-- A document whose resources are known by their paths alone. -/
def Document.withoutHandles (d : Document) : Document where
  layer := d.layer.withoutHandles
  techniques := d.techniques.map Technique.withoutHandles

/-! ## Statements -/

/-- **Printed statements are told apart**, since they compile to themselves. -/
theorem Statement.text_inj {s s' : Statement} (hs : s.Printable) (hs' : s'.Printable)
    (h : s.text = s'.text) : s = s' := by
  let nothing : Resolver Unit := { load := fun kind path _ => (.error (.notFound kind path), ()) }
  have hcompile : ∀ t : Statement, t.Printable →
      compile nothing {} "" t.text () = (.ok (Document.ofStatements [t]), ()) := by
    intro t ht
    have hprintable : ∀ s ∈ [t], s.Printable := by simpa using ht
    obtain ⟨d, hreads, htranslate⟩ := DocumentTree.exists_of_printed hprintable (.inl rfl)
    obtain ⟨ls, hlex, htokens⟩ := hreads 0
    have htext : ['\n'].intercalate ([t].map fun t => t.text.toList) ++ [] = t.text.toList := by
      simp
    rw [htext] at hlex
    refine compile_of_tokens nothing ⟨_, ls, .inl rfl, hlex, htokens⟩ ?_
    rw [htranslate nothing ""]
    rfl
  have hsame := hcompile s hs
  rw [h, hcompile s' hs', Prod.mk.injEq, Except.ok.injEq] at hsame
  cases s <;> cases s' <;> simp [Document.ofStatements, List.filterMap_cons, Statement.option?,
    Statement.uniform?] at hsame ⊢ <;> exact hsame.symm

theorem RenderOption.parts_of_display {o o' : RenderOption} (h : o.display = o'.display) :
    o.keyword = o'.keyword ∧ o.valueText = o'.valueText := by
  have hparts : ∀ o : RenderOption,
      o.display.toList = o.keyword.toList ++ ' ' :: o.valueText.toList := by
    intro o
    simp [display]
  have hspace : ∀ o : RenderOption, ' ' ∉ o.keyword.toList :=
    fun o => not_mem_word (.inl rfl) (mem_identifier_keyword o) (.inl rfl)
  rw [← String.toList_inj, hparts, hparts] at h
  obtain ⟨hkeyword, hvalue⟩ := append_separator_inj (hspace o) (hspace o') h
  exact ⟨String.toList_inj.1 hkeyword, String.toList_inj.1 hvalue⟩

/-- **Options are told from how they are shown**, but for handles. -/
theorem RenderOption.display_inj {o o' : RenderOption} (ho : o.Legible) (ho' : o'.Legible)
    (h : o.display = o'.display) : o.withoutHandle = o'.withoutHandle := by
  by_cases hshader : o.keyword = "Shader"
  · obtain ⟨hkeyword, hvalue⟩ := parts_of_display h
    rw [hshader] at hkeyword
    cases o <;> cases o' <;> simp [keyword] at hshader hkeyword
    exact congrArg (fun path => shader ⟨path, ⟨0⟩⟩) (quoted_inj hvalue)
  · have hprintable : ∀ o : RenderOption, o.Legible → o.keyword ≠ "Shader" → o.Printable := by
      intro o ho hkeyword
      cases o with
      | shader s => exact absurd rfl hkeyword
      | blend b => exact ho
      | _ => trivial
    have hkeyword' : o'.keyword ≠ "Shader" := (parts_of_display h).1 ▸ hshader
    have hsame : Statement.option o = .option o' :=
      Statement.text_inj (hprintable o ho hshader) (hprintable o' ho' hkeyword') h
    cases hsame
    rfl

/-- No other value is shown as a text between quotes. -/
theorem UniformValue.display_ne_quoted {v : UniformValue} (hv : v.Printable) (path : String) :
    v.display ≠ quoted path := by
  have hquoted : ∃ cs, (quoted path).toList = '"' :: cs := ⟨_, String.toList_ofList⟩
  obtain ⟨cs, hcs⟩ := hquoted
  intro h
  rw [← String.toList_inj, hcs] at h
  cases v with
  | texture t => exact hv
  | float x =>
    have hnumber := (Binary32.decode?_text (hv x List.mem_cons_self)).1
    have hfront : x.text.toList <+: '"' :: cs := by
      rw [← h]
      exact List.prefix_rfl
    have hlead := ofLead?_of_front hnumber hfront
    exact absurd hlead (by decide)
  | _ => simp [display, tupleText] at h

/-- **Uniforms are told from how they are shown**, but for handles. -/
theorem Uniform.display_inj {u u' : Uniform} (hu : u.Legible) (hu' : u'.Legible)
    (hname : u.name = u'.name) (h : u.value.display = u'.value.display) :
    u.withoutHandle = u'.withoutHandle := by
  obtain ⟨name, value⟩ := u
  obtain ⟨name', value'⟩ := u'
  obtain rfl : name = name' := hname
  have hprintable : ∀ v : UniformValue, (∀ x ∈ v.components, x.isFinite = true) →
      v.Printable ∨ ∃ t, v = .texture t := by
    intro v hv
    cases v with
    | texture t => exact .inr ⟨t, rfl⟩
    | _ => exact .inl hv
  dsimp only at h
  rcases hprintable value hu.finite with hvalue | ⟨t, rfl⟩
  · rcases hprintable value' hu'.finite with hvalue' | ⟨t', rfl⟩
    · have hsame : Statement.uniform ⟨name, value⟩ = .uniform ⟨name, value'⟩ :=
        Statement.text_inj ⟨hu.name, hvalue⟩ ⟨hu'.name, hvalue'⟩
          (congrArg ("SetUniform " ++ name ++ " " ++ ·) h)
      cases hsame
      rfl
    · exact absurd h (UniformValue.display_ne_quoted hvalue t'.path)
  · rcases hprintable value' hu'.finite with hvalue' | ⟨t', rfl⟩
    · exact absurd h.symm (UniformValue.display_ne_quoted hvalue' t.path)
    · have hpath : t.path = t'.path := quoted_inj h
      simp [withoutHandle, UniformValue.withoutHandle, Reference.withoutHandle, hpath]

/-! ## Labels -/

def Uniform.label (u : Uniform) : String := "≡ SetUniform " ++ u.name ++ ": " ++ u.value.display

theorem Uniform.toList_label (u : Uniform) : u.label.toList =
    "≡ SetUniform ".toList ++ (u.name.toList ++ ':' :: ' ' :: u.value.display.toList) := by
  change ("≡ SetUniform " ++ u.name ++ ": " ++ u.value.display).toList = _
  simp

/-- **Uniforms are told from their labels**, but for handles: a name holds no colon. -/
theorem Uniform.label_inj {u u' : Uniform} (hu : u.Legible) (hu' : u'.Legible)
    (h : u.label = u'.label) : u.withoutHandle = u'.withoutHandle := by
  have hcolon : ∀ {u : Uniform}, u.Legible → ':' ∉ u.name.toList :=
    fun hu => not_mem_word (.inl rfl) hu.name (.inr (.inr rfl))
  rw [← String.toList_inj, toList_label, toList_label, List.append_cancel_left_eq] at h
  obtain ⟨hname, hvalue⟩ := append_separator_inj (hcolon hu) (hcolon hu') h
  exact display_inj hu hu' (String.toList_inj.1 hname)
    (String.toList_inj.1 (List.cons.inj hvalue).2)

/-- **A name is told from its label**, and the absence of a name from every name. -/
theorem nameLabel_inj {name name' : Option String} (hname : LegibleName name)
    (hname' : LegibleName name') (h : nameLabel name = nameLabel name') : name = name' := by
  have hne : ∀ text : String, text.toList ∈ Pattern.identifier.language → "<unnamed>" ≠ text := by
    rintro text htext rfl
    obtain ⟨c, v, hword, hc, -⟩ := mem_identifier.1 htext
    rw [← (List.cons.inj hword).1] at hc
    exact absurd hc (by decide)
  cases name with
  | none =>
    cases name' with
    | none => rfl
    | some text' => exact absurd h (hne text' (hname' text' rfl))
  | some text =>
    cases name' with
    | none => exact absurd h.symm (hne text (hname text rfl))
    | some text' => exact congrArg some h

end MaterialScript
