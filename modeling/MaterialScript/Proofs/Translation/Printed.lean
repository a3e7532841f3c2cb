import MaterialScript.Proofs.Lexing.Spelled
import MaterialScript.Proofs.Number.Plain
import MaterialScript.Proofs.Translation.Relayout

/-!
# Printed statements

Options and uniforms are printed in the words of the language. A list of printed statements, one on
each line, is compiled back to these statements, with the floats bit for bit.

* `Statement`, `Statement.text` : statements and how they are printed;
* `Statement.Printable` : the statements that the language can say without a resource;
* `Grammar.OptionTree.exists_of_printed`, `Grammar.ValueTree.exists_of_printed` : a printed statement
  spells the lexemes of a tree that is translated to it;
* `compile_of_tokens` : lexemes with the tokens of a tree are compiled as the tree.
-/

namespace MaterialScript

open Grammar Lexer

/-! ## Statements -/

inductive Statement where
  | option (o : RenderOption)
  | uniform (u : Uniform)
deriving DecidableEq, Repr

/-- Blending by factors, or none, and no shader. -/
def RenderOption.Printable : RenderOption → Prop
  | blend b => b.enabled = true ∨ b = Blend.disabled
  | shader _ => False
  | _ => True

/-- Finite numbers, and no texture. -/
def UniformValue.Printable : UniformValue → Prop
  | texture _ => False
  | v => ∀ x ∈ v.components, x.isFinite = true

namespace Statement

def text : Statement → String
  | option o => o.display
  | uniform u => "SetUniform " ++ u.name ++ " " ++ u.value.display

/-- A statement without resources that can be written: blending with factors or without any, and
uniforms with an identifier for a name and finite numbers. -/
def Printable : Statement → Prop
  | option o => o.Printable
  | uniform u => u.name.toList ∈ Pattern.identifier.language ∧ u.value.Printable

def option? : Statement → Option RenderOption
  | option o => some o
  | uniform _ => none

def uniform? : Statement → Option Uniform
  | option _ => none
  | uniform u => some u

def node {M : Type} : Statement → Node M
  | option o => .option o
  | uniform u => .uniform u

end Statement

def Document.ofStatements (ss : List Statement) : Document :=
  { layer := { options := ss.filterMap Statement.option?,
               uniforms := ss.filterMap Statement.uniform? } }

/-! ## Words -/

theorem mem_identifier_of_all {w : List Char}
    (h : (w.head?.any isIdentStart && w.all isIdentRest) = true) :
    w ∈ Pattern.identifier.language := by
  cases w with
  | nil => cases h
  | cons c w =>
    simp only [List.head?_cons, Option.any_some, List.all_cons, Bool.and_eq_true,
      List.all_eq_true] at h
    exact mem_identifier.2 ⟨c, w, rfl, h.1, h.2.2⟩

theorem mem_identifier_keyword (o : RenderOption) :
    o.keyword.toList ∈ Pattern.identifier.language := by
  have hwords : ∀ word ∈ optionWords,
      (word.toList.head?.any isIdentStart && word.toList.all isIdentRest) = true := by
    decide +kernel
  have hmem : o.keyword ∈ optionWords := by cases o <;> simp [RenderOption.keyword, optionWords]
  exact mem_identifier_of_all (hwords o.keyword hmem)

theorem spells_face (face : CullFace) : Spells face.keyword.toList [faceToken face] :=
  spells_ident (mem_identifier_of_all (by cases face <;> decide))

theorem spells_factor (factor : BlendFactor) :
    Spells factor.keyword.toList [factorToken factor] :=
  spells_ident (mem_identifier_of_all (by cases factor <;> decide +kernel))

theorem spells_switch (on : Bool) : Spells (switchWord on).toList [switchToken on] :=
  spells_ident (mem_identifier_of_all (by cases on <;> decide))

theorem spells_float {x : Binary32} (hx : x.isFinite = true) :
    Spells x.text.toList [.number x.text] := by
  obtain ⟨hmem, hdecode⟩ := Binary32.decode?_text hx
  exact spells_number hmem (by rw [hdecode]; rfl)

/-! ## Trees of printed statements -/

namespace Grammar

/-- No place in particular: trees are compared by their tokens here. -/
def nowhere : Span := ⟨0, 0⟩

def Located.bare {α : Type} (value : α) : Located α := ⟨value, nowhere⟩

def Numeral.ofFloat (x : Binary32) (hx : x.isFinite = true) : Numeral :=
  ⟨x.text, x, (Binary32.decode?_text hx).2⟩

theorem spells_introduced {keyword value : String} {ts : List Token}
    (hkeyword : keyword.toList ∈ Pattern.identifier.language) (hvalue : Spells value.toList ts) :
    Spells (keyword ++ " " ++ value).toList (.ident keyword :: ts) := by
  have hspells := (spells_ident hkeyword).append_blank (c := ' ') rfl hvalue
  simpa using hspells

theorem OptionTree.exists_of_printed {o : RenderOption} (ho : o.Printable) :
    ∃ t : OptionTree, Spells o.display.toList (t.lexemes.map (·.token)) ∧
      ∀ (σ : Type) (resolver : Resolver σ) (base : String), t.translate resolver base = pure o := by
  have hkeyword := mem_identifier_keyword o
  let head : Introducer := ⟨nowhere, none⟩
  cases o with
  | cullFace face =>
    exact ⟨.cullFace head (.bare face), spells_introduced hkeyword (spells_face face),
      fun _ _ _ => rfl⟩
  | depthTest on =>
    exact ⟨.depthTest head (.bare on), spells_introduced hkeyword (spells_switch on),
      fun _ _ _ => rfl⟩
  | depthWrite on =>
    exact ⟨.depthWrite head (.bare on), spells_introduced hkeyword (spells_switch on),
      fun _ _ _ => rfl⟩
  | blend b =>
    rcases ho with henabled | rfl
    · obtain ⟨enabled, src, dst⟩ := b
      obtain rfl : enabled = true := henabled
      have hfactors : Spells (Blend.display ⟨true, src, dst⟩).toList
          [factorToken src, .comma, factorToken dst] := by
        have hspells := (spells_factor src).append_comma (spells_factor dst)
        simpa [Blend.display] using hspells
      exact ⟨.blend head (.factors (.bare src) nowhere (.bare dst)),
        spells_introduced hkeyword hfactors, fun _ _ _ => rfl⟩
    · have hword : "Disabled".toList ∈ Pattern.identifier.language :=
        mem_identifier_of_all (by decide)
      have hdisabled : Spells Blend.disabled.display.toList [.ident "Disabled"] :=
        spells_ident hword
      exact ⟨.blend head (.disabled nowhere), spells_introduced hkeyword hdisabled, fun _ _ _ => rfl⟩
  | shader s => exact ho.elim

theorem spells_tuple {xs : List Binary32} (hne : xs ≠ []) (hxs : ∀ x ∈ xs, x.isFinite = true) :
    Spells (UniformValue.tupleText xs).toList
      (.leftParen :: (xs.map fun x => Token.number x.text).intersperse .comma ++ [.rightParen]) := by
  have hrow := (spells_row (fun x : Binary32 => x.text.toList) (fun x => .number x.text) hne
    fun x hx => spells_float (hxs x hx)).parens
  simpa [UniformValue.tupleText, Function.comp_def] using hrow

theorem ValueTree.exists_of_printed {v : UniformValue} (hv : v.Printable) :
    ∃ t : ValueTree, Spells v.display.toList (t.lexemes.map (·.token)) ∧
      ∀ (σ : Type) (resolver : Resolver σ) (base : String), t.translate resolver base = pure v := by
  cases v with
  | float x =>
    have hx : x.isFinite = true := hv x List.mem_cons_self
    exact ⟨.scalar (.bare (.ofFloat x hx)), spells_float hx, fun _ _ _ => rfl⟩
  | vec2 x y =>
    have hspells := spells_tuple (List.cons_ne_nil _ _) hv
    simp only [UniformValue.Printable, UniformValue.components, List.forall_mem_cons] at hv
    obtain ⟨hx, hy, -⟩ := hv
    exact ⟨.vec2 nowhere (.bare (.ofFloat x hx)) nowhere (.bare (.ofFloat y hy)) nowhere, hspells,
      fun _ _ _ => rfl⟩
  | vec3 x y z =>
    have hspells := spells_tuple (List.cons_ne_nil _ _) hv
    simp only [UniformValue.Printable, UniformValue.components, List.forall_mem_cons] at hv
    obtain ⟨hx, hy, hz, -⟩ := hv
    exact ⟨.vec3 nowhere (.bare (.ofFloat x hx)) nowhere (.bare (.ofFloat y hy)) nowhere
      (.bare (.ofFloat z hz)) nowhere, hspells, fun _ _ _ => rfl⟩
  | vec4 x y z w =>
    have hspells := spells_tuple (List.cons_ne_nil _ _) hv
    simp only [UniformValue.Printable, UniformValue.components, List.forall_mem_cons] at hv
    obtain ⟨hx, hy, hz, hw, -⟩ := hv
    exact ⟨.vec4 nowhere (.bare (.ofFloat x hx)) nowhere (.bare (.ofFloat y hy)) nowhere
      (.bare (.ofFloat z hz)) nowhere (.bare (.ofFloat w hw)) nowhere, hspells, fun _ _ _ => rfl⟩
  | texture t => exact hv.elim

/-- An item whose lexemes a printed statement spells, and whose translation it is. -/
structure Item.Prints {N : Type} (lexemes : N → List Lexeme) (s : Statement) (item : Item N) :
    Prop where
  spells : Spells s.text.toList ((item.lexemes lexemes).map (·.token))
  translate : ∀ {σ M : Type} (resolver : Resolver σ) (base : String) (inner : N → TranslateM σ M),
    item.translate resolver base inner = pure s.node

theorem Item.exists_of_printed {N : Type} (lexemes : N → List Lexeme) {s : Statement}
    (hs : s.Printable) : ∃ item : Item N, item.Prints lexemes s := by
  cases s with
  | option o =>
    obtain ⟨t, hspells, htranslate⟩ := OptionTree.exists_of_printed hs
    refine ⟨.option t, hspells, fun resolver base inner => ?_⟩
    rw [Item.translate, htranslate, map_pure]
    rfl
  | uniform u =>
    obtain ⟨hname, hvalue⟩ := hs
    obtain ⟨t, hspells, htranslate⟩ := ValueTree.exists_of_printed hvalue
    refine ⟨.uniform ⟨nowhere, .bare u.name, t⟩, ?_, fun resolver base inner => ?_⟩
    · have hword : "SetUniform".toList ∈ Pattern.identifier.language :=
        mem_identifier_of_all (by decide)
      have hnamed := spells_introduced hword (spells_ident hname)
      have hspells' := hnamed.append_blank (c := ' ') rfl hspells
      simpa [Statement.text, UniformTree.lexemes, Item.lexemes, Located.bare] using hspells'
    · rw [Item.translate, UniformTree.translate, htranslate, pure_bind, map_pure]
      rfl

theorem layerOf_map_node {M : Type} (ss : List Statement) :
    layerOf (ss.map (Statement.node (M := M))) = (Document.ofStatements ss).layer ∧
      nestedOf (ss.map (Statement.node (M := M))) = [] := by
  have hoption : ∀ s : Statement, (s.node : Node M).option? = s.option? := by
    rintro (_ | _) <;> rfl
  have huniform : ∀ s : Statement, (s.node : Node M).uniform? = s.uniform? := by
    rintro (_ | _) <;> rfl
  have hnested : ∀ s : Statement, (s.node : Node M).nested? = none := by
    rintro (_ | _) <;> rfl
  simp [layerOf, nestedOf, Document.ofStatements, List.filterMap_map, hoption, huniform, hnested]

/-- Printed statements spell the lexemes of a document, which is translated to them. -/
theorem DocumentTree.exists_of_printed {ss : List Statement} (hss : ∀ s ∈ ss, s.Printable)
    {ending : List Char} (hending : ending = [] ∨ ending = ['\n']) :
    ∃ d : DocumentTree,
      ReadsAs (['\n'].intercalate (ss.map fun s => s.text.toList) ++ ending)
        (d.lexemes.map (·.token)) ∧
      ∀ {σ : Type} (resolver : Resolver σ) (base : String),
        d.translate resolver base = pure (Document.ofStatements ss) := by
  let Printed := {p : Statement × Item TechniqueTree // p.2.Prints TechniqueTree.lexemes p.1}
  obtain ⟨ps, rfl⟩ : ∃ ps : List Printed, ps.map (fun p => p.1.1) = ss := by
    have hrange : ss ∈ Set.range (List.map fun p : Printed => p.1.1) := by
      rw [Set.range_list_map]
      intro s hs
      obtain ⟨item, hitem⟩ := Item.exists_of_printed TechniqueTree.lexemes (hss s hs)
      exact ⟨⟨(s, item), hitem⟩, rfl⟩
    exact hrange
  refine ⟨⟨ps.map fun p => p.1.2⟩, ?_, fun resolver base => ?_⟩
  · have hlines := readsAs_lines (fun p : Printed => p.1.1.text.toList)
      (fun p => (p.1.2.lexemes TechniqueTree.lexemes).map (·.token)) ps (fun p _ => p.2.spells)
      hending
    simpa [DocumentTree.lexemes, List.map_flatMap, List.flatMap_map, Function.comp_def] using hlines
  · have hnodes : (ps.map fun p => p.1.2).mapM
        (Item.translate resolver base (TechniqueTree.translate resolver base)) =
          pure ((ps.map fun p => p.1.1).map Statement.node) := by
      have hnode : ∀ p : Printed, Item.translate resolver base
          (TechniqueTree.translate resolver base) p.1.2 = pure p.1.1.node :=
        fun p => p.2.translate resolver base _
      rw [List.mapM_map, List.map_map, ← List.mapM_pure]
      exact congrArg ps.mapM (funext hnode)
    obtain ⟨hlayer, hnested⟩ := layerOf_map_node (M := Technique) (ps.map fun p => p.1.1)
    rw [DocumentTree.translate, hnodes, pure_bind, hlayer, hnested]
    rfl

end Grammar

/-! ## Documents -/

/-- Lexemes with the tokens of a tree are compiled as the tree is translated. -/
theorem compile_of_tokens {σ : Type} (resolver : Resolver σ) {settings : Settings}
    {path source : String} {host last : σ} {document : Document} {d : DocumentTree}
    (hreads : Reads settings source (d.lexemes.map (·.token)))
    (htranslate : (d.translate resolver path).run host = .ok document last) :
    compile resolver settings path source host = (.ok document, last) := by
  obtain ⟨ls, hlex, htokens⟩ := hreads.lexemes
  have hclosed : ThroughClosed AnySpans := fun _ _ _ _ _ _ => trivial
  have hparse : parse d.lexemes = .ok d.firings := parse_iff_tree.2 ⟨d, rfl, rfl⟩
  unfold compile parseSource parseText
  rw [hlex]
  dsimp only
  rcases parse_alike hclosed (alike_of_map_token htokens) with
    ⟨fs, fs', hfs, hfs', halike⟩ | ⟨e, e', -, he', -⟩
  · rw [hparse] at hfs'
    cases hfs'
    rw [hfs]
    let text := (sourceText settings source).1
    have hsame : SameOutcome (assemble resolver path ⟨text, ls, fs⟩ host)
        (assemble resolver path ⟨text, ls, d.firings⟩ host) :=
      assemble_same resolver path halike host
    rw [assemble_eq_outcome, htranslate] at hsame
    dsimp only
    generalize assemble resolver path _ host = result at hsame ⊢
    cases hsame
    rfl
  · rw [hparse] at he'
    cases he'

/-- **Printed statements compile to themselves.** Options that need no resource and uniforms with
finite numbers, each printed on a line of its own, with or without an end of the last line, are
compiled to a document without techniques with these options and these uniforms in their order. The
resolver is not asked for anything. -/
theorem compile_printed_statements {σ : Type} (resolver : Resolver σ) (settings : Settings)
    (path : String) (host : σ) (ss : List Statement) (hss : ∀ s ∈ ss, s.Printable) (ending : String)
    (hending : ending = "" ∨ ending = "\n") :
    compile resolver settings path (String.intercalate "\n" (ss.map Statement.text) ++ ending) host =
      (.ok { layer := { options := ss.filterMap Statement.option?,
                        uniforms := ss.filterMap Statement.uniform? },
             techniques := [] }, host) := by
  have hending' : ending.toList = [] ∨ ending.toList = ['\n'] := by
    rcases hending with rfl | rfl
    · exact .inl rfl
    · exact .inr rfl
  obtain ⟨d, hreads, htranslate⟩ := DocumentTree.exists_of_printed hss hending'
  obtain ⟨ls, hlex, htokens⟩ := hreads 0
  have htext : (String.intercalate "\n" (ss.map Statement.text) ++ ending).toList =
      ['\n'].intercalate (ss.map fun s => s.text.toList) ++ ending.toList := by
    rw [String.toList_append, String.toList_intercalate, List.map_map]
    rfl
  rw [← htext] at hlex
  refine compile_of_tokens resolver ⟨_, ls, .inl rfl, hlex, htokens⟩ ?_
  rw [htranslate resolver path]
  rfl

/-- No blending, a uniform with the name of an option, a negative zero and the least positive number. -/
theorem compile_printed_zero_and_least_number :
    let counting : Resolver Nat := { load := fun _ _ n => (.ok ⟨n⟩, n + 1) }
    let value : UniformValue := .vec3 ⟨0x80000000⟩ ⟨0x3DCCCCCD⟩ ⟨1⟩
    let ss : List Statement :=
      [.uniform ⟨"Shader", value⟩, .option (.blend .disabled), .option (.depthTest false)]
    let text := "SetUniform Shader (-0, 0.1, 0.000000000000000000000000000000000000000000001)\n" ++
      "BlendFunc Disabled\nDepthTest Off"
    (∀ s ∈ ss, s.Printable) ∧ String.intercalate "\n" (ss.map Statement.text) = text ∧
      compile counting {} "x.mat" (text ++ "\n") 0 =
        (.ok { layer := { options := [.blend .disabled, .depthTest false],
                          uniforms := [⟨"Shader", value⟩] } }, 0) := by
  intro counting value ss text
  have hname : "Shader".toList ∈ Pattern.identifier.language := mem_identifier_of_all (by decide)
  have hvalue : value.Printable := by
    simp only [value, UniformValue.Printable, UniformValue.components, List.forall_mem_cons]
    exact ⟨by decide, by decide, by decide, by simp⟩
  have hprintable : ∀ s ∈ ss, s.Printable := by
    simp only [ss, List.forall_mem_cons]
    exact ⟨⟨hname, hvalue⟩, .inr rfl, trivial, by simp⟩
  have htext : String.intercalate "\n" (ss.map Statement.text) = text := by decide +kernel
  have hcompile := compile_printed_statements counting {} "x.mat" 0 ss hprintable "\n" (.inr rfl)
  rw [htext] at hcompile
  exact ⟨hprintable, htext, hcompile⟩

end MaterialScript
