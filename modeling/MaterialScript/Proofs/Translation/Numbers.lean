import MaterialScript.Proofs.Derivation.Reasons
import MaterialScript.Proofs.Derivation.Rejection
import MaterialScript.Proofs.Number.Literal
import MaterialScript.Proofs.Translation.Concatenation

/-!
# The numbers of a document

The floats of a compiled document are the numbers of its source, each written once and decoded to the
nearest float. Numbers out of range are refused while the text is read, so that the grammar never
meets one.

* `Document.floats` : all floats of a document; `numberTexts` : the number literals of a source;
* `Decodes` : floats that literals are decoded to, in any order;
* `Item.yields`, `DocumentTree.yields` : the floats of a translation are those of its lexemes;
* `literal_of_lex`, `literals_of_lex` : the numbers that are read are literals, and in range.
-/

namespace MaterialScript

open Grammar Lexer

/-! ## Floats and literals -/

def Layer.floats (l : Layer) : List Binary32 := l.uniforms.flatMap fun u => u.value.components

def Technique.floats (t : Technique) : List Binary32 :=
  t.layer.floats ++ t.passes.flatMap fun p => p.layer.floats

def Document.floats (d : Document) : List Binary32 :=
  d.layer.floats ++ d.techniques.flatMap Technique.floats

def Token.numberText? : Token → Option String
  | number text => some text
  | _ => none

def numberTexts (ls : List Lexeme) : List String := ls.filterMap (·.token.numberText?)

@[simp] theorem numberTexts_append (ls ls' : List Lexeme) :
    numberTexts (ls ++ ls') = numberTexts ls ++ numberTexts ls' := List.filterMap_append

theorem numberTexts_cons_of_not {l : Lexeme} (h : l.token.numberText? = none) (ls : List Lexeme) :
    numberTexts (l :: ls) = numberTexts ls := List.filterMap_cons_none h

/-- Texts that are decoded to floats, which may be listed in another order. -/
def Decodes (texts : List String) (xs : List Binary32) : Prop :=
  ∃ ys, List.Forall₂ (fun text y => Binary32.decode? text = some y) texts ys ∧ ys.Perm xs

theorem Decodes.perm {texts : List String} {xs xs' : List Binary32} (h : Decodes texts xs)
    (hxs : xs.Perm xs') : Decodes texts xs' := by
  obtain ⟨ys, hdecode, hys⟩ := h
  exact ⟨ys, hdecode, hys.trans hxs⟩

theorem Decodes.append {texts texts' : List String} {xs xs' : List Binary32}
    (h : Decodes texts xs) (h' : Decodes texts' xs') : Decodes (texts ++ texts') (xs ++ xs') := by
  obtain ⟨ys, hdecode, hys⟩ := h
  obtain ⟨ys', hdecode', hys'⟩ := h'
  exact ⟨ys ++ ys', List.rel_append hdecode hdecode', hys.append hys'⟩

theorem decodes_nil : Decodes [] [] := ⟨[], .nil, .nil⟩

/-! ## Translations -/

namespace Grammar

variable {σ α β : Type}

/-- A translation whose value has the floats of the given literals. -/
def Yields (texts : List String) (floats : α → List Binary32) (m : TranslateM σ α) : Prop :=
  ∀ s x s', m.run s = .ok x s' → Decodes texts (floats x)

theorem Yields.map {texts : List String} {floats : α → List Binary32} {floats' : β → List Binary32}
    {m : TranslateM σ α} (h : Yields texts floats m) {f : α → β}
    (hf : ∀ x, (floats x).Perm (floats' (f x))) : Yields texts floats' (f <$> m) := by
  intro s y s' hrun
  obtain ⟨x, hx, rfl⟩ := run_map_eq_ok hrun
  exact (h s x s' hx).perm (hf x)

theorem Yields.mapM {ι : Type} {lexemes : ι → List Lexeme} {floats : α → List Binary32}
    {f : ι → TranslateM σ α} (hf : ∀ i, Yields (numberTexts (lexemes i)) floats (f i))
    (is : List ι) :
    Yields (numberTexts (is.flatMap lexemes)) (fun xs => xs.flatMap floats) (is.mapM f) := by
  induction is with
  | nil =>
    intro s xs s' hrun
    cases hrun
    exact decodes_nil
  | cons i is ih =>
    intro s y s' hrun
    rw [List.mapM_cons] at hrun
    obtain ⟨x, t, hx, hrun⟩ := run_bind_eq_ok hrun
    rw [bind_pure_comp] at hrun
    obtain ⟨xs, hxs, rfl⟩ := run_map_eq_ok hrun
    rw [List.flatMap_cons, numberTexts_append]
    exact (hf i s x t hx).append (ih t xs s' hxs)

theorem yields_none {texts : List String} (htexts : texts = []) (m : TranslateM σ α) :
    Yields texts (fun _ => []) m := by
  intro s x s' _
  rw [htexts]
  exact decodes_nil

variable (resolver : Resolver σ) (base : String)

theorem OptionTree.numberTexts_lexemes (o : OptionTree) : numberTexts o.lexemes = [] := by
  have hhead : ∀ (i : Introducer) (word : String), numberTexts (i.lexemes word) = [] := by
    intro i word
    cases i with
    | mk span colon => cases colon <;> rfl
  cases o with
  | blend head value => rw [OptionTree.lexemes, numberTexts_append, hhead]; cases value <;> rfl
  | _ => rw [OptionTree.lexemes, numberTexts_append, hhead]; rfl

theorem ValueTree.yields (v : ValueTree) :
    Yields (numberTexts v.lexemes) UniformValue.components (v.translate resolver base) := by
  have hleaf : ∀ x : Located Numeral, Binary32.decode? x.value.text = some x.value.value :=
    fun x => x.value.decodes
  intro s y s' hrun
  cases v with
  | scalar x =>
    cases hrun
    exact ⟨_, .cons (hleaf x) .nil, .refl _⟩
  | vec2 _ x _ y _ =>
    cases hrun
    exact ⟨_, .cons (hleaf x) (.cons (hleaf y) .nil), .refl _⟩
  | vec3 _ x _ y _ z _ =>
    cases hrun
    exact ⟨_, .cons (hleaf x) (.cons (hleaf y) (.cons (hleaf z) .nil)), .refl _⟩
  | vec4 _ x _ y _ z _ w _ =>
    cases hrun
    exact ⟨_, .cons (hleaf x) (.cons (hleaf y) (.cons (hleaf z) (.cons (hleaf w) .nil))), .refl _⟩
  | texture path =>
    rw [ValueTree.translate, bind_pure_comp] at hrun
    obtain ⟨texture, -, rfl⟩ := run_map_eq_ok hrun
    exact decodes_nil

section Scopes
variable {N M : Type}

def Node.floats (inner : M → List Binary32) : Node M → List Binary32
  | option _ => []
  | uniform u => u.value.components
  | nested m => inner m

theorem floats_layerOf (inner : M → List Binary32) (nodes : List (Node M)) :
    (nodes.flatMap (Node.floats inner)).Perm
      ((layerOf nodes).floats ++ (nestedOf nodes).flatMap inner) := by
  induction nodes with
  | nil => exact .nil
  | cons node nodes ih =>
    rw [List.flatMap_cons]
    cases node with
    | option o => exact ih
    | uniform u =>
      show (u.value.components ++ _).Perm ((u.value.components ++ (layerOf nodes).floats) ++ _)
      rw [List.append_assoc]
      exact ih.append_left _
    | nested m =>
      show (inner m ++ _).Perm (_ ++ (inner m ++ (nestedOf nodes).flatMap inner))
      exact (ih.append_left _).trans (List.perm_append_comm_assoc _ _ _)

/-- The floats of an item are those of its lexemes, given this of nested scopes. -/
theorem Item.yields {lexemes : N → List Lexeme} {inner : N → TranslateM σ M}
    {floats : M → List Binary32} (h : ∀ n, Yields (numberTexts (lexemes n)) floats (inner n))
    (item : Item N) :
    Yields (numberTexts (item.lexemes lexemes)) (Node.floats floats)
      (item.translate resolver base inner) := by
  cases item with
  | option o =>
    exact (yields_none o.numberTexts_lexemes (o.translate resolver base)).map fun _ => .refl _
  | uniform u =>
    have hvalue := u.value.yields resolver base
    have huniform : Yields (numberTexts u.lexemes) (fun u : Uniform => u.value.components)
        (u.translate resolver base) := by
      rw [UniformTree.translate, bind_pure_comp]
      exact hvalue.map fun _ => .refl _
    exact huniform.map fun _ => .refl _
  | nested n => exact (h n).map fun _ => .refl _

theorem ScopeTree.numberTexts_lexemes (keyword : String) (inner : N → List Lexeme)
    (t : ScopeTree N) :
    numberTexts (t.lexemes keyword inner) = numberTexts (t.body.flatMap (Item.lexemes inner)) := by
  have hname : numberTexts (t.name.map (Located.lexeme .ident)).toList = [] := by
    cases t.name <;> rfl
  have hclose : numberTexts [⟨.rightBrace, t.right⟩] = [] := rfl
  rw [ScopeTree.lexemes, List.cons_append, List.cons_append, numberTexts_cons_of_not rfl,
    List.append_assoc, List.cons_append, numberTexts_append, hname, List.nil_append,
    numberTexts_cons_of_not rfl, numberTexts_append, hclose, List.append_nil]

end Scopes

theorem PassTree.yields (t : PassTree) :
    Yields (numberTexts t.lexemes) (fun p : Pass => p.layer.floats)
      (t.translate resolver base) := by
  have hempty : ∀ n : Empty, Yields (numberTexts (n.elim : List Lexeme))
      (Empty.elim : Empty → List Binary32) (n.elim : TranslateM σ Empty) := fun n => n.elim
  have hbody := Yields.mapM (Item.yields resolver base hempty) t.body
  rw [PassTree.lexemes, ScopeTree.numberTexts_lexemes, PassTree.translate, bind_pure_comp]
  refine hbody.map fun nodes => ?_
  have hnested : (nestedOf nodes).flatMap (Empty.elim : Empty → List Binary32) = [] :=
    List.flatMap_eq_nil_iff.2 fun n => n.elim
  simpa [hnested] using floats_layerOf Empty.elim nodes

theorem TechniqueTree.yields (t : TechniqueTree) :
    Yields (numberTexts t.lexemes) Technique.floats (t.translate resolver base) := by
  have hbody := Yields.mapM (Item.yields resolver base (PassTree.yields resolver base)) t.body
  rw [TechniqueTree.lexemes, ScopeTree.numberTexts_lexemes, TechniqueTree.translate, bind_pure_comp]
  exact hbody.map fun nodes => floats_layerOf _ nodes

/-- **The floats of a document are the numbers of its lexemes.** -/
theorem DocumentTree.yields (d : DocumentTree) :
    Yields (numberTexts d.lexemes) Document.floats (d.translate resolver base) := by
  have hitems := Yields.mapM (Item.yields resolver base (TechniqueTree.yields resolver base)) d.items
  rw [DocumentTree.lexemes, DocumentTree.translate, bind_pure_comp]
  exact hitems.map fun nodes => floats_layerOf _ nodes

end Grammar

/-! ## Sources -/

theorem Lexer.Segments.token_mem {offset : Nat} {cs : List Char} {ls : List Lexeme}
    (h : Segments offset cs ls) {l : Lexeme} (hl : l ∈ ls) :
    l.token.spelling ∈ l.token.pattern.language ∧ l.token.InRange := by
  induction h with
  | finish => cases hl
  | layout _ _ _ ih => exact ih hl
  | token hmatch hrange _ ih =>
    rcases List.mem_cons.1 hl with rfl | hl
    · exact ⟨hmatch.mem, hrange⟩
    · exact ih hl

theorem literal_of_lex {text : List Char} {ls : List Lexeme} (h : lex text = .ok ls) {number : String}
    (hnumber : number ∈ numberTexts ls) :
    (∃ n : NumberLiteral, String.ofList n.text = number) ∧ (Binary32.decode? number).isSome := by
  obtain ⟨l, hl, htext⟩ := List.mem_filterMap.1 hnumber
  obtain ⟨hmem, hrange⟩ := (segments_of_lexFrom h).token_mem hl
  rcases l with ⟨token, span⟩
  cases token <;> cases htext
  obtain ⟨n, hn⟩ := NumberLiteral.mem_number_iff.1 hmem
  refine ⟨⟨n, ?_⟩, hrange⟩
  rw [hn, Token.spelling, String.ofList_toList]

theorem literals_of_lex {text : List Char} {ls : List Lexeme} (h : lex text = .ok ls) :
    ∃ ns : List NumberLiteral, ns.map (fun n => String.ofList n.text) = numberTexts ls := by
  have hrange : numberTexts ls ∈ Set.range (List.map fun n : NumberLiteral => String.ofList n.text) := by
    rw [Set.range_list_map]
    exact fun number hnumber => (literal_of_lex h hnumber).1
  exact hrange

/-- No failure at a lexeme that is read finds a number out of range. -/
theorem Grammar.Failure.Honest.reason_ne {text : List Char} {ls : List Lexeme}
    (hlex : lex text = .ok ls) {e : Failure} (he : e.Honest) (hrest : e.rest <:+ ls) :
    e.reason ≠ .numberOutOfRange := by
  intro hreason
  unfold Failure.Honest at he
  rw [hreason] at he
  split at he
  · cases he
  · next l rest hl =>
    obtain ⟨number, htoken, hnone⟩ := he
    have hmem : l ∈ ls := hrest.subset (hl ▸ List.mem_cons_self)
    have hnumber : number ∈ numberTexts ls :=
      List.mem_filterMap.2 ⟨l, hmem, by rw [htoken]; rfl⟩
    exact (Option.isSome_iff_ne_none.1 (literal_of_lex hlex hnumber).2) hnone

theorem rest_of_classify_fail {α : Type} {read : Lexeme → Except Reason α} {ls : List Lexeme}
    {e : Failure} (h : classify read ls = .fail e) : e.rest = ls := by
  unfold classify at h
  split at h
  · cases h
    rfl
  · split at h
    · cases h
    · cases h
      rfl

/-- **Number literals are decoded to the nearest float, and the floats of a document are its number
literals.** Literals of any length are the words of the number pattern. One is refused exactly when
it is beyond the greatest finite magnitude by half a unit or more, or at most half of the least
magnitude though not zero; any other gives the nearest float, with its sign. So all floats of a
compiled document are finite, and zero where a zero is written, and the grammar finds no number out of
range. -/
theorem number_literals_decode_to_nearest :
    (∀ text : String,
      text.toList ∈ Pattern.number.language ↔ ∃ n : NumberLiteral, String.ofList n.text = text) ∧
    (∀ n : NumberLiteral,
      (Binary32.decode? (String.ofList n.text) = none ↔
        2 ^ 128 - 2 ^ 103 ≤ |n.value| ∨ 0 < |n.value| ∧ |n.value| ≤ 2 ^ (-150 : Int)) ∧
      ∀ x, Binary32.decode? (String.ofList n.text) = some x →
        x.Nearest n.value ∧ x.negative = n.negative) ∧
    (∀ (σ : Type) (resolver : Resolver σ) (settings : Settings) (path source : String)
      (host last : σ) (document : Document),
      compile resolver settings path source host = (.ok document, last) →
      ∃ (ls : List Lexeme) (ns : List NumberLiteral) (xs : List Binary32),
        lex (sourceText settings source).1 = .ok ls ∧
        ns.map (fun n => String.ofList n.text) = numberTexts ls ∧
        List.Forall₂ (fun n x => Binary32.decode? (String.ofList n.text) = some x ∧
          x.isFinite = true ∧ (x.value = 0 ↔ n.value = 0)) ns xs ∧
        xs.Perm document.floats) ∧
    ∀ (text : List Char) (ls : List Lexeme), lex text = .ok ls →
      (∀ rest, rest <:+ ls → ∀ e, floatValue rest = .fail e → e.reason ≠ .numberOutOfRange) ∧
      ∀ e, parse ls = .error e → e.reason ≠ .numberOutOfRange := by
  refine ⟨fun text => ?_, fun n => ⟨n.decode?_eq_none_iff, fun x hx => ?_⟩, ?_, ?_⟩
  · rw [NumberLiteral.mem_number_iff]
    refine exists_congr fun n => ?_
    rw [← String.toList_inj, String.toList_ofList]
  · obtain ⟨hsign, hnearest, -⟩ := NumberLiteral.nearest_of_decode? hx
    exact ⟨hnearest, hsign⟩
  · intro σ resolver settings path source host last document hcompile
    obtain ⟨d, hparse, hrun⟩ := translate_of_compile_ok resolver hcompile
    obtain ⟨-, hlex, -⟩ := parseText_eq_ok hparse
    obtain ⟨ns, hns⟩ := literals_of_lex hlex
    obtain ⟨xs, hdecode, hperm⟩ := d.yields resolver path host document last hrun
    refine ⟨d.lexemes, ns, xs, hlex, hns, ?_, hperm⟩
    rw [← hns, List.forall₂_map_left_iff] at hdecode
    refine hdecode.imp fun n x hx => ?_
    obtain ⟨-, hnearest, hzero⟩ := NumberLiteral.nearest_of_decode? hx
    exact ⟨hx, hnearest.finite, hzero⟩
  · intro text ls hlex
    refine ⟨fun rest hrest e he => ?_, fun e he => ?_⟩
    · refine (floatValue_honest.of_fail he).reason_ne hlex ?_
      rw [rest_of_classify_fail he]
      exact hrest
    · obtain ⟨front, hfront, -⟩ := (stops_of_parse_error he).viable
      exact (honest_of_parse_error he).reason_ne hlex ⟨front, hfront.symm⟩

/-- A zero with a sign and a tie between two floats are compiled; a tie between the greatest float and
the next power of two is refused. -/
theorem compile_signed_zero_and_ties :
    let source := "SetUniform x (-0.0, 16777217)"
    let tie := "340282356779733661637539395458142568448"
    let floats : List Binary32 := [⟨0x80000000⟩, ⟨0x4B800000⟩]
    let document : Document := { layer := { uniforms := [⟨"x", .vec2 ⟨0x80000000⟩ ⟨0x4B800000⟩⟩] } }
    let nothing : Resolver Unit := { load := fun kind path _ => (.error (.notFound kind path), ()) }
    (compile nothing {} "x.mat" source () = (.ok document, ()) ∧
      ∃ (ls : List Lexeme) (ns : List NumberLiteral) (xs : List Binary32),
        lex (sourceText {} source).1 = .ok ls ∧
        ns.map (fun n => String.ofList n.text) = numberTexts ls ∧
        List.Forall₂ (fun n x => Binary32.decode? (String.ofList n.text) = some x ∧
          x.isFinite = true ∧ (x.value = 0 ↔ n.value = 0)) ns xs ∧
        xs.Perm floats) ∧
    ∃ n : NumberLiteral, String.ofList n.text = tie ∧ |n.value| = 2 ^ 128 - 2 ^ 103 ∧
      Binary32.decode? tie = none := by
  intro source tie floats document nothing
  have hcompile : compile nothing {} "x.mat" source () = (.ok document, ()) := by decide +kernel
  obtain ⟨-, hdecode, hcompiled, -⟩ := number_literals_decode_to_nearest
  let n : NumberLiteral :=
    { negative := false, whole := tie.toList, places := none, exponent := none
      whole_mem := mem_digits.2 ⟨by decide, List.all_eq_true.1 (by decide +kernel)⟩
      places_mem := by simp }
  have hwhole : Nat.ofDigitChars 10 tie.toList 0 = 340282356779733661637539395458142568448 := by
    decide +kernel
  have hvalue : |n.value| = 2 ^ 128 - 2 ^ 103 := by
    rw [n.abs_value]
    simp [NumberLiteral.magnitude, NumberLiteral.placeDigits, NumberLiteral.power, n, hwhole]
    norm_num
  have htext : String.ofList n.text = tie := by
    simp [n, NumberLiteral.text, NumberLiteral.fractionText, NumberLiteral.exponentText, Number.signed]
  have hnone := (hdecode n).1.2 (.inl hvalue.ge)
  rw [htext] at hnone
  exact ⟨⟨hcompile, hcompiled Unit nothing {} "x.mat" source () () document hcompile⟩, n, htext,
    hvalue, hnone⟩

end MaterialScript
