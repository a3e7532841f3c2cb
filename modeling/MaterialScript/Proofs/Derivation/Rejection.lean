import MaterialScript.Proofs.Derivation.Frontier
import MaterialScript.Proofs.Lexing.Tiling
import MaterialScript.Compiler

/-!
# Where the parser rejects a document

The parser reports the first lexeme that no document has at its place: all lexemes before it are the
front of some document, and with it they are not. A failed statement is not reported where it
starts, because repetition keeps the furthest failure of what it tried last.

* `*_reaches` : each rule of the grammar gets as far as the trees of its production allow;
* `documents` : the lists of lexemes that the parser accepts;
* `stops_of_parse_error` : a rejected list stops being the front of a document where the failure is;
* `Failure.message_quotes` : the message of a failure shows the failing lexeme.
-/

namespace MaterialScript.Grammar

open Computability

/-! ## Words, punctuation and literals -/

theorem punctuation_reads (t : Token) :
    (punctuation t).Reads (fun span => [⟨t, span⟩]) id (fun _ => True) := by
  intro ls span rest
  rw [accepts_punctuation]
  constructor
  · rintro rfl
    exact ⟨span, trivial, rfl, rfl⟩
  · rintro ⟨_, -, rfl, rfl⟩
    rfl

abbrev punctuationWords (t : Token) : Language Lexeme :=
  yields (fun span => [⟨t, span⟩]) (fun _ => True)

theorem punctuation_reaches (t : Token) : (punctuation t).Reaches (punctuationWords t) :=
  (punctuation_reads t).reaches_classify ⟨⟨0, 0⟩, trivial⟩

theorem not_mem_punctuationWords_mul {t : Token} {l : Lexeme} (h : l.token ≠ t)
    (K : Language Lexeme) (more : List Lexeme) : l :: more ∉ punctuationWords t * K := by
  rintro ⟨_, ⟨span, -, rfl⟩, k, -, heq⟩
  obtain ⟨rfl, -⟩ := List.cons.inj heq
  exact h rfl

theorem keyword_reads (word : String) :
    (keyword word).Reads (fun span => [⟨.ident word, span⟩]) id (fun _ => True) := by
  intro ls span rest
  rw [accepts_keyword]
  constructor
  · rintro rfl
    exact ⟨span, trivial, rfl, rfl⟩
  · rintro ⟨_, -, rfl, rfl⟩
    rfl

theorem keyword_reaches (word : String) :
    (keyword word).Reaches (yields (fun span => [⟨.ident word, span⟩]) (fun _ => True)) :=
  (keyword_reads word).reaches_classify ⟨⟨0, 0⟩, trivial⟩

theorem identifier_reads :
    identifier.Reads (leaf .ident) (fun x => (x.value, x.span)) (fun _ => True) := by
  intro ls p rest
  rw [accepts_identifier]
  constructor
  · rintro rfl
    exact ⟨⟨p.1, p.2⟩, trivial, rfl, rfl⟩
  · rintro ⟨x, -, rfl, rfl⟩
    rfl

theorem identifier_reaches : identifier.Reaches (yields (leaf .ident) (fun _ => True)) :=
  identifier_reads.reaches_classify ⟨⟨"", ⟨0, 0⟩⟩, trivial⟩

theorem boolValue_reaches : boolValue.Reaches (yields (leaf switchToken) (fun _ => True)) :=
  boolValue_reads.reaches_classify ⟨⟨true, ⟨0, 0⟩⟩, trivial⟩

theorem floatValue_reaches : floatValue.Reaches (yields (leaf Numeral.token) (fun _ => True)) :=
  floatValue_reads.reaches_classify ⟨⟨⟨"0", .ofCode false 0, by decide +kernel⟩, ⟨0, 0⟩⟩, trivial⟩

theorem stringValue_reaches : stringValue.Reaches (yields (leaf .str) (fun _ => True)) :=
  stringValue_reads.reaches_classify ⟨⟨"", ⟨0, 0⟩⟩, trivial⟩

theorem cullFaceValue_reaches : cullFaceValue.Reaches (yields (leaf faceToken) (fun _ => True)) :=
  cullFaceValue_reads.reaches_classify ⟨⟨.back, ⟨0, 0⟩⟩, trivial⟩

theorem blendFactorValue_reaches :
    blendFactorValue.Reaches (yields (leaf factorToken) (fun _ => True)) :=
  blendFactorValue_reads.reaches_classify ⟨⟨.one, ⟨0, 0⟩⟩, trivial⟩

/-! ## Options -/

abbrev separatorWords : Language Lexeme := 1 + punctuationWords .colon

theorem separator_takes : separator.Takes separatorWords (·.token = .colon) :=
  takes_map ((punctuation_reads .colon).takes_optional fun _ _ => ⟨_, _, rfl, rfl⟩) fun _ => ()

theorem separator_reaches : separator.Reaches separatorWords := by
  have htakes := (punctuation_reads .colon).takes_optional (p := (·.token = .colon))
    fun _ _ => ⟨_, _, rfl, rfl⟩
  have h := htakes.reaches_bind
    ((punctuation_reads .colon).reaches_optional (punctuation_reaches .colon))
    (fun _ => reaches_pure ()) fun _ _ _ => List.cons_ne_nil _ _
  rw [mul_one] at h
  exact h

section Introduced
variable {α β V : Type} {value : Rule α} {lexemes : V → List Lexeme} {result : V → α}

theorem introduced_reaches (word : String) (hv : value.Reads lexemes result (fun _ => True))
    (hvr : value.Reaches (yields lexemes (fun _ => True)))
    (hc : ∀ t r, NoColon (lexemes t ++ r)) (make : Span → α → β) :
    (do
      let start ← keyword word
      separator
      let a ← value
      pure (make start a)).Reaches
      (yields (fun span => [⟨.ident word, span⟩]) (fun _ => True) *
        (separatorWords * (yields lexemes (fun _ => True) * 1))) := by
  refine (keyword_reads word).reaches_bind (keyword_reaches word) fun start => ?_
  refine separator_takes.reaches_bind separator_reaches
    (fun _ => hv.reaches_bind hvr fun a => reaches_pure _) ?_
  rintro ⟨_, span⟩ more rfl ⟨_, ⟨t, -, rfl⟩, k, -, heq⟩
  exact hc t k span more heq

end Introduced

theorem cullFaceOption_reaches : cullFaceOption.Reaches
    (yields OptionTree.lexemes (fun t => ∃ head face, .cullFace head face = t)) :=
  (introduced_reaches "CullFace" cullFaceValue_reads cullFaceValue_reaches
    (fun _ _ => noColon_cons (by simp [faceToken]) _)
    (fun start p => [Firing.mk (.cullFaceOption p.1) (start.through p.2)])).of_reads
    cullFaceOption_reads

theorem blendDisabled_reaches : blendDisabled.Reaches
    (yields BlendTree.lexemes (fun t => ∃ off, .disabled off = t)) := by
  have h : blendDisabled.Reaches _ :=
    (keyword_reads "Disabled").reaches_bind (keyword_reaches "Disabled") fun _ => reaches_pure _
  exact h.of_reads blendDisabled_reads

theorem blendFactors_reaches : blendFactors.Reaches
    (yields BlendTree.lexemes (fun t => ∃ src comma dst, .factors src comma dst = t)) := by
  have h : blendFactors.Reaches _ :=
    blendFactorValue_reads.reaches_bind blendFactorValue_reaches fun _ =>
      (punctuation_reads .comma).reaches_bind (punctuation_reaches .comma) fun _ =>
        blendFactorValue_reads.reaches_bind blendFactorValue_reaches fun _ => reaches_pure _
  exact h.of_reads blendFactors_reads

theorem blendValue_reaches : (orElse blendDisabled blendFactors).Reaches
    (yields BlendTree.lexemes (fun _ => True)) :=
  (blendDisabled_reads.reaches_orElse BlendTree.unambiguous blendFactors_reads
    blendDisabled_reaches blendFactors_reaches).of_reads blendValue_reads

theorem blendOption_reaches : blendOption.Reaches
    (yields OptionTree.lexemes (fun t => ∃ head value, .blend head value = t)) :=
  (introduced_reaches "BlendFunc" blendValue_reads blendValue_reaches BlendTree.noColon
    (fun start p => p.1 ++ [Firing.mk (.blendOption p.2.1) (start.through p.2.2)])).of_reads
    blendOption_reads

theorem switchOption_reaches {lexemes : OptionTree → List Lexeme} {P : OptionTree → Prop}
    {value : OptionTree → List Firing} {word : String} {action : Action}
    (h : (switchOption word action).Reads lexemes value P) :
    (switchOption word action).Reaches (yields lexemes P) :=
  (introduced_reaches word boolValue_reads boolValue_reaches
    (fun _ _ => noColon_cons (by simp [switchToken]) _)
    (fun start v => [v, ⟨action, start.through v.span⟩])).of_reads h

theorem shaderOption_reaches : shaderOption.Reaches
    (yields OptionTree.lexemes (fun t => ∃ head path, .shader head path = t)) :=
  (introduced_reaches "Shader" stringValue_reads stringValue_reaches
    (fun _ _ => noColon_cons (by simp) _)
    (fun _ path => [path, ⟨.shaderOption, path.span⟩])).of_reads shaderOption_reads

theorem option_reaches : option.Reaches (yields OptionTree.lexemes (fun _ => True)) := by
  have hu := OptionTree.unambiguous
  have hwrite := depthWrite_reads.choice_cons hu shaderOption_reads.choice_nil
  have hwriter := depthWrite_reads.reaches_choice_cons hu shaderOption_reads.choice_nil
    (switchOption_reaches depthWrite_reads) shaderOption_reaches.choice_nil
  have htest := depthTest_reads.choice_cons hu hwrite
  have htestr := depthTest_reads.reaches_choice_cons hu hwrite
    (switchOption_reaches depthTest_reads) hwriter
  have hblend := blendOption_reads.choice_cons hu htest
  have hblendr := blendOption_reads.reaches_choice_cons hu htest blendOption_reaches htestr
  exact (cullFaceOption_reads.reaches_choice_cons hu hblend cullFaceOption_reaches
    hblendr).of_reads option_reads

/-! ## Uniforms -/

theorem numbers_reaches (n : Nat) :
    (numbers n).Reaches (yields Row.lexemes (fun r => r.others.length = n)) := by
  induction n with
  | zero =>
    have h : (numbers 0).Reaches _ :=
      floatValue_reads.reaches_bind floatValue_reaches fun _ => reaches_pure _
    exact h.of_reads (numbers_reads 0)
  | succ n ih =>
    have h : (numbers (n + 1)).Reaches _ :=
      floatValue_reads.reaches_bind floatValue_reaches fun _ =>
        (punctuation_reads .comma).reaches_bind (punctuation_reaches .comma) fun _ =>
          (numbers_reads n).reaches_bind ih fun _ => reaches_pure _
    exact h.of_reads (numbers_reads (n + 1))

theorem vectorValue_reaches {n : Nat} {action : Action} {P : ValueTree → Prop}
    (hreads : (vectorValue n action).Reads ValueTree.lexemes ValueTree.firings P) :
    (vectorValue n action).Reaches (yields ValueTree.lexemes P) := by
  have h : (vectorValue n action).Reaches _ :=
    (punctuation_reads .leftParen).reaches_bind (punctuation_reaches .leftParen) fun _ =>
      (numbers_reads n).reaches_bind (numbers_reaches n) fun _ =>
        (punctuation_reads .rightParen).reaches_bind (punctuation_reaches .rightParen) fun _ =>
          reaches_pure _
  exact h.of_reads hreads

theorem scalarValue_reaches : scalarValue.Reaches
    (yields ValueTree.lexemes (fun t => ∃ x, .scalar x = t)) := by
  have h : scalarValue.Reaches _ :=
    floatValue_reads.reaches_bind floatValue_reaches fun _ => reaches_pure _
  exact h.of_reads scalarValue_reads

theorem textureValue_reaches : textureValue.Reaches
    (yields ValueTree.lexemes (fun t => ∃ path, .texture path = t)) := by
  have h : textureValue.Reaches _ :=
    stringValue_reads.reaches_bind stringValue_reaches fun _ => reaches_pure _
  exact h.of_reads textureValue_reads

theorem uniformValue_reaches :
    uniformValue.Reaches (yields ValueTree.lexemes (fun _ => True)) := by
  have hu := ValueTree.unambiguous
  have hscalar := scalarValue_reads.choice_cons hu textureValue_reads.choice_nil
  have hscalarr := scalarValue_reads.reaches_choice_cons hu textureValue_reads.choice_nil
    scalarValue_reaches textureValue_reaches.choice_nil
  have hvec2 := vec2_reads.choice_cons hu hscalar
  have hvec2r := vec2_reads.reaches_choice_cons hu hscalar (vectorValue_reaches vec2_reads) hscalarr
  have hvec3 := vec3_reads.choice_cons hu hvec2
  have hvec3r := vec3_reads.reaches_choice_cons hu hvec2 (vectorValue_reaches vec3_reads) hvec2r
  exact (vec4_reads.reaches_choice_cons hu hvec3 (vectorValue_reaches vec4_reads)
    hvec3r).of_reads uniformValue_reads

theorem uniform_reaches : uniform.Reaches (yields UniformTree.lexemes (fun _ => True)) := by
  have h : uniform.Reaches _ :=
    (keyword_reads "SetUniform").reaches_bind (keyword_reaches "SetUniform") fun _ =>
      identifier_reads.reaches_bind identifier_reaches fun _ =>
        uniformValue_reads.reaches_bind uniformValue_reaches fun _ => reaches_pure _
  exact h.of_reads uniform_reads

/-! ## Scopes -/

def IsWord (l : Lexeme) : Prop := ∃ word, l.token = .ident word

theorem LedBy.isWord {T : Type} {words : List String} {lexemes : T → List Lexeme}
    (hl : LedBy words lexemes) (t : T) : ∃ l more, lexemes t = l :: more ∧ IsWord l := by
  obtain ⟨w, -, span, rest, ht⟩ := hl t
  exact ⟨_, rest, ht, w, rfl⟩

theorem not_mem_of_isWord {t : Token} (ht : ∀ word, t ≠ .ident word) (K : Language Lexeme)
    (l : Lexeme) (more : List Lexeme) (hl : IsWord l) : l :: more ∉ punctuationWords t * K := by
  obtain ⟨word, hl⟩ := hl
  refine not_mem_punctuationWords_mul (fun h => ?_) K more
  exact ht word (h.symm.trans hl)

theorem scope_reaches {N : Type} {inner : N → List Lexeme} {innerFirings : N → List Firing}
    {words : List String} {statement : Rule (List Firing)} (word : String)
    (opening : Option String → Action) (closing : Action) (hl : LedBy words inner)
    (hs : statement.Reads (Item.lexemes inner) (Item.firings innerFirings) (fun _ => True))
    (hsr : statement.Reaches (yields (Item.lexemes inner) (fun _ => True))) :
    (scope word opening statement closing).Reaches
      (yields (ScopeTree.lexemes word inner) (fun _ => True)) := by
  have hitems := Item.ledBy hl
  have hname := identifier_reads.takes_optional (p := IsWord) fun x _ =>
    ⟨x.lexeme .ident, [], rfl, x.value, rfl⟩
  have hbody := hs.takes_many hitems.ne_nil hitems.isWord
  have h : (scope word opening statement closing).Reaches _ :=
    (keyword_reads word).reaches_bind (keyword_reaches word) fun _ =>
      hname.reaches_bind (identifier_reads.reaches_optional identifier_reaches)
        (fun _ => (punctuation_reads .leftBrace).reaches_bind (punctuation_reaches .leftBrace)
          fun _ => hbody.reaches_bind (hs.reaches_many hitems.ne_nil hsr)
            (fun _ => (punctuation_reads .rightBrace).reaches_bind (punctuation_reaches .rightBrace)
              fun _ => reaches_pure _)
            (not_mem_of_isWord (by simp) _))
        (not_mem_of_isWord (by simp) _)
  exact h.of_reads (scope_reads word opening closing hl hs)

theorem pass_reaches : pass.Reaches (yields PassTree.lexemes (fun _ => True)) := by
  obtain ⟨ho, hu⟩ := statement_reads (Empty.elim : Empty → List Lexeme) Empty.elim
  have hr := ho.reaches_orElse passItem_unambiguous hu (option_reaches.of_reads ho)
    (uniform_reaches.of_reads hu)
  exact scope_reaches "pass" .passBegin .passEnd ledBy_empty passItem_reads
    (hr.of_reads passItem_reads)

theorem item_reaches {N : Type} {inner : N → List Lexeme} {innerFirings : N → List Firing}
    {nested : Rule (List Firing)} (hu : Unambiguous (Item.lexemes inner))
    (hn : nested.Reads inner innerFirings (fun _ => True))
    (hnr : nested.Reaches (yields inner (fun _ => True))) :
    (choice nested [option, uniform]).Reaches (yields (Item.lexemes inner) (fun _ => True)) := by
  obtain ⟨ho, hun⟩ := statement_reads inner innerFirings
  have hn' : nested.Reads (Item.lexemes inner) (Item.firings innerFirings) _ :=
    hn.map Item.nested (fun _ => rfl) (fun _ => rfl)
  have hor := ho.reaches_choice_cons hu hun.choice_nil (option_reaches.of_reads ho)
    (uniform_reaches.of_reads hun).choice_nil
  exact (hn'.reaches_choice_cons hu (ho.choice_cons hu hun.choice_nil) (hnr.of_reads hn')
    hor).of_reads (item_reads hu hn)

theorem technique_reaches : technique.Reaches (yields TechniqueTree.lexemes (fun _ => True)) := by
  have hu := Item.unambiguous PassTree.unambiguous PassTree.ledBy (by decide)
  exact scope_reaches "technique" .techniqueBegin .techniqueEnd PassTree.ledBy
    (item_reads hu pass_reads) (item_reaches hu pass_reads pass_reaches)

/-! ## Documents -/

/-- The lists of lexemes that the parser accepts. -/
def documents : Language Lexeme := {ls | ∃ fs, parse ls = .ok fs}

abbrev documentItem : Rule (List Firing) := choice technique [option, uniform]

theorem documentItem_unambiguous : Unambiguous (Item.lexemes TechniqueTree.lexemes) :=
  Item.unambiguous TechniqueTree.unambiguous TechniqueTree.ledBy (by decide)

theorem documentItem_reads : documentItem.Reads (Item.lexemes TechniqueTree.lexemes)
    (Item.firings TechniqueTree.firings) (fun _ => True) :=
  item_reads documentItem_unambiguous technique_reads

theorem documentItem_reaches :
    documentItem.Reaches (yields (Item.lexemes TechniqueTree.lexemes) (fun _ => True)) :=
  item_reaches documentItem_unambiguous technique_reads technique_reaches

theorem documents_eq_kstar :
    documents = (yields (Item.lexemes TechniqueTree.lexemes) (fun _ => True))∗ := by
  ext ls
  rw [mem_kstar_yields]
  constructor
  · rintro ⟨fs, hparse⟩
    obtain ⟨d, rfl, -⟩ := parse_iff_tree.1 hparse
    exact ⟨d.items, rfl⟩
  · rintro ⟨items, rfl⟩
    exact ⟨_, parse_iff_tree.2 ⟨⟨items⟩, rfl, rfl⟩⟩

/-- A document is accepted if nothing is left after its items. -/
theorem parse_eq (ls : List Lexeme) :
    parse ls =
      match manyFrom documentItem ls with
      | ⟨values, [], _⟩ => .ok values.flatten
      | ⟨_, l :: more, alt⟩ =>
        .error ((alt.map (Failure.furthest ⟨l :: more, .unexpected⟩)).getD
          ⟨l :: more, .unexpected⟩) := by
  have hbind : document ls = Rule.bind (many documentItem)
      (fun statements => Rule.bind finish fun _ => Rule.pure statements.flatten) ls := rfl
  rw [parse, Rule.run, hbind, Rule.bind, many]
  dsimp only
  rcases manyFrom documentItem ls with ⟨values, _ | ⟨l, more⟩, alt⟩ <;> rfl

/-- **A rejected list of lexemes stops being the front of a document where the failure is.** -/
theorem stops_of_parse_error {ls : List Lexeme} {e : Failure} (h : parse ls = .error e) :
    Stops documents ls e.rest := by
  have hl := Item.ledBy TechniqueTree.ledBy
  have hstops := (documentItem_reads.reaches_many hl.ne_nil documentItem_reaches).stops ls
  rw [parse_eq] at h
  rw [documents_eq_kstar]
  rw [many, Reply.frontier] at hstops
  rcases hmany : manyFrom documentItem ls with ⟨values, _ | ⟨l, more⟩, alt⟩
  · rw [hmany] at h
    cases h
  · rw [hmany] at h hstops
    cases h
    cases alt with
    | none => exact hstops
    | some e' =>
      rw [Option.map_some, Option.getD_some, rest_furthest]
      exact hstops

/-- The number of lexemes before a failure is the length of the longest front of a document. -/
theorem index_of_parse_error {ls : List Lexeme} {e : Failure} (h : parse ls = .error e) :
    e.index ls.length ≤ ls.length ∧ ls[e.index ls.length]? = e.found? ∧
      Viable documents (ls.take (e.index ls.length)) ∧
      ∀ n, e.index ls.length < n → n ≤ ls.length → ¬ Viable documents (ls.take n) := by
  have hstops := stops_of_parse_error h
  obtain ⟨front, hls, hviable⟩ := hstops.viable
  have hlength : ls.length = front.length + e.rest.length := by rw [hls, List.length_append]
  have hindex : e.index ls.length = front.length := by
    unfold Failure.index
    omega
  rw [hindex]
  refine ⟨by omega, ?_, ?_, fun n hlt hle hn => ?_⟩
  · rw [Failure.found?, List.head?_eq_getElem?]
    conv_lhs => rw [hls]
    rw [List.getElem?_append_right (Nat.le_refl _), Nat.sub_self]
  · conv => arg 2; rw [hls]
    rw [List.take_left]
    exact hviable
  · have hlongest := hstops.longest (ls.take n) (ls.drop n) (List.take_append_drop n ls).symm hn
    rw [List.length_drop] at hlongest
    omega

/-! ## Diagnostics -/

theorem Failure.message_quotes {e : Failure} {l : Lexeme} (h : e.found? = some l) :
    ∃ before after, e.message = before ++ "`" ++ l.token.display ++ "`" ++ after := by
  have hexplain : e.explain? = e.reason.explain? l.token.display := by
    rw [Failure.explain?, h]
  rw [Failure.message, hexplain, h]
  cases e.reason with
  | unexpected => exact ⟨"unexpected ", "", by simp [Reason.explain?]⟩
  | identifierExpected => exact ⟨"expected identifier, found ", "", by simp [Reason.explain?]⟩
  | switchExpected => exact ⟨"expected `On` or `Off`, found ", "", by simp [Reason.explain?]⟩
  | numberExpected => exact ⟨"expected number, found ", "", by simp [Reason.explain?]⟩
  | numberOutOfRange =>
    refine ⟨"number ", " out of range for a 32-bit float", ?_⟩
    simp [Reason.explain?, outOfRangeMessage, String.append_assoc]
  | stringExpected => exact ⟨"expected string literal, found ", "", by simp [Reason.explain?]⟩
  | unknownCullFace => exact ⟨"unknown cull face ", "", by simp [Reason.explain?]⟩
  | unknownBlendFactor => exact ⟨"unknown blend function ", "", by simp [Reason.explain?]⟩

theorem Failure.message_at_end {e : Failure} (h : e.found? = none) :
    e.message = "unexpected end of input" := by
  rw [Failure.message, Failure.explain?, h]

theorem Failure.position_of_found {text : List Char} {ls : List Lexeme} {e : Failure} {l : Lexeme}
    (hlex : Lexer.lex text = .ok ls) (hl : l ∈ ls) (h : e.found? = some l) (file : String) :
    ∃ before after, text = before ++ (l.token.spelling ++ after) ∧
      Text.bytes before = l.span.start ∧
      (e.diagnostic file text).position = some (Position.after before) := by
  obtain ⟨before, after, htext, hbytes, -⟩ := (Lexer.lexFrom_ok_iff.1 hlex).tiling.spelled l hl
  refine ⟨before, after, htext, hbytes, ?_⟩
  rw [Failure.diagnostic, h, ← Position.ofOffset_append before (l.token.spelling ++ after), hbytes,
    ← htext]
  rfl

theorem Failure.position_at_end {e : Failure} (h : e.found? = none) (file : String)
    (text : List Char) : (e.diagnostic file text).position = some (Position.after text) := by
  have hend := Position.ofOffset_append text []
  rw [List.append_nil] at hend
  rw [Failure.diagnostic, h, ← hend]
  rfl

theorem line_of_position {d : Diagnostic} {p : Position} (h : d.position = some p) :
    d.line = p.displayLine ∧ d.column = p.displayColumn := by
  rw [Diagnostic.line, Diagnostic.column, h]
  exact ⟨rfl, rfl⟩

/-- **A text that is read but not parsed is rejected at the first lexeme that no document has
there.** The lexemes before it are the longest front of a document, the diagnostic has its position
and its message shows it; at the end of the text, both say so. -/
theorem compile_rejects_at_longest_viable_front {σ : Type} (resolver : Resolver σ)
    (settings : Settings) (path source : String) (host : σ) (ls : List Lexeme) (e : Failure)
    (hlex : Lexer.lex (sourceText settings source).1 = .ok ls) (hparse : parse ls = .error e) :
    let text := (sourceText settings source).1
    let k := e.index ls.length
    k ≤ ls.length ∧ Viable documents (ls.take k) ∧
    (∀ n, k < n → n ≤ ls.length → ¬ Viable documents (ls.take n)) ∧
    ∃ d : Diagnostic, compile resolver settings path source host = (.error d, host) ∧
      d.kind = .syntaxError ∧ d.file = path ∧
      match ls[k]? with
      | some l =>
        (∃ before after, text = before ++ (l.token.spelling ++ after) ∧
          Text.bytes before = l.span.start ∧ d.line = (Position.after before).displayLine ∧
          d.column = (Position.after before).displayColumn) ∧
        ∃ before after, d.message = before ++ "`" ++ l.token.display ++ "`" ++ after
      | none =>
        d.line = (Position.after text).displayLine ∧ d.column = (Position.after text).displayColumn ∧
        d.message = "unexpected end of input" := by
  intro text k
  obtain ⟨hk, hfound, hviable, hlongest⟩ := index_of_parse_error hparse
  refine ⟨hk, hviable, hlongest, e.diagnostic path text, ?_, rfl, rfl, ?_⟩
  · rw [compile, parseSource, parseText, hlex]
    dsimp only
    rw [hparse]
  · rw [hfound]
    cases hl : e.found? with
    | some l =>
      have hmem : l ∈ ls := List.mem_of_getElem? (hfound.trans hl)
      obtain ⟨before, after, htext, hbytes, hposition⟩ :=
        Failure.position_of_found hlex hmem hl path
      exact ⟨⟨before, after, htext, hbytes, line_of_position hposition⟩, e.message_quotes hl⟩
    | none =>
      obtain ⟨hline, hcolumn⟩ := line_of_position (Failure.position_at_end hl path text)
      exact ⟨hline, hcolumn, e.message_at_end hl⟩

/-- `SetUniform v (1, 2, 3, 4, 5)`: all vectors start like this, and the longest one has to be closed
before the last comma. -/
theorem compile_rejects_fifth_component :
    let source := "SetUniform v (1, 2, 3, 4, 5)"
    let ls : List Lexeme :=
      [⟨.ident "SetUniform", 0, 10⟩, ⟨.ident "v", 11, 12⟩, ⟨.leftParen, 13, 14⟩,
        ⟨.number "1", 14, 15⟩, ⟨.comma, 15, 16⟩, ⟨.number "2", 17, 18⟩, ⟨.comma, 18, 19⟩,
        ⟨.number "3", 20, 21⟩, ⟨.comma, 21, 22⟩, ⟨.number "4", 23, 24⟩, ⟨.comma, 24, 25⟩,
        ⟨.number "5", 26, 27⟩, ⟨.rightParen, 27, 28⟩]
    let e : Failure := ⟨ls.drop 10, .unexpected⟩
    let counting : Resolver Nat := { load := fun _ _ n => (.ok ⟨n⟩, n + 1) }
    (Lexer.lex (sourceText {} source).1 = .ok ls ∧ parse ls = .error e) ∧
    e.index ls.length = 10 ∧ Viable documents (ls.take 10) ∧
    (∀ n, 10 < n → n ≤ 13 → ¬ Viable documents (ls.take n)) ∧
    ∃ d : Diagnostic, compile counting {} "a.mat" source 7 = (.error d, 7) ∧
      d.kind = .syntaxError ∧ ∃ before after, d.message = before ++ "`" ++ "," ++ "`" ++ after := by
  intro source ls e counting
  have hlex : Lexer.lex (sourceText {} source).1 = .ok ls := Lexer.lex_eq_ok (by decide +kernel)
  have hparse : parse ls = .error e := by decide +kernel
  obtain ⟨-, hviable, hlongest, d, hcompile, hkind, -, -, hmessage⟩ :=
    compile_rejects_at_longest_viable_front counting {} "a.mat" source 7 ls e hlex hparse
  exact ⟨⟨hlex, hparse⟩, rfl, hviable, hlongest, d, hcompile, hkind, hmessage⟩

end MaterialScript.Grammar
