import MaterialScript.Proofs.Derivation.Accepts

/-!
# The parser finds the derivation

Each rule of the grammar reads the trees of its production. The rules try their alternatives in
order and repeat as often as they can; since the trees are unambiguous, and no statement starts
with a brace or at the end of the input, that loses none of the derivations.

* `*_reads` : the trees that a rule reads;
* `scope_reads` : scopes, given what is read inside of them;
* `parse_iff_tree` : the parser accepts exactly the lexemes of trees, and returns what the tree
  fires.
-/

namespace MaterialScript.Grammar

/-! ## Words, punctuation and literals -/

theorem accepts_punctuation {t : Token} {ls rest : List Lexeme} {span : Span} :
    (punctuation t).Accepts ls span rest ↔ ls = ⟨t, span⟩ :: rest := by
  rw [punctuation, accepts_satisfy]
  simp

theorem accepts_keyword {word : String} {ls rest : List Lexeme} {span : Span} :
    (keyword word).Accepts ls span rest ↔ ls = ⟨.ident word, span⟩ :: rest := by
  rw [keyword, accepts_satisfy]
  simp

theorem accepts_identifier {ls rest : List Lexeme} {p : String × Span} :
    identifier.Accepts ls p rest ↔ ls = ⟨.ident p.1, p.2⟩ :: rest := by
  rw [identifier, accepts_classify]
  constructor
  · rintro ⟨⟨t, span⟩, h, rfl⟩
    cases t <;> simp at h
    cases h
    rfl
  · rintro rfl
    exact ⟨_, rfl, rfl⟩

abbrev leaf {α : Type} (token : α → Token) (x : Located α) : List Lexeme := [x.lexeme token]

theorem classify_reads {α β : Type} {read : Lexeme → Except Reason β} {token : α → Token}
    {value : Located α → β}
    (h : ∀ l b, read l = .ok b ↔ ∃ x : Located α, l = x.lexeme token ∧ b = value x) :
    (classify read).Reads (leaf token) value (fun _ => True) := by
  intro ls b rest
  rw [accepts_classify]
  constructor
  · rintro ⟨l, hl, rfl⟩
    obtain ⟨x, rfl, rfl⟩ := (h l b).1 hl
    exact ⟨x, trivial, rfl, rfl⟩
  · rintro ⟨x, -, rfl, rfl⟩
    exact ⟨_, (h _ _).2 ⟨x, rfl, rfl⟩, rfl⟩

theorem boolValue_reads :
    boolValue.Reads (leaf switchToken) (Located.firing .bool) (fun _ => True) := by
  refine classify_reads fun l b => ?_
  obtain ⟨t, span⟩ := l
  constructor
  · intro h
    dsimp only at h
    split at h
    · next ht => cases h; exact ⟨⟨true, span⟩, by rw [ht]; rfl, rfl⟩
    · split at h
      · next ht => cases h; exact ⟨⟨false, span⟩, by rw [ht]; rfl, rfl⟩
      · cases h
  · rintro ⟨⟨on, span'⟩, hl, rfl⟩
    cases hl
    cases on <;> rfl

theorem floatValue_reads :
    floatValue.Reads (leaf Numeral.token) (Located.firing Numeral.action) (fun _ => True) := by
  refine classify_reads fun l b => ?_
  obtain ⟨t, span⟩ := l
  constructor
  · intro h
    cases t <;> simp only [reduceCtorEq] at h
    next text =>
      split at h
      · next x hx => cases h; exact ⟨⟨⟨text, x, hx⟩, span⟩, rfl, rfl⟩
      · cases h
  · rintro ⟨⟨⟨text, x, hx⟩, span'⟩, hl, rfl⟩
    cases hl
    simp only [Numeral.token, hx]
    rfl

theorem stringValue_reads :
    stringValue.Reads (leaf .str) (Located.firing .string) (fun _ => True) := by
  refine classify_reads fun l b => ?_
  obtain ⟨t, span⟩ := l
  constructor
  · intro h
    cases t <;> simp only [reduceCtorEq] at h
    next content => cases h; exact ⟨⟨content, span⟩, rfl, rfl⟩
  · rintro ⟨⟨content, span'⟩, hl, rfl⟩
    cases hl
    rfl

theorem cullFaceValue_reads :
    cullFaceValue.Reads (leaf faceToken) (fun x => (x.value, x.span)) (fun _ => True) := by
  refine classify_reads fun l b => ?_
  obtain ⟨t, span⟩ := l
  constructor
  · intro h
    cases t <;> simp only [reduceCtorEq] at h
    next text =>
      split at h
      · next face hf =>
        cases h
        exact ⟨⟨face, span⟩, by rw [← CullFace.keyword_of_ofKeyword? hf]; rfl, rfl⟩
      · cases h
  · rintro ⟨⟨face, span'⟩, hl, rfl⟩
    cases hl
    simp only [faceToken, CullFace.ofKeyword?_keyword]

theorem blendFactorValue_reads :
    blendFactorValue.Reads (leaf factorToken) (Located.firing .blendFactor) (fun _ => True) := by
  refine classify_reads fun l b => ?_
  obtain ⟨t, span⟩ := l
  constructor
  · intro h
    cases t <;> simp only [reduceCtorEq] at h
    next text =>
      split at h
      · next factor hf =>
        cases h
        exact ⟨⟨factor, span⟩, by rw [← BlendFactor.keyword_of_ofKeyword? hf]; rfl, rfl⟩
      · cases h
  · rintro ⟨⟨factor, span'⟩, hl, rfl⟩
    cases hl
    simp only [factorToken, BlendFactor.ofKeyword?_keyword]
    rfl

/-! ## Options -/

theorem accepts_separator {ls rest : List Lexeme} {u : Unit} :
    separator.Accepts ls u rest ↔ ∃ colon : Option Span,
      ls = (colon.map (Lexeme.mk .colon)).toList ++ rest ∧ (colon = none → NoColon rest) := by
  simp only [separator, accepts_bind, accepts_pure, accepts_optional, accepts_punctuation]
  constructor
  · rintro ⟨o, mid, ⟨span, rfl, rfl⟩ | ⟨rfl, rfl, hr⟩, -, rfl⟩
    · exact ⟨some span, rfl, nofun⟩
    · refine ⟨none, rfl, fun _ span rest h => ?_⟩
      exact hr span rest (accepts_punctuation.2 h)
  · rintro ⟨colon, rfl, hc⟩
    cases colon with
    | none =>
      refine ⟨none, rest, .inr ⟨rfl, rfl, ?_⟩, trivial, rfl⟩
      intro span mid h
      exact hc rfl span mid (accepts_punctuation.1 h)
    | some span => exact ⟨some span, rest, .inl ⟨span, rfl, rfl⟩, trivial, rfl⟩

section Introduced
variable {α β V : Type} {value : Rule α} {lexemes : V → List Lexeme} {result : V → α}

theorem introduced_reads (word : String) (hv : value.Reads lexemes result (fun _ => True))
    (hc : ∀ t r, NoColon (lexemes t ++ r)) (make : Span → α → β) :
    (do
      let start ← keyword word
      separator
      let a ← value
      pure (make start a)).Reads
      (fun p : Introducer × V => p.1.lexemes word ++ lexemes p.2)
      (fun p => make p.1.word (result p.2)) (fun _ => True) := by
  intro ls b rest
  simp only [accepts_bind, accepts_keyword, accepts_separator, accepts_pure]
  constructor
  · rintro ⟨start, _, rfl, _, mid, ⟨colon, rfl, -⟩, a, _, ha, rfl, rfl⟩
    obtain ⟨t, -, rfl, rfl⟩ := (hv _ _ _).1 ha
    exact ⟨(⟨start, colon⟩, t), trivial, by simp [Introducer.lexemes], rfl⟩
  · rintro ⟨⟨⟨start, colon⟩, t⟩, -, rfl, rfl⟩
    refine ⟨start, _, ?_, (), lexemes t ++ rest, ⟨colon, rfl, fun _ => hc t rest⟩,
      result t, rest, (hv _ _ _).2 ⟨t, trivial, rfl, rfl⟩, rfl, rfl⟩
    simp [Introducer.lexemes]

end Introduced

theorem cullFaceOption_reads : cullFaceOption.Reads OptionTree.lexemes OptionTree.firings
    (fun t => ∃ head face, .cullFace head face = t) := by
  have h := introduced_reads "CullFace" cullFaceValue_reads
    (fun _ _ => noColon_cons (by simp [faceToken]) _)
    (fun start p => [Firing.mk (.cullFaceOption p.1) (start.through p.2)])
  exact (h.map (fun p => .cullFace p.1 p.2) (fun _ => rfl) (fun _ => rfl)).congr (by simp)

theorem switchOption_reads (word : String) (action : Action) : (switchOption word action).Reads
    (fun p : Introducer × Located Bool => p.1.lexemes word ++ [p.2.lexeme switchToken])
    (fun p => [p.2.firing .bool, ⟨action, p.1.word.through p.2.span⟩]) (fun _ => True) :=
  introduced_reads word boolValue_reads (fun _ _ => noColon_cons (by simp [switchToken]) _)
    (fun start v => [v, ⟨action, start.through v.span⟩])

theorem depthTest_reads : (switchOption "DepthTest" .depthTestOption).Reads OptionTree.lexemes
    OptionTree.firings (fun t => ∃ head on, .depthTest head on = t) :=
  ((switchOption_reads "DepthTest" .depthTestOption).map (fun p => .depthTest p.1 p.2)
    (fun _ => rfl) (fun _ => rfl)).congr (by simp)

theorem depthWrite_reads : (switchOption "DepthWrite" .depthWriteOption).Reads OptionTree.lexemes
    OptionTree.firings (fun t => ∃ head on, .depthWrite head on = t) :=
  ((switchOption_reads "DepthWrite" .depthWriteOption).map (fun p => .depthWrite p.1 p.2)
    (fun _ => rfl) (fun _ => rfl)).congr (by simp)

theorem shaderOption_reads : shaderOption.Reads OptionTree.lexemes OptionTree.firings
    (fun t => ∃ head path, .shader head path = t) := by
  have h := introduced_reads "Shader" stringValue_reads (fun _ _ => noColon_cons (by simp) _)
    (fun _ path => [path, ⟨.shaderOption, path.span⟩])
  exact (h.map (fun p => .shader p.1 p.2) (fun _ => rfl) (fun _ => rfl)).congr (by simp)

/-- What a blending value is read as: what it fires, whether there is blending, and its end. -/
def BlendTree.reading (t : BlendTree) : List Firing × Bool × Span := (t.literals, t.enabled, t.stop)

theorem blendDisabled_reads : blendDisabled.Reads BlendTree.lexemes BlendTree.reading
    (fun t => ∃ off, .disabled off = t) := by
  intro ls b rest
  simp only [blendDisabled, accepts_bind, accepts_keyword, accepts_pure]
  constructor
  · rintro ⟨off, _, rfl, rfl, rfl⟩
    exact ⟨.disabled off, ⟨off, rfl⟩, rfl, rfl⟩
  · rintro ⟨_, ⟨off, rfl⟩, rfl, rfl⟩
    exact ⟨off, rest, rfl, rfl, rfl⟩

theorem blendFactors_reads : blendFactors.Reads BlendTree.lexemes BlendTree.reading
    (fun t => ∃ src comma dst, .factors src comma dst = t) := by
  intro ls b rest
  simp only [blendFactors, accepts_bind, accepts_punctuation, accepts_pure,
    blendFactorValue_reads _ _ _]
  constructor
  · rintro ⟨_, _, ⟨src, -, rfl, rfl⟩, comma, _, rfl, _, _, ⟨dst, -, rfl, rfl⟩, rfl, rfl⟩
    exact ⟨.factors src comma dst, ⟨src, comma, dst, rfl⟩, rfl, rfl⟩
  · rintro ⟨_, ⟨src, comma, dst, rfl⟩, rfl, rfl⟩
    exact ⟨_, _, ⟨src, trivial, rfl, rfl⟩, comma, _, rfl, _, rest, ⟨dst, trivial, rfl, rfl⟩,
      rfl, rfl⟩

theorem blendValue_reads : (orElse blendDisabled blendFactors).Reads BlendTree.lexemes
    BlendTree.reading (fun _ => True) :=
  (blendDisabled_reads.orElse BlendTree.unambiguous blendFactors_reads).congr fun t => by
    cases t <;> simp

theorem blendOption_reads : blendOption.Reads OptionTree.lexemes OptionTree.firings
    (fun t => ∃ head value, .blend head value = t) := by
  have h := introduced_reads "BlendFunc" blendValue_reads BlendTree.noColon
    (fun start p => p.1 ++ [Firing.mk (.blendOption p.2.1) (start.through p.2.2)])
  exact (h.map (fun p => .blend p.1 p.2) (fun _ => rfl) (fun _ => rfl)).congr (by simp)

theorem option_reads : option.Reads OptionTree.lexemes OptionTree.firings (fun _ => True) := by
  have hu := OptionTree.unambiguous
  refine (cullFaceOption_reads.choice_cons hu (blendOption_reads.choice_cons hu
    (depthTest_reads.choice_cons hu (depthWrite_reads.choice_cons hu
      shaderOption_reads.choice_nil)))).congr ?_
  rintro (_ | _ | _ | _ | _) <;> simp

/-! ## Uniforms -/

/-- Numbers with commas between them: the first, and the others with the comma before them. -/
structure Row where
  first : Located Numeral
  others : List (Span × Located Numeral)

def Row.lexemes (r : Row) : List Lexeme :=
  r.first.lexeme Numeral.token ::
    r.others.flatMap (fun p => [⟨.comma, p.1⟩, p.2.lexeme Numeral.token])

def Row.firings (r : Row) : List Firing :=
  r.first.firing Numeral.action :: r.others.map (fun p => p.2.firing Numeral.action)

theorem numbers_reads (n : Nat) :
    (numbers n).Reads Row.lexemes Row.firings (fun r => r.others.length = n) := by
  induction n with
  | zero =>
    intro ls b rest
    simp only [numbers, accepts_bind, accepts_pure, floatValue_reads _ _ _]
    constructor
    · rintro ⟨_, _, ⟨x, -, rfl, rfl⟩, rfl, rfl⟩
      exact ⟨⟨x, []⟩, rfl, rfl, rfl⟩
    · rintro ⟨⟨x, others⟩, hn, rfl, rfl⟩
      cases List.length_eq_zero_iff.1 hn
      exact ⟨_, rest, ⟨x, trivial, rfl, rfl⟩, rfl, rfl⟩
  | succ n ih =>
    intro ls b rest
    simp only [numbers, accepts_bind, accepts_pure, accepts_punctuation, floatValue_reads _ _ _,
      ih _ _ _]
    constructor
    · rintro ⟨_, _, ⟨x, -, rfl, rfl⟩, comma, _, rfl, _, _, ⟨⟨y, others⟩, hn, rfl, rfl⟩, rfl, rfl⟩
      exact ⟨⟨x, (comma, y) :: others⟩, by simpa using hn, rfl, rfl⟩
    · rintro ⟨⟨x, others⟩, hn, rfl, rfl⟩
      cases others with
      | nil => cases hn
      | cons p others =>
        exact ⟨_, _, ⟨x, trivial, rfl, rfl⟩, p.1, _, rfl, _, _,
          ⟨⟨p.2, others⟩, by simpa using hn, rfl, rfl⟩, rfl, rfl⟩

theorem accepts_vectorValue {n : Nat} {action : Action} {ls rest : List Lexeme}
    {fs : List Firing} :
    (vectorValue n action).Accepts ls fs rest ↔ ∃ left, ∃ row : Row, ∃ right,
      row.others.length = n ∧
      ls = ⟨.leftParen, left⟩ :: row.lexemes ++ ⟨.rightParen, right⟩ :: rest ∧
      fs = row.firings ++ [⟨action, left.through right⟩] := by
  simp only [vectorValue, accepts_bind, accepts_pure, accepts_punctuation, numbers_reads _ _ _ _]
  constructor
  · rintro ⟨left, _, rfl, _, _, ⟨row, hn, rfl, rfl⟩, right, _, rfl, rfl, rfl⟩
    exact ⟨left, row, right, hn, rfl, rfl⟩
  · rintro ⟨left, row, right, hn, rfl, rfl⟩
    exact ⟨left, _, rfl, _, _, ⟨row, hn, rfl, rfl⟩, right, rest, rfl, rfl, rfl⟩

theorem vec2_reads : (vectorValue 1 .uniformVec2).Reads ValueTree.lexemes ValueTree.firings
    (fun t => ∃ left x comma y right, .vec2 left x comma y right = t) := by
  intro ls b rest
  rw [accepts_vectorValue]
  constructor
  · rintro ⟨left, ⟨x, others⟩, right, hn, rfl, rfl⟩
    match others, hn with
    | [(comma, y)], _ => exact ⟨_, ⟨left, x, comma, y, right, rfl⟩, rfl, rfl⟩
  · rintro ⟨_, ⟨left, x, comma, y, right, rfl⟩, rfl, rfl⟩
    exact ⟨left, ⟨x, [(comma, y)]⟩, right, rfl, rfl, rfl⟩

theorem vec3_reads : (vectorValue 2 .uniformVec3).Reads ValueTree.lexemes ValueTree.firings
    (fun t => ∃ left x comma y comma' z right, .vec3 left x comma y comma' z right = t) := by
  intro ls b rest
  rw [accepts_vectorValue]
  constructor
  · rintro ⟨left, ⟨x, others⟩, right, hn, rfl, rfl⟩
    match others, hn with
    | [(comma, y), (comma', z)], _ =>
      exact ⟨_, ⟨left, x, comma, y, comma', z, right, rfl⟩, rfl, rfl⟩
  · rintro ⟨_, ⟨left, x, comma, y, comma', z, right, rfl⟩, rfl, rfl⟩
    exact ⟨left, ⟨x, [(comma, y), (comma', z)]⟩, right, rfl, rfl, rfl⟩

theorem vec4_reads : (vectorValue 3 .uniformVec4).Reads ValueTree.lexemes ValueTree.firings
    (fun t => ∃ left x comma y comma' z comma'' w right,
      .vec4 left x comma y comma' z comma'' w right = t) := by
  intro ls b rest
  rw [accepts_vectorValue]
  constructor
  · rintro ⟨left, ⟨x, others⟩, right, hn, rfl, rfl⟩
    match others, hn with
    | [(comma, y), (comma', z), (comma'', w)], _ =>
      exact ⟨_, ⟨left, x, comma, y, comma', z, comma'', w, right, rfl⟩, rfl, rfl⟩
  · rintro ⟨_, ⟨left, x, comma, y, comma', z, comma'', w, right, rfl⟩, rfl, rfl⟩
    exact ⟨left, ⟨x, [(comma, y), (comma', z), (comma'', w)]⟩, right, rfl, rfl, rfl⟩

theorem scalarValue_reads : scalarValue.Reads ValueTree.lexemes ValueTree.firings
    (fun t => ∃ x, .scalar x = t) := by
  intro ls b rest
  simp only [scalarValue, accepts_bind, accepts_pure, floatValue_reads _ _ _]
  constructor
  · rintro ⟨_, _, ⟨x, -, rfl, rfl⟩, rfl, rfl⟩
    exact ⟨.scalar x, ⟨x, rfl⟩, rfl, rfl⟩
  · rintro ⟨_, ⟨x, rfl⟩, rfl, rfl⟩
    exact ⟨_, rest, ⟨x, trivial, rfl, rfl⟩, rfl, rfl⟩

theorem textureValue_reads : textureValue.Reads ValueTree.lexemes ValueTree.firings
    (fun t => ∃ path, .texture path = t) := by
  intro ls b rest
  simp only [textureValue, accepts_bind, accepts_pure, stringValue_reads _ _ _]
  constructor
  · rintro ⟨_, _, ⟨path, -, rfl, rfl⟩, rfl, rfl⟩
    exact ⟨.texture path, ⟨path, rfl⟩, rfl, rfl⟩
  · rintro ⟨_, ⟨path, rfl⟩, rfl, rfl⟩
    exact ⟨_, rest, ⟨path, trivial, rfl, rfl⟩, rfl, rfl⟩

theorem uniformValue_reads :
    uniformValue.Reads ValueTree.lexemes ValueTree.firings (fun _ => True) := by
  have hu := ValueTree.unambiguous
  refine (vec4_reads.choice_cons hu (vec3_reads.choice_cons hu (vec2_reads.choice_cons hu
    (scalarValue_reads.choice_cons hu textureValue_reads.choice_nil)))).congr ?_
  intro t
  cases t <;> simp

theorem ValueTree.lastSpan_firings (t : ValueTree) (default : Span) :
    lastSpan t.firings default = t.span := by
  cases t <;> rfl

theorem uniform_reads :
    uniform.Reads UniformTree.lexemes UniformTree.firings (fun _ => True) := by
  intro ls b rest
  simp only [uniform, accepts_bind, accepts_pure, accepts_keyword, accepts_identifier,
    uniformValue_reads _ _ _]
  constructor
  · rintro ⟨word, _, rfl, ⟨name, span⟩, _, rfl, _, _, ⟨value, -, rfl, rfl⟩, rfl, rfl⟩
    refine ⟨⟨word, ⟨name, span⟩, value⟩, trivial, rfl, ?_⟩
    rw [value.lastSpan_firings]
    rfl
  · rintro ⟨⟨word, ⟨name, span⟩, value⟩, -, rfl, rfl⟩
    refine ⟨word, _, rfl, (name, span), _, rfl, _, rest, ⟨value, trivial, rfl, rfl⟩, ?_, rfl⟩
    rw [value.lastSpan_firings]
    rfl

/-! ## Scopes -/

theorem Rule.Reads.rejects_of_noWord {β T : Type} {x : Rule β} {lexemes : T → List Lexeme}
    {value : T → β} {P : T → Prop} {words : List String} {ls : List Lexeme}
    (hx : x.Reads lexemes value P) (hl : LedBy words lexemes) (hn : NoWord ls) :
    x.Rejects ls := by
  intro b rest h
  obtain ⟨t, -, rfl, -⟩ := (hx _ _ _).1 h
  exact hl.not_noWord t rest hn

theorem LedBy.ne_nil {T : Type} {words : List String} {lexemes : T → List Lexeme}
    (hl : LedBy words lexemes) (t : T) : lexemes t ≠ [] := by
  obtain ⟨w, -, span, rest, ht⟩ := hl t
  rw [ht]
  exact List.cons_ne_nil _ _

theorem accepts_name {ls mid : List Lexeme} {o : Option (String × Span)} {left : Span} :
    (optional identifier).Accepts ls o (⟨.leftBrace, left⟩ :: mid) ↔
      ∃ name : Option (Located String), o = name.map (fun n => (n.value, n.span)) ∧
        ls = (name.map (Located.lexeme .ident)).toList ++ ⟨.leftBrace, left⟩ :: mid := by
  simp only [accepts_optional, accepts_identifier]
  constructor
  · rintro (⟨⟨name, span⟩, rfl, rfl⟩ | ⟨rfl, rfl, -⟩)
    · exact ⟨some ⟨name, span⟩, rfl, rfl⟩
    · exact ⟨none, rfl, rfl⟩
  · rintro ⟨name, rfl, rfl⟩
    cases name with
    | none =>
      refine .inr ⟨rfl, rfl, fun p rest h => ?_⟩
      cases accepts_identifier.1 h
    | some name => exact .inl ⟨(name.value, name.span), rfl, rfl⟩

theorem scope_reads {N : Type} {inner : N → List Lexeme} {innerFirings : N → List Firing}
    {words : List String} {statement : Rule (List Firing)} (word : String)
    (opening : Option String → Action) (closing : Action) (hl : LedBy words inner)
    (hs : statement.Reads (Item.lexemes inner) (Item.firings innerFirings) (fun _ => True)) :
    (scope word opening statement closing).Reads (ScopeTree.lexemes word inner)
      (ScopeTree.firings opening closing innerFirings) (fun _ => True) := by
  have hitems := Item.ledBy hl
  intro ls b rest
  simp only [scope, accepts_bind, accepts_pure, accepts_keyword, accepts_punctuation,
    hs.accepts_many hitems.ne_nil]
  constructor
  · rintro ⟨start, _, rfl, o, _, hname, left, _, rfl, _, _, ⟨body, rfl, rfl, -⟩, right, _, rfl,
      rfl, rfl⟩
    obtain ⟨name, rfl, rfl⟩ := accepts_name.1 hname
    refine ⟨⟨start, name, left, body, right⟩, trivial, ?_, ?_⟩
    · simp [ScopeTree.lexemes]
    · cases name <;> simp [ScopeTree.firings, List.flatMap_def]
  · rintro ⟨⟨start, name, left, body, right⟩, -, rfl, rfl⟩
    refine ⟨start, _, by simp only [ScopeTree.lexemes, List.cons_append]; rfl,
      name.map (fun n => (n.value, n.span)),
      ⟨.leftBrace, left⟩ :: (body.flatMap (Item.lexemes inner) ++ ⟨.rightBrace, right⟩ :: rest),
      accepts_name.2 ⟨name, rfl, by simp⟩, left, _, rfl, _, ⟨.rightBrace, right⟩ :: rest,
      ⟨body, rfl, rfl, ?_⟩, right, rest, rfl, ?_, rfl⟩
    · exact hs.rejects_of_noWord hitems (noWord_rightBrace right rest)
    · cases name <;> simp [ScopeTree.firings, List.flatMap_def]

theorem statement_reads {N : Type} (inner : N → List Lexeme) (innerFirings : N → List Firing) :
    option.Reads (Item.lexemes inner) (Item.firings innerFirings) (fun t => ∃ o, .option o = t) ∧
    uniform.Reads (Item.lexemes inner) (Item.firings innerFirings)
      (fun t => ∃ u, .uniform u = t) := by
  constructor
  · exact (option_reads.map Item.option (fun _ => rfl) (fun _ => rfl)).congr (by simp)
  · exact (uniform_reads.map Item.uniform (fun _ => rfl) (fun _ => rfl)).congr (by simp)

theorem ledBy_empty : LedBy [] (Empty.elim : Empty → List Lexeme) := fun n => n.elim

theorem passItem_unambiguous :
    Unambiguous (Item.lexemes (Empty.elim : Empty → List Lexeme)) :=
  Item.unambiguous (fun n => n.elim) ledBy_empty (fun _ _ => List.not_mem_nil)

theorem passItem_reads : (orElse option uniform).Reads (Item.lexemes (Empty.elim : Empty → _))
    (Item.firings Empty.elim) (fun _ => True) := by
  obtain ⟨ho, hun⟩ := statement_reads (Empty.elim : Empty → List Lexeme) Empty.elim
  refine (ho.orElse passItem_unambiguous hun).congr ?_
  rintro (o | u | n)
  · simp
  · simp
  · exact n.elim

theorem pass_reads : pass.Reads PassTree.lexemes PassTree.firings (fun _ => True) :=
  scope_reads "pass" .passBegin .passEnd ledBy_empty passItem_reads

/-- Items whose nested scopes are read by a rule that is tried first. -/
theorem item_reads {N : Type} {inner : N → List Lexeme} {innerFirings : N → List Firing}
    {nested : Rule (List Firing)} (hu : Unambiguous (Item.lexemes inner))
    (hn : nested.Reads inner innerFirings (fun _ => True)) :
    (choice nested [option, uniform]).Reads (Item.lexemes inner) (Item.firings innerFirings)
      (fun _ => True) := by
  obtain ⟨ho, hun⟩ := statement_reads inner innerFirings
  have hn' : nested.Reads (Item.lexemes inner) (Item.firings innerFirings) _ :=
    hn.map Item.nested (fun _ => rfl) (fun _ => rfl)
  refine (hn'.choice_cons hu (ho.choice_cons hu hun.choice_nil)).congr ?_
  rintro (o | u | n) <;> simp

theorem technique_reads :
    technique.Reads TechniqueTree.lexemes TechniqueTree.firings (fun _ => True) :=
  scope_reads "technique" .techniqueBegin .techniqueEnd PassTree.ledBy
    (item_reads (Item.unambiguous PassTree.unambiguous PassTree.ledBy (by decide)) pass_reads)

/-! ## Documents -/

theorem accepts_document {ls rest : List Lexeme} {fs : List Firing} :
    document.Accepts ls fs rest ↔
      rest = [] ∧ ∃ d : DocumentTree, d.lexemes = ls ∧ d.firings = fs := by
  have hl := Item.ledBy TechniqueTree.ledBy
  have hitems := item_reads
    (Item.unambiguous TechniqueTree.unambiguous TechniqueTree.ledBy (by decide)) technique_reads
  simp only [document, accepts_bind, accepts_pure, accepts_finish, hitems.accepts_many hl.ne_nil]
  constructor
  · rintro ⟨_, _, ⟨items, rfl, rfl, -⟩, _, _, ⟨rfl, rfl⟩, rfl, rfl⟩
    exact ⟨rfl, ⟨items⟩, by simp [DocumentTree.lexemes],
      by simp [DocumentTree.firings, List.flatMap_def]⟩
  · rintro ⟨rfl, ⟨items⟩, rfl, rfl⟩
    refine ⟨_, [], ⟨items, by simp [DocumentTree.lexemes], rfl, ?_⟩, (), [], ⟨rfl, rfl⟩, ?_, rfl⟩
    · exact hitems.rejects_of_noWord hl noWord_nil
    · simp [DocumentTree.firings, List.flatMap_def]

/-- The parser returns what the derivations of the lexemes fire. -/
theorem parse_iff_tree {ls : List Lexeme} {fs : List Firing} :
    parse ls = .ok fs ↔ ∃ d : DocumentTree, d.lexemes = ls ∧ d.firings = fs := by
  have haccepts : parse ls = .ok fs ↔ ∃ rest, document.Accepts ls fs rest := by
    rw [parse, Rule.run]
    cases h : document ls with
    | ok a rest alt => simp [Rule.accepts_of_ok h, eq_comm]
    | fail e => simp [Rule.rejects_of_fail h _ _]
  rw [haccepts]
  simp [accepts_document]

/-- **The parser accepts exactly the lexemes that the grammar derives. Their derivation is unique,
and the parser returns what it fires.** -/
theorem parse_ok_iff_derivation (ls : List Lexeme) :
    ((∃ fs, parse ls = .ok fs) ↔ ∃ d : DocumentTree, d.lexemes = ls) ∧
      ∀ d : DocumentTree, d.lexemes = ls →
        parse ls = .ok d.firings ∧ ∀ d' : DocumentTree, d'.lexemes = ls → d' = d := by
  refine ⟨?_, fun d hd => ⟨parse_iff_tree.2 ⟨d, hd, rfl⟩, fun d' hd' => ?_⟩⟩
  · simp only [parse_iff_tree]
    constructor
    · rintro ⟨_, d, hd, -⟩
      exact ⟨d, hd⟩
    · rintro ⟨d, hd⟩
      exact ⟨d.firings, d, hd, rfl⟩
  · exact DocumentTree.lexemes_injective (hd'.trans hd.symm)

/-- `technique pass { BlendFunc: One, Zero }`, where the name of the technique is a keyword. -/
theorem parse_technique_named_pass :
    let head : Introducer := ⟨⟨17, 26⟩, some ⟨26, 27⟩⟩
    let value : BlendTree := .factors ⟨.one, 28, 31⟩ ⟨31, 32⟩ ⟨.zero, 33, 37⟩
    let t : TechniqueTree :=
      ⟨⟨0, 9⟩, some ⟨"pass", 10, 14⟩, ⟨15, 16⟩, [.option (.blend head value)], ⟨38, 39⟩⟩
    let d : DocumentTree := ⟨[.nested t]⟩
    let ls : List Lexeme :=
      [⟨.ident "technique", 0, 9⟩, ⟨.ident "pass", 10, 14⟩, ⟨.leftBrace, 15, 16⟩,
        ⟨.ident "BlendFunc", 17, 26⟩, ⟨.colon, 26, 27⟩, ⟨.ident "One", 28, 31⟩, ⟨.comma, 31, 32⟩,
        ⟨.ident "Zero", 33, 37⟩, ⟨.rightBrace, 38, 39⟩]
    d.lexemes = ls ∧ parse ls = .ok d.firings ∧ ∀ d' : DocumentTree, d'.lexemes = ls → d' = d :=
  ⟨rfl, (parse_ok_iff_derivation _).2 _ rfl⟩

end MaterialScript.Grammar
