import MaterialScript.Proofs.Derivation.Tree

/-!
# The grammar is unambiguous

Two trees of one kind whose lexemes stand at the front of the same list are equal, and end at the
same place. Nothing is said about what follows a tree, because no statement or scope is a proper
front part of another one; only a row of items needs to know that no further item follows it.

* `Unambiguous` : the property, of a kind of trees; `Unambiguous.flatMap` : of rows of such trees;
* `LedBy` : the words that a kind of trees starts with, which tell options, uniforms and scopes
  apart;
* `OptionTree.unambiguous`, `ValueTree.unambiguous`, `UniformTree.unambiguous`,
  `Item.unambiguous`, `ScopeTree.unambiguous`, up to `DocumentTree.lexemes_injective`.
-/

namespace MaterialScript.Grammar

section General
variable {T : Type}

/-- Lexemes tell which tree stands at their front, and where it ends. -/
def Unambiguous (lexemes : T → List Lexeme) : Prop :=
  ∀ (s t : T) (r r' : List Lexeme), lexemes s ++ r = lexemes t ++ r' → s = t ∧ r = r'

/-- Every tree starts with one of the words. -/
def LedBy (words : List String) (lexemes : T → List Lexeme) : Prop :=
  ∀ t, ∃ w ∈ words, ∃ span rest, lexemes t = ⟨.ident w, span⟩ :: rest

/-- No word stands at the front. -/
def NoWord (ls : List Lexeme) : Prop := ∀ w span rest, ls ≠ ⟨.ident w, span⟩ :: rest

theorem noWord_nil : NoWord [] := by
  intro w span rest h
  cases h

theorem noWord_rightBrace (span : Span) (rest : List Lexeme) :
    NoWord (⟨.rightBrace, span⟩ :: rest) := by
  intro w span' rest' h
  cases h

theorem LedBy.not_noWord {words : List String} {lexemes : T → List Lexeme}
    (hl : LedBy words lexemes) (t : T) (r : List Lexeme) : ¬ NoWord (lexemes t ++ r) := by
  obtain ⟨w, -, span, rest, ht⟩ := hl t
  intro hn
  exact hn w span (rest ++ r) (by rw [ht, List.cons_append])

theorem LedBy.ne_of_disjoint {S : Type} {words words' : List String} {f : S → List Lexeme}
    {g : T → List Lexeme} (hf : LedBy words f) (hg : LedBy words' g)
    (hd : ∀ w ∈ words, w ∉ words') (s : S) (t : T) (r r' : List Lexeme) :
    f s ++ r ≠ g t ++ r' := by
  obtain ⟨w, hw, span, rest, hs⟩ := hf s
  obtain ⟨w', hw', span', rest', ht⟩ := hg t
  rw [hs, ht]
  intro h
  injection h with h _
  injection h with h _
  injection h with h
  subst h
  exact hd w hw hw'

theorem LedBy.mono {words words' : List String} {lexemes : T → List Lexeme}
    (hl : LedBy words lexemes) (hw : ∀ w ∈ words, w ∈ words') : LedBy words' lexemes := by
  intro t
  obtain ⟨w, h, rest⟩ := hl t
  exact ⟨w, hw w h, rest⟩

/-- A row of trees is told from its lexemes, when it is known that no further tree follows. -/
theorem Unambiguous.flatMap {words : List String} {lexemes : T → List Lexeme}
    (hu : Unambiguous lexemes) (hl : LedBy words lexemes) {ts ts' : List T}
    {r r' : List Lexeme} (hr : NoWord r) (hr' : NoWord r')
    (h : ts.flatMap lexemes ++ r = ts'.flatMap lexemes ++ r') : ts = ts' ∧ r = r' := by
  induction ts generalizing ts' with
  | nil =>
    cases ts' with
    | nil => exact ⟨rfl, h⟩
    | cons t' ts' =>
      rw [List.flatMap_nil, List.nil_append, List.flatMap_cons, List.append_assoc] at h
      subst h
      exact absurd hr (hl.not_noWord t' _)
  | cons t ts ih =>
    cases ts' with
    | nil =>
      rw [List.flatMap_nil, List.nil_append, List.flatMap_cons, List.append_assoc] at h
      subst h
      exact absurd hr' (hl.not_noWord t _)
    | cons t' ts' =>
      simp only [List.flatMap_cons, List.append_assoc] at h
      obtain ⟨rfl, hrest⟩ := hu t t' _ _ h
      obtain ⟨rfl, rfl⟩ := ih hrest
      exact ⟨rfl, rfl⟩

end General

/-! ## Leaves -/

@[simp] theorem Located.token_lexeme {α : Type} (token : α → Token) (x : Located α) :
    (x.lexeme token).token = token x.value := rfl

theorem Located.lexeme_inj {α : Type} {token : α → Token} (ht : Function.Injective token)
    {x y : Located α} : x.lexeme token = y.lexeme token ↔ x = y := by
  constructor
  · intro h
    injection h with hv hs
    cases x; cases y
    cases ht hv; cases hs
    rfl
  · rintro rfl; rfl

theorem Located.lexeme_cons_inj {α : Type} {token : α → Token} (ht : Function.Injective token)
    {x y : Located α} {r r' : List Lexeme} (h : x.lexeme token :: r = y.lexeme token :: r') :
    x = y ∧ r = r' := by
  obtain ⟨hlexeme, hrest⟩ := List.cons.inj h
  exact ⟨(Located.lexeme_inj ht).1 hlexeme, hrest⟩

theorem Numeral.ext {m n : Numeral} (h : m.text = n.text) : m = n := by
  have hv : some m.value = some n.value := by rw [← m.decodes, ← n.decodes, h]
  cases m; cases n
  cases h; cases hv
  rfl

theorem Numeral.token_injective : Function.Injective Numeral.token := by
  intro m n h
  injection h with h
  exact Numeral.ext h

theorem faceToken_injective : Function.Injective faceToken := by
  intro f g h
  injection h with h
  have := congrArg CullFace.ofKeyword? h
  simpa using this

theorem factorToken_injective : Function.Injective factorToken := by
  intro f g h
  injection h with h
  have := congrArg BlendFactor.ofKeyword? h
  simpa using this

theorem switchToken_injective : Function.Injective switchToken := by
  intro a b h
  cases a <;> cases b <;> simp_all [switchToken, switchWord]

theorem ident_injective : Function.Injective Token.ident := fun _ _ h => by injection h

theorem str_injective : Function.Injective Token.str := fun _ _ h => by injection h

/-- No colon stands at the front. -/
def NoColon (ls : List Lexeme) : Prop := ∀ span rest, ls ≠ ⟨.colon, span⟩ :: rest

theorem noColon_cons {l : Lexeme} (h : l.token ≠ .colon) (ls : List Lexeme) : NoColon (l :: ls) := by
  rintro span rest heq
  cases heq
  exact h rfl

/-- An introducer is told from its lexemes, when what follows it does not start with a colon. -/
theorem Introducer.lexemes_append_inj {k k' : String} {i j : Introducer} {r r' : List Lexeme}
    (hr : NoColon r) (hr' : NoColon r') (h : i.lexemes k ++ r = j.lexemes k' ++ r') :
    k = k' ∧ i = j ∧ r = r' := by
  obtain ⟨word, colon⟩ := i
  obtain ⟨word', colon'⟩ := j
  simp only [Introducer.lexemes, List.cons_append, List.cons.injEq, Lexeme.mk.injEq,
    Token.ident.injEq] at h
  obtain ⟨⟨rfl, rfl⟩, h⟩ := h
  cases colon <;> cases colon' <;> simp at h
  · exact ⟨rfl, rfl, h⟩
  · exact absurd h (hr _ _)
  · exact absurd h.symm (hr' _ _)
  · obtain ⟨rfl, rfl⟩ := h
    exact ⟨rfl, rfl, rfl⟩

/-! ## Statements -/

def optionWords : List String := ["CullFace", "BlendFunc", "DepthTest", "DepthWrite", "Shader"]

theorem factorToken_ne_disabled (factor : BlendFactor) : factorToken factor ≠ .ident "Disabled" := by
  cases factor <;> decide

theorem BlendTree.unambiguous : Unambiguous BlendTree.lexemes := by
  intro s t r r' h
  have hfirst := congrArg (fun ls => ls.head?.map Lexeme.token) h
  cases s <;> cases t
  case disabled.factors src _ _ =>
    exact absurd (Option.some.inj hfirst).symm (factorToken_ne_disabled src.value)
  case factors.disabled src _ _ _ =>
    exact absurd (Option.some.inj hfirst) (factorToken_ne_disabled src.value)
  all_goals simp_all [BlendTree.lexemes, Located.lexeme_inj, factorToken_injective]

def OptionTree.head : OptionTree → Introducer
  | cullFace head _ | blend head _ | depthTest head _ | depthWrite head _ | shader head _ => head

def OptionTree.word : OptionTree → String
  | cullFace .. => "CullFace"
  | blend .. => "BlendFunc"
  | depthTest .. => "DepthTest"
  | depthWrite .. => "DepthWrite"
  | shader .. => "Shader"

def OptionTree.valueLexemes : OptionTree → List Lexeme
  | cullFace _ face => [face.lexeme faceToken]
  | blend _ value => value.lexemes
  | depthTest _ on | depthWrite _ on => [on.lexeme switchToken]
  | shader _ path => [path.lexeme .str]

theorem OptionTree.lexemes_eq (t : OptionTree) :
    t.lexemes = t.head.lexemes t.word ++ t.valueLexemes := by
  cases t <;> rfl

theorem BlendTree.noColon (t : BlendTree) (r : List Lexeme) : NoColon (t.lexemes ++ r) := by
  cases t <;> exact noColon_cons (by simp [factorToken]) _

theorem OptionTree.noColon_valueLexemes (t : OptionTree) (r : List Lexeme) :
    NoColon (t.valueLexemes ++ r) := by
  rcases t with _ | ⟨_, value⟩ | _ | _ | _
  case blend => exact value.noColon r
  all_goals exact noColon_cons (by simp [faceToken, switchToken]) _

theorem OptionTree.ledBy : LedBy optionWords OptionTree.lexemes := by
  intro t
  cases t <;> exact ⟨_, by decide, _, _, rfl⟩

theorem OptionTree.unambiguous : Unambiguous OptionTree.lexemes := by
  intro s t r r' h
  rw [s.lexemes_eq, t.lexemes_eq, List.append_assoc, List.append_assoc] at h
  obtain ⟨hword, hhead, hvalue⟩ := Introducer.lexemes_append_inj (s.noColon_valueLexemes r)
    (t.noColon_valueLexemes r') h
  cases s <;> cases t <;> simp [OptionTree.word] at hword <;> cases hhead
  case cullFace.cullFace =>
    obtain ⟨rfl, rfl⟩ := Located.lexeme_cons_inj faceToken_injective hvalue
    exact ⟨rfl, rfl⟩
  case blend.blend =>
    obtain ⟨rfl, rfl⟩ := BlendTree.unambiguous _ _ _ _ hvalue
    exact ⟨rfl, rfl⟩
  case depthTest.depthTest =>
    obtain ⟨rfl, rfl⟩ := Located.lexeme_cons_inj switchToken_injective hvalue
    exact ⟨rfl, rfl⟩
  case depthWrite.depthWrite =>
    obtain ⟨rfl, rfl⟩ := Located.lexeme_cons_inj switchToken_injective hvalue
    exact ⟨rfl, rfl⟩
  case shader.shader =>
    obtain ⟨rfl, rfl⟩ := Located.lexeme_cons_inj str_injective hvalue
    exact ⟨rfl, rfl⟩

theorem ValueTree.unambiguous : Unambiguous ValueTree.lexemes := by
  intro s t r r' h
  -- The first token tells numbers, strings and vectors apart; vectors of different sizes differ
  -- where one has a comma and the other its parenthesis.
  have hfirst := congrArg (fun ls => ls.head?.map Lexeme.token) h
  cases s <;> cases t <;> simp [ValueTree.lexemes, Numeral.token] at hfirst
  all_goals simp_all [ValueTree.lexemes, Located.lexeme_inj, Numeral.token_injective,
      str_injective]

theorem UniformTree.unambiguous : Unambiguous UniformTree.lexemes := by
  intro s t r r' h
  obtain ⟨word, name, value⟩ := s
  obtain ⟨word', name', value'⟩ := t
  simp only [UniformTree.lexemes, List.cons_append, List.cons.injEq, Lexeme.mk.injEq, true_and,
    Located.lexeme_inj ident_injective] at h
  obtain ⟨rfl, rfl, hv⟩ := h
  obtain ⟨rfl, rfl⟩ := ValueTree.unambiguous _ _ _ _ hv
  exact ⟨rfl, rfl⟩

theorem UniformTree.ledBy : LedBy ["SetUniform"] UniformTree.lexemes := by
  intro u
  exact ⟨_, List.mem_singleton_self _, _, _, rfl⟩

/-! ## Scopes -/

section Scopes
variable {N : Type} {inner : N → List Lexeme} {words : List String}

/-- The words that the items of a scope start with, given those of nested scopes. -/
def itemWords (words : List String) : List String := optionWords ++ "SetUniform" :: words

theorem Item.ledBy (hl : LedBy words inner) : LedBy (itemWords words) (Item.lexemes inner) := by
  rintro (o | u | n)
  · exact OptionTree.ledBy.mono (fun w hw => List.mem_append_left _ hw) o
  · exact UniformTree.ledBy.mono (by simp [itemWords]) u
  · exact hl.mono (fun w hw => List.mem_append_right _ (List.mem_cons_of_mem _ hw)) n

theorem Item.unambiguous (hu : Unambiguous inner) (hl : LedBy words inner)
    (hd : ∀ w ∈ itemWords [], w ∉ words) : Unambiguous (Item.lexemes inner) := by
  have hou := OptionTree.ledBy.ne_of_disjoint UniformTree.ledBy (by decide)
  have hon := OptionTree.ledBy.ne_of_disjoint hl fun w hw => hd w (List.mem_append_left _ hw)
  have hun := UniformTree.ledBy.ne_of_disjoint hl fun w hw => hd w (List.mem_append_right _ hw)
  intro s t r r' h
  rcases s with o | u | n <;> rcases t with o' | u' | n'
  · obtain ⟨rfl, rfl⟩ := OptionTree.unambiguous _ _ _ _ h
    exact ⟨rfl, rfl⟩
  · exact absurd h (hou _ _ _ _)
  · exact absurd h (hon _ _ _ _)
  · exact absurd h.symm (hou _ _ _ _)
  · obtain ⟨rfl, rfl⟩ := UniformTree.unambiguous _ _ _ _ h
    exact ⟨rfl, rfl⟩
  · exact absurd h (hun _ _ _ _)
  · exact absurd h.symm (hon _ _ _ _)
  · exact absurd h.symm (hun _ _ _ _)
  · obtain ⟨rfl, rfl⟩ := hu _ _ _ _ h
    exact ⟨rfl, rfl⟩

theorem ScopeTree.ledBy (keyword : String) : LedBy [keyword] (ScopeTree.lexemes keyword inner) := by
  intro t
  refine ⟨keyword, List.mem_singleton_self _, t.word, ?_, ?_⟩
  rotate_left
  · simp only [ScopeTree.lexemes, List.cons_append]
    rfl

theorem name_append_inj {name name' : Option (Located String)} {left left' : Span}
    {r r' : List Lexeme}
    (h : (name.map (Located.lexeme .ident)).toList ++ ⟨.leftBrace, left⟩ :: r =
      (name'.map (Located.lexeme .ident)).toList ++ ⟨.leftBrace, left'⟩ :: r') :
    name = name' ∧ left = left' ∧ r = r' := by
  cases name <;> cases name' <;> simp at h
  · exact ⟨rfl, h⟩
  · exact absurd (congrArg Lexeme.token h.1) (by simp)
  · exact absurd (congrArg Lexeme.token h.1) (by simp)
  · rw [Located.lexeme_inj ident_injective] at h
    obtain ⟨rfl, rfl, rfl⟩ := h
    exact ⟨rfl, rfl, rfl⟩

theorem ScopeTree.unambiguous (keyword : String) (hu : Unambiguous inner) (hl : LedBy words inner)
    (hd : ∀ w ∈ itemWords [], w ∉ words) :
    Unambiguous (ScopeTree.lexemes keyword inner) := by
  intro s t r r' h
  obtain ⟨word, name, left, body, right⟩ := s
  obtain ⟨word', name', left', body', right'⟩ := t
  simp only [ScopeTree.lexemes, List.append_assoc, List.cons_append, List.cons.injEq,
    Lexeme.mk.injEq, true_and, List.nil_append] at h
  obtain ⟨rfl, h⟩ := h
  obtain ⟨rfl, rfl, hbody⟩ := name_append_inj h
  obtain ⟨rfl, hright⟩ := (Item.unambiguous hu hl hd).flatMap (Item.ledBy hl)
    (noWord_rightBrace _ _) (noWord_rightBrace _ _) hbody
  cases hright
  exact ⟨rfl, rfl⟩

end Scopes

theorem PassTree.ledBy : LedBy ["pass"] PassTree.lexemes := ScopeTree.ledBy "pass"

theorem PassTree.unambiguous : Unambiguous PassTree.lexemes :=
  have hl : LedBy [] (Empty.elim : Empty → List Lexeme) := fun n => n.elim
  ScopeTree.unambiguous "pass" (fun n => n.elim) hl (fun _ _ => List.not_mem_nil)

theorem TechniqueTree.ledBy : LedBy ["technique"] TechniqueTree.lexemes :=
  ScopeTree.ledBy "technique"

theorem TechniqueTree.unambiguous : Unambiguous TechniqueTree.lexemes :=
  ScopeTree.unambiguous "technique" PassTree.unambiguous PassTree.ledBy (by decide)

/-- **A list of lexemes has at most one derivation.** -/
theorem DocumentTree.lexemes_injective : Function.Injective DocumentTree.lexemes := by
  rintro ⟨items⟩ ⟨items'⟩ h
  have hu := Item.unambiguous TechniqueTree.unambiguous TechniqueTree.ledBy (by decide)
  have hl := Item.ledBy TechniqueTree.ledBy
  have h' : items.flatMap _ ++ [] = items'.flatMap _ ++ [] := congrArg (· ++ []) h
  obtain ⟨rfl, -⟩ := hu.flatMap hl noWord_nil noWord_nil h'
  rfl

end MaterialScript.Grammar
