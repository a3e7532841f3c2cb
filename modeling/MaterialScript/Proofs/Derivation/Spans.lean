import Mathlib.Data.List.Forall2
import MaterialScript.Grammar.Document

/-!
# The grammar does not look at spans

The grammar reads the tokens of lexemes and only copies their spans. So two lists of lexemes with the
same tokens fire the same actions, or fail at the same place for the same reason, and the spans of the
firings are related as those of the lexemes are.

* `Lexeme.Alike`, `Firing.Alike`, `Failure.Alike` : the same up to spans, which are related;
* `Reply.Alike`, `Rule.Alike` : answers and rules that are alike;
* `alike_pure`, `alike_bind`, `alike_classify`, `alike_optional`, `alike_orElse`, `alike_choice`,
  `alike_many` : one lemma for each way of making rules;
* `document_alike` : the grammar; `parse_alike` : whole documents.
-/

namespace MaterialScript

/-- One token, at related spans. -/
def Lexeme.Alike (S : Span → Span → Prop) (l l' : Lexeme) : Prop :=
  l.token = l'.token ∧ S l.span l'.span

/-- One action, at related spans. -/
def Firing.Alike (S : Span → Span → Prop) (f f' : Firing) : Prop :=
  f.action = f'.action ∧ S f.span f'.span

namespace Grammar

/-- One reason, at lexemes that are alike. -/
structure Failure.Alike (S : Span → Span → Prop) (e e' : Failure) : Prop where
  rest : List.Forall₂ (Lexeme.Alike S) e.rest e'.rest
  reason : e.reason = e'.reason

variable {α β : Type} {S : Span → Span → Prop} {V : α → α → Prop} {W : β → β → Prop}

inductive Reply.Alike (S : Span → Span → Prop) (V : α → α → Prop) : Reply α → Reply α → Prop where
  | ok {a a' : α} {rest rest' : List Lexeme} {alt alt' : Option Failure} (hvalue : V a a')
      (hrest : List.Forall₂ (Lexeme.Alike S) rest rest')
      (halt : Option.Rel (Failure.Alike S) alt alt') :
      Alike S V (.ok a rest alt) (.ok a' rest' alt')
  | fail {e e' : Failure} (he : e.Alike S e') : Alike S V (.fail e) (.fail e')

/-- Rules whose answers to lexemes that are alike are alike. -/
def Rule.Alike (S : Span → Span → Prop) (V : α → α → Prop) (x x' : Rule α) : Prop :=
  ∀ ls ls', List.Forall₂ (Lexeme.Alike S) ls ls' → Reply.Alike S V (x ls) (x' ls')

/-! ## Failures -/

theorem Failure.Alike.furthest {a a' b b' : Failure} (ha : a.Alike S a') (hb : b.Alike S b') :
    (a.furthest b).Alike S (a'.furthest b') := by
  have hla := ha.rest.length_eq
  have hlb := hb.rest.length_eq
  unfold Failure.furthest
  by_cases hlt : b.rest.length < a.rest.length
  · rw [if_pos hlt, if_pos (by omega)]
    exact hb
  · rw [if_neg hlt, if_neg (by omega)]
    exact ha

theorem furthest?_alike {a a' b b' : Option Failure} (ha : Option.Rel (Failure.Alike S) a a')
    (hb : Option.Rel (Failure.Alike S) b b') :
    Option.Rel (Failure.Alike S) (furthest? a b) (furthest? a' b') := by
  cases ha with
  | none => exact hb
  | some ha =>
    cases hb with
    | none => exact .some ha
    | some hb => exact .some (ha.furthest hb)

theorem Failure.Alike.message_eq {e e' : Failure} (h : e.Alike S e') : e'.message = e.message := by
  rcases e with ⟨rest, reason⟩
  rcases e' with ⟨rest', reason'⟩
  obtain ⟨hrest, hreason⟩ := h
  dsimp only at hrest hreason
  subst hreason
  cases hrest with
  | nil => rfl
  | @cons l l' more more' hl hmore =>
    obtain ⟨token, span⟩ := l
    obtain ⟨token', span'⟩ := l'
    obtain rfl : token = token' := hl.1
    cases reason <;> rfl

/-! ## Ways of making rules -/

theorem alike_pure {a a' : α} (h : V a a') : Rule.Alike S V (pure a) (pure a') :=
  fun _ _ hls => .ok h hls .none

theorem alike_bind {x x' : Rule α} {f f' : α → Rule β} (hx : Rule.Alike S V x x')
    (hf : ∀ a a', V a a' → Rule.Alike S W (f a) (f' a')) :
    Rule.Alike S W (x >>= f) (x' >>= f') := by
  intro ls ls' hls
  show Reply.Alike S W (Rule.bind x f ls) (Rule.bind x' f' ls')
  unfold Rule.bind
  have hreply := hx ls ls' hls
  generalize x ls = reply, x' ls' = reply' at hreply
  cases hreply with
  | fail he => exact .fail he
  | @ok a a' rest rest' alt alt' hvalue hrest halt =>
    have hreply' := hf a a' hvalue rest rest' hrest
    dsimp only
    generalize f a rest = next, f' a' rest' = next' at hreply'
    cases hreply' with
    | fail he =>
      cases halt with
      | none => exact .fail he
      | some halt => exact .fail (he.furthest halt)
    | ok hvalue hrest halt' => exact .ok hvalue hrest (furthest?_alike halt' halt)

theorem alike_classify {read : Lexeme → Except Reason α}
    (h : ∀ l l', Lexeme.Alike S l l' →
      (∃ a a', read l = .ok a ∧ read l' = .ok a' ∧ V a a') ∨
        ∃ reason, read l = .error reason ∧ read l' = .error reason) :
    Rule.Alike S V (classify read) (classify read) := by
  intro ls ls' hls
  cases hls with
  | nil => exact .fail ⟨.nil, rfl⟩
  | @cons l l' more more' hl hmore =>
    simp only [classify]
    rcases h l l' hl with ⟨a, a', ha, ha', hvalue⟩ | ⟨reason, hr, hr'⟩
    · rw [ha, ha']
      exact .ok hvalue hmore .none
    · rw [hr, hr']
      exact .fail ⟨.cons hl hmore, rfl⟩

theorem alike_satisfy (p : Token → Bool) : Rule.Alike S S (satisfy p) (satisfy p) := by
  refine alike_classify fun l l' hl => ?_
  rw [hl.1]
  by_cases hp : p l'.token = true
  · rw [if_pos hp, if_pos hp]
    exact .inl ⟨_, _, rfl, rfl, hl.2⟩
  · rw [if_neg hp, if_neg hp]
    exact .inr ⟨_, rfl, rfl⟩

theorem alike_finish : Rule.Alike S (fun _ _ => True) finish finish := by
  intro ls ls' hls
  cases hls with
  | nil => exact .ok trivial .nil .none
  | cons hl hmore => exact .fail ⟨.cons hl hmore, rfl⟩

theorem alike_optional {x x' : Rule α} (hx : Rule.Alike S V x x') :
    Rule.Alike S (Option.Rel V) (optional x) (optional x') := by
  intro ls ls' hls
  unfold optional
  have hreply := hx ls ls' hls
  generalize x ls = reply, x' ls' = reply' at hreply
  cases hreply with
  | fail he => exact .ok .none hls (.some he)
  | ok hvalue hrest halt => exact .ok (.some hvalue) hrest halt

theorem alike_orElse {x x' y y' : Rule α} (hx : Rule.Alike S V x x') (hy : Rule.Alike S V y y') :
    Rule.Alike S V (orElse x y) (orElse x' y') := by
  intro ls ls' hls
  unfold orElse
  have hreply := hx ls ls' hls
  generalize x ls = reply, x' ls' = reply' at hreply
  cases hreply with
  | ok hvalue hrest halt => exact .ok hvalue hrest halt
  | fail he =>
    have hnext := hy ls ls' hls
    dsimp only
    generalize y ls = next, y' ls' = next' at hnext
    cases hnext with
    | ok hvalue hrest halt => exact .ok hvalue hrest halt
    | fail he' => exact .fail (he.furthest he')

theorem alike_choiceFrom {e e' : Failure} (he : e.Alike S e') {xs xs' : List (Rule α)}
    (hxs : List.Forall₂ (Rule.Alike S V) xs xs') :
    Rule.Alike S V (choiceFrom e xs) (choiceFrom e' xs') := by
  induction hxs generalizing e e' with
  | nil => exact fun _ _ _ => .fail he
  | @cons x x' xs xs' hx _ ih =>
    intro ls ls' hls
    unfold choiceFrom
    have hreply := hx ls ls' hls
    generalize x ls = reply, x' ls' = reply' at hreply
    cases hreply with
    | ok hvalue hrest halt => exact .ok hvalue hrest halt
    | fail he' => exact ih (he'.furthest he) ls ls' hls

theorem alike_choice {x x' : Rule α} {xs xs' : List (Rule α)} (hx : Rule.Alike S V x x')
    (hxs : List.Forall₂ (Rule.Alike S V) xs xs') :
    Rule.Alike S V (choice x xs) (choice x' xs') := by
  intro ls ls' hls
  unfold choice
  have hreply := hx ls ls' hls
  generalize x ls = reply, x' ls' = reply' at hreply
  cases hreply with
  | ok hvalue hrest halt => exact .ok hvalue hrest halt
  | fail he => exact alike_choiceFrom he hxs ls ls' hls

theorem alike_manyFrom {x x' : Rule α} (hx : Rule.Alike S V x x') {ls ls' : List Lexeme}
    (hls : List.Forall₂ (Lexeme.Alike S) ls ls') :
    List.Forall₂ V (manyFrom x ls).values (manyFrom x' ls').values ∧
      List.Forall₂ (Lexeme.Alike S) (manyFrom x ls).rest (manyFrom x' ls').rest ∧
      Option.Rel (Failure.Alike S) (manyFrom x ls).alt (manyFrom x' ls').alt := by
  induction ls using manyFrom.induct x generalizing ls' with
  | case1 ls e h =>
    have hreply := hx ls ls' hls
    generalize hr' : x' ls' = reply' at hreply
    rw [h] at hreply
    cases hreply with
    | fail he =>
      rw [manyFrom, manyFrom, h, hr']
      exact ⟨.nil, hls, .some he⟩
  | case2 ls a rest alt h hlt ih =>
    have hreply := hx ls ls' hls
    generalize hr' : x' ls' = reply' at hreply
    rw [h] at hreply
    cases hreply with
    | @ok _ a' _ rest' _ alt' hvalue hrest halt =>
      have hlt' : rest'.length < ls'.length := by
        rw [← hls.length_eq, ← hrest.length_eq]
        exact hlt
      rw [manyFrom, manyFrom, h, hr']
      dsimp only
      rw [if_pos hlt, if_pos hlt']
      obtain ⟨hvalues, hmore, halts⟩ := ih hrest
      exact ⟨.cons hvalue hvalues, hmore, furthest?_alike halts halt⟩
  | case3 ls a rest alt h hle =>
    have hreply := hx ls ls' hls
    generalize hr' : x' ls' = reply' at hreply
    rw [h] at hreply
    cases hreply with
    | @ok _ a' _ rest' _ alt' hvalue hrest halt =>
      have hle' : ¬ rest'.length < ls'.length := by
        rw [← hls.length_eq, ← hrest.length_eq]
        exact hle
      rw [manyFrom, manyFrom, h, hr']
      dsimp only
      rw [if_neg hle, if_neg hle']
      exact ⟨.nil, hls, halt⟩

theorem alike_many {x x' : Rule α} (hx : Rule.Alike S V x x') :
    Rule.Alike S (List.Forall₂ V) (many x) (many x') := by
  intro ls ls' hls
  obtain ⟨hvalues, hrest, halt⟩ := alike_manyFrom hx hls
  exact .ok hvalues hrest halt

/-! ## Literals -/

def SpannedAlike (S : Span → Span → Prop) (x x' : α × Span) : Prop := x.1 = x'.1 ∧ S x.2 x'.2

abbrev FiringsAlike (S : Span → Span → Prop) : List Firing → List Firing → Prop :=
  List.Forall₂ (Firing.Alike S)

theorem separator_alike : Rule.Alike S (fun _ _ => True) separator separator :=
  alike_bind (alike_optional (alike_satisfy _)) fun _ _ _ => alike_pure trivial

theorem identifier_alike : Rule.Alike S (SpannedAlike S) identifier identifier := by
  refine alike_classify fun l l' hl => ?_
  rw [hl.1]
  split
  · exact .inl ⟨_, _, rfl, rfl, rfl, hl.2⟩
  · exact .inr ⟨_, rfl, rfl⟩

theorem boolValue_alike : Rule.Alike S (Firing.Alike S) boolValue boolValue := by
  refine alike_classify fun l l' hl => ?_
  rw [hl.1]
  split
  · exact .inl ⟨_, _, rfl, rfl, rfl, hl.2⟩
  split
  · exact .inl ⟨_, _, rfl, rfl, rfl, hl.2⟩
  · exact .inr ⟨_, rfl, rfl⟩

theorem floatValue_alike : Rule.Alike S (Firing.Alike S) floatValue floatValue := by
  refine alike_classify fun l l' hl => ?_
  rw [hl.1]
  split
  · split
    · exact .inl ⟨_, _, rfl, rfl, rfl, hl.2⟩
    · exact .inr ⟨_, rfl, rfl⟩
  · exact .inr ⟨_, rfl, rfl⟩

theorem stringValue_alike : Rule.Alike S (Firing.Alike S) stringValue stringValue := by
  refine alike_classify fun l l' hl => ?_
  rw [hl.1]
  split
  · exact .inl ⟨_, _, rfl, rfl, rfl, hl.2⟩
  · exact .inr ⟨_, rfl, rfl⟩

theorem cullFaceValue_alike : Rule.Alike S (SpannedAlike S) cullFaceValue cullFaceValue := by
  refine alike_classify fun l l' hl => ?_
  rw [hl.1]
  split
  · split
    · exact .inl ⟨_, _, rfl, rfl, rfl, hl.2⟩
    · exact .inr ⟨_, rfl, rfl⟩
  · exact .inr ⟨_, rfl, rfl⟩

theorem blendFactorValue_alike :
    Rule.Alike S (Firing.Alike S) blendFactorValue blendFactorValue := by
  refine alike_classify fun l l' hl => ?_
  rw [hl.1]
  split
  · split
    · exact .inl ⟨_, _, rfl, rfl, rfl, hl.2⟩
    · exact .inr ⟨_, rfl, rfl⟩
  · exact .inr ⟨_, rfl, rfl⟩

/-! ## Statements -/

/-- From the start of one span to the end of another, spans are related if both are. -/
def ThroughClosed (S : Span → Span → Prop) : Prop :=
  ∀ ⦃a a' b b' : Span⦄, S a a' → S b b' → S (a.through b) (a'.through b')

theorem cullFaceOption_alike (hS : ThroughClosed S) :
    Rule.Alike S (FiringsAlike S) cullFaceOption cullFaceOption := by
  refine alike_bind (alike_satisfy _) fun start start' hstart => ?_
  refine alike_bind separator_alike fun _ _ _ => ?_
  refine alike_bind cullFaceValue_alike ?_
  rintro ⟨face, stop⟩ ⟨_, stop'⟩ ⟨rfl, hstop⟩
  exact alike_pure (.cons ⟨rfl, hS hstart hstop⟩ .nil)

/-- Values of a blending option: what they fire, whether there is blending, and their end. -/
def BlendAlike (S : Span → Span → Prop) (x x' : List Firing × Bool × Span) : Prop :=
  FiringsAlike S x.1 x'.1 ∧ SpannedAlike S x.2 x'.2

theorem blendValue_alike : Rule.Alike S (BlendAlike S) (orElse blendDisabled blendFactors)
    (orElse blendDisabled blendFactors) := by
  refine alike_orElse ?_ ?_
  · exact alike_bind (alike_satisfy _) fun stop stop' hstop => alike_pure ⟨.nil, rfl, hstop⟩
  · refine alike_bind blendFactorValue_alike fun src src' hsrc => ?_
    refine alike_bind (alike_satisfy _) fun _ _ _ => ?_
    refine alike_bind blendFactorValue_alike fun dst dst' hdst => ?_
    exact alike_pure ⟨.cons hsrc (.cons hdst .nil), rfl, hdst.2⟩

theorem blendOption_alike (hS : ThroughClosed S) :
    Rule.Alike S (FiringsAlike S) blendOption blendOption := by
  refine alike_bind (alike_satisfy _) fun start start' hstart => ?_
  refine alike_bind separator_alike fun _ _ _ => ?_
  refine alike_bind blendValue_alike ?_
  rintro ⟨factors, enabled, stop⟩ ⟨factors', _, stop'⟩ ⟨hfactors, rfl, hstop⟩
  exact alike_pure (List.rel_append hfactors (.cons ⟨rfl, hS hstart hstop⟩ .nil))

theorem switchOption_alike (hS : ThroughClosed S) (word : String) (action : Action) :
    Rule.Alike S (FiringsAlike S) (switchOption word action) (switchOption word action) := by
  refine alike_bind (alike_satisfy _) fun start start' hstart => ?_
  refine alike_bind separator_alike fun _ _ _ => ?_
  refine alike_bind boolValue_alike fun value value' hvalue => ?_
  exact alike_pure (.cons hvalue (.cons ⟨rfl, hS hstart hvalue.2⟩ .nil))

theorem shaderOption_alike : Rule.Alike S (FiringsAlike S) shaderOption shaderOption := by
  refine alike_bind (alike_satisfy _) fun _ _ _ => ?_
  refine alike_bind separator_alike fun _ _ _ => ?_
  refine alike_bind stringValue_alike fun path path' hpath => ?_
  exact alike_pure (.cons hpath (.cons ⟨rfl, hpath.2⟩ .nil))

theorem option_alike (hS : ThroughClosed S) : Rule.Alike S (FiringsAlike S) option option :=
  alike_choice (cullFaceOption_alike hS)
    (.cons (blendOption_alike hS) (.cons (switchOption_alike hS _ _)
      (.cons (switchOption_alike hS _ _) (.cons shaderOption_alike .nil))))

theorem numbers_alike (n : Nat) : Rule.Alike S (FiringsAlike S) (numbers n) (numbers n) := by
  induction n with
  | zero => exact alike_bind floatValue_alike fun x x' hx => alike_pure (.cons hx .nil)
  | succ n ih =>
    refine alike_bind floatValue_alike fun x x' hx => ?_
    refine alike_bind (alike_satisfy _) fun _ _ _ => ?_
    exact alike_bind ih fun xs xs' hxs => alike_pure (.cons hx hxs)

theorem vectorValue_alike (hS : ThroughClosed S) (n : Nat) (action : Action) :
    Rule.Alike S (FiringsAlike S) (vectorValue n action) (vectorValue n action) := by
  refine alike_bind (alike_satisfy _) fun left left' hleft => ?_
  refine alike_bind (numbers_alike n) fun xs xs' hxs => ?_
  refine alike_bind (alike_satisfy _) fun right right' hright => ?_
  exact alike_pure (List.rel_append hxs (.cons ⟨rfl, hS hleft hright⟩ .nil))

theorem uniformValue_alike (hS : ThroughClosed S) :
    Rule.Alike S (FiringsAlike S) uniformValue uniformValue := by
  have hscalar : Rule.Alike S (FiringsAlike S) scalarValue scalarValue :=
    alike_bind floatValue_alike fun x x' hx => alike_pure (.cons hx (.cons ⟨rfl, hx.2⟩ .nil))
  have htexture : Rule.Alike S (FiringsAlike S) textureValue textureValue :=
    alike_bind stringValue_alike fun x x' hx => alike_pure (.cons hx (.cons ⟨rfl, hx.2⟩ .nil))
  exact alike_choice (vectorValue_alike hS _ _) (.cons (vectorValue_alike hS _ _)
    (.cons (vectorValue_alike hS _ _) (.cons hscalar (.cons htexture .nil))))

theorem lastSpan_alike {fs fs' : List Firing} (hfs : FiringsAlike S fs fs') {s s' : Span}
    (hs : S s s') : S (lastSpan fs s) (lastSpan fs' s') := by
  unfold lastSpan
  rw [List.getLast?_eq_head?_reverse, List.getLast?_eq_head?_reverse]
  have hreverse := List.rel_reverse hfs
  generalize fs.reverse = rs, fs'.reverse = rs' at hreverse
  cases hreverse with
  | nil => exact hs
  | cons hf _ => exact hf.2

theorem uniform_alike (hS : ThroughClosed S) : Rule.Alike S (FiringsAlike S) uniform uniform := by
  refine alike_bind (alike_satisfy _) fun start start' hstart => ?_
  refine alike_bind identifier_alike ?_
  rintro ⟨name, span⟩ ⟨_, span'⟩ ⟨rfl, hspan⟩
  refine alike_bind (uniformValue_alike hS) fun value value' hvalue => ?_
  have hend := hS hstart (lastSpan_alike hvalue hspan)
  exact alike_pure (List.rel_append (.cons ⟨rfl, hspan⟩ hvalue) (.cons ⟨rfl, hend⟩ .nil))

/-! ## Scopes -/

theorem scope_alike (hS : ThroughClosed S) (word : String) (opening : Option String → Action)
    (closing : Action) {x : Rule (List Firing)} (hx : Rule.Alike S (FiringsAlike S) x x) :
    Rule.Alike S (FiringsAlike S) (scope word opening x closing) (scope word opening x closing) := by
  refine alike_bind (alike_satisfy _) fun start start' hstart => ?_
  refine alike_bind (alike_optional identifier_alike) fun name name' hname => ?_
  refine alike_bind (alike_satisfy _) fun left left' hleft => ?_
  refine alike_bind (alike_many hx) fun body body' hbody => ?_
  refine alike_bind (alike_satisfy _) fun right right' hright => ?_
  have hnames : name.map Prod.fst = name'.map Prod.fst := by
    cases hname with
    | none => rfl
    | some h => exact congrArg some h.1
  have hbegin : Firing.Alike S ⟨opening (name.map Prod.fst), start.through left⟩
      ⟨opening (name'.map Prod.fst), start'.through left'⟩ :=
    ⟨congrArg opening hnames, hS hstart hleft⟩
  exact alike_pure (List.rel_append (.cons hbegin (List.rel_flatten hbody))
    (.cons ⟨rfl, hright⟩ .nil))

theorem documentStatement_alike (hS : ThroughClosed S) :
    Rule.Alike S (FiringsAlike S) (choice technique [option, uniform])
      (choice technique [option, uniform]) := by
  have ho := option_alike hS
  have hu := uniform_alike hS
  have hp : Rule.Alike S (FiringsAlike S) pass pass :=
    scope_alike hS _ _ _ (alike_orElse ho hu)
  have ht : Rule.Alike S (FiringsAlike S) technique technique :=
    scope_alike hS _ _ _ (alike_choice hp (.cons ho (.cons hu .nil)))
  exact alike_choice ht (.cons ho (.cons hu .nil))

theorem document_alike (hS : ThroughClosed S) : Rule.Alike S (FiringsAlike S) document document := by
  refine alike_bind (alike_many (documentStatement_alike hS)) fun xs xs' hxs => ?_
  exact alike_bind alike_finish fun _ _ _ => alike_pure (List.rel_flatten hxs)

/-- **Lexemes that are alike are parsed to firings that are alike, or rejected at the same place for
the same reason.** -/
theorem parse_alike (hS : ThroughClosed S) {ls ls' : List Lexeme}
    (hls : List.Forall₂ (Lexeme.Alike S) ls ls') :
    (∃ fs fs', parse ls = .ok fs ∧ parse ls' = .ok fs' ∧ FiringsAlike S fs fs') ∨
      ∃ e e', parse ls = .error e ∧ parse ls' = .error e' ∧ e.Alike S e' := by
  have hreply := document_alike hS ls ls' hls
  unfold parse Rule.run
  generalize document ls = reply, document ls' = reply' at hreply
  cases hreply with
  | ok hvalue hrest halt => exact .inl ⟨_, _, rfl, rfl, hvalue⟩
  | fail he => exact .inr ⟨_, _, rfl, rfl, he⟩

end Grammar

end MaterialScript
