import MaterialScript.Proofs.Derivation.Tree

/-!
# The reasons of failures

A failure is reported at a lexeme, with a reason. The reason holds of that lexeme, whichever of the
failures on the way is the one that is reported.

* `Reason.Holds` : what a reason says of a token; `Failure.Honest` : a failure whose reason holds;
* `Rule.Honest` : a rule with honest failures only;
* `honest_bind`, `honest_optional`, `honest_orElse`, `honest_choice`, `honest_many` : one lemma for
  each way of making rules;
* `document_honest`, `honest_of_parse_error` : the grammar.
-/

namespace MaterialScript.Grammar

/-- What a reason says of the token at which a rule fails. -/
def Reason.Holds (t : Token) : Reason → Prop
  | unexpected => True
  | identifierExpected => ∀ text, t ≠ .ident text
  | switchExpected => ∀ on, t ≠ switchToken on
  | numberExpected => ∀ text, t ≠ .number text
  | numberOutOfRange => ∃ text, t = .number text ∧ Binary32.decode? text = none
  | stringExpected => ∀ content, t ≠ .str content
  | unknownCullFace => ∀ face, t ≠ faceToken face
  | unknownBlendFactor => ∀ factor, t ≠ factorToken factor

/-- A failure whose reason holds of its lexeme. The end of the input gives no reason. -/
def Failure.Honest (e : Failure) : Prop :=
  match e.rest with
  | [] => e.reason = .unexpected
  | l :: _ => e.reason.Holds l.token

variable {α β : Type}

def Reply.Honest : Reply α → Prop
  | .ok _ _ alt => ∀ e ∈ alt, e.Honest
  | .fail e => e.Honest

def Rule.Honest (x : Rule α) : Prop := ∀ ls, (x ls).Honest

/-! ## Rules made of rules -/

theorem Failure.Honest.furthest {a b : Failure} (ha : a.Honest) (hb : b.Honest) :
    (a.furthest b).Honest := by
  unfold Failure.furthest
  split
  · exact hb
  · exact ha

theorem honest_furthest? {a b : Option Failure} (ha : ∀ e ∈ a, e.Honest) (hb : ∀ e ∈ b, e.Honest) :
    ∀ e ∈ furthest? a b, e.Honest := by
  cases a with
  | none => exact hb
  | some a =>
    cases b with
    | none => exact ha
    | some b =>
      intro e he
      obtain rfl := Option.some.inj he
      exact (ha a rfl).furthest (hb b rfl)

theorem Rule.Honest.of_ok {x : Rule α} (hx : x.Honest) {ls rest : List Lexeme} {a : α}
    {alt : Option Failure} (h : x ls = .ok a rest alt) : ∀ e ∈ alt, e.Honest := by
  have hreply := hx ls
  rw [h] at hreply
  exact hreply

theorem Rule.Honest.of_fail {x : Rule α} (hx : x.Honest) {ls : List Lexeme} {e : Failure}
    (h : x ls = .fail e) : e.Honest := by
  have hreply := hx ls
  rw [h] at hreply
  exact hreply

theorem honest_pure (a : α) : (pure a : Rule α).Honest := by
  intro ls e he
  cases he

theorem honest_bind {x : Rule α} {f : α → Rule β} (hx : x.Honest) (hf : ∀ a, (f a).Honest) :
    (x >>= f).Honest := by
  intro ls
  show Reply.Honest (Rule.bind x f ls)
  unfold Rule.bind
  split
  · next e hfail => exact hx.of_fail hfail
  · next a rest alt hok =>
    split
    · next e hfail =>
      have hsecond := (hf a).of_fail hfail
      cases alt with
      | none => exact hsecond
      | some e' => exact hsecond.furthest (hx.of_ok hok e' rfl)
    · next b rest' alt' hok' => exact honest_furthest? ((hf a).of_ok hok') (hx.of_ok hok)

theorem honest_classify {read : Lexeme → Except Reason α}
    (h : ∀ l reason, read l = .error reason → reason.Holds l.token) : (classify read).Honest := by
  intro ls
  unfold classify
  split
  · rfl
  · next l ls =>
    split
    · intro e he
      cases he
    · next reason hread => exact h l reason hread

theorem honest_satisfy (p : Token → Bool) : (satisfy p).Honest := by
  refine honest_classify fun l reason h => ?_
  split at h
  · cases h
  · cases h
    trivial

theorem honest_finish : finish.Honest := by
  intro ls
  unfold finish
  split
  · intro e he
    cases he
  · trivial

theorem honest_optional {x : Rule α} (hx : x.Honest) : (optional x).Honest := by
  intro ls
  unfold optional
  split
  · next hok => exact hx.of_ok hok
  · next hfail =>
    intro e he
    obtain rfl := Option.some.inj he
    exact hx.of_fail hfail

theorem honest_orElse {x y : Rule α} (hx : x.Honest) (hy : y.Honest) : (orElse x y).Honest := by
  intro ls
  unfold orElse
  split
  · next hok => exact hx.of_ok hok
  · next hfail =>
    split
    · next hok => exact hy.of_ok hok
    · next hfail' => exact (hx.of_fail hfail).furthest (hy.of_fail hfail')

theorem honest_choiceFrom {e : Failure} (he : e.Honest) {xs : List (Rule α)}
    (hxs : ∀ x ∈ xs, x.Honest) : (choiceFrom e xs).Honest := by
  induction xs generalizing e with
  | nil => exact fun _ => he
  | cons x xs ih =>
    have hx : x.Honest := hxs x List.mem_cons_self
    intro ls
    unfold choiceFrom
    split
    · next hok => exact hx.of_ok hok
    · next hfail =>
      have hfurthest := (hx.of_fail hfail).furthest he
      exact ih hfurthest (fun y hy => hxs y (List.mem_cons_of_mem x hy)) ls

theorem honest_choice {x : Rule α} {xs : List (Rule α)} (hx : x.Honest)
    (hxs : ∀ y ∈ xs, y.Honest) : (choice x xs).Honest := by
  intro ls
  unfold choice
  split
  · next hok => exact hx.of_ok hok
  · next hfail => exact honest_choiceFrom (hx.of_fail hfail) hxs ls

theorem honest_manyFrom {x : Rule α} (hx : x.Honest) (ls : List Lexeme) :
    ∀ e ∈ (manyFrom x ls).alt, e.Honest := by
  fun_induction manyFrom x ls with
  | case1 ls e hfail =>
    intro e' he'
    obtain rfl := Option.some.inj he'
    exact hx.of_fail hfail
  | case2 ls a rest alt hok _ _ ih => exact honest_furthest? ih (hx.of_ok hok)
  | case3 ls a rest alt hok _ => exact hx.of_ok hok

theorem honest_many {x : Rule α} (hx : x.Honest) : (many x).Honest := honest_manyFrom hx

/-! ## The grammar -/

theorem separator_honest : separator.Honest :=
  honest_bind (honest_optional (honest_satisfy _)) fun _ => honest_pure _

theorem identifier_honest : identifier.Honest := by
  refine honest_classify fun l reason h => ?_
  split at h
  · cases h
  · next hother =>
    cases h
    exact hother

theorem boolValue_honest : boolValue.Honest := by
  refine honest_classify fun l reason h => ?_
  split at h
  · cases h
  · next hon =>
    split at h
    · cases h
    · next hoff =>
      cases h
      rintro (_ | _)
      · exact hoff
      · exact hon

theorem floatValue_honest : floatValue.Honest := by
  refine honest_classify fun l reason h => ?_
  split at h
  · next text htoken =>
    split at h
    · cases h
    · next hnone =>
      cases h
      exact ⟨text, htoken, hnone⟩
  · next hother =>
    cases h
    exact hother

theorem stringValue_honest : stringValue.Honest := by
  refine honest_classify fun l reason h => ?_
  split at h
  · cases h
  · next hother =>
    cases h
    exact hother

theorem cullFaceValue_honest : cullFaceValue.Honest := by
  refine honest_classify fun l reason h => ?_
  split at h
  · next text htoken =>
    split at h
    · cases h
    · next hnone =>
      cases h
      intro face hface
      rw [htoken, faceToken, Token.ident.injEq] at hface
      rw [hface, CullFace.ofKeyword?_keyword] at hnone
      cases hnone
  · next hother =>
    cases h
    exact fun face => hother _

theorem blendFactorValue_honest : blendFactorValue.Honest := by
  refine honest_classify fun l reason h => ?_
  split at h
  · next text htoken =>
    split at h
    · cases h
    · next hnone =>
      cases h
      intro factor hfactor
      rw [htoken, factorToken, Token.ident.injEq] at hfactor
      rw [hfactor, BlendFactor.ofKeyword?_keyword] at hnone
      cases hnone
  · next hother =>
    cases h
    exact fun factor => hother _

theorem cullFaceOption_honest : cullFaceOption.Honest :=
  honest_bind (honest_satisfy _) fun _ => honest_bind separator_honest fun _ =>
    honest_bind cullFaceValue_honest fun _ => honest_pure _

theorem blendOption_honest : blendOption.Honest := by
  have hdisabled : blendDisabled.Honest := honest_bind (honest_satisfy _) fun _ => honest_pure _
  have hfactors : blendFactors.Honest :=
    honest_bind blendFactorValue_honest fun _ => honest_bind (honest_satisfy _) fun _ =>
      honest_bind blendFactorValue_honest fun _ => honest_pure _
  exact honest_bind (honest_satisfy _) fun _ => honest_bind separator_honest fun _ =>
    honest_bind (honest_orElse hdisabled hfactors) fun _ => honest_pure _

theorem switchOption_honest (word : String) (action : Action) :
    (switchOption word action).Honest :=
  honest_bind (honest_satisfy _) fun _ => honest_bind separator_honest fun _ =>
    honest_bind boolValue_honest fun _ => honest_pure _

theorem shaderOption_honest : shaderOption.Honest :=
  honest_bind (honest_satisfy _) fun _ => honest_bind separator_honest fun _ =>
    honest_bind stringValue_honest fun _ => honest_pure _

theorem option_honest : option.Honest := by
  refine honest_choice cullFaceOption_honest ?_
  simp only [List.forall_mem_cons]
  exact ⟨blendOption_honest, switchOption_honest _ _, switchOption_honest _ _, shaderOption_honest,
    by simp⟩

theorem numbers_honest (n : Nat) : (numbers n).Honest := by
  induction n with
  | zero => exact honest_bind floatValue_honest fun _ => honest_pure _
  | succ n ih =>
    exact honest_bind floatValue_honest fun _ => honest_bind (honest_satisfy _) fun _ =>
      honest_bind ih fun _ => honest_pure _

theorem vectorValue_honest (n : Nat) (action : Action) : (vectorValue n action).Honest :=
  honest_bind (honest_satisfy _) fun _ => honest_bind (numbers_honest n) fun _ =>
    honest_bind (honest_satisfy _) fun _ => honest_pure _

theorem uniformValue_honest : uniformValue.Honest := by
  have hscalar : scalarValue.Honest := honest_bind floatValue_honest fun _ => honest_pure _
  have htexture : textureValue.Honest := honest_bind stringValue_honest fun _ => honest_pure _
  refine honest_choice (vectorValue_honest 3 _) ?_
  simp only [List.forall_mem_cons]
  exact ⟨vectorValue_honest 2 _, vectorValue_honest 1 _, hscalar, htexture, by simp⟩

theorem uniform_honest : uniform.Honest :=
  honest_bind (honest_satisfy _) fun _ => honest_bind identifier_honest fun _ =>
    honest_bind uniformValue_honest fun _ => honest_pure _

theorem scope_honest (word : String) (opening : Option String → Action)
    {statement : Rule (List Firing)} (h : statement.Honest) (closing : Action) :
    (scope word opening statement closing).Honest :=
  honest_bind (honest_satisfy _) fun _ => honest_bind (honest_optional identifier_honest) fun _ =>
    honest_bind (honest_satisfy _) fun _ => honest_bind (honest_many h) fun _ =>
      honest_bind (honest_satisfy _) fun _ => honest_pure _

theorem document_honest : document.Honest := by
  have hpass : pass.Honest := scope_honest _ _ (honest_orElse option_honest uniform_honest) _
  have htechnique : technique.Honest :=
    scope_honest _ _ (honest_choice hpass (by simp [option_honest, uniform_honest])) _
  have hitem : (choice technique [option, uniform]).Honest :=
    honest_choice htechnique (by simp [option_honest, uniform_honest])
  exact honest_bind (honest_many hitem) fun _ => honest_bind honest_finish fun _ => honest_pure _

/-- **The reason of a rejection holds of the lexeme it is reported at.** -/
theorem honest_of_parse_error {ls : List Lexeme} {e : Failure} (h : parse ls = .error e) :
    e.Honest := by
  unfold parse Rule.run at h
  split at h
  · cases h
  · next e' hfail =>
    cases h
    exact document_honest.of_fail hfail

end MaterialScript.Grammar
