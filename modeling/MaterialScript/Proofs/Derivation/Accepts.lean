import MaterialScript.Proofs.Derivation.Unambiguous

/-!
# What rules accept

The answers of rules without their failures: which lexemes a rule takes, and with which value. The
rules made of rules are described by what their parts accept, so that the rules of the grammar are
never opened again.

* `Rule.Accepts x ls a rest` : the rule takes `ls` up to `rest`, with the value `a`;
* `accepts_*` : one equivalence for each way of making rules;
* `Rule.Reads x lexemes value P` : the rule takes the lexemes of a tree with the property `P`, and
  nothing else; `Reads.orElse`, `Reads.choice_cons` : where the trees are unambiguous, it does not
  matter which of two rules is tried first; `Reads.accepts_many` : repetition takes rows of trees that
  cannot be made longer.
-/

namespace MaterialScript.Grammar

variable {α β : Type}

/-- The rule takes lexemes from the front of `ls`, with the value `a`, and leaves `rest`. -/
def Rule.Accepts (x : Rule α) (ls : List Lexeme) (a : α) (rest : List Lexeme) : Prop :=
  ∃ alt, x ls = .ok a rest alt

/-- Taking lexemes fails. -/
def Rule.Rejects (x : Rule α) (ls : List Lexeme) : Prop := ∀ a rest, ¬ x.Accepts ls a rest

theorem Rule.Accepts.unique {x : Rule α} {ls : List Lexeme} {a b : α} {rest rest' : List Lexeme}
    (h : x.Accepts ls a rest) (h' : x.Accepts ls b rest') : a = b ∧ rest = rest' := by
  obtain ⟨alt, h⟩ := h
  obtain ⟨alt', h'⟩ := h'
  rw [h] at h'
  injection h' with ha hr
  exact ⟨ha, hr⟩

theorem Rule.accepts_of_ok {x : Rule α} {ls : List Lexeme} {a : α} {rest : List Lexeme}
    {alt : Option Failure} (h : x ls = .ok a rest alt) {b : α} {rest' : List Lexeme} :
    x.Accepts ls b rest' ↔ b = a ∧ rest' = rest := by
  constructor
  · rintro ⟨alt', h'⟩
    rw [h] at h'
    injection h' with ha hr
    exact ⟨ha.symm, hr.symm⟩
  · rintro ⟨rfl, rfl⟩
    exact ⟨alt, h⟩

theorem Rule.rejects_of_fail {x : Rule α} {ls : List Lexeme} {e : Failure} (h : x ls = .fail e) :
    x.Rejects ls := by
  rintro a rest ⟨alt, h'⟩
  rw [h] at h'
  cases h'

/-! ## Sequences -/

theorem accepts_pure {a b : α} {ls rest : List Lexeme} :
    (pure a : Rule α).Accepts ls b rest ↔ b = a ∧ rest = ls :=
  Rule.accepts_of_ok (show (pure a : Rule α) ls = .ok a ls none from rfl)

theorem accepts_bind {x : Rule α} {f : α → Rule β} {ls rest : List Lexeme} {b : β} :
    (x >>= f).Accepts ls b rest ↔
      ∃ a mid, x.Accepts ls a mid ∧ (f a).Accepts mid b rest := by
  have hbind : (x >>= f) ls = Rule.bind x f ls := rfl
  constructor
  · rintro ⟨alt, h⟩
    rw [hbind, Rule.bind] at h
    split at h
    · cases h
    · next a mid alt' hx =>
      split at h
      · cases h
      · next b' rest' alt'' hf =>
        cases h
        exact ⟨a, mid, ⟨alt', hx⟩, ⟨alt'', hf⟩⟩
  · rintro ⟨a, mid, ⟨alt, hx⟩, ⟨alt', hf⟩⟩
    exact ⟨furthest? alt' alt, by rw [hbind, Rule.bind, hx]; simp only [hf]⟩

/-! ## One lexeme -/

theorem accepts_classify {read : Lexeme → Except Reason α} {ls rest : List Lexeme} {a : α} :
    (classify read).Accepts ls a rest ↔ ∃ l, read l = .ok a ∧ ls = l :: rest := by
  cases ls with
  | nil =>
    refine ⟨fun h => absurd h (Rule.rejects_of_fail rfl a rest), ?_⟩
    rintro ⟨l, -, h⟩
    cases h
  | cons l ls =>
    cases hread : read l with
    | ok a' =>
      rw [Rule.accepts_of_ok (show classify read (l :: ls) = .ok a' ls none by
        rw [classify, hread])]
      constructor
      · rintro ⟨rfl, rfl⟩
        exact ⟨l, hread, rfl⟩
      · rintro ⟨l', hl, h⟩
        cases h
        rw [hread] at hl
        cases hl
        exact ⟨rfl, rfl⟩
    | error reason =>
      refine ⟨fun h => absurd h (Rule.rejects_of_fail (by rw [classify, hread]) a rest), ?_⟩
      rintro ⟨l', hl, h⟩
      cases h
      rw [hread] at hl
      cases hl

theorem accepts_satisfy {p : Token → Bool} {ls rest : List Lexeme} {span : Span} :
    (satisfy p).Accepts ls span rest ↔ ∃ t, p t = true ∧ ls = ⟨t, span⟩ :: rest := by
  rw [satisfy, accepts_classify]
  constructor
  · rintro ⟨⟨t, span'⟩, h, rfl⟩
    split at h
    · next hp => cases h; exact ⟨t, hp, rfl⟩
    · cases h
  · rintro ⟨t, hp, rfl⟩
    exact ⟨⟨t, span⟩, by rw [if_pos hp], rfl⟩

theorem accepts_finish {ls rest : List Lexeme} {u : Unit} :
    finish.Accepts ls u rest ↔ ls = [] ∧ rest = [] := by
  cases ls with
  | nil =>
    rw [Rule.accepts_of_ok (show finish [] = .ok () [] none from rfl)]
    simp
  | cons l ls =>
    simp [Rule.rejects_of_fail (show finish (l :: ls) = .fail ⟨l :: ls, .unexpected⟩ from rfl) u rest]

/-! ## Choices -/

theorem accepts_optional {x : Rule α} {ls rest : List Lexeme} {o : Option α} :
    (optional x).Accepts ls o rest ↔
      (∃ a, o = some a ∧ x.Accepts ls a rest) ∨ (o = none ∧ rest = ls ∧ x.Rejects ls) := by
  cases hx : x ls with
  | ok a mid alt =>
    rw [Rule.accepts_of_ok (show optional x ls = .ok (some a) mid alt by rw [optional, hx])]
    constructor
    · rintro ⟨rfl, rfl⟩
      exact .inl ⟨a, rfl, alt, hx⟩
    · rintro (⟨b, rfl, hb⟩ | ⟨-, -, hr⟩)
      · obtain ⟨rfl, rfl⟩ := hb.unique ⟨alt, hx⟩
        exact ⟨rfl, rfl⟩
      · exact absurd ⟨alt, hx⟩ (hr a mid)
  | fail e =>
    rw [Rule.accepts_of_ok (show optional x ls = .ok none ls (some e) by rw [optional, hx])]
    have hr := Rule.rejects_of_fail hx
    constructor
    · rintro ⟨rfl, rfl⟩
      exact .inr ⟨rfl, rfl, hr⟩
    · rintro (⟨a, -, ha⟩ | ⟨rfl, rfl, -⟩)
      · exact absurd ha (hr a rest)
      · exact ⟨rfl, rfl⟩

theorem accepts_orElse {x y : Rule α} {ls rest : List Lexeme} {a : α} :
    (orElse x y).Accepts ls a rest ↔
      x.Accepts ls a rest ∨ (x.Rejects ls ∧ y.Accepts ls a rest) := by
  cases hx : x ls with
  | ok b mid alt =>
    rw [Rule.accepts_of_ok (show orElse x y ls = .ok b mid alt by rw [orElse, hx]),
      Rule.accepts_of_ok hx]
    refine ⟨.inl, ?_⟩
    rintro (h | ⟨hr, -⟩)
    · exact h
    · exact absurd ⟨alt, hx⟩ (hr b mid)
  | fail e =>
    have hr := Rule.rejects_of_fail hx
    have hy : (orElse x y).Accepts ls a rest ↔ y.Accepts ls a rest := by
      cases hy : y ls with
      | ok b mid alt =>
        rw [Rule.accepts_of_ok (show orElse x y ls = .ok b mid alt by rw [orElse, hx, hy]),
          Rule.accepts_of_ok hy]
      | fail e' =>
        exact iff_of_false (Rule.rejects_of_fail (by rw [orElse, hx, hy]) a rest)
          (Rule.rejects_of_fail hy a rest)
    rw [hy]
    refine ⟨fun h => .inr ⟨hr, h⟩, ?_⟩
    rintro (h | ⟨-, h⟩)
    · exact absurd h (hr a rest)
    · exact h

/-- The failure that came before matters to what is reported only. -/
theorem accepts_choiceFrom (e e' : Failure) (xs : List (Rule α)) {ls rest : List Lexeme} {a : α} :
    (choiceFrom e xs).Accepts ls a rest ↔ (choiceFrom e' xs).Accepts ls a rest := by
  induction xs generalizing e e' with
  | nil => exact iff_of_false (Rule.rejects_of_fail rfl a rest) (Rule.rejects_of_fail rfl a rest)
  | cons x xs ih =>
    cases hx : x ls with
    | ok b mid alt =>
      rw [Rule.accepts_of_ok (show choiceFrom e (x :: xs) ls = .ok b mid alt by
          rw [choiceFrom, hx]),
        Rule.accepts_of_ok (show choiceFrom e' (x :: xs) ls = .ok b mid alt by
          rw [choiceFrom, hx])]
    | fail f =>
      simp only [Rule.Accepts, choiceFrom, hx]
      exact ih (f.furthest e) (f.furthest e')

theorem accepts_choice_nil {x : Rule α} {ls rest : List Lexeme} {a : α} :
    (choice x []).Accepts ls a rest ↔ x.Accepts ls a rest := by
  cases hx : x ls <;> simp [Rule.Accepts, choice, choiceFrom, hx]

theorem accepts_choice_cons {x y : Rule α} {ys : List (Rule α)} {ls rest : List Lexeme} {a : α} :
    (choice x (y :: ys)).Accepts ls a rest ↔ (orElse x (choice y ys)).Accepts ls a rest := by
  rw [accepts_orElse]
  cases hx : x ls with
  | ok b mid alt =>
    rw [Rule.accepts_of_ok (show choice x (y :: ys) ls = .ok b mid alt by rw [choice, hx]),
      Rule.accepts_of_ok hx]
    refine ⟨.inl, ?_⟩
    rintro (h | ⟨hr, -⟩)
    · exact h
    · exact absurd ⟨alt, hx⟩ (hr b mid)
  | fail e =>
    have hr := Rule.rejects_of_fail hx
    have hy : (choice x (y :: ys)).Accepts ls a rest ↔ (choice y ys).Accepts ls a rest := by
      simp only [Rule.Accepts, choice, choiceFrom, hx]
      cases hy : y ls with
      | ok b mid alt => rfl
      | fail e' => exact accepts_choiceFrom (e'.furthest e) e' ys
    rw [hy]
    refine ⟨fun h => .inr ⟨hr, h⟩, ?_⟩
    rintro (h | ⟨-, h⟩)
    · exact absurd h (hr a rest)
    · exact h

/-! ## Reading trees -/

section Reading
variable {S T : Type}

/-- The rule takes the lexemes of a tree with the property `P`, with the value of that tree, and
takes nothing else. -/
def Rule.Reads (x : Rule β) (lexemes : T → List Lexeme) (value : T → β) (P : T → Prop) : Prop :=
  ∀ ls b rest, x.Accepts ls b rest ↔ ∃ t, P t ∧ ls = lexemes t ++ rest ∧ b = value t

variable {x y : Rule β} {lexemes : T → List Lexeme} {value : T → β} {P Q : T → Prop}

theorem Rule.Reads.congr (hx : x.Reads lexemes value P) (h : ∀ t, P t ↔ Q t) :
    x.Reads lexemes value Q := by
  intro ls b rest
  simp only [hx ls b rest, h]

theorem Rule.Reads.map {lexemes' : S → List Lexeme} {value' : S → β} {P' : S → Prop}
    (hx : x.Reads lexemes' value' P') (f : S → T) (hl : ∀ s, lexemes (f s) = lexemes' s)
    (hv : ∀ s, value (f s) = value' s) :
    x.Reads lexemes value (fun t => ∃ s, P' s ∧ f s = t) := by
  intro ls b rest
  rw [hx ls b rest]
  constructor
  · rintro ⟨s, hs, rfl, rfl⟩
    exact ⟨f s, ⟨s, hs, rfl⟩, by rw [hl], (hv s).symm⟩
  · rintro ⟨_, ⟨s, hs, rfl⟩, rfl, rfl⟩
    exact ⟨s, hs, by rw [hl], hv s⟩

/-- Where the trees are unambiguous, the first of two rules takes nothing away from the second. -/
theorem Rule.Reads.orElse (hu : Unambiguous lexemes) (hx : x.Reads lexemes value P)
    (hy : y.Reads lexemes value Q) :
    (orElse x y).Reads lexemes value (fun t => P t ∨ Q t) := by
  intro ls b rest
  rw [accepts_orElse]
  constructor
  · rintro (h | ⟨-, h⟩)
    · obtain ⟨t, ht, h⟩ := (hx ls b rest).1 h
      exact ⟨t, .inl ht, h⟩
    · obtain ⟨t, ht, h⟩ := (hy ls b rest).1 h
      exact ⟨t, .inr ht, h⟩
  · rintro ⟨t, ht, rfl, rfl⟩
    cases hfirst : x (lexemes t ++ rest) with
    | fail e =>
      have hr := Rule.rejects_of_fail hfirst
      rcases ht with ht | ht
      · exact absurd ((hx _ _ _).2 ⟨t, ht, rfl, rfl⟩) (hr _ _)
      · exact .inr ⟨hr, (hy _ _ _).2 ⟨t, ht, rfl, rfl⟩⟩
    | ok b rest' alt =>
      have h : x.Accepts (lexemes t ++ rest) b rest' := ⟨alt, hfirst⟩
      obtain ⟨t', -, hl, rfl⟩ := (hx _ _ _).1 h
      obtain ⟨rfl, rfl⟩ := hu _ _ _ _ hl
      exact .inl h

theorem Rule.Reads.choice_nil (hx : x.Reads lexemes value P) :
    (choice x []).Reads lexemes value P := by
  intro ls b rest
  rw [accepts_choice_nil, hx ls b rest]

theorem Rule.Reads.choice_cons {ys : List (Rule β)} (hu : Unambiguous lexemes)
    (hx : x.Reads lexemes value P) (hys : (choice y ys).Reads lexemes value Q) :
    (choice x (y :: ys)).Reads lexemes value (fun t => P t ∨ Q t) := by
  intro ls b rest
  rw [accepts_choice_cons, hx.orElse hu hys ls b rest]

/-- What repetition takes is a row of trees, and it stops only where no tree follows. -/
theorem Rule.Reads.manyFrom_sound (hne : ∀ t, lexemes t ≠ [])
    (hx : x.Reads lexemes value (fun _ => True)) (ls : List Lexeme) :
    ∃ ts : List T, ls = ts.flatMap lexemes ++ (manyFrom x ls).rest ∧
      (manyFrom x ls).values = ts.map value ∧ x.Rejects (manyFrom x ls).rest := by
  fun_induction manyFrom x ls with
  | case1 ls e hfail => exact ⟨[], rfl, rfl, Rule.rejects_of_fail hfail⟩
  | case2 ls b rest alt hok hlt more ih =>
    obtain ⟨t, -, rfl, rfl⟩ := (hx _ _ _).1 ⟨alt, hok⟩
    obtain ⟨ts, hl, hv, hr⟩ := ih
    refine ⟨t :: ts, ?_, ?_, hr⟩
    · rw [List.flatMap_cons, List.append_assoc, ← hl]
    · rw [List.map_cons, hv]
  | case3 ls b rest alt hok hge =>
    -- A tree has lexemes, so a match that takes none is none of a tree.
    obtain ⟨t, -, rfl, rfl⟩ := (hx _ _ _).1 ⟨alt, hok⟩
    have := List.length_pos_iff.2 (hne t)
    rw [List.length_append] at hge
    omega

theorem Rule.Reads.manyFrom_complete (hne : ∀ t, lexemes t ≠ [])
    (hx : x.Reads lexemes value (fun _ => True)) {rest : List Lexeme} (hr : x.Rejects rest)
    (ts : List T) :
    (manyFrom x (ts.flatMap lexemes ++ rest)).values = ts.map value ∧
      (manyFrom x (ts.flatMap lexemes ++ rest)).rest = rest := by
  induction ts with
  | nil =>
    rw [List.flatMap_nil, List.nil_append, manyFrom]
    cases hfirst : x rest with
    | fail e => exact ⟨rfl, rfl⟩
    | ok b mid alt => exact absurd ⟨alt, hfirst⟩ (hr b mid)
  | cons t ts ih =>
    obtain ⟨alt, hfirst⟩ := (hx _ _ (ts.flatMap lexemes ++ rest)).2 ⟨t, trivial, rfl, rfl⟩
    have hlt : (ts.flatMap lexemes ++ rest).length <
        (lexemes t ++ (ts.flatMap lexemes ++ rest)).length := by
      have := List.length_pos_iff.2 (hne t)
      simp only [List.length_append]
      omega
    rw [List.flatMap_cons, List.append_assoc, manyFrom, hfirst]
    simp only [hlt, if_true, List.map_cons, ih, and_self]

theorem Rule.Reads.accepts_many (hne : ∀ t, lexemes t ≠ [])
    (hx : x.Reads lexemes value (fun _ => True)) {ls rest : List Lexeme} {bs : List β} :
    (many x).Accepts ls bs rest ↔
      ∃ ts : List T, ls = ts.flatMap lexemes ++ rest ∧ bs = ts.map value ∧ x.Rejects rest := by
  rw [Rule.accepts_of_ok (show many x ls = .ok _ _ _ from rfl)]
  constructor
  · rintro ⟨rfl, rfl⟩
    exact hx.manyFrom_sound hne ls
  · rintro ⟨ts, rfl, rfl, hr⟩
    obtain ⟨hv, hrest⟩ := hx.manyFrom_complete hne hr ts
    exact ⟨hv.symm, hrest.symm⟩

end Reading

end MaterialScript.Grammar
