import MaterialScript.Proofs.Derivation.Rejection

/-!
# One document after another

No statement or scope is a front part of another one, so nothing that is tried inside of an accepted
document gets beyond its end. What follows a document is therefore parsed as if it stood alone.

* `Rule.Reads.rest_le_alt` : what a rule tried before it took a tree got no further than that tree;
* `Rule.Reads.manyFrom_append` : repetition after a row of trees;
* `parse_append` : whole documents.
-/

namespace MaterialScript.Grammar

variable {β T : Type} {x : Rule β} {lexemes : T → List Lexeme} {value : T → β} {P : T → Prop}

/-! ## Failures inside of accepted trees -/

theorem Failure.furthest_eq_left {a b : Failure} (h : a.rest.length ≤ b.rest.length) :
    a.furthest b = a := by
  unfold Failure.furthest
  rw [if_neg (by omega)]

/-- Where a tree is taken, all that was tried before got no further than its end. -/
theorem Rule.Reads.rest_le_alt (hu : Unambiguous lexemes) (hx : x.Reads lexemes value P)
    (hr : x.Reaches (yields lexemes P)) {ls rest : List Lexeme} {b : β} {e : Failure}
    (h : x ls = .ok b rest (some e)) : rest.length ≤ e.rest.length := by
  obtain ⟨t, -, rfl, -⟩ := (hx _ _ _).1 ⟨_, h⟩
  obtain ⟨front, hls, hviable⟩ := (hr.stops (lexemes t ++ rest)).viable
  have hfront := (hu.front_of_viable hls hviable).length_le
  have htotal := congrArg List.length hls
  rw [List.length_append, List.length_append, h] at htotal
  have hfrontier : rest.length ≤ (further rest e.rest).length := by
    have : (further rest e.rest).length = (Reply.ok b rest (some e)).frontier.length := rfl
    omega
  unfold further at hfrontier
  split at hfrontier
  · exact hfrontier
  · omega

theorem mem_furthest? {a b : Option Failure} {e : Failure} (h : furthest? a b = some e) :
    a = some e ∨ b = some e := by
  cases a with
  | none => exact .inr h
  | some a =>
    cases b with
    | none => exact .inl h
    | some b =>
      simp only [furthest?, Failure.furthest] at h
      split at h
      · exact .inr h
      · exact .inl h

theorem Rule.Reads.manyFrom_append (hne : ∀ t, lexemes t ≠ []) (hu : Unambiguous lexemes)
    (hx : x.Reads lexemes value (fun _ => True))
    (hr : x.Reaches (yields lexemes (fun _ => True))) (ts : List T) (ls : List Lexeme) :
    ∃ alt, (∀ e, alt = some e → ls.length ≤ e.rest.length) ∧
      manyFrom x (ts.flatMap lexemes ++ ls) =
        ⟨ts.map value ++ (manyFrom x ls).values, (manyFrom x ls).rest,
          furthest? (manyFrom x ls).alt alt⟩ := by
  induction ts with
  | nil =>
    refine ⟨none, (fun e he => nomatch he), ?_⟩
    rw [furthest?_none_right]
    rfl
  | cons t ts ih =>
    obtain ⟨alt, halt, hmany⟩ := ih
    obtain ⟨alt', hfirst⟩ := (hx _ _ (ts.flatMap lexemes ++ ls)).2 ⟨t, trivial, rfl, rfl⟩
    have hlt : (ts.flatMap lexemes ++ ls).length <
        (lexemes t ++ (ts.flatMap lexemes ++ ls)).length := by
      have := List.length_pos_iff.2 (hne t)
      simp only [List.length_append]
      omega
    refine ⟨furthest? alt alt', fun e he => ?_, ?_⟩
    · rcases mem_furthest? he with he | he
      · exact halt e he
      · subst he
        have hle := hx.rest_le_alt hu hr hfirst
        rw [List.length_append] at hle
        omega
    · rw [List.flatMap_cons, List.append_assoc, manyFrom, hfirst]
      dsimp only
      rw [if_pos hlt, hmany, furthest?_assoc]
      rfl

/-! ## Documents -/

theorem furthest_furthest? {a : Failure} {alt alt' : Option Failure}
    (h : ∀ e, alt' = some e → a.rest.length ≤ e.rest.length) :
    ((furthest? alt alt').map a.furthest).getD a = (alt.map a.furthest).getD a := by
  cases alt' with
  | none => rw [furthest?_none_right]
  | some b =>
    have hb := h b rfl
    cases alt with
    | none => exact Failure.furthest_eq_left hb
    | some e =>
      have hle := a.furthest_rest_le_left e
      show a.furthest (e.furthest b) = a.furthest e
      rw [← Failure.furthest_assoc]
      exact Failure.furthest_eq_left (by omega)

/-- **What follows a document is parsed as if it stood alone.** -/
theorem parse_append {ls : List Lexeme} {fs : List Firing} (h : parse ls = .ok fs)
    (ls' : List Lexeme) :
    parse (ls ++ ls') =
      match parse ls' with
      | .ok fs' => .ok (fs ++ fs')
      | .error e => .error e := by
  have hne := (Item.ledBy TechniqueTree.ledBy).ne_nil
  obtain ⟨d, rfl, rfl⟩ := parse_iff_tree.1 h
  obtain ⟨alt', halt', hmany⟩ := documentItem_reads.manyFrom_append hne documentItem_unambiguous
    documentItem_reaches d.items ls'
  obtain ⟨ts, hls', -, -⟩ := documentItem_reads.manyFrom_sound hne ls'
  rw [parse_eq, parse_eq]
  unfold DocumentTree.lexemes
  rw [hmany]
  rcases hmore : manyFrom documentItem ls' with ⟨values, _ | ⟨l, more⟩, alt⟩
  · simp only [List.flatten_append, ← List.flatMap_def]
    rfl
  · have hle : (l :: more).length ≤ ls'.length := by
      rw [hmore] at hls'
      rw [hls']
      exact (List.suffix_append _ _).length_le
    exact congrArg Except.error (furthest_furthest? fun e he => Nat.le_trans hle (halt' e he))

end MaterialScript.Grammar
