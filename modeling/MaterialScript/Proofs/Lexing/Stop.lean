import MaterialScript.Proofs.Lexing.Strokes
import MaterialScript.Proofs.Lexing.Tiling

/-!
# Where reading stops

A text that cannot be read has a front that can, and behind it nothing can be taken. The error tells what
stands there: a number out of range, a literal that is broken, or a character that starts no token.

* `Passes front rest` : the front is read piece by piece, under longest match in the whole text
  (`Passes.lexFrom`);
* `Blocked rest` : nothing can be taken at the front of `rest`;
* `exists_stop` : reading stops behind a front that passes, by induction on the length of the text;
* `blocked_of_head` : nothing can be taken where there is an error;
* `head_eq_error` : the three kinds of errors.
-/

namespace MaterialScript.Lexer

open Text

/-! ## Fronts that pass -/

/-- The front of a text is a sequence of layout and tokens in range, each the longest match in the
whole text. -/
inductive Passes : List Char → List Char → Prop where
  | start (rest : List Char) : Passes [] rest
  | layout {p : Pattern} {w front rest : List Char} (hp : p.IsLayout)
      (hmatch : LongestMatch (w ++ (front ++ rest)) p w) (hmore : Passes front rest) :
      Passes (w ++ front) rest
  | token {t : Token} {front rest : List Char}
      (hmatch : LongestMatch (t.spelling ++ (front ++ rest)) t.pattern t.spelling)
      (hrange : t.InRange) (hmore : Passes front rest) : Passes (t.spelling ++ front) rest

/-- There is something at the front of a text, but neither layout nor a token in range can be taken. -/
structure Blocked (rest : List Char) : Prop where
  nonempty : rest ≠ []
  no_layout : ∀ p w, p.IsLayout → ¬ LongestMatch rest p w
  no_token : ∀ t : Token, t.InRange → ¬ LongestMatch rest t.pattern t.spelling

/-- What is the longest match in a text is so in any front of the text that holds it. -/
theorem LongestMatch.restrict {p : Pattern} {w front rest : List Char}
    (h : LongestMatch (w ++ (front ++ rest)) p w) : LongestMatch (w ++ front) p w := by
  refine ⟨h.mem, List.prefix_append w front, fun q v hv hfront => h.longest q v hv ?_⟩
  rw [← List.append_assoc]
  exact hfront.trans (List.prefix_append _ rest)

/-- **A front that passes is read on its own, and reading goes on behind it.** -/
theorem Passes.lexFrom {front rest : List Char} (h : Passes front rest) (offset : Nat) :
    ∃ ls, Lexer.lexFrom offset front = .ok ls ∧
      Lexer.lexFrom offset (front ++ rest) =
        (Lexer.lexFrom (offset + bytes front) rest).map (ls ++ ·) := by
  induction h generalizing offset with
  | start rest =>
    refine ⟨[], lexFrom_nil offset, ?_⟩
    cases hrest : Lexer.lexFrom offset rest <;> simp [hrest, Except.map]
  | @layout p w front rest hp hmatch hmore ih =>
    obtain ⟨ls, hfront, hall⟩ := ih (offset + bytes w)
    refine ⟨ls, ?_, ?_⟩
    · rw [lexFrom_layout_match hp hmatch.restrict, hfront]
    · rw [List.append_assoc, lexFrom_layout_match hp hmatch, hall, bytes_append, Nat.add_assoc]
  | @token t front rest hmatch hrange hmore ih =>
    obtain ⟨ls, hfront, hall⟩ := ih (offset + bytes t.spelling)
    refine ⟨Lexeme.spelled offset t :: ls, ?_, ?_⟩
    · rw [lexFrom_token (head_of_match offset hmatch.restrict hrange), hfront]
      rfl
    · rw [List.append_assoc, lexFrom_token (head_of_match offset hmatch hrange), hall, bytes_append,
        Nat.add_assoc]
      cases Lexer.lexFrom (offset + (bytes t.spelling + bytes front)) rest <;> rfl

/-- **Reading stops behind a front that passes.** -/
theorem exists_stop {offset : Nat} {cs : List Char} {e : LexError} (h : lexFrom offset cs = .error e) :
    ∃ front rest, cs = front ++ rest ∧ Passes front rest ∧
      head (offset + bytes front) rest = .error e := by
  induction hn : cs.length using Nat.strongRecOn generalizing offset cs with
  | ind n ih =>
  subst hn
  have hfits := head_fits offset cs
  have hsplits := head_splits offset cs
  cases hhead : head offset cs with
  | finish =>
    rw [hhead] at hfits
    obtain rfl : cs = [] := hfits
    rw [lexFrom_nil] at h
    cases h
  | layout taken rest =>
    rw [hhead] at hfits
    obtain ⟨p, w, hp, hmatch⟩ := hfits
    obtain ⟨more, rfl⟩ := hmatch.front
    rw [lexFrom_layout_match hp hmatch] at h
    obtain ⟨c, v, hw, -⟩ := ofLead?_of_mem hmatch.mem
    have hlt : more.length < (w ++ more).length := by
      rw [hw, List.length_append, List.length_cons]
      omega
    obtain ⟨front, rest', rfl, hpass, herror⟩ := ih more.length hlt h rfl
    refine ⟨w ++ front, rest', (List.append_assoc ..).symm, .layout hp hmatch hpass, ?_⟩
    rw [bytes_append, ← Nat.add_assoc]
    exact herror
  | token t more =>
    rw [hhead] at hfits hsplits
    obtain ⟨hne, rfl⟩ := hsplits
    rw [lexFrom_token hhead] at h
    have hrest : lexFrom (offset + bytes t.spelling) more = .error e := by
      cases hmore : lexFrom (offset + bytes t.spelling) more with
      | ok ls => rw [hmore] at h; cases h
      | error e' => rw [hmore] at h; cases h; rfl
    have hlt : more.length < (t.spelling ++ more).length := by
      have hpos := List.length_pos_iff.2 hne
      rw [List.length_append]
      omega
    obtain ⟨front, rest', rfl, hpass, herror⟩ := ih more.length hlt hrest rfl
    refine ⟨t.spelling ++ front, rest', (List.append_assoc ..).symm,
      .token hfits.1 hfits.2 hpass, ?_⟩
    rw [bytes_append, ← Nat.add_assoc]
    exact herror
  | error e' =>
    rw [lexFrom_error hhead] at h
    cases h
    exact ⟨[], cs, rfl, .start cs, hhead⟩

/-! ## What stands at the stop -/

theorem blocked_of_head {offset : Nat} {rest : List Char} {e : LexError}
    (h : head offset rest = .error e) : Blocked rest := by
  have hfits := head_fits offset rest
  have hsplits := head_splits offset rest
  rw [h] at hfits hsplits
  refine ⟨hsplits, fun p w hp hmatch => ?_, fun t hrange hmatch => ?_⟩
  · obtain ⟨rfl, -⟩ := hfits p w hmatch
    rcases hp with hp | hp <;> cases hp
  · obtain ⟨hnumber, hnone⟩ := hfits _ _ hmatch
    cases t <;> cases hnumber
    rw [Token.spelling, String.ofList_toList] at hnone
    simp [Token.InRange, hnone] at hrange

theorem numberHead_eq_error {offset : Nat} {c : Char} {cs : List Char} {e : LexError}
    (h : numberHead offset c cs = .error e) :
    (∃ w more, takeNumber? (c :: cs) = some (w, more) ∧
      Binary32.decode? (String.ofList w) = none ∧
      e = ⟨.numberOutOfRange (String.ofList w), offset, offset + bytes w⟩) ∨
    takeNumber? (c :: cs) = none ∧ e = ⟨.unexpectedCharacter c, offset, offset + c.utf8Size⟩ := by
  unfold numberHead at h
  split at h
  · next w more htake =>
    dsimp only at h
    split at h
    · cases h
    · next hdecode =>
      cases h
      exact .inl ⟨w, more, htake, hdecode, rfl⟩
  · next htake =>
    cases h
    exact .inr ⟨htake, rfl⟩

/-- **The errors**: a literal that is broken, a number out of range, or a character that starts no
token. -/
theorem head_eq_error {offset : Nat} {rest : List Char} {e : LexError}
    (h : head offset rest = .error e) :
    (∃ cs, rest = '"' :: cs ∧ takeString? cs = none ∧
      e = stringError offset (offset + 1) none cs) ∨
    (∃ w more, takeNumber? rest = some (w, more) ∧ Binary32.decode? (String.ofList w) = none ∧
      e = ⟨.numberOutOfRange (String.ofList w), offset, offset + bytes w⟩) ∨
    ∃ c cs, rest = c :: cs ∧ c ≠ '"' ∧ takeNumber? rest = none ∧
      e = ⟨.unexpectedCharacter c, offset, offset + c.utf8Size⟩ := by
  cases rest with
  | nil => cases h
  | cons c cs =>
    rw [head] at h
    split at h
    · cases h
    split at h
    · cases h
    split at h
    · cases h
    split at h
    · next hquote =>
      subst hquote
      split at h
      · cases h
      · next htake =>
        cases h
        exact .inl ⟨cs, rfl, htake, rfl⟩
    next hquote =>
    split at h
    · cases h
    · rcases numberHead_eq_error h with hnumber | ⟨htake, rfl⟩
      · exact .inr (.inl hnumber)
      · exact .inr (.inr ⟨c, cs, rfl, hquote, htake, rfl⟩)

end MaterialScript.Lexer
