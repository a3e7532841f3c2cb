import MaterialScript.Proofs.Lexing.Match

/-!
# Texts as sequences of pieces

A text is read exactly when it is a sequence of layout and tokens under longest match, with all
numbers in range, and then the lexemes that are read are the tokens of that sequence.

* `Token.pattern`, `Token.InRange` : the pattern of a token, and what its text has to stand for;
* `Segments offset text ls` : a text that starts at an offset is such a sequence, with lexemes `ls`;
* `Head.Fits`, `head_fits` : the front of a text is told by longest match;
* `lexFrom_layout_match`, `head_of_match` : one piece of a sequence is read;
* `lexFrom_ok_iff` : whole texts.
-/

namespace MaterialScript

def Token.pattern : Token → Lexer.Pattern
  | ident _ => .identifier
  | number _ => .number
  | str _ => .literal
  | leftBrace | rightBrace | leftParen | rightParen | comma | colon => .punctuation

/-- The text of a number stands for a 32-bit float. -/
def Token.InRange : Token → Prop
  | number text => (Binary32.decode? text).isSome
  | _ => True

namespace Lexer

open Text

/-! ## Sequences of pieces -/

def Pattern.IsLayout (p : Pattern) : Prop := p = .blanks ∨ p = .comment

/-- A text that starts at an offset is a sequence of layout and tokens, each the longest match where
it starts. Layout leaves no trace, and tokens are in range. -/
inductive Segments : Nat → List Char → List Lexeme → Prop where
  | finish (offset : Nat) : Segments offset [] []
  | layout {offset : Nat} {p : Pattern} {w rest : List Char} {ls : List Lexeme}
      (hp : p.IsLayout) (hmatch : LongestMatch (w ++ rest) p w)
      (hrest : Segments (offset + bytes w) rest ls) : Segments offset (w ++ rest) ls
  | token {offset : Nat} {t : Token} {rest : List Char} {ls : List Lexeme}
      (hmatch : LongestMatch (t.spelling ++ rest) t.pattern t.spelling) (hrange : t.InRange)
      (hrest : Segments (offset + bytes t.spelling) rest ls) :
      Segments offset (t.spelling ++ rest) (Lexeme.spelled offset t :: ls)

/-! ## Spellings -/

theorem flatMap_spellChar_inj {xs ys : List Char}
    (h : xs.flatMap Token.spellChar = ys.flatMap Token.spellChar) : xs = ys := by
  have hne : ∀ c : Char, Token.spellChar c ≠ [] := by
    intro c
    unfold Token.spellChar
    split <;> simp
  induction xs generalizing ys with
  | nil =>
    cases ys with
    | nil => rfl
    | cons y ys => simp [hne] at h
  | cons x xs ih =>
    cases ys with
    | nil => simp [hne] at h
    | cons y ys =>
      rw [List.flatMap_cons, List.flatMap_cons] at h
      unfold Token.spellChar at h
      by_cases hx : x = '"' ∨ x = '\\' <;> by_cases hy : y = '"' ∨ y = '\\'
      · rw [if_pos hx, if_pos hy] at h
        simp only [List.cons_append, List.nil_append, List.cons.injEq, true_and] at h
        rw [h.1, ih h.2]
      · rw [if_pos hx, if_neg hy] at h
        simp only [List.cons_append, List.nil_append, List.cons.injEq] at h
        exact absurd (.inr h.1.symm) hy
      · rw [if_neg hx, if_pos hy] at h
        simp only [List.cons_append, List.nil_append, List.cons.injEq] at h
        exact absurd (.inr h.1) hx
      · rw [if_neg hx, if_neg hy] at h
        simp only [List.cons_append, List.nil_append, List.cons.injEq] at h
        rw [h.1, ih h.2]

theorem token_eq_of_spelling {s t : Token} (hpattern : s.pattern = t.pattern)
    (hspelling : s.spelling = t.spelling) : s = t := by
  cases s <;> cases t <;> simp [Token.pattern, Token.spelling] at hpattern hspelling ⊢
  · exact String.toList_inj.1 hspelling
  · exact String.toList_inj.1 hspelling
  · exact String.toList_inj.1 (flatMap_spellChar_inj hspelling)

/-! ## The front of a text -/

/-- What the front of a text has to do with longest match: it is layout or a token in range if these
are matched, and an error only if no pattern but an out-of-range number is. -/
def Head.Fits (cs : List Char) : Head → Prop
  | .finish => cs = []
  | .layout .. => ∃ p w, p.IsLayout ∧ LongestMatch cs p w
  | .token t _ => LongestMatch cs t.pattern t.spelling ∧ t.InRange
  | .error _ => ∀ p w, LongestMatch cs p w → p = .number ∧ Binary32.decode? (String.ofList w) = none

theorem pattern_of_punctuation? {c : Char} {t : Token} (h : punctuation? c = some t) :
    t.pattern = .punctuation ∧ t.InRange := by
  unfold punctuation? at h
  split_ifs at h <;> cases h <;> exact ⟨rfl, trivial⟩

theorem numberHead_fits (offset : Nat) {c : Char} {cs : List Char}
    (hcomment : ¬ (c = '/' ∧ cs.head? = some '/'))
    (hlead : ∀ p, Pattern.ofLead? c = some p → p = .comment ∨ p = .number) :
    (numberHead offset c cs).Fits (c :: cs) := by
  have hpattern : ∀ p w, LongestMatch (c :: cs) p w → p = .number := by
    intro p w hmatch
    rcases hlead p (ofLead?_of_front hmatch.mem hmatch.front) with rfl | rfl
    · obtain ⟨v, rfl, -⟩ := mem_comment.1 hmatch.mem
      obtain ⟨hc, hcs⟩ := List.cons_prefix_cons.1 hmatch.front
      obtain ⟨rest, rfl⟩ := hcs
      exact absurd ⟨hc.symm, rfl⟩ hcomment
    · rfl
  unfold numberHead
  split
  · next taken rest htake =>
    have hmatch := longestMatch_number htake
    dsimp only
    split
    · next x hx =>
      refine ⟨?_, by simp [Token.InRange, hx]⟩
      simpa [Token.pattern, Token.spelling] using hmatch
    · next hnone =>
      intro p w hw
      obtain ⟨rfl, rfl⟩ := hmatch.unique hw
      exact ⟨rfl, hnone⟩
  · next hnone =>
    intro p w hw
    obtain rfl := hpattern p w hw
    obtain ⟨taken, rest, htake, -⟩ := takeNumber?_complete hw.mem hw.front
    rw [hnone] at htake
    cases htake

theorem head_fits (offset : Nat) (cs : List Char) : (head offset cs).Fits cs := by
  cases cs with
  | nil => rfl
  | cons c cs =>
    simp only [head]
    split
    · next hblank => exact ⟨.blanks, _, .inl rfl, longestMatch_blanks cs hblank⟩
    next hblank =>
    split
    · next hslash =>
      obtain ⟨rfl, hnext⟩ := hslash
      obtain ⟨rest, rfl⟩ := List.head?_eq_some_iff.1 hnext
      exact ⟨.comment, _, .inr rfl, longestMatch_comment rest⟩
    next hslash =>
    split
    · next hstart =>
      refine ⟨?_, trivial⟩
      simpa [Token.pattern, Token.spelling] using longestMatch_identifier cs hstart
    next hstart =>
    split
    · next hquote =>
      subst hquote
      split
      · next content rest htake =>
        refine ⟨?_, trivial⟩
        simpa [Token.pattern, Token.spelling] using longestMatch_literal htake
      · next hnone =>
        intro p w hmatch
        have hp : p = .literal := by
          have := ofLead?_of_front hmatch.mem hmatch.front
          exact (Option.some.inj this).symm
        subst hp
        obtain ⟨content, rest, htake, -⟩ := takeString?_of_front hmatch.mem hmatch.front
        rw [hnone] at htake
        cases htake
    next hquote =>
    split
    · next t ht =>
      obtain ⟨hpattern, hrange⟩ := pattern_of_punctuation? ht
      refine ⟨?_, hrange⟩
      rw [hpattern, spelling_of_punctuation? ht]
      exact longestMatch_punctuation cs ht
    · next hpunct =>
      refine numberHead_fits offset hslash fun p hp => ?_
      simp only [Pattern.ofLead?, hblank, hstart, hquote, hpunct] at hp
      split_ifs at hp <;> simp_all

/-! ## Whole texts -/

theorem lexFrom_layout {offset : Nat} {cs taken rest : List Char}
    (h : head offset cs = .layout taken rest) :
    lexFrom offset cs = lexFrom (offset + bytes taken) rest := by
  rw [lexFrom]
  split <;> simp_all

theorem lexFrom_token {offset : Nat} {cs rest : List Char} {t : Token}
    (h : head offset cs = .token t rest) :
    lexFrom offset cs =
      (lexFrom (offset + bytes t.spelling) rest).map (Lexeme.spelled offset t :: ·) := by
  rw [lexFrom]
  split
  · simp_all
  · simp_all
  · next t' rest' h' =>
    rw [h] at h'
    cases h'
    cases lexFrom (offset + bytes t.spelling) rest <;> rfl
  · simp_all

theorem lexFrom_error {offset : Nat} {cs : List Char} {e : LexError}
    (h : head offset cs = .error e) : lexFrom offset cs = .error e := by
  rw [lexFrom]
  split <;> simp_all

theorem lexFrom_nil (offset : Nat) : lexFrom offset [] = .ok [] := by
  rw [lexFrom]
  rfl

theorem lexFrom_blanks (offset : Nat) {w : List Char} (rest : List Char)
    (hw : ∀ c ∈ w, isBlank c = true) :
    lexFrom offset (w ++ rest) = lexFrom (offset + bytes w) rest := by
  induction w generalizing offset with
  | nil => rfl
  | cons c w ih =>
    have hhead : head offset (c :: (w ++ rest)) = .layout [c] (w ++ rest) := by
      simp [head, hw c List.mem_cons_self]
    rw [List.cons_append, lexFrom_layout hhead, ih _ fun d hd => hw d (List.mem_cons_of_mem c hd)]
    simp [Nat.add_assoc]

theorem lexFrom_layout_match {offset : Nat} {p : Pattern} {w rest : List Char} (hp : p.IsLayout)
    (hmatch : LongestMatch (w ++ rest) p w) :
    lexFrom offset (w ++ rest) = lexFrom (offset + bytes w) rest := by
  rcases hp with rfl | rfl
  · exact lexFrom_blanks offset rest (mem_blanks.1 hmatch.mem).2
  · obtain ⟨v, rfl, -⟩ := mem_comment.1 hmatch.mem
    have htake := (hmatch.unique (longestMatch_comment (v ++ rest))).2
    have hsplit := List.takeWhile_append_dropWhile
      (p := (· != '\n')) (l := '/' :: '/' :: (v ++ rest))
    have hdrop : ('/' :: '/' :: (v ++ rest)).dropWhile (· != '\n') = rest := by
      rw [← htake] at hsplit
      exact List.append_cancel_left hsplit
    have hhead : head offset ('/' :: '/' :: v ++ rest) = .layout ('/' :: '/' :: v) rest := by
      rw [List.cons_append, List.cons_append, head, if_neg (by decide), if_pos (by simp), ← htake,
        hdrop]
    exact lexFrom_layout hhead

theorem head_of_match (offset : Nat) {t : Token} {rest : List Char}
    (hmatch : LongestMatch (t.spelling ++ rest) t.pattern t.spelling) (hrange : t.InRange) :
    head offset (t.spelling ++ rest) = .token t rest := by
  have hfits := head_fits offset (t.spelling ++ rest)
  have hsplits := head_splits offset (t.spelling ++ rest)
  cases hhead : head offset (t.spelling ++ rest) with
  | finish =>
    rw [hhead] at hfits
    obtain ⟨c, v, hw, -⟩ := ofLead?_of_mem hmatch.mem
    rw [hw] at hfits
    cases hfits
  | layout taken rest' =>
    rw [hhead] at hfits
    obtain ⟨p, w, hp, hw⟩ := hfits
    obtain ⟨rfl, -⟩ := hmatch.unique hw
    rcases hp with hp | hp <;> cases t <;> cases hp
  | token t' rest' =>
    rw [hhead] at hfits hsplits
    obtain ⟨hpattern, hspelling⟩ := hmatch.unique hfits.1
    obtain rfl := token_eq_of_spelling hpattern hspelling
    rw [List.append_cancel_left hsplits.2]
  | error e =>
    rw [hhead] at hfits
    obtain ⟨hpattern, hnone⟩ := hfits _ _ hmatch
    cases t <;> cases hpattern
    rw [Token.spelling, String.ofList_toList] at hnone
    simp [Token.InRange, hnone] at hrange

/-- The front of a text that is not empty, as a piece of it. -/
theorem segments_of_lexFrom {offset : Nat} {cs : List Char} {ls : List Lexeme}
    (h : lexFrom offset cs = .ok ls) : Segments offset cs ls := by
  -- By the length of the text: a run of blanks is one piece, but is read in several steps.
  induction hn : cs.length using Nat.strongRecOn generalizing offset cs ls with
  | ind n ih =>
  subst hn
  have hfits := head_fits offset cs
  have hsplits := head_splits offset cs
  cases hhead : head offset cs with
  | finish =>
    rw [hhead] at hfits
    obtain rfl : cs = [] := hfits
    rw [lexFrom_nil] at h
    cases h
    exact .finish offset
  | layout taken rest =>
    rw [hhead] at hfits
    obtain ⟨p, w, hp, hmatch⟩ := hfits
    obtain ⟨rest', rfl⟩ := hmatch.front
    rw [lexFrom_layout_match hp hmatch] at h
    obtain ⟨c, v, rfl, -⟩ := ofLead?_of_mem hmatch.mem
    refine .layout hp hmatch (ih rest'.length ?_ h rfl)
    simp only [List.length_append, List.length_cons]
    omega
  | token t rest =>
    rw [hhead] at hfits hsplits
    rw [lexFrom_token hhead] at h
    obtain ⟨hne, rfl⟩ := hsplits
    cases hrest : lexFrom (offset + bytes t.spelling) rest with
    | error e => rw [hrest] at h; cases h
    | ok ls' =>
      rw [hrest] at h
      cases h
      have hpos := List.length_pos_iff.2 hne
      refine .token hfits.1 hfits.2 (ih rest.length ?_ hrest rfl)
      simp only [List.length_append]
      omega
  | error e =>
    rw [lexFrom_error hhead] at h
    cases h

/-- **A text is read exactly when it is a sequence of layout and tokens under longest match.** -/
theorem lexFrom_ok_iff {offset : Nat} {cs : List Char} {ls : List Lexeme} :
    lexFrom offset cs = .ok ls ↔ Segments offset cs ls := by
  constructor
  · exact segments_of_lexFrom
  · intro h
    induction h with
    | finish offset => exact lexFrom_nil offset
    | layout hp hmatch _ ih => rw [lexFrom_layout_match hp hmatch, ih]
    | token hmatch hrange _ ih => rw [lexFrom_token (head_of_match _ hmatch hrange), ih]; rfl

end Lexer

end MaterialScript
