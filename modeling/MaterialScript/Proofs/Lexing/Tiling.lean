import MaterialScript.Proofs.Lexing.Segments

/-!
# Where lexemes lie in a text

The spans of the lexemes of a text are ordered and disjoint, each holds the spelling of its token,
and there is only layout between them.

* `Slice text start stop w` : the bytes from `start` to `stop` are the characters `w`;
* `layout`, `Gap` : what may stand between lexemes; `gaps` : the bytes before, between and after them;
* `Tiling` : how lexemes lie in a text;
* `Opens` : the layout since the last lexeme, on the way through a text; `Segments.gap` : the step
  from piece to piece, by induction;
* `Segments.tiling` : the lexemes of a sequence of pieces lie in the text as they should.
-/

namespace MaterialScript.Lexer

open Computability Text

/-! ## Tilings -/

/-- The bytes from `start` to `stop` of a text are the characters `w`: both ends lie between two
characters. -/
def Slice (text : List Char) (start stop : Nat) (w : List Char) : Prop :=
  ∃ before after, text = before ++ (w ++ after) ∧ bytes before = start ∧ start + bytes w = stop

/-- Blanks, and comments with the end of their line. -/
def layout : Language Char := (oneOf Blank + Pattern.comment.language * {['\n']})∗

/-- There is only layout from `start` to `stop`. A comment without the end of its line is the last
thing in the text. -/
def Gap (text : List Char) (start stop : Nat) : Prop :=
  ∃ w, Slice text start stop w ∧
    (w ∈ layout ∨ stop = bytes text ∧ w ∈ layout * Pattern.comment.language)

/-- The bytes before the first lexeme, between two neighbours, and after the last one. -/
def gaps (start : Nat) (ls : List Lexeme) (stop : Nat) : List (Nat × Nat) :=
  (start :: ls.map (·.span.stop)).zip (ls.map (·.span.start) ++ [stop])

/-- How the lexemes of a text lie in it. -/
structure Tiling (text : List Char) (ls : List Lexeme) : Prop where
  nonempty : ∀ l ∈ ls, l.span.start < l.span.stop
  ordered : ls.Pairwise fun l l' => l.span.stop ≤ l'.span.start
  inside : ∀ l ∈ ls, l.span.stop ≤ bytes text
  spelled : ∀ l ∈ ls, Slice text l.span.start l.span.stop l.token.spelling
  longest : ∀ l ∈ ls, ∃ before after, text = before ++ after ∧ bytes before = l.span.start ∧
    LongestMatch after l.token.pattern l.token.spelling
  layout : ∀ g ∈ gaps 0 ls (bytes text), Gap text g.1 g.2

/-! ## Lexemes -/

theorem Segments.lexeme {offset : Nat} {cs : List Char} {ls : List Lexeme}
    (h : Segments offset cs ls) : ∀ l ∈ ls, ∃ before after,
      cs = before ++ (l.token.spelling ++ after) ∧
      l = Lexeme.spelled (offset + bytes before) l.token ∧
      LongestMatch (l.token.spelling ++ after) l.token.pattern l.token.spelling := by
  induction h with
  | finish offset => simp
  | @layout offset p w rest ls hp hmatch hrest ih =>
    intro l hl
    obtain ⟨before, after, rfl, hspan, hlongest⟩ := ih l hl
    refine ⟨w ++ before, after, by simp, ?_, hlongest⟩
    rw [bytes_append, ← Nat.add_assoc]
    exact hspan
  | @token offset t rest ls hmatch hrange hrest ih =>
    intro l hl
    rcases List.mem_cons.1 hl with rfl | hl
    · exact ⟨[], rest, rfl, rfl, hmatch⟩
    · obtain ⟨before, after, rfl, hspan, hlongest⟩ := ih l hl
      refine ⟨t.spelling ++ before, after, by simp, ?_, hlongest⟩
      rw [bytes_append, ← Nat.add_assoc]
      exact hspan

theorem Segments.le_start {offset : Nat} {cs : List Char} {ls : List Lexeme}
    (h : Segments offset cs ls) : ∀ l ∈ ls, offset ≤ l.span.start := by
  intro l hl
  obtain ⟨before, after, -, hspan, -⟩ := h.lexeme l hl
  rw [hspan]
  exact Nat.le_add_right offset (bytes before)

theorem Segments.ordered {offset : Nat} {cs : List Char} {ls : List Lexeme}
    (h : Segments offset cs ls) : ls.Pairwise fun l l' => l.span.stop ≤ l'.span.start := by
  induction h with
  | finish offset => exact .nil
  | layout _ _ _ ih => exact ih
  | token _ _ hrest ih => exact .cons hrest.le_start ih

/-! ## Gaps -/

theorem append_mem_layout {v w : List Char} (hv : v ∈ layout) (hw : w ∈ layout) :
    v ++ w ∈ layout := by
  have hboth : v ++ w ∈ layout * layout := Language.append_mem_mul hv hw
  rwa [layout, kstar_mul_kstar] at hboth

theorem blanks_mem_layout {w : List Char} (hw : ∀ c ∈ w, isBlank c = true) : w ∈ layout := by
  induction w with
  | nil => exact Language.nil_mem_kstar _
  | cons c w ih =>
    have hc : [c] ∈ oneOf Blank := ⟨c, (isBlank_iff c).1 (hw c List.mem_cons_self), rfl⟩
    exact append_mem_kstar (Or.inl hc) (ih fun d hd => hw d (List.mem_cons_of_mem c hd))

/-- The text since the last lexeme, before `rest`: layout, or layout with a comment whose line has not
been ended. -/
def Opens (gap rest : List Char) : Prop :=
  gap ∈ layout ∨ gap ∈ layout * Pattern.comment.language ∧ ∀ c cs, rest = c :: cs → c = '\n'

theorem comment_ends {w cs : List Char} {c : Char}
    (hmatch : LongestMatch (w ++ c :: cs) .comment w) : c = '\n' := by
  by_contra hc
  obtain ⟨v, hw, hv⟩ := mem_comment.1 hmatch.mem
  have hlonger : w ++ [c] ∈ Pattern.comment.language := by
    refine mem_comment.2 ⟨v ++ [c], by simp [hw], fun d hd => ?_⟩
    rcases List.mem_append.1 hd with hd | hd
    · exact hv d hd
    · rwa [List.mem_singleton.1 hd]
  have hle := hmatch.longest .comment (w ++ [c]) hlonger ⟨cs, by simp⟩
  rw [List.length_append, List.length_singleton] at hle
  omega

theorem Opens.append {gap w rest : List Char} {p : Pattern} (h : Opens gap (w ++ rest))
    (hp : p.IsLayout) (hmatch : LongestMatch (w ++ rest) p w) : Opens (gap ++ w) rest := by
  obtain ⟨c, v, rfl, hlead⟩ := ofLead?_of_mem hmatch.mem
  rcases hp with rfl | rfl
  · have hblanks := (mem_blanks.1 hmatch.mem).2
    rcases h with hgap | ⟨hgap, hline⟩
    · exact .inl (append_mem_layout hgap (blanks_mem_layout hblanks))
    · obtain rfl := hline c (v ++ rest) rfl
      obtain ⟨front, hfront, comment, hcomment, rfl⟩ := Language.mem_mul.1 hgap
      have hended : comment ++ ['\n'] ∈ layout := by
        rw [← List.append_nil (comment ++ ['\n'])]
        exact append_mem_kstar (Or.inr ⟨comment, hcomment, ['\n'], rfl, rfl⟩)
          (Language.nil_mem_kstar _)
      have hrest := blanks_mem_layout fun d hd => hblanks d (List.mem_cons_of_mem '\n' hd)
      refine .inl ?_
      rw [show front ++ comment ++ '\n' :: v = front ++ (comment ++ ['\n']) ++ v by simp]
      exact append_mem_layout (append_mem_layout hfront hended) hrest
  · rcases h with hgap | ⟨-, hline⟩
    · refine .inr ⟨Language.append_mem_mul hgap hmatch.mem, ?_⟩
      rintro d cs rfl
      exact comment_ends hmatch
    · obtain rfl := hline c (v ++ rest) rfl
      exact absurd hlead (by decide)

/-- A token is not the end of a line, so that no comment is open before it. -/
theorem Opens.mem_layout {gap rest : List Char} {t : Token} (h : Opens gap (t.spelling ++ rest))
    (hmatch : LongestMatch (t.spelling ++ rest) t.pattern t.spelling) : gap ∈ layout := by
  rcases h with hgap | ⟨-, hline⟩
  · exact hgap
  · obtain ⟨c, v, hspelling, hlead⟩ := ofLead?_of_mem hmatch.mem
    obtain rfl := hline c (v ++ rest) (by rw [hspelling]; rfl)
    have hblanks : t.pattern = .blanks := (Option.some.inj hlead).symm
    cases t <;> cases hblanks

/-- **The gaps of a text**, from inside of the first one: `before` ends with a lexeme or is empty. -/
theorem Segments.gap {offset : Nat} {cs : List Char} {ls : List Lexeme} (h : Segments offset cs ls)
    (before gap : List Char) (hoffset : bytes before + bytes gap = offset) (hgap : Opens gap cs) :
    ∀ g ∈ gaps (bytes before) ls (offset + bytes cs), Gap (before ++ (gap ++ cs)) g.1 g.2 := by
  induction h generalizing before gap with
  | finish offset =>
    intro g hg
    obtain rfl : g = (bytes before, offset) := by simpa [gaps] using hg
    refine ⟨gap, ⟨before, [], rfl, rfl, hoffset⟩, ?_⟩
    rcases hgap with hgap | ⟨hgap, -⟩
    · exact .inl hgap
    · exact .inr ⟨by simp [hoffset], hgap⟩
  | @layout offset p w rest ls hp hmatch hrest ih =>
    have hmore : bytes before + bytes (gap ++ w) = offset + bytes w := by
      rw [bytes_append]
      omega
    have hgaps := ih before (gap ++ w) hmore (hgap.append hp hmatch)
    rw [List.append_assoc, Nat.add_assoc, ← bytes_append] at hgaps
    exact hgaps
  | @token offset t rest ls hmatch hrange hrest ih =>
    have hlayout := hgap.mem_layout hmatch
    have hbytes : bytes (before ++ (gap ++ t.spelling)) = offset + bytes t.spelling := by
      rw [bytes_append, bytes_append]
      omega
    have hgaps := ih (before ++ (gap ++ t.spelling)) [] (by rw [hbytes]; rfl)
      (.inl (Language.nil_mem_kstar _))
    rw [hbytes, Nat.add_assoc, ← bytes_append] at hgaps
    intro g hg
    have hcons : gaps (bytes before) (Lexeme.spelled offset t :: ls)
        (offset + bytes (t.spelling ++ rest)) = (bytes before, offset) ::
          gaps (offset + bytes t.spelling) ls (offset + bytes (t.spelling ++ rest)) := rfl
    rw [hcons] at hg
    rcases List.mem_cons.1 hg with rfl | hg
    · exact ⟨gap, ⟨before, t.spelling ++ rest, rfl, rfl, hoffset⟩, .inl hlayout⟩
    · simpa using hgaps g hg

/-! ## Whole texts -/

theorem Segments.tiling {text : List Char} {ls : List Lexeme} (h : Segments 0 text ls) :
    Tiling text ls := by
  refine ⟨fun l hl => ?_, h.ordered, fun l hl => ?_, fun l hl => ?_, fun l hl => ?_, ?_⟩
  · obtain ⟨before, after, -, hspan, hlongest⟩ := h.lexeme l hl
    obtain ⟨c, v, hspelling, -⟩ := ofLead?_of_mem hlongest.mem
    have hpos : 0 < bytes l.token.spelling := bytes_pos (by simp [hspelling])
    rw [hspan]
    show 0 + bytes before < 0 + bytes before + bytes l.token.spelling
    omega
  · obtain ⟨before, after, rfl, hspan, -⟩ := h.lexeme l hl
    rw [hspan]
    show 0 + bytes before + bytes l.token.spelling ≤ bytes (before ++ (l.token.spelling ++ after))
    rw [bytes_append, bytes_append]
    omega
  · obtain ⟨before, after, htext, hspan, -⟩ := h.lexeme l hl
    refine ⟨before, after, htext, ?_, ?_⟩
    · rw [hspan]
      exact (Nat.zero_add _).symm
    · rw [hspan]
      rfl
  · obtain ⟨before, after, htext, hspan, hlongest⟩ := h.lexeme l hl
    refine ⟨before, l.token.spelling ++ after, htext, ?_, hlongest⟩
    rw [hspan]
    exact (Nat.zero_add _).symm
  · have hgaps := h.gap [] [] rfl (.inl (Language.nil_mem_kstar _))
    simpa using hgaps

/-- **A text is read exactly when it is a sequence of layout and tokens under longest match, with
all numbers in range**, and then its lexemes lie in it with only layout around them. -/
theorem lex_ok_iff_segments_tiling (text : List Char) :
    (∀ ls, lex text = .ok ls ↔ Segments 0 text ls) ∧ ∀ ls, lex text = .ok ls → Tiling text ls :=
  ⟨fun _ => lexFrom_ok_iff, fun _ h => (lexFrom_ok_iff.1 h).tiling⟩

/-- `e1-2 // x` and a literal in the next line: an identifier, a number right after it, and an escaped
quote. -/
theorem lex_number_after_identifier :
    let text := "e1-2 // x\n\"\\\"\"".toList
    let ls : List Lexeme := [⟨.ident "e1", 0, 2⟩, ⟨.number "-2", 2, 4⟩, ⟨.str "\"", 10, 14⟩]
    lex text = .ok ls ∧ Segments 0 text ls ∧ Tiling text ls := by
  intro text ls
  have hlex : lex text = .ok ls := lex_eq_ok (by decide +kernel)
  obtain ⟨hiff, htiling⟩ := lex_ok_iff_segments_tiling text
  exact ⟨hlex, (hiff ls).1 hlex, htiling ls hlex⟩

end MaterialScript.Lexer
