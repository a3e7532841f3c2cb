import MaterialScript.Proofs.Lexing.Seam
import MaterialScript.Proofs.Lexing.Tiling

/-!
# Writing tokens with layout between them

Well-formed tokens can be written in any layout: blanks and comments between them, and only the last
comment may go without the end of its line. The text that is written is read to the same tokens.

* `Token.WellFormed` : the tokens that can be written;
* `Piece`, `Arranged` : tokens with the layout in front of each, and after the last one;
* `written`, `placed` : the text, and where the tokens lie in it;
* `Breaks` : what may stand right behind a token; `longestMatch_spelling` : a token in front of it
  is the longest match;
* `lexFrom_of_mem_layout`, `lexFrom_last` : layout leaves no trace;
* `Arranged.lexFrom_written` : the text is read to the tokens, by induction on the pieces.
-/

namespace MaterialScript

/-- The text of an identifier or a number matches its pattern, numbers are in range, and string
literals stay on their line. -/
def Token.WellFormed : Token → Prop
  | ident text => text.toList ∈ Lexer.Pattern.identifier.language
  | number text => text.toList ∈ Lexer.Pattern.number.language ∧ (Binary32.decode? text).isSome
  | str content => ∀ c ∈ content.toList, c ≠ '\r' ∧ c ≠ '\n'
  | _ => True

theorem Token.WellFormed.inRange {t : Token} (h : t.WellFormed) : t.InRange := by
  cases t with
  | number text => exact h.2
  | _ => trivial

namespace Lexer

open Computability Text

/-! ## Texts to write -/

/-- A token and the layout in front of it. -/
structure Piece where
  gap : List Char
  token : Token

/-- Layout after the last token, where the last comment may go without the end of its line. -/
def lastLayout : Language Char := layout + layout * Pattern.comment.language

/-- Well-formed tokens with layout in front of each and after the last one. Between two tokens there
is some. -/
structure Arranged (ps : List Piece) (last : List Char) : Prop where
  wellFormed : ∀ p ∈ ps, p.token.WellFormed
  gaps : ∀ p ∈ ps, p.gap ∈ layout
  apart : ∀ p ∈ ps.tail, p.gap ≠ []
  last : last ∈ lastLayout

def written (ps : List Piece) (last : List Char) : List Char :=
  ps.flatMap (fun p => p.gap ++ p.token.spelling) ++ last

/-- Where the tokens of pieces lie in a text that starts at an offset. -/
def placed (offset : Nat) : List Piece → List Lexeme
  | [] => []
  | p :: ps =>
    Lexeme.spelled (offset + bytes p.gap) p.token ::
      placed (offset + bytes p.gap + bytes p.token.spelling) ps

theorem written_cons (p : Piece) (ps : List Piece) (last : List Char) :
    written (p :: ps) last = p.gap ++ (p.token.spelling ++ written ps last) := by
  simp [written]

theorem map_token_placed (offset : Nat) (ps : List Piece) :
    (placed offset ps).map (·.token) = ps.map (·.token) := by
  induction ps generalizing offset with
  | nil => rfl
  | cons p ps ih => rw [placed, List.map_cons, List.map_cons, ih]; rfl

/-! ## Behind a token -/

/-- A text that may stand right behind a token: it is empty, or starts like layout. -/
def Breaks (rest : List Char) : Prop := ∀ c cs, rest = c :: cs → isBlank c = true ∨ c = '/'

theorem not_mem_word {p : Pattern} {w : List Char} {c : Char}
    (hp : p = .identifier ∨ p = .number) (hw : w ∈ p.language)
    (hc : isBlank c = true ∨ c = '/' ∨ (punctuation? c).isSome = true) : c ∉ w := by
  have hrest : isIdentRest c = false := by
    by_contra h
    obtain ⟨hblank, hslash, -, hpunct⟩ := plain_of_isIdentRest (Bool.eq_true_of_not_eq_false h)
    simp [hblank, hslash, hpunct] at hc
  intro hmem
  rcases hp with rfl | rfl
  · obtain ⟨d, v, rfl, hd, hv⟩ := mem_identifier.1 hw
    rcases List.mem_cons.1 hmem with rfl | hmem
    · rw [isIdentRest_of_isIdentStart hd] at hrest
      cases hrest
    · rw [hv c hmem] at hrest
      cases hrest
  · have hnumeric := isNumeric_of_mem_number hw c hmem
    have hdigit : c.isDigit = false := by
      by_contra h
      rw [isIdentRest_of_isDigit (Bool.eq_true_of_not_eq_false h)] at hrest
      cases hrest
    simp only [isNumeric, hdigit, Bool.false_or, decide_eq_true_eq] at hnumeric
    have hsigns : ∀ d ∈ ['-', '.', 'e', 'E', '+'],
        ¬ (isBlank d = true ∨ d = '/' ∨ (punctuation? d).isSome = true) := by
      simp [isBlank, punctuation?]
    exact hsigns c hnumeric hc

/-- A word without the first character of what follows is not matched any further. -/
theorem longestMatch_of_breaks {p : Pattern} {w rest : List Char} (hw : w ∈ p.language)
    (hrest : ∀ c cs, rest = c :: cs → ∀ v ∈ p.language, c ∉ v) : LongestMatch (w ++ rest) p w := by
  refine longestMatch_of_pattern hw (List.prefix_append w rest) fun v hv hfront => ?_
  cases rest with
  | nil =>
    rw [List.append_nil] at hfront
    exact hfront.length_le
  | cons c cs => exact (prefix_of_not_mem (hrest c cs rfl v hv) hfront).length_le

/-- **A well-formed token in front of layout is the longest match.** -/
theorem longestMatch_spelling {t : Token} {rest : List Char} (ht : t.WellFormed)
    (hrest : Breaks rest) : LongestMatch (t.spelling ++ rest) t.pattern t.spelling := by
  cases t with
  | ident text =>
    exact longestMatch_of_breaks ht fun c cs h v hv =>
      not_mem_word (.inl rfl) hv ((hrest c cs h).imp_right .inl)
  | number text =>
    exact longestMatch_of_breaks ht.1 fun c cs h v hv =>
      not_mem_word (.inr rfl) hv ((hrest c cs h).imp_right .inl)
  | str content =>
    have hcontent : ∀ c ∈ content.toList, isLineEnd c = false := by
      intro c hc
      simp [isLineEnd, ht c hc]
    have hmatch := longestMatch_literal (takeString?_complete content.toList rest hcontent)
    simpa [Token.spelling, Token.pattern] using hmatch
  | leftBrace => exact longestMatch_punctuation rest (t := .leftBrace) rfl
  | rightBrace => exact longestMatch_punctuation rest (t := .rightBrace) rfl
  | leftParen => exact longestMatch_punctuation rest (t := .leftParen) rfl
  | rightParen => exact longestMatch_punctuation rest (t := .rightParen) rfl
  | comma => exact longestMatch_punctuation rest (t := .comma) rfl
  | colon => exact longestMatch_punctuation rest (t := .colon) rfl

/-! ## Layout -/

theorem longestMatch_comment_line {w rest : List Char} (hw : w ∈ Pattern.comment.language)
    (hrest : ∀ c cs, rest = c :: cs → c = '\n') : LongestMatch (w ++ rest) .comment w :=
  longestMatch_of_breaks hw fun c cs h _ hv =>
    hrest c cs h ▸ newline_not_mem (by decide) hv

/-- **Layout leaves no trace**, whatever stands behind it. -/
theorem lexFrom_of_mem_layout {gap : List Char} (h : gap ∈ layout) (offset : Nat)
    (rest : List Char) : lexFrom offset (gap ++ rest) = lexFrom (offset + bytes gap) rest := by
  obtain ⟨ws, rfl, hws⟩ := Language.mem_kstar.1 h
  clear h
  induction ws generalizing offset with
  | nil => rfl
  | cons w ws ih =>
    have hmore := fun o => ih o fun v hv => hws v (List.mem_cons_of_mem w hv)
    rw [List.flatten_cons, List.append_assoc, bytes_append, ← Nat.add_assoc, ← hmore]
    rcases hws w List.mem_cons_self with ⟨c, hc, rfl⟩ | ⟨v, hv, _, rfl, rfl⟩
    · refine lexFrom_blanks offset _ fun d hd => ?_
      rw [List.mem_singleton.1 hd]
      exact (isBlank_iff c).2 hc
    · have hline : LongestMatch (v ++ (['\n'] ++ (ws.flatten ++ rest))) .comment v := by
        refine longestMatch_comment_line hv fun c cs h => ?_
        exact (List.cons.inj h).1.symm
      show lexFrom offset ((v ++ ['\n']) ++ (ws.flatten ++ rest)) =
        lexFrom (offset + bytes (v ++ ['\n'])) _
      rw [List.append_assoc, lexFrom_layout_match (.inr rfl) hline, bytes_append, ← Nat.add_assoc]
      exact lexFrom_blanks _ _ (by simp [isBlank])

theorem lexFrom_last {last : List Char} (h : last ∈ lastLayout) (offset : Nat) :
    lexFrom offset last = .ok [] := by
  rcases h with h | ⟨gap, hgap, w, hw, rfl⟩
  · have hlex := lexFrom_of_mem_layout h offset []
    rw [List.append_nil, lexFrom_nil] at hlex
    exact hlex
  · have hmatch : LongestMatch (w ++ []) .comment w := by
      refine longestMatch_comment_line hw fun c cs h => ?_
      cases h
    rw [lexFrom_of_mem_layout hgap, ← List.append_nil w, lexFrom_layout_match (.inr rfl) hmatch,
      lexFrom_nil]

theorem breaks_of_comment {w : List Char} (hw : w ∈ Pattern.comment.language) (rest : List Char) :
    Breaks (w ++ rest) := by
  obtain ⟨v, rfl, -⟩ := mem_comment.1 hw
  intro c cs h
  exact .inr (List.cons.inj h).1.symm

theorem breaks_of_mem_layout {gap rest : List Char} (h : gap ∈ layout)
    (hrest : gap = [] → Breaks rest) : Breaks (gap ++ rest) := by
  obtain ⟨ws, rfl, hws⟩ := Language.mem_kstar.1 h
  cases ws with
  | nil => exact hrest rfl
  | cons w ws =>
    rw [List.flatten_cons, List.append_assoc]
    rcases hws w List.mem_cons_self with ⟨c, hc, rfl⟩ | ⟨v, hv, _, rfl, rfl⟩
    · intro d cs h
      rw [← (List.cons.inj h).1]
      exact .inl ((isBlank_iff c).2 hc)
    · rw [List.append_assoc]
      exact breaks_of_comment hv _

theorem breaks_of_mem_lastLayout {last : List Char} (h : last ∈ lastLayout) : Breaks last := by
  have hnil : Breaks [] := by
    intro c cs h
    cases h
  rcases h with h | ⟨gap, hgap, w, hw, rfl⟩
  · have hbreaks := breaks_of_mem_layout h fun _ => hnil
    rwa [List.append_nil] at hbreaks
  · refine breaks_of_mem_layout hgap fun _ => ?_
    have hbreaks := breaks_of_comment hw []
    rwa [List.append_nil] at hbreaks

/-! ## Whole texts -/

theorem Arranged.tail {p : Piece} {ps : List Piece} {last : List Char}
    (h : Arranged (p :: ps) last) : Arranged ps last where
  wellFormed q hq := h.wellFormed q (List.mem_cons_of_mem p hq)
  gaps q hq := h.gaps q (List.mem_cons_of_mem p hq)
  apart q hq := h.apart q (List.mem_of_mem_tail hq)
  last := h.last

theorem Arranged.breaks {p : Piece} {ps : List Piece} {last : List Char}
    (h : Arranged (p :: ps) last) : Breaks (written ps last) := by
  cases ps with
  | nil => exact breaks_of_mem_lastLayout h.last
  | cons q ps =>
    rw [written_cons]
    refine breaks_of_mem_layout (h.gaps q (by simp)) fun hnil => ?_
    exact absurd hnil (h.apart q (by simp))

/-- **A text that is written from tokens and layout is read to these tokens.** -/
theorem Arranged.lexFrom_written {ps : List Piece} {last : List Char} (h : Arranged ps last)
    (offset : Nat) : lexFrom offset (written ps last) = .ok (placed offset ps) := by
  induction ps generalizing offset with
  | nil => exact lexFrom_last h.last offset
  | cons p ps ih =>
    have hp : p.token.WellFormed := h.wellFormed p List.mem_cons_self
    have hmatch := longestMatch_spelling hp h.breaks
    have hhead := head_of_match (offset + bytes p.gap) hmatch hp.inRange
    rw [written_cons, lexFrom_of_mem_layout (h.gaps p List.mem_cons_self), lexFrom_token hhead,
      ih h.tail]
    rfl

end Lexer

end MaterialScript
