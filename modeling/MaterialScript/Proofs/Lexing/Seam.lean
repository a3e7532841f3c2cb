import MaterialScript.Proofs.Lexing.Segments

/-!
# Reading a text in two parts

No piece of a text but a run of blanks holds the end of a line. So a text that can be read, the end of
a line and more text are read as the two texts are, where the offsets of the second one count from the
start.

* `Span.shift`, `Lexeme.shift`, `LexError.shift` : offsets counted from an earlier start;
* `lexFrom_shift` : where a text starts only moves its spans;
* `isNumeric_of_mem_number` : the characters of a number; `newline_not_mem` : words do not hold the
  end of a line; `LongestMatch.before_newline` : so a match is not changed by what follows in the
  next line;
* `Segments.lexFrom_newline`, `lex_append_newline` : reading on after the end of a line.
-/

namespace MaterialScript

/-- The same bytes, counted from `k` bytes before. -/
def Span.shift (k : Nat) (s : Span) : Span := ⟨s.start + k, s.stop + k⟩

def Lexeme.shift (k : Nat) (l : Lexeme) : Lexeme := { l with span := l.span.shift k }

def LexError.shift (k : Nat) (e : LexError) : LexError := { e with span := e.span.shift k }

namespace Lexer

open Text

/-! ## Offsets -/

def Head.shift (k : Nat) : Head → Head
  | .error e => .error (e.shift k)
  | head => head

theorem closeError_shift (k start stop : Nat) (bad : Option (Char × Nat)) :
    closeError (start + k) (stop + k) (bad.map fun b => (b.1, b.2 + k)) =
      (closeError start stop bad).shift k := by
  cases bad with
  | none => rfl
  | some b =>
    simp only [closeError, LexError.shift, Span.shift, Option.map_some, LexError.mk.injEq,
      Span.mk.injEq, true_and]
    omega

theorem stringError_shift (k start pos : Nat) (bad : Option (Char × Nat)) (cs : List Char) :
    stringError (start + k) (pos + k) (bad.map fun b => (b.1, b.2 + k)) cs =
      (stringError start pos bad cs).shift k := by
  fun_induction stringError start pos bad cs with
  | case1 pos bad => exact closeError_shift k start pos bad
  | case2 pos bad cs =>
    rw [stringError.eq_def]
    exact closeError_shift k start pos bad
  | case3 pos bad hquote =>
    rw [stringError, if_neg hquote, if_pos rfl, Nat.add_right_comm]
    rfl
  | case4 pos bad e rest he hquote ih =>
    rw [stringError, if_neg hquote, if_pos rfl, ← ih, Nat.add_right_comm]
    exact if_pos he
  | case5 pos bad e rest he hend hquote =>
    rw [stringError, if_neg hquote, if_pos rfl, if_neg he, if_pos hend, Nat.add_right_comm]
    rfl
  | case6 pos bad e rest he hend hquote ih =>
    have hbad : (bad.or (some (e, pos))).map (fun b => (b.1, b.2 + k)) =
        (bad.map fun b => (b.1, b.2 + k)).or (some (e, pos + k)) := by
      cases bad <;> rfl
    rw [stringError, if_neg hquote, if_pos rfl, ← ih, hbad]
    rw [show pos + 1 + e.utf8Size + k = pos + k + 1 + e.utf8Size by omega]
    exact (if_neg he).trans (if_neg hend)
  | case7 pos bad c cs hquote hslash hend =>
    rw [stringError.eq_def]
    dsimp only
    rw [if_neg hquote, if_neg hslash, if_pos hend]
    rfl
  | case8 pos bad c cs hquote hslash hend ih =>
    rw [stringError.eq_def]
    dsimp only
    rw [if_neg hquote, if_neg hslash, if_neg hend, ← ih, Nat.add_right_comm]

theorem numberHead_shift (k offset : Nat) (c : Char) (cs : List Char) :
    numberHead (offset + k) c cs = (numberHead offset c cs).shift k := by
  unfold numberHead
  split
  · next taken rest htake =>
    dsimp only
    split
    · rfl
    · rw [Nat.add_right_comm]
      rfl
  · rw [Nat.add_right_comm]
    rfl

theorem head_shift (k offset : Nat) (cs : List Char) :
    head (offset + k) cs = (head offset cs).shift k := by
  cases cs with
  | nil => rfl
  | cons c cs =>
    simp only [head]
    split
    · rfl
    split
    · rfl
    split
    · rfl
    split
    · cases takeString? cs with
      | some r => rfl
      | none =>
        have herror := stringError_shift k offset (offset + 1) none cs
        rw [Nat.add_right_comm] at herror
        exact congrArg Head.error herror
    split
    · rfl
    · exact numberHead_shift k offset c cs

theorem spelled_shift (k offset : Nat) (t : Token) :
    Lexeme.spelled (offset + k) t = (Lexeme.spelled offset t).shift k := by
  unfold Lexeme.spelled
  rw [Nat.add_right_comm]
  rfl

/-- **Where a text starts only moves its spans.** -/
theorem lexFrom_shift (k offset : Nat) (cs : List Char) :
    lexFrom (offset + k) cs =
      match lexFrom offset cs with
      | .ok ls => .ok (ls.map (Lexeme.shift k))
      | .error e => .error (e.shift k) := by
  fun_induction lexFrom offset cs with
  | case1 offset cs h =>
    have hnil := head_splits offset cs
    rw [h] at hnil
    obtain rfl : cs = [] := hnil
    exact lexFrom_nil _
  | case2 offset cs taken rest h ih =>
    have hhead : head (offset + k) cs = .layout taken rest := by rw [head_shift, h]; rfl
    rw [lexFrom_layout hhead, Nat.add_right_comm]
    exact ih
  | case3 offset cs t rest h ls hrest ih =>
    have hhead : head (offset + k) cs = .token t rest := by rw [head_shift, h]; rfl
    rw [lexFrom_token hhead, Nat.add_right_comm, ih, hrest, spelled_shift]
    rfl
  | case4 offset cs t rest h e hrest ih =>
    have hhead : head (offset + k) cs = .token t rest := by rw [head_shift, h]; rfl
    rw [lexFrom_token hhead, Nat.add_right_comm, ih, hrest]
    rfl
  | case5 offset cs e h =>
    have hhead : head (offset + k) cs = .error (e.shift k) := by rw [head_shift, h]; rfl
    exact lexFrom_error hhead

/-! ## Ends of lines -/

/-- The characters that numbers are made of. -/
def isNumeric (c : Char) : Bool := c.isDigit || c ∈ ['-', '.', 'e', 'E', '+']

theorem isNumeric_of_mem_number {w : List Char} (h : w ∈ Pattern.number.language) :
    ∀ c ∈ w, isNumeric c = true := by
  have hdigits : ∀ {ds : List Char}, ds ∈ digits → ∀ c ∈ ds, isNumeric c = true := by
    intro ds hds c hc
    simp [isNumeric, (mem_digits.1 hds).2 c hc]
  obtain ⟨minus, hminus, ds, hds, f, hf, e, he, rfl⟩ := mem_number.1 h
  have hminus : ∀ c ∈ minus, isNumeric c = true := by
    rcases hminus with rfl | rfl <;> simp [isNumeric]
  have hf : ∀ c ∈ f, isNumeric c = true := by
    rcases mem_optional.1 hf with rfl | hf
    · simp
    · obtain ⟨ds, hds, rfl⟩ := mem_fraction.1 hf
      simpa using ⟨by decide, hdigits hds⟩
  have he : ∀ c ∈ e, isNumeric c = true := by
    rcases mem_optional.1 he with rfl | he
    · simp
    · obtain ⟨mark, hmark, sign, hsign, ds, hds, rfl⟩ := mem_exponent.1 he
      have hmark : isNumeric mark = true := by rcases hmark with rfl | rfl <;> decide
      have hsign : ∀ c ∈ sign, isNumeric c = true := by
        rcases hsign with rfl | rfl | rfl <;> simp [isNumeric]
      simp only [List.forall_mem_cons, List.forall_mem_append]
      exact ⟨hmark, hsign, hdigits hds⟩
  simp only [List.forall_mem_append]
  exact ⟨hminus, hdigits hds, hf, he⟩

theorem newline_not_mem_literal {w : List Char} (h : w ∈ Pattern.literal.language) : '\n' ∉ w := by
  obtain ⟨content, hcontent, rfl⟩ := mem_literal.1 h
  have hbody : '\n' ∉ content.flatMap Token.spellChar := by
    intro hmem
    obtain ⟨c, hc, hspelled⟩ := List.mem_flatMap.1 hmem
    have hend := hcontent c hc
    have hne : '\n' ≠ c := by
      rintro rfl
      exact absurd hend (by decide)
    unfold Token.spellChar at hspelled
    split at hspelled <;> simp [hne] at hspelled
  simp [hbody]

theorem newline_not_mem {p : Pattern} {w : List Char} (hp : p ≠ .blanks) (hw : w ∈ p.language) :
    '\n' ∉ w := by
  cases p with
  | blanks => exact absurd rfl hp
  | comment =>
    obtain ⟨v, rfl, hv⟩ := mem_comment.1 hw
    have hv : '\n' ∉ v := fun hmem => hv '\n' hmem rfl
    simp [hv]
  | punctuation =>
    obtain ⟨c, hc, rfl⟩ := mem_punctuation.1 hw
    have hne : '\n' ≠ c := by
      rintro rfl
      exact absurd hc (by decide)
    simp [hne]
  | identifier =>
    obtain ⟨c, v, rfl, hc, hv⟩ := mem_identifier.1 hw
    have hne : '\n' ≠ c := by
      rintro rfl
      exact absurd hc (by decide)
    have hv : '\n' ∉ v := fun hmem => absurd (hv '\n' hmem) (by decide)
    simp [hne, hv]
  | number => exact fun hmem => absurd (isNumeric_of_mem_number hw '\n' hmem) (by decide)
  | literal => exact newline_not_mem_literal hw

theorem prefix_of_not_mem {c : Char} {v cs more : List Char} (hv : c ∉ v)
    (hfront : v <+: cs ++ c :: more) : v <+: cs := by
  rcases List.prefix_or_prefix_of_prefix hfront (List.prefix_append cs (c :: more)) with h | h
  · exact h
  · obtain ⟨rest, rfl⟩ := h
    have hrest := (List.prefix_append_right_inj cs).1 hfront
    cases rest with
    | nil => rw [List.append_nil]
    | cons d rest =>
      obtain ⟨rfl, -⟩ := List.cons_prefix_cons.1 hrest
      exact absurd (List.mem_append_right cs List.mem_cons_self) hv

/-- **What follows in the next line does not change a match.** -/
theorem LongestMatch.before_newline {cs w : List Char} {p : Pattern} (h : LongestMatch cs p w)
    (hp : p ≠ .blanks) (more : List Char) : LongestMatch (cs ++ '\n' :: more) p w := by
  have hfront : w <+: cs ++ '\n' :: more := h.front.trans (List.prefix_append _ _)
  refine longestMatch_of_pattern h.mem hfront fun v hv hvfront => ?_
  exact h.longest p v hv (prefix_of_not_mem (newline_not_mem hp hv) hvfront)

/-- A text that can be read is read before a next line. -/
theorem Segments.lexFrom_newline {offset : Nat} {cs : List Char} {ls : List Lexeme}
    (h : Segments offset cs ls) (more : List Char) :
    lexFrom offset (cs ++ '\n' :: more) =
      (lexFrom (offset + bytes cs + 1) more).map (ls ++ ·) := by
  induction h with
  | finish offset =>
    have hhead : head offset ('\n' :: more) = .layout ['\n'] more := by simp [head, isBlank]
    rw [List.nil_append, lexFrom_layout hhead]
    show lexFrom (offset + 1) more = (lexFrom (offset + 1) more).map fun ls => ls
    cases lexFrom (offset + 1) more <;> rfl
  | @layout offset p w rest ls hp hmatch hrest ih =>
    have hstep : lexFrom offset (w ++ (rest ++ '\n' :: more)) =
        lexFrom (offset + bytes w) (rest ++ '\n' :: more) := by
      by_cases hblanks : p = .blanks
      · subst hblanks
        exact lexFrom_blanks offset _ (mem_blanks.1 hmatch.mem).2
      · have hmore := hmatch.before_newline hblanks more
        rw [List.append_assoc] at hmore
        exact lexFrom_layout_match hp hmore
    rw [List.append_assoc, hstep, ih, bytes_append, Nat.add_assoc offset]
  | @token offset t rest ls hmatch hrange hrest ih =>
    have hblanks : t.pattern ≠ .blanks := by cases t <;> simp [Token.pattern]
    have hmore := hmatch.before_newline hblanks more
    rw [List.append_assoc] at hmore
    rw [List.append_assoc, lexFrom_token (head_of_match offset hmore hrange), ih, bytes_append,
      Nat.add_assoc offset]
    cases lexFrom (offset + (bytes t.spelling + bytes rest) + 1) more <;> rfl

/-- **Two texts with the end of a line between them are read as the two texts are**, if the first one
can be read. -/
theorem lex_append_newline {cs : List Char} {ls : List Lexeme} (h : lex cs = .ok ls)
    (more : List Char) :
    lex (cs ++ '\n' :: more) =
      match lex more with
      | .ok ls' => .ok (ls ++ ls'.map (Lexeme.shift (bytes cs + 1)))
      | .error e => .error (e.shift (bytes cs + 1)) := by
  have hshift := lexFrom_shift (bytes cs + 1) 0 more
  rw [Nat.zero_add] at hshift
  unfold lex
  rw [(lexFrom_ok_iff.1 h).lexFrom_newline more, Nat.zero_add, hshift]
  cases lexFrom 0 more <;> rfl

end Lexer

end MaterialScript
