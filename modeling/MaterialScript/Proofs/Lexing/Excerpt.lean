import MaterialScript.Proofs.Lexing.Errors
import MaterialScript.Proofs.Lexing.Seam

/-!
# Reading a part of a text on its own

The text from the start of one lexeme to the stop of a later one is read to the same lexemes when it
stands alone. Only their offsets change, since they count from the start of the part.

* `Spans piece s` : a span reaches from the first lexeme of a piece to its last one;
* `Excerpt text s piece w` : the bytes of a span are read on their own to a piece of the lexemes;
* `Segments.behind`, `Segments.upto` : the text before a lexeme and the text behind one are cut off,
  by induction on the pieces of the text;
* `exists_excerpt` : every piece of the lexemes can be read on its own.
-/

namespace MaterialScript

/-- A span from the start of the first lexeme of a piece to the stop of its last one. -/
structure Spans (piece : List Lexeme) (s : Span) : Prop where
  starts : ∃ l, piece.head? = some l ∧ l.span.start = s.start
  stops : ∃ l, piece.getLast? = some l ∧ l.span.stop = s.stop

namespace Lexer

open Text

/-- The bytes of a span of a text are the characters `w`. On their own they are read to a piece of
the lexemes of the text, counted from the start of the span. -/
structure Excerpt (text : List Char) (s : Span) (piece : List Lexeme) (w : List Char) : Prop where
  slice : slice? s.start s.stop text = some w
  reads : ∃ ls, lex w = .ok ls ∧ ls.map (Lexeme.shift s.start) = piece

/-! ## Cuts -/

theorem Slice.slice? {text w : List Char} {start stop : Nat} (h : Slice text start stop w) :
    slice? start stop text = some w := by
  obtain ⟨before, after, rfl, rfl, rfl⟩ := h
  exact slice?_append before w after

theorem Segments.behind {offset : Nat} {cs : List Char} {xs ys : List Lexeme} {l : Lexeme}
    (h : Segments offset cs (xs ++ ys)) (hl : ys.head? = some l) :
    ∃ front rest, cs = front ++ rest ∧ offset + bytes front = l.span.start ∧
      Segments l.span.start rest ys := by
  generalize hls : xs ++ ys = ls at h
  induction h generalizing xs with
  | finish offset =>
    obtain ⟨-, rfl⟩ := List.append_eq_nil_iff.1 hls
    cases hl
  | @layout offset p w rest ls hp hmatch hrest ih =>
    obtain ⟨front, rest', rfl, hstart, hsegments⟩ := ih hls
    refine ⟨w ++ front, rest', (List.append_assoc ..).symm, ?_, hsegments⟩
    rw [bytes_append]
    omega
  | @token offset t rest ls hmatch hrange hrest ih =>
    cases xs with
    | nil =>
      obtain rfl : ys = Lexeme.spelled offset t :: ls := hls
      obtain rfl : Lexeme.spelled offset t = l := Option.some.inj hl
      exact ⟨[], t.spelling ++ rest, rfl, rfl, .token hmatch hrange hrest⟩
    | cons x xs =>
      obtain ⟨-, hmore⟩ := List.cons.inj hls
      obtain ⟨front, rest', rfl, hstart, hsegments⟩ := ih hmore
      refine ⟨t.spelling ++ front, rest', (List.append_assoc ..).symm, ?_, hsegments⟩
      rw [bytes_append]
      omega

/-- The text up to the end of a lexeme. What follows does not change the longest matches in it. -/
theorem Segments.upto {offset : Nat} {cs : List Char} {xs ys : List Lexeme} {l : Lexeme}
    (h : Segments offset cs (xs ++ ys)) (hl : xs.getLast? = some l) :
    ∃ front rest, cs = front ++ rest ∧ offset + bytes front = l.span.stop ∧
      Segments offset front xs := by
  generalize hls : xs ++ ys = ls at h
  induction h generalizing xs with
  | finish offset =>
    obtain ⟨rfl, -⟩ := List.append_eq_nil_iff.1 hls
    cases hl
  | @layout offset p w rest ls hp hmatch hrest ih =>
    obtain ⟨front, rest', rfl, hstop, hsegments⟩ := ih hl hls
    refine ⟨w ++ front, rest', (List.append_assoc ..).symm, ?_, .layout hp hmatch.restrict hsegments⟩
    rw [bytes_append]
    omega
  | @token offset t rest ls hmatch hrange hrest ih =>
    cases xs with
    | nil => cases hl
    | cons x xs =>
      obtain ⟨rfl, hmore⟩ := List.cons.inj hls
      cases xs with
      | nil =>
        obtain rfl : Lexeme.spelled offset t = l := Option.some.inj hl
        have hmatch' : LongestMatch (t.spelling ++ ([] ++ rest)) t.pattern t.spelling := hmatch
        refine ⟨t.spelling ++ [], rest, by rw [List.append_nil], ?_,
          .token hmatch'.restrict hrange (.finish _)⟩
        rw [List.append_nil]
        rfl
      | cons x' xs =>
        rw [List.getLast?_cons_cons] at hl
        obtain ⟨front, rest', rfl, hstop, hsegments⟩ := ih hl hmore
        refine ⟨t.spelling ++ front, rest', (List.append_assoc ..).symm, ?_,
          .token hmatch.restrict hrange hsegments⟩
        rw [bytes_append]
        omega

/-! ## Pieces -/

/-- **Every piece of the lexemes of a text can be read on its own.** -/
theorem exists_excerpt {text : List Char} {ls piece : List Lexeme} {s : Span}
    (hlex : lex text = .ok ls) (hpiece : piece <:+: ls) (hs : Spans piece s) :
    ∃ w, Excerpt text s piece w := by
  obtain ⟨xs, ys, rfl⟩ := hpiece
  obtain ⟨⟨l, hhead, hstart⟩, l', hlast, hstop⟩ := hs
  have hall := lexFrom_ok_iff.1 hlex
  rw [List.append_assoc] at hall
  have hfirst : (piece ++ ys).head? = some l := by
    rw [List.head?_append, hhead]
    rfl
  obtain ⟨front, rest, rfl, hfront, hrest⟩ := hall.behind hfirst
  obtain ⟨w, after, rfl, hw, hpiece⟩ := hrest.upto hlast
  rw [hstart] at hfront hw hpiece
  rw [Nat.zero_add] at hfront
  refine ⟨w, Slice.slice? ⟨front, after, rfl, hfront, hw.trans hstop⟩, ?_⟩
  have hmoved := lexFrom_shift s.start 0 w
  rw [Nat.zero_add, lexFrom_ok_iff.2 hpiece] at hmoved
  unfold lex
  cases hread : lexFrom 0 w with
  | error e =>
    rw [hread] at hmoved
    cases hmoved
  | ok ls =>
    rw [hread] at hmoved
    exact ⟨ls, rfl, (Except.ok.inj hmoved).symm⟩

end Lexer

end MaterialScript
