import MaterialScript.Proofs.Derivation.Origins
import MaterialScript.Proofs.Translation.Concatenation

/-!
# Statements on their own

The bytes of a firing are a part of the text that can be read on its own: a whole statement is parsed
to the firings of that statement, and the bytes of a value or a shader are what the value was read
from.

* `Firing.shift` : a firing further on in a text; `parse_shift` : lexemes further on in a text;
* `Quoted` : what the bytes of a firing are;
* `Origin.quoted` : by where the firing comes from; `firings_quote_text` : whole texts.
-/

namespace MaterialScript

def Firing.shift (k : Nat) (f : Firing) : Firing := { f with span := f.span.shift k }

namespace Grammar

open Lexer Text

theorem map_shift_of_alike {k : Nat} {fs fs' : List Firing}
    (h : FiringsAlike (Shifted k) fs fs') : fs.map (Firing.shift k) = fs' := by
  induction h with
  | nil => rfl
  | @cons f f' fs fs' hf _ ih =>
    obtain ⟨haction, hspan⟩ := hf
    have hshift : f.shift k = f' := by
      unfold Firing.shift
      rw [haction, ← show f'.span = f.span.shift k from hspan]
    rw [List.map_cons, hshift, ih]

/-- Lexemes that are parsed further on in a text are parsed where they are. -/
theorem parse_shift {k : Nat} {ls : List Lexeme} {fs : List Firing}
    (h : parse (ls.map (Lexeme.shift k)) = .ok fs) :
    ∃ fs', parse ls = .ok fs' ∧ fs'.map (Firing.shift k) = fs := by
  rcases parse_alike (throughClosed_shifted k) (alike_map_shift k ls) with
    ⟨fs', fs'', hfs', hfs'', halike⟩ | ⟨e, e', -, he', -⟩
  · rw [h] at hfs''
    obtain rfl := Except.ok.inj hfs''
    exact ⟨fs', hfs', map_shift_of_alike halike⟩
  · rw [h] at he'
    cases he'

theorem StatementTree.parse_eq (s : StatementTree) : parse s.lexemes = .ok s.firings :=
  parse_iff_tree.2 ⟨s.document, s.document_lexemes, s.document_firings⟩

/-- What the bytes are that a firing was matched to, in a text with given lexemes, when the firing
follows others. -/
structure Quoted (text : List Char) (ls : List Lexeme) (before : List Firing) (f : Firing) : Prop where
  starts : ∃ l ∈ ls, l.span.start = f.span.start
  stops : ∃ l ∈ ls, l.span.stop = f.span.stop
  /-- The end of a statement has the bytes of the statement, which fire the literals that come right
  before it and then the end. -/
  statement : f.action.completesStatement = true → f.action ≠ .shaderOption →
    ∃ w ls' fs', slice? f.span.start f.span.stop text = some w ∧ lex w = .ok ls' ∧
      parse ls' = .ok fs' ∧ fs'.map (Firing.shift f.span.start) = trailing before ++ [f]
  /-- A shader has the bytes of the string literal that comes right before it. -/
  shader : f.action = .shaderOption → ∃ content, trailing before = [⟨.string content, f.span⟩] ∧
    slice? f.span.start f.span.stop text = some (Token.str content).spelling
  /-- A value has its bytes: a number, a string literal, or parentheses with what they hold. The
  literals in it come right before it. -/
  value : f.action.pushed? = some .uniforms → ∃ (v : ValueTree) (w : List Char),
    v.firings <:+ before ++ [f] ∧ Excerpt text f.span v.lexemes w ∧
      ∀ l, v.lexemes = [l] → w = l.token.spelling

section Texts
variable {text : List Char} {ls : List Lexeme} {before : List Firing} {f : Firing}

theorem slice?_of_mem (hlex : lex text = .ok ls) {l : Lexeme} (hl : l ∈ ls) :
    slice? l.span.start l.span.stop text = some l.token.spelling :=
  ((lexFrom_ok_iff.1 hlex).tiling.spelled l hl).slice?

theorem StatementTree.exists_quote (hlex : lex text = .ok ls) {s : StatementTree}
    (hs : s.lexemes <:+: ls) (hshader : s.completion.action ≠ .shaderOption) :
    ∃ w ls' fs', slice? s.completion.span.start s.completion.span.stop text = some w ∧
      lex w = .ok ls' ∧ parse ls' = .ok fs' ∧
      fs'.map (Firing.shift s.completion.span.start) = s.firings := by
  obtain ⟨w, hslice, ls', hw, hshift⟩ := exists_excerpt hlex hs (StatementTree.spans hshader)
  have hparse := s.parse_eq
  rw [← hshift] at hparse
  obtain ⟨fs', hfs', hfirings⟩ := parse_shift hparse
  exact ⟨w, ls', fs', hslice, hw, hfs', hfirings⟩

theorem ValueTree.exists_quote (hlex : lex text = .ok ls) {v : ValueTree}
    (hv : v.lexemes <:+: ls) :
    ∃ w, Excerpt text v.span v.lexemes w ∧ ∀ l, v.lexemes = [l] → w = l.token.spelling := by
  obtain ⟨w, hw⟩ := exists_excerpt hlex hv v.spans
  refine ⟨w, hw, fun l hl => ?_⟩
  have hspelled := slice?_of_mem hlex (hv.subset (hl ▸ List.mem_singleton_self l))
  obtain ⟨⟨l', hhead, hstart⟩, l'', hlast, hstop⟩ := v.spans
  rw [hl] at hhead hlast
  obtain rfl : l = l' := Option.some.inj hhead
  obtain rfl : l = l'' := Option.some.inj hlast
  rw [hstart, hstop, hw.slice] at hspelled
  exact Option.some.inj hspelled

/-- **What the bytes of a firing are**, by where the firing comes from. -/
theorem Origin.quoted (hlex : lex text = .ok ls) (h : Origin ls before f) :
    Quoted text ls before f := by
  obtain ⟨piece, hpiece, ⟨l, hhead, hstart⟩, l', hlast, hstop⟩ := h.covered
  refine ⟨⟨l, hpiece.subset (List.mem_of_mem_head? hhead), hstart⟩,
    ⟨l', hpiece.subset (List.mem_of_getLast? hlast), hstop⟩, ?_, ?_, ?_⟩
  · intro hcompletes hshader
    obtain ⟨s, hs, rfl, hliterals⟩ := h.completion hcompletes
    rw [hliterals, ← s.firings_eq]
    exact StatementTree.exists_quote hlex hs hshader
  · intro hshader
    obtain ⟨s, hs, rfl, hliterals⟩ := h.completion (by rw [hshader]; rfl)
    obtain ⟨head, path, rfl⟩ := StatementTree.shader_of_completion hshader
    have hpath : path.lexeme .str ∈ ls :=
      hs.subset (List.mem_append_right _ (List.mem_singleton_self _))
    exact ⟨path.value, hliterals, slice?_of_mem hlex hpath⟩
  · intro hvalue
    obtain ⟨v, hv, rfl, front, hbefore⟩ := h.value hvalue
    obtain ⟨w, hw, hspelled⟩ := ValueTree.exists_quote hlex hv
    refine ⟨v, w, ⟨front, ?_⟩, hw, hspelled⟩
    rw [v.firings_eq, ← hbefore, List.append_assoc]

/-- **The bytes of every firing of a text** start where a lexeme starts and stop where one stops. The
bytes of an option or a uniform are parsed on their own to what the statement fires, and those of a
shader or a value are what it was read from. -/
theorem firings_quote_text (text : List Char) (ls : List Lexeme) (fs : List Firing)
    (hlex : lex text = .ok ls) (hparse : parse ls = .ok fs) :
    ∀ before f after, fs = before ++ f :: after → Quoted text ls before f := by
  obtain ⟨d, rfl, rfl⟩ := parse_iff_tree.1 hparse
  intro before f after hfs
  exact (d.traced.origin before f after hfs).quoted hlex

/-- A shader, and a vector with a comment inside: a letter of two bytes stands in both. -/
theorem shader_and_vector_quote_text :
    let text := "Shader \"é\" SetUniform x(1, // é\n2)".toList
    let ls : List Lexeme :=
      [⟨.ident "Shader", 0, 6⟩, ⟨.str "é", 7, 11⟩, ⟨.ident "SetUniform", 12, 22⟩,
        ⟨.ident "x", 23, 24⟩, ⟨.leftParen, 24, 25⟩, ⟨.number "1", 25, 26⟩, ⟨.comma, 26, 27⟩,
        ⟨.number "2", 34, 35⟩, ⟨.rightParen, 35, 36⟩]
    let path : Firing := ⟨.string "é", 7, 11⟩
    let shader : Firing := ⟨.shaderOption, 7, 11⟩
    let literals : List Firing :=
      [⟨.identifier "x", 23, 24⟩, ⟨.float ⟨0x3F800000⟩, 25, 26⟩, ⟨.float ⟨0x40000000⟩, 34, 35⟩]
    let vector : Firing := ⟨.uniformVec2, 24, 36⟩
    let uniform : Firing := ⟨.uniform, 12, 36⟩
    let fs : List Firing := [path, shader] ++ (literals ++ [vector, uniform])
    lex text = .ok ls ∧ parse ls = .ok fs ∧
      (slice? 7 11 text = some "\"é\"".toList ∧ Quoted text ls [path] shader) ∧
      (slice? 24 36 text = some "(1, // é\n2)".toList ∧
        Quoted text ls ([path, shader] ++ literals) vector) ∧
      slice? 12 36 text = some "SetUniform x(1, // é\n2)".toList ∧
        Quoted text ls ([path, shader] ++ (literals ++ [vector])) uniform := by
  intro text ls path shader literals vector uniform fs
  have hlex : lex text = .ok ls := lex_eq_ok (by decide +kernel)
  have hparse : parse ls = .ok fs := by decide +kernel
  have hquoted := firings_quote_text text ls fs hlex hparse
  refine ⟨hlex, hparse, ⟨by decide +kernel, ?_⟩, ⟨by decide +kernel, ?_⟩, by decide +kernel, ?_⟩
  · exact hquoted [path] shader (literals ++ [vector, uniform]) rfl
  · exact hquoted ([path, shader] ++ literals) vector [uniform] rfl
  · exact hquoted ([path, shader] ++ (literals ++ [vector])) uniform [] rfl

end Texts

end Grammar

end MaterialScript
