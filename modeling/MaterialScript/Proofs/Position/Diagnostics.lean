import MaterialScript.Proofs.Derivation.Origins
import MaterialScript.Proofs.Derivation.Rejection
import MaterialScript.Proofs.Position.Boundaries

/-!
# Diagnostics stand between characters

A diagnostic is put at the start of a lexical error, of a lexeme or of a firing, or at the end of the
text. All of these are offsets between characters, so the position of a diagnostic tells its offset, and
it is the end of the text only for diagnostics that belong there.

* `boundary_of_lex_error`, `boundary_of_mem_lexemes`, `boundary_of_mem_firings` : starts of errors,
  lexemes and firings;
* `Reported path text d offset` : a diagnostic of a text and the offset that it is put at;
  `reported_of_compile` : every diagnostic of a compilation;
* `Position.Faithful text` : what positions tell about a text; `positions_tell_offsets` : for all
  texts.
-/

namespace MaterialScript

open Assembly Grammar Lexer Text

/-! ## Starts -/

section Starts
variable {text : List Char}

theorem Lexer.Slice.boundary {start stop : Nat} {w : List Char} (h : Slice text start stop w) :
    Boundary text start := by
  obtain ⟨before, after, htext, hstart, -⟩ := h
  exact ⟨before, w ++ after, htext, hstart⟩

theorem boundary_of_lex_error {e : LexError} (h : lex text = .error e) :
    Boundary text e.span.start := by
  obtain ⟨front, rest, rfl, -, hhead⟩ := exists_stop h
  rw [Nat.zero_add] at hhead
  obtain ⟨w, -, hslice⟩ := (errorAt_of_head hhead).spanned (blocked_of_head hhead).nonempty
  exact hslice.boundary

theorem boundary_of_mem_lexemes {ls : List Lexeme} {l : Lexeme} (hlex : lex text = .ok ls)
    (hl : l ∈ ls) : Boundary text l.span.start :=
  ((lexFrom_ok_iff.1 hlex).tiling.spelled l hl).boundary

theorem boundary_of_mem_firings {ls : List Lexeme} {fs : List Firing} {f : Firing}
    (hlex : lex text = .ok ls) (hparse : parse ls = .ok fs) (hf : f ∈ fs) :
    Boundary text f.span.start := by
  obtain ⟨d, rfl, rfl⟩ := parse_iff_tree.1 hparse
  obtain ⟨before, after, hfs⟩ := List.append_of_mem hf
  obtain ⟨piece, hpiece, ⟨l, hhead, hstart⟩, -⟩ := (d.traced.origin before f after hfs).covered
  rw [← hstart]
  exact boundary_of_mem_lexemes hlex (hpiece.subset (List.mem_of_mem_head? hhead))

end Starts

/-! ## Diagnostics -/

/-- A diagnostic of a text, and the offset that it is put at. -/
inductive Reported (path : String) (text : List Char) : Diagnostic → Nat → Prop where
  /-- A lexical error, at its start. -/
  | lexical {e : LexError} (hlex : lex text = .error e) :
      Reported path text (e.diagnostic path text) e.span.start
  /-- A failure of the grammar, at the start of the lexeme that fails. -/
  | lexeme {ls : List Lexeme} {e : Failure} {l : Lexeme} (hlex : lex text = .ok ls)
      (hparse : parse ls = .error e) (hfound : e.found? = some l) :
      Reported path text (e.diagnostic path text) l.span.start
  /-- A failure of the grammar at the end of the text. -/
  | finish {ls : List Lexeme} {e : Failure} (hlex : lex text = .ok ls)
      (hparse : parse ls = .error e) (hfound : e.found? = none) :
      Reported path text (e.diagnostic path text) (bytes text)
  /-- A fault of an action, at the start of the firing. -/
  | action {ls : List Lexeme} {fs : List Firing} {m : Misfire} (hlex : lex text = .ok ls)
      (hparse : parse ls = .ok fs) (hfiring : m.firing ∈ fs) :
      Reported path text (m.diagnostic path text) m.firing.span.start
  /-- A fault of a document that is not finished, at the end of the text. -/
  | unfinished (fault : Fault) : Reported path text (fault.diagnosticAtEnd path text) (bytes text)

namespace Reported
variable {path : String} {text : List Char} {d : Diagnostic} {offset : Nat}

theorem position (h : Reported path text d offset) :
    d.position = some (Position.ofOffset text offset) := by
  cases h with
  | lexical hlex => rfl
  | lexeme hlex hparse hfound => rw [Failure.diagnostic, hfound]; rfl
  | finish hlex hparse hfound => rw [Failure.diagnostic, hfound]; rfl
  | action hlex hparse hfiring => rfl
  | unfinished fault => rfl

/-- **A diagnostic is put between characters.** -/
theorem boundary (h : Reported path text d offset) : Boundary text offset := by
  cases h with
  | lexical hlex => exact boundary_of_lex_error hlex
  | lexeme hlex hparse hfound =>
    obtain ⟨-, hget, -⟩ := index_of_parse_error hparse
    rw [hfound] at hget
    exact boundary_of_mem_lexemes hlex (List.mem_of_getElem? hget)
  | finish hlex hparse hfound => exact boundary_end text
  | action hlex hparse hfiring => exact boundary_of_mem_firings hlex hparse hfiring
  | unfinished fault => exact boundary_end text

end Reported

section Compiling
variable {σ : Type} (resolver : Resolver σ)

theorem misfire_mem {base : String} {fs : List Firing} {a b : Assembly σ} {m : Misfire}
    (h : (fireAll resolver base fs).run a = .error m b) : m.firing ∈ fs := by
  induction fs generalizing a with
  | nil => cases h
  | cons f fs ih =>
    rw [run_fireAll_cons] at h
    cases hrun : (perform resolver base f.action).run a with
    | ok x a' =>
      rw [hrun] at h
      exact List.mem_cons_of_mem f (ih h)
    | error fault a' =>
      rw [hrun] at h
      cases h
      exact List.mem_cons_self

theorem reported_of_assemble {path : String} {p : Parsed} {host last : σ} {d : Diagnostic}
    (hlex : lex p.text = .ok p.lexemes) (hparse : parse p.lexemes = .ok p.firings)
    (h : assemble resolver path p host = (.error d, last)) :
    ∃ offset, Reported path p.text d offset := by
  unfold assemble at h
  cases hrun : (fireAll resolver path p.firings).run (Assembly.start host) with
  | error m a =>
    rw [hrun] at h
    cases h
    exact ⟨_, .action hlex hparse (misfire_mem resolver hrun)⟩
  | ok x a =>
    rw [hrun] at h
    dsimp only at h
    cases hclose : a.close with
    | error fault =>
      rw [hclose] at h
      cases h
      exact ⟨_, .unfinished fault⟩
    | ok document =>
      rw [hclose] at h
      cases h

/-- **Every diagnostic of a compilation** is put at one of these offsets. -/
theorem reported_of_compile {settings : Settings} {path source : String} {host last : σ}
    {d : Diagnostic} (h : compile resolver settings path source host = (.error d, last)) :
    ∃ offset, Reported path (sourceText settings source).1 d offset := by
  unfold compile parseSource at h
  generalize (sourceText settings source).1 = text at h ⊢
  unfold parseText at h
  cases hlex : lex text with
  | error e =>
    rw [hlex] at h
    cases h
    exact ⟨_, .lexical hlex⟩
  | ok ls =>
    rw [hlex] at h
    dsimp only at h
    cases hparse : parse ls with
    | error e =>
      rw [hparse] at h
      cases h
      cases hfound : e.found? with
      | none => exact ⟨_, .finish hlex hparse hfound⟩
      | some l => exact ⟨_, .lexeme hlex hparse hfound⟩
    | ok fs =>
      rw [hparse] at h
      exact reported_of_assemble resolver hlex hparse h

end Compiling

/-! ## Texts -/

/-- What positions tell about the offsets of a text, and where diagnostics of the text stand. -/
structure Position.Faithful (text : List Char) : Prop where
  /-- The position of a boundary counts the bytes since the start of its line. -/
  line : ∀ offset, Boundary text offset → ∃ start w,
    lineStart? (ofOffset text offset).line text = some start ∧
      start + (ofOffset text offset).column = offset ∧
      slice? start offset text = some w ∧ '\n' ∉ w
  ordered : ∀ offset offset', Boundary text offset → Boundary text offset' →
    ((ofOffset text offset).Before (ofOffset text offset') ↔ offset < offset')
  distinct : ∀ offset offset', Boundary text offset → Boundary text offset' →
    (ofOffset text offset = ofOffset text offset' ↔ offset = offset')
  others : ∀ offset, ¬ Boundary text offset ↔ bytes text < offset ∨ Inside text offset
  /-- Any other offset has the position of the end. -/
  clamped : ∀ offset, ¬ Boundary text offset → ofOffset text offset = ofOffset text (bytes text)
  error : ∀ e, lex text = .error e → Boundary text e.span.start
  lexeme : ∀ ls, lex text = .ok ls → ∀ l ∈ ls, Boundary text l.span.start
  firing : ∀ ls fs, lex text = .ok ls → parse ls = .ok fs → ∀ f ∈ fs, Boundary text f.span.start
  finish : Boundary text (bytes text)
  /-- A diagnostic of a compilation is put at a boundary, and has the position of the end only if it
  is put there. -/
  reported : ∀ {σ : Type} (resolver : Resolver σ) (settings : Settings) (path source : String)
    (host last : σ) (d : Diagnostic), (sourceText settings source).1 = text →
    compile resolver settings path source host = (.error d, last) →
    ∃ offset, Reported path text d offset ∧ Boundary text offset ∧
      d.position = some (ofOffset text offset) ∧
      (d.position = some (ofOffset text (bytes text)) ↔ offset = bytes text)

/-- **Positions tell offsets, and diagnostics stand between characters.** Between two characters of a
text the position counts the ends of lines before it and the bytes since the last of them, so that
positions are distinct and ordered as offsets are. Other offsets have the position of the end, and a
compilation uses none of them. -/
theorem positions_tell_offsets (text : List Char) : Position.Faithful text := by
  refine ⟨fun offset h => ?_, fun _ _ h h' => Position.ofOffset_before_iff h h',
    fun _ _ h h' => Position.ofOffset_inj h h', fun _ => not_boundary_iff,
    fun _ h => Position.ofOffset_of_not_boundary h, fun _ h => boundary_of_lex_error h,
    fun _ hlex _ hl => boundary_of_mem_lexemes hlex hl,
    fun _ _ hlex hparse _ hf => boundary_of_mem_firings hlex hparse hf, boundary_end text, ?_⟩
  · obtain ⟨before, w, rest, rfl, rfl, hw, hcolumn, hline⟩ := Position.exists_line_of_ofOffset h
    refine ⟨bytes before, w, hline, ?_, slice?_append before w rest, hw⟩
    rw [hcolumn]
  · intro σ resolver settings path source host last d htext h
    obtain ⟨offset, hreported⟩ := reported_of_compile resolver h
    rw [htext] at hreported
    refine ⟨offset, hreported, hreported.boundary, hreported.position, ?_⟩
    rw [hreported.position, Option.some.injEq]
    exact Position.ofOffset_inj hreported.boundary (boundary_end text)

/-- A face that does not exist, in the second line, after a letter of two bytes. -/
theorem unknown_face_reported_in_second_line :
    let source := "Shader \"é\"\nCullFace Side"
    let d : Diagnostic := ⟨.syntaxError, "x.mat", some ⟨1, 9⟩, "unknown cull face `Side`"⟩
    let counting : Resolver Nat := { load := fun _ _ n => (.ok ⟨n⟩, n + 1) }
    compile counting {} "x.mat" source 0 = (.error d, 0) ∧
      Boundary source.toList 21 ∧ Reported "x.mat" source.toList d 21 := by
  intro source d counting
  have hcompile : compile counting {} "x.mat" source 0 = (.error d, 0) := by decide +kernel
  have hboundary : Boundary source.toList 21 := by decide +kernel
  have hfaithful := positions_tell_offsets source.toList
  obtain ⟨offset, hreported, hoffset, hposition, -⟩ :=
    hfaithful.reported counting {} "x.mat" source 0 0 d (by decide +kernel) hcompile
  have hsame : Position.ofOffset source.toList 21 = Position.ofOffset source.toList offset := by
    apply Option.some.inj
    rw [← hposition]
    decide +kernel
  obtain rfl := (hfaithful.distinct 21 offset hboundary hoffset).1 hsame
  exact ⟨hcompile, hboundary, hreported⟩

end MaterialScript
