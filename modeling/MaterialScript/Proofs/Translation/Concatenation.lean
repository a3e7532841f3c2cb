import MaterialScript.Proofs.Derivation.Append
import MaterialScript.Proofs.Derivation.Spans
import MaterialScript.Proofs.Lexing.Seam
import MaterialScript.Proofs.Position.Diagnostics
import MaterialScript.Proofs.Translation.Trace

/-!
# Compiling one source after another

Two sources with the end of a line between them are compiled as one after the other: the second one
goes on with the resolver that the first one leaves behind, its statements are put behind those of the
first one, and its diagnostics move down by the lines of the first one.

* `Position.below`, `Diagnostic.below` : the same some lines further down;
* `Position.ofOffset_append_newline` : a position after the end of a line;
* `parseText_append` : a text after one that is parsed;
* `fireAll_alike`, `assemble_below` : firings further on in a text;
* `Document.append`, `DocumentTree.translate_append` : one document after another;
* `compile_append` : whole sources.
-/

namespace MaterialScript

open Text

/-! ## Positions further down -/

def Position.below (lines : Nat) (p : Position) : Position := ⟨p.line + lines, p.column⟩

def Diagnostic.below (lines : Nat) (d : Diagnostic) : Diagnostic :=
  { d with position := d.position.map (Position.below lines) }

namespace Position

theorem advance_below (lines : Nat) (p : Position) (c : Char) :
    (p.below lines).advance c = (p.advance c).below lines := by
  unfold advance below
  split
  · rw [Nat.add_right_comm]
  · rfl

theorem foldl_advance_below (lines : Nat) (p : Position) (cs : List Char) :
    cs.foldl advance (p.below lines) = (cs.foldl advance p).below lines := by
  induction cs generalizing p with
  | nil => rfl
  | cons c cs ih => rw [List.foldl_cons, List.foldl_cons, advance_below, ih]

theorem after_append_newline (xs ys : List Char) :
    after (xs ++ '\n' :: ys) = (after ys).below (xs.count '\n' + 1) := by
  have hstart : (after xs).advance '\n' = start.below (xs.count '\n' + 1) := by
    unfold advance below start
    rw [if_pos rfl, line_after, Nat.zero_add]
  rw [after_append, List.foldl_cons, hstart, foldl_advance_below]
  rfl

end Position

theorem Text.takeBytes?_append_add (xs ys : List Char) (n : Nat) :
    takeBytes? (bytes xs + n) (xs ++ ys) = (takeBytes? n ys).map (xs ++ ·) := by
  induction xs with
  | nil => simp
  | cons x xs ih =>
    rw [bytes_cons, Nat.add_assoc, List.cons_append, takeBytes?_cons, ih, Option.map_map]
    rfl

/-- **A position after the end of a line** has the column that it has in the text after it. -/
theorem Position.ofOffset_append_newline (xs ys : List Char) (offset : Nat) :
    ofOffset (xs ++ '\n' :: ys) (offset + (bytes xs + 1)) =
      (ofOffset ys offset).below (xs.count '\n' + 1) := by
  have htake : takeBytes? (offset + (bytes xs + 1)) (xs ++ '\n' :: ys) =
      (takeBytes? offset ys).map (xs ++ '\n' :: ·) := by
    have hline : takeBytes? (1 + offset) ('\n' :: ys) = (takeBytes? offset ys).map ('\n' :: ·) :=
      takeBytes?_cons offset '\n' ys
    rw [show offset + (bytes xs + 1) = bytes xs + (1 + offset) by omega, takeBytes?_append_add,
      hline, Option.map_map]
    rfl
  unfold ofOffset
  rw [htake]
  cases takeBytes? offset ys with
  | none => exact after_append_newline xs ys
  | some front => exact after_append_newline xs front

theorem Diagnostic.atOffset_append_newline (d : Diagnostic) (xs ys : List Char) (offset : Nat) :
    d.atOffset (xs ++ '\n' :: ys) (offset + (bytes xs + 1)) =
      (d.atOffset ys offset).below (xs.count '\n' + 1) := by
  unfold atOffset
  rw [Position.ofOffset_append_newline]
  rfl

/-! ## Texts -/

/-- The second span is the first one, `k` bytes further on. -/
def Shifted (k : Nat) (s s' : Span) : Prop := s' = s.shift k

namespace Grammar

theorem throughClosed_shifted (k : Nat) : ThroughClosed (Shifted k) := by
  rintro a _ b _ rfl rfl
  rfl

theorem alike_map_shift (k : Nat) (ls : List Lexeme) :
    List.Forall₂ (Lexeme.Alike (Shifted k)) ls (ls.map (Lexeme.shift k)) := by
  induction ls with
  | nil => exact .nil
  | cons l ls ih => exact .cons ⟨rfl, rfl⟩ ih

theorem bytes_append_newline (xs ys : List Char) :
    bytes (xs ++ '\n' :: ys) = bytes ys + (bytes xs + 1) := by
  have hsize : ('\n' : Char).utf8Size = 1 := rfl
  rw [bytes_append, bytes_cons, hsize]
  omega

theorem Failure.Alike.diagnostic_below {xs : List Char} {e e' : Failure}
    (h : e.Alike (Shifted (bytes xs + 1)) e') (file : String) (ys : List Char) :
    e'.diagnostic file (xs ++ '\n' :: ys) = (e.diagnostic file ys).below (xs.count '\n' + 1) := by
  have hoffset : (e'.found?.map fun l => l.span.start).getD (bytes (xs ++ '\n' :: ys)) =
      (e.found?.map fun l => l.span.start).getD (bytes ys) + (bytes xs + 1) := by
    have hrest := h.rest
    unfold Failure.found?
    generalize e.rest = rest, e'.rest = rest' at hrest
    cases hrest with
    | nil => exact bytes_append_newline xs ys
    | cons hl hmore => exact congrArg Span.start hl.2
  unfold Failure.diagnostic
  rw [hoffset, h.message_eq, Diagnostic.atOffset_append_newline]

/-- **A text that is parsed, the end of a line, and more text.** -/
theorem parseText_append {path : String} {xs : List Char} {p : Parsed}
    (h : parseText path xs = .ok p) (ys : List Char) :
    (∃ e, parseText path ys = .error e ∧
      parseText path (xs ++ '\n' :: ys) = .error (e.below (xs.count '\n' + 1))) ∨
    ∃ q ls fs, parseText path ys = .ok q ∧ parse ls = .ok fs ∧
      FiringsAlike (Shifted (bytes xs + 1)) q.firings fs ∧
      parseText path (xs ++ '\n' :: ys) =
        .ok ⟨xs ++ '\n' :: ys, p.lexemes ++ ls, p.firings ++ fs⟩ := by
  obtain ⟨-, hlex, hparse⟩ := parseText_eq_ok h
  have hlexes := Lexer.lex_append_newline hlex ys
  cases hys : Lexer.lex ys with
  | error e =>
    rw [hys] at hlexes
    refine .inl ⟨e.diagnostic path ys, by rw [parseText, hys], ?_⟩
    rw [parseText, hlexes]
    exact congrArg Except.error (Diagnostic.atOffset_append_newline _ xs ys e.span.start)
  | ok ls =>
    rw [hys] at hlexes
    have hparses := parse_append hparse (ls.map (Lexeme.shift (bytes xs + 1)))
    rcases parse_alike (throughClosed_shifted _) (alike_map_shift (bytes xs + 1) ls) with
      ⟨fs, fs', hfs, hfs', halike⟩ | ⟨e, e', he, he', halike⟩
    · rw [hfs'] at hparses
      refine .inr ⟨⟨ys, ls, fs⟩, _, fs', ?_, hfs', halike, ?_⟩
      · rw [parseText, hys]
        dsimp only
        rw [hfs]
      · rw [parseText, hlexes]
        dsimp only
        rw [hparses]
    · rw [he'] at hparses
      refine .inl ⟨e.diagnostic path ys, ?_, ?_⟩
      · rw [parseText, hys]
        dsimp only
        rw [he]
      · rw [parseText, hlexes]
        dsimp only
        rw [hparses]
        exact congrArg Except.error (halike.diagnostic_below path ys)

end Grammar

/-! ## Firings -/

open Grammar Assembly

variable {σ : Type} {S : Span → Span → Prop}

theorem fireAll_alike (resolver : Resolver σ) (base : String) {fs fs' : List Firing}
    (h : FiringsAlike S fs fs') (a : Assembly σ) :
    (∃ a', (fireAll resolver base fs).run a = .ok () a' ∧
      (fireAll resolver base fs').run a = .ok () a') ∨
    ∃ m m' a', (fireAll resolver base fs).run a = .error m a' ∧
      (fireAll resolver base fs').run a = .error m' a' ∧ m.fault = m'.fault ∧
      m.firing.Alike S m'.firing := by
  induction h generalizing a with
  | nil => exact .inl ⟨a, rfl, rfl⟩
  | @cons f f' fs fs' hf _ ih =>
    rw [run_fireAll_cons, run_fireAll_cons, hf.1]
    cases (perform resolver base f'.action).run a with
    | ok _ a' => exact ih a'
    | error fault a' => exact .inr ⟨_, _, a', rfl, rfl, rfl, hf⟩

/-- Firings further on in a text assemble the same document, or lead to the same diagnostic further
down. -/
theorem assemble_below (resolver : Resolver σ) (path : String) {xs : List Char} {q : Parsed}
    {fs : List Firing} (h : FiringsAlike (Shifted (bytes xs + 1)) q.firings fs) (ls : List Lexeme)
    (host : σ) :
    assemble resolver path ⟨xs ++ '\n' :: q.text, ls, fs⟩ host =
      match assemble resolver path q host with
      | (.ok doc, last) => (.ok doc, last)
      | (.error e, last) => (.error (e.below (xs.count '\n' + 1)), last) := by
  unfold assemble
  rcases fireAll_alike resolver path h (Assembly.start host) with
    ⟨a, hrun, hrun'⟩ | ⟨m, m', a, hrun, hrun', hfault, hfiring⟩
  · rw [hrun, hrun']
    dsimp only
    cases a.close with
    | ok doc => rfl
    | error fault =>
      dsimp only
      unfold Fault.diagnosticAtEnd
      rw [bytes_append_newline, Diagnostic.atOffset_append_newline]
  · rw [hrun, hrun']
    dsimp only
    have hstart : m'.firing.span.start = m.firing.span.start + (bytes xs + 1) :=
      congrArg Span.start hfiring.2
    unfold Misfire.diagnostic
    rw [hstart, ← hfault, ← hfiring.1, Diagnostic.atOffset_append_newline]

/-! ## Documents -/

def Document.append (d d' : Document) : Document :=
  ⟨appendLayer d.layer d'.layer, d.techniques ++ d'.techniques⟩

theorem Grammar.layerOf_append {M : Type} (nodes nodes' : List (Node M)) :
    layerOf (nodes ++ nodes') = appendLayer (layerOf nodes) (layerOf nodes') := by
  simp [layerOf, appendLayer]

theorem Grammar.nestedOf_append {M : Type} (nodes nodes' : List (Node M)) :
    nestedOf (nodes ++ nodes') = nestedOf nodes ++ nestedOf nodes' := List.filterMap_append

/-- The second of two documents goes on with the resolver that the first one leaves behind. -/
theorem Grammar.DocumentTree.translate_append (resolver : Resolver σ) (base : String)
    (d d' : DocumentTree) {host host' : σ} {first : Document}
    (h : (d.translate resolver base).run host = .ok first host') :
    ((⟨d.items ++ d'.items⟩ : DocumentTree).translate resolver base).run host =
      match (d'.translate resolver base).run host' with
      | .ok second last => .ok (first.append second) last
      | .error denial last => .error denial last := by
  rw [DocumentTree.translate, bind_pure_comp] at h
  obtain ⟨nodes, hnodes, rfl⟩ := run_map_eq_ok h
  rw [DocumentTree.translate, DocumentTree.translate, List.mapM_append, bind_assoc,
    EStateM.run_bind, hnodes]
  dsimp only
  rw [bind_assoc, EStateM.run_bind, EStateM.run_bind]
  cases (d'.items.mapM (Item.translate resolver base (TechniqueTree.translate resolver base))).run
      host' with
  | error denial last => rfl
  | ok nodes' last =>
    show EStateM.Result.ok (Document.mk (layerOf (nodes ++ nodes')) (nestedOf (nodes ++ nodes'))) last =
      _
    rw [layerOf_append, nestedOf_append]
    rfl

/-! ## Sources -/

theorem sourceText_append (settings : Settings) (source source' : String) :
    (sourceText settings (source ++ "\n" ++ source')).1 =
      (sourceText settings source).1 ++ '\n' :: source'.toList := by
  have htoList : (source ++ "\n" ++ source').toList = source.toList ++ '\n' :: source'.toList := by
    simp
  unfold sourceText
  split
  · rw [htoList]
    cases source.toList with
    | nil => rfl
    | cons c cs =>
      unfold Lexer.stripByteOrderMark
      dsimp only [List.cons_append]
      split <;> rfl
  · exact htoList

theorem sourceText_of_no_mark (settings : Settings) {source : String}
    (h : source.toList.head? ≠ some Lexer.byteOrderMark) :
    (sourceText settings source).1 = source.toList := by
  unfold sourceText
  split
  · unfold Lexer.stripByteOrderMark
    cases hsource : source.toList with
    | nil => rfl
    | cons c cs =>
      rw [hsource, List.head?_cons] at h
      dsimp only
      rw [if_neg fun hc => h (congrArg some hc)]
  · rfl

theorem position_of_compile_error (resolver : Resolver σ) {settings : Settings}
    {path source : String} {host last : σ} {e : Diagnostic}
    (h : compile resolver settings path source host = (.error e, last)) :
    ∃ position, e.position = some position := by
  obtain ⟨offset, hreported⟩ := reported_of_compile resolver h
  exact ⟨_, hreported.position⟩

theorem Diagnostic.line_below {d : Diagnostic} {position : Position}
    (h : d.position = some position) (lines : Nat) : (d.below lines).line = d.line + lines := by
  have hbelow : (d.below lines).position = some (position.below lines) := by
    unfold Diagnostic.below
    rw [h]
    rfl
  rw [(line_of_position h).1, (line_of_position hbelow).1]
  show position.line + lines + 1 = position.line + 1 + lines
  omega

theorem Diagnostic.column_below (d : Diagnostic) (lines : Nat) :
    (d.below lines).column = d.column := by
  unfold Diagnostic.column Diagnostic.below
  cases d.position <;> rfl

theorem translate_of_compile_ok (resolver : Resolver σ) {settings : Settings}
    {path source : String} {host last : σ} {document : Document}
    (h : compile resolver settings path source host = (.ok document, last)) :
    ∃ d : DocumentTree,
      parseSource settings path source = .ok ⟨(sourceText settings source).1, d.lexemes, d.firings⟩ ∧
      (d.translate resolver path).run host = .ok document last := by
  cases hparse : parseSource settings path source with
  | error e =>
    rw [compile, hparse] at h
    cases h
  | ok p =>
    obtain ⟨d, rfl⟩ := tree_of_parseText hparse
    refine ⟨d, rfl, ?_⟩
    rw [compile, hparse] at h
    dsimp only at h
    rw [assemble_eq_outcome] at h
    cases hrun : (d.translate resolver path).run host with
    | error denial t =>
      rw [hrun] at h
      cases h
    | ok doc t =>
      rw [hrun] at h
      cases h
      rfl

/-- **A source after one that compiles**: if it is not parsed, no resource is loaded at all, and
otherwise it is compiled after the first one. -/
theorem compile_append (resolver : Resolver σ) (settings : Settings) (path : String)
    {source source' : String} {host host' : σ} {first : Document}
    (hmark : source'.toList.head? ≠ some Lexer.byteOrderMark)
    (h : compile resolver settings path source host = (.ok first, host')) :
    let lines := (sourceText settings source).1.count '\n' + 1
    (∃ e, compile resolver settings path source' host' = (.error e, host') ∧
      compile resolver settings path (source ++ "\n" ++ source') host =
        (.error (e.below lines), host)) ∨
    compile resolver settings path (source ++ "\n" ++ source') host =
      match compile resolver settings path source' host' with
      | (.ok second, last) => (.ok (first.append second), last)
      | (.error e, last) => (.error (e.below lines), last) := by
  intro lines
  obtain ⟨d, hparse, hrun⟩ := translate_of_compile_ok resolver h
  unfold compile parseSource
  rw [sourceText_append, sourceText_of_no_mark settings hmark]
  rcases parseText_append hparse source'.toList with
    ⟨e, he, hboth⟩ | ⟨q, ls, fs, hq, hls, halike, hboth⟩
  · refine .inl ⟨e, ?_, ?_⟩
    · rw [he]
    · rw [hboth]
  · right
    obtain ⟨d', rfl, rfl⟩ := parse_iff_tree.1 hls
    have hfirings : (⟨d.items ++ d'.items⟩ : DocumentTree).firings = d.firings ++ d'.firings :=
      List.flatMap_append
    have hsecond := assemble_below resolver path halike d'.lexemes host'
    rw [assemble_eq_outcome, (parseText_eq_ok hq).1] at hsecond
    rw [hboth, hq]
    dsimp only
    rw [← hfirings, assemble_eq_outcome, DocumentTree.translate_append resolver path d d' hrun]
    rcases hq' : assemble resolver path q host' with ⟨e | second, last⟩
    · rw [hq'] at hsecond
      cases hrun' : (d'.translate resolver path).run host' with
      | ok doc t =>
        rw [hrun'] at hsecond
        cases hsecond
      | error denial t =>
        rw [hrun'] at hsecond
        exact hsecond
    · rw [hq'] at hsecond
      cases hrun' : (d'.translate resolver path).run host' with
      | ok doc t =>
        rw [hrun'] at hsecond
        cases hsecond
        rfl
      | error denial t =>
        rw [hrun'] at hsecond
        cases hsecond

/-- **Sources one after the other.** If a source compiles, and a second one compiles with the resolver
that it leaves behind, then both with the end of a line between them compile to the statements and
techniques of the first one before those of the second one. If the second one fails, both fail with
its diagnostic, further down by the lines of the first one. -/
theorem compile_second_source_below_first (resolver : Resolver σ) (settings : Settings)
    (path source source' : String) (host host' : σ) (first : Document)
    (hmark : source'.toList.head? ≠ some Lexer.byteOrderMark)
    (hfirst : compile resolver settings path source host = (.ok first, host')) :
    (∀ second last, compile resolver settings path source' host' = (.ok second, last) →
      ∃ both, compile resolver settings path (source ++ "\n" ++ source') host = (.ok both, last) ∧
        both.layer.options = first.layer.options ++ second.layer.options ∧
        both.layer.uniforms = first.layer.uniforms ++ second.layer.uniforms ∧
        both.techniques = first.techniques ++ second.techniques) ∧
    ∀ e last, compile resolver settings path source' host' = (.error e, last) →
      ∃ e' last',
        compile resolver settings path (source ++ "\n" ++ source') host = (.error e', last') ∧
        e'.kind = e.kind ∧ e'.file = e.file ∧ e'.message = e.message ∧ e'.column = e.column ∧
        e'.line = e.line + ((sourceText settings source).1.count '\n' + 1) := by
  have hcases := compile_append resolver settings path hmark hfirst
  refine ⟨fun second last hsecond => ?_, fun e last hsecond => ?_⟩
  · rw [hsecond] at hcases
    rcases hcases with ⟨e, he, -⟩ | hboth
    · cases he
    · exact ⟨first.append second, hboth, rfl, rfl, rfl⟩
  · obtain ⟨position, hposition⟩ := position_of_compile_error resolver hsecond
    have hline := Diagnostic.line_below hposition ((sourceText settings source).1.count '\n' + 1)
    rw [hsecond] at hcases
    rcases hcases with ⟨e', he', hboth⟩ | hboth
    · cases he'
      exact ⟨_, host, hboth, rfl, rfl, rfl, e.column_below _, hline⟩
    · exact ⟨_, last, hboth, rfl, rfl, rfl, e.column_below _, hline⟩

/-- A byte order mark, a shader and a comment without the end of its line; then a texture, or a face
that does not exist, in the second line. -/
theorem compile_texture_or_unknown_face_after_shader :
    let counting : Resolver Nat := { load := fun _ _ n => (.ok ⟨n⟩, n + 1) }
    let source := "\uFEFFShader \"a\" // end"
    let first : Document := { layer := { options := [.shader ⟨"a", ⟨0⟩⟩] } }
    let texture := "SetUniform t \"b\""
    let second : Document := { layer := { uniforms := [⟨"t", .texture ⟨"b", ⟨1⟩⟩⟩] } }
    let face := "\nCullFace Side"
    let e : Diagnostic := ⟨.syntaxError, "x.mat", some ⟨1, 9⟩, "unknown cull face `Side`"⟩
    compile counting {} "x.mat" source 0 = (.ok first, 1) ∧
    (texture.toList.head? ≠ some Lexer.byteOrderMark ∧
      compile counting {} "x.mat" texture 1 = (.ok second, 2) ∧
      ∃ both, compile counting {} "x.mat" (source ++ "\n" ++ texture) 0 = (.ok both, 2) ∧
        both.layer.options = first.layer.options ∧ both.layer.uniforms = second.layer.uniforms) ∧
    (face.toList.head? ≠ some Lexer.byteOrderMark ∧
      compile counting {} "x.mat" face 1 = (.error e, 1) ∧
      ∃ e' last, compile counting {} "x.mat" (source ++ "\n" ++ face) 0 = (.error e', last) ∧
        e'.kind = .syntaxError ∧ e'.message = e.message ∧ e'.column = 10 ∧ e'.line = 3) := by
  intro counting source first texture second face e
  have hfirst : compile counting {} "x.mat" source 0 = (.ok first, 1) := by decide +kernel
  have hmark : texture.toList.head? ≠ some Lexer.byteOrderMark := by decide +kernel
  have hmark' : face.toList.head? ≠ some Lexer.byteOrderMark := by decide +kernel
  have hsecond : compile counting {} "x.mat" texture 1 = (.ok second, 2) := by decide +kernel
  have herror : compile counting {} "x.mat" face 1 = (.error e, 1) := by decide +kernel
  have hcount : (sourceText {} source).1.count '\n' = 0 := by decide +kernel
  obtain ⟨both, hboth, hoptions, huniforms, -⟩ :=
    (compile_second_source_below_first counting {} "x.mat" source texture 0 1 first hmark
      hfirst).1 second 2 hsecond
  obtain ⟨e', last, hfails, hkind, -, hmessage, hcolumn, hline⟩ :=
    (compile_second_source_below_first counting {} "x.mat" source face 0 1 first hmark'
      hfirst).2 e 1 herror
  rw [hcount] at hline
  exact ⟨hfirst, ⟨hmark, hsecond, both, hboth, hoptions, huniforms⟩, hmark', herror, e', last,
    hfails, hkind, hmessage, hcolumn, hline⟩

end MaterialScript
