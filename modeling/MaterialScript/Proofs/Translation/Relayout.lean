import MaterialScript.Proofs.Lexing.Arrangement
import MaterialScript.Proofs.Translation.Concatenation

/-!
# Layout does not matter

Layout is dropped when a text is read, and the grammar and the assembly of documents look at tokens
and actions only. So sources with the same tokens are compiled alike: only the positions of their
diagnostics differ.

* `Reads settings source ts` : a source is read to the tokens `ts`;
* `SameOutcome` : one document, or diagnostics that differ in their position only;
* `assemble_same`, `compile_same` : firings, lexemes that are alike;
* `Reads.lexemes` : a source with a byte order mark is read only without it.
-/

namespace MaterialScript

open Grammar Lexer

variable {σ : Type}

/-- A source is read to tokens, as it stands or without its byte order mark. -/
def Reads (settings : Settings) (source : String) (ts : List Token) : Prop :=
  ∃ text ls, (text = source.toList ∨ text = (sourceText settings source).1) ∧
    lex text = .ok ls ∧ ls.map (·.token) = ts

/-- One document and one state of the resolver, or diagnostics that differ in their position
only. -/
inductive SameOutcome : Except Diagnostic Document × σ → Except Diagnostic Document × σ → Prop where
  | ok (document : Document) (last : σ) : SameOutcome (.ok document, last) (.ok document, last)
  | error {e e' : Diagnostic} (last : σ) (hkind : e.kind = e'.kind) (hfile : e.file = e'.file)
      (hmessage : e.message = e'.message) : SameOutcome (.error e, last) (.error e', last)

/-! ## Lexemes and firings -/

/-- Spans that need not have anything in common. -/
def AnySpans (_ _ : Span) : Prop := True

theorem alike_of_map_token {ls ls' : List Lexeme} (h : ls.map (·.token) = ls'.map (·.token)) :
    List.Forall₂ (Lexeme.Alike AnySpans) ls ls' := by
  induction ls generalizing ls' with
  | nil =>
    rw [List.map_nil, eq_comm, List.map_eq_nil_iff] at h
    subst h
    exact .nil
  | cons l ls ih =>
    cases ls' with
    | nil => cases h
    | cons l' ls' =>
      rw [List.map_cons, List.map_cons, List.cons.injEq] at h
      exact .cons ⟨h.1, trivial⟩ (ih h.2)

/-- Firings that are alike assemble the same document, or are stopped by the same fault. -/
theorem assemble_same (resolver : Resolver σ) (path : String) {S : Span → Span → Prop}
    {p p' : Parsed} (h : FiringsAlike S p.firings p'.firings) (host : σ) :
    SameOutcome (assemble resolver path p host) (assemble resolver path p' host) := by
  unfold assemble
  rcases fireAll_alike resolver path h (Assembly.start host) with
    ⟨a, hrun, hrun'⟩ | ⟨m, m', a, hrun, hrun', hfault, hfiring⟩
  · rw [hrun, hrun']
    dsimp only
    cases a.close with
    | ok document => exact .ok document a.host
    | error fault => exact .error a.host rfl rfl rfl
  · rw [hrun, hrun']
    refine .error a.host (congrArg Fault.kind hfault) rfl ?_
    show m.fault.messageIn m.firing.action = m'.fault.messageIn m'.firing.action
    rw [hfault, hfiring.1]

theorem compile_same (resolver : Resolver σ) (settings : Settings) (path : String)
    {source source' : String} {ls ls' : List Lexeme}
    (hls : lex (sourceText settings source).1 = .ok ls)
    (hls' : lex (sourceText settings source').1 = .ok ls')
    (htokens : ls.map (·.token) = ls'.map (·.token)) (host : σ) :
    SameOutcome (compile resolver settings path source host)
      (compile resolver settings path source' host) := by
  have hclosed : ThroughClosed AnySpans := fun _ _ _ _ _ _ => trivial
  unfold compile parseSource parseText
  rw [hls, hls']
  dsimp only
  rcases parse_alike hclosed (alike_of_map_token htokens) with
    ⟨fs, fs', hfs, hfs', halike⟩ | ⟨e, e', he, he', halike⟩
  · rw [hfs, hfs']
    exact assemble_same resolver path halike host
  · rw [he, he']
    exact .error host rfl rfl halike.message_eq.symm

/-! ## Sources -/

/-- The first character of a text that can be read starts a piece of it. -/
theorem Lexer.Segments.lead {offset : Nat} {c : Char} {cs : List Char} {ls : List Lexeme}
    (h : Segments offset (c :: cs) ls) : ∃ p, Pattern.ofLead? c = some p := by
  generalize htext : c :: cs = text at h
  cases h with
  | finish => cases htext
  | layout hp hmatch hrest =>
    rw [← htext] at hmatch
    exact ⟨_, ofLead?_of_front hmatch.mem hmatch.front⟩
  | token hmatch hrange hrest =>
    rw [← htext] at hmatch
    exact ⟨_, ofLead?_of_front hmatch.mem hmatch.front⟩

theorem Reads.lexemes {settings : Settings} {source : String} {ts : List Token}
    (h : Reads settings source ts) :
    ∃ ls, lex (sourceText settings source).1 = .ok ls ∧ ls.map (·.token) = ts := by
  obtain ⟨text, ls, rfl | rfl, hlex, htokens⟩ := h
  · refine ⟨ls, ?_, htokens⟩
    rw [sourceText_of_no_mark settings]
    · exact hlex
    · intro hmark
      obtain ⟨cs, hcs⟩ := List.head?_eq_some_iff.1 hmark
      rw [hcs] at hlex
      obtain ⟨p, hp⟩ := (lexFrom_ok_iff.1 hlex).lead
      rw [show Pattern.ofLead? byteOrderMark = none by decide] at hp
      cases hp
  · exact ⟨ls, hlex, htokens⟩

/-- **Layout does not matter.** Well-formed tokens that are written with any layout between them are
read back as these tokens, at their places; and sources that are read to the same tokens are
compiled to the same document with the same state of the resolver, or fail with diagnostics of the
same kind, file and message. -/
theorem compile_ignores_layout (resolver : Resolver σ) (settings : Settings) (path : String)
    (host : σ) :
    (∀ ps last, Arranged ps last → lex (written ps last) = .ok (placed 0 ps) ∧
      (placed 0 ps).map (·.token) = ps.map (·.token)) ∧
    ∀ source source' ts, Reads settings source ts → Reads settings source' ts →
      SameOutcome (compile resolver settings path source host)
        (compile resolver settings path source' host) := by
  refine ⟨fun ps last h => ⟨h.lexFrom_written 0, map_token_placed 0 ps⟩, ?_⟩
  intro source source' ts h h'
  obtain ⟨ls, hls, htokens⟩ := h.lexemes
  obtain ⟨ls', hls', htokens'⟩ := h'.lexemes
  exact compile_same resolver settings path hls hls' (htokens.trans htokens'.symm) host

/-- A number with a sign, and a literal that looks like a comment and does not belong there: once
with comments that look like tokens, once with a byte order mark. -/
theorem compile_ignores_comments_and_mark :
    let counting : Resolver Nat := { load := fun _ _ n => (.ok ⟨n⟩, n + 1) }
    let ps : List Piece :=
      [⟨[], .ident "SetUniform"⟩, ⟨"//1e\n".toList, .ident "x"⟩, ⟨"\t".toList, .number "-0.5E+3"⟩,
        ⟨" ".toList, .str "//\"\\"⟩]
    let last := "//\x7b".toList
    let source := "SetUniform//1e\nx\t-0.5E+3 \"//\\\"\\\\\"//\x7b"
    let source' := "\uFEFFSetUniform x\r\n-0.5E+3\x0c\"//\\\"\\\\\""
    let ts := ps.map (·.token)
    Arranged ps last ∧ written ps last = source.toList ∧
      lex source.toList = .ok
        [⟨.ident "SetUniform", 0, 10⟩, ⟨.ident "x", 15, 16⟩, ⟨.number "-0.5E+3", 17, 24⟩,
          ⟨.str "//\"\\", 25, 33⟩] ∧
      Reads {} source ts ∧ Reads {} source' ts ∧
      SameOutcome (compile counting {} "x.mat" source 0)
        (compile counting {} "x.mat" source' 0) := by
  intro counting ps last source source' ts
  obtain ⟨hwrites, hsame⟩ := compile_ignores_layout counting {} "x.mat" 0
  have hcomment : ∀ v, (∀ c ∈ v, c ≠ '\n') → '/' :: '/' :: v ∈ Pattern.comment.language :=
    fun v hv => mem_comment.2 ⟨v, rfl, hv⟩
  have hwellFormed : ∀ p ∈ ps, p.token.WellFormed := by
    have hset : "SetUniform".toList ∈ Pattern.identifier.language :=
      mem_identifier.2 ⟨'S', "etUniform".toList, rfl, rfl, List.all_eq_true.1 rfl⟩
    have hx : "x".toList ∈ Pattern.identifier.language :=
      mem_identifier.2 ⟨'x', [], rfl, rfl, by simp⟩
    have hnumber : takeNumber? "-0.5E+3".toList = some ("-0.5E+3".toList, []) := by decide +kernel
    simp only [ps, List.forall_mem_cons]
    exact ⟨hset, hx, ⟨takeNumber?_mem hnumber, by decide +kernel⟩, by simp [Token.WellFormed],
      by simp⟩
  have hgaps : ∀ p ∈ ps, p.gap ∈ layout := by
    have hline : "//1e\n".toList ++ [] ∈ layout :=
      append_mem_kstar (Or.inr ⟨_, hcomment ['1', 'e'] (by simp), ['\n'], rfl, rfl⟩)
        (Language.nil_mem_kstar _)
    simp only [ps, List.forall_mem_cons]
    exact ⟨Language.nil_mem_kstar _, hline, blanks_mem_layout (by simp [isBlank]),
      blanks_mem_layout (by simp [isBlank]), by simp⟩
  have harranged : Arranged ps last :=
    ⟨hwellFormed, hgaps, by decide,
      Or.inr ⟨[], Language.nil_mem_kstar _, _, hcomment ['{'] (by simp), rfl⟩⟩
  have hwritten : written ps last = source.toList := by decide +kernel
  obtain ⟨hlex, htokens⟩ := hwrites ps last harranged
  rw [hwritten] at hlex
  have hreads : Reads {} source ts := ⟨source.toList, _, .inl rfl, hlex, htokens⟩
  have hreads' : Reads {} source' ts := by
    refine ⟨_, [⟨.ident "SetUniform", 0, 10⟩, ⟨.ident "x", 11, 12⟩, ⟨.number "-0.5E+3", 14, 21⟩,
      ⟨.str "//\"\\", 22, 30⟩], .inr rfl, lex_eq_ok (by decide +kernel), rfl⟩
  exact ⟨harranged, hwritten, hlex, hreads, hreads', hsame source source' ts hreads hreads'⟩

end MaterialScript
