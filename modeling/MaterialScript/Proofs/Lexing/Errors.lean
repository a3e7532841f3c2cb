import MaterialScript.Proofs.Lexing.Stop
import MaterialScript.Proofs.Number.Literal

/-!
# The errors of a text

An error is told by the text where reading stops: it names the number, the escape or the character there,
and its span is a part of the text. Telling it from offsets alone comes to the same error, and never cuts
a character in two.

* `ErrorAt p rest e` : the error `e` describes the text `rest` at offset `p`; `errorAt_of_head`;
* `ErrorAt.spanned` : its span is a part of the text;
* `classify?` : the error of an attempt, told by cutting the text at its offsets; `classify?_attempt` : it
  is the error that is met;
* `unclosed` : the error of a literal that is not closed on its line; `stringError_cut` : the errors of
  literals, by what their strokes end with.
-/

namespace MaterialScript.Text

/-! ## Cutting a text at offsets -/

/-- A text from byte `n` on, or nothing when that is past its end or inside a character. -/
def dropBytes? (n : Nat) (cs : List Char) : Option (List Char) :=
  (takeBytes? n cs).map fun front => cs.drop front.length

/-- The bytes from `start` to `stop` of a text, or nothing when one of them is past its end or inside a
character, or when they are in the wrong order. -/
def slice? (start stop : Nat) (cs : List Char) : Option (List Char) :=
  if start ≤ stop then (dropBytes? start cs).bind (takeBytes? (stop - start)) else none

theorem dropBytes?_append (xs ys : List Char) : dropBytes? (bytes xs) (xs ++ ys) = some ys := by
  rw [dropBytes?, takeBytes?_append, Option.map_some, List.drop_left]

theorem slice?_append (xs ys zs : List Char) :
    slice? (bytes xs) (bytes xs + bytes ys) (xs ++ (ys ++ zs)) = some ys := by
  rw [slice?, if_pos (Nat.le_add_right ..), dropBytes?_append, Option.bind_some,
    Nat.add_sub_cancel_left, takeBytes?_append]

end MaterialScript.Text

namespace MaterialScript.Lexer

open Number Text

/-! ## Literals -/

/-- The error of a literal that is opened at `p` in front of `cs` and not closed: its span ends where the
line does. -/
def unclosed (p : Nat) (cs : List Char) : LexError :=
  ⟨.unterminatedString, p, p + bytes ('"' :: cs.takeWhile fun c => !isLineEnd c)⟩

theorem isLineEnd_iff {c : Char} : isLineEnd c = true ↔ c = '\r' ∨ c = '\n' := by
  rw [isLineEnd, Bool.or_eq_true, beq_iff_eq, beq_iff_eq]

theorem unclosed_spelled (p : Nat) {us : List Stroke} (hus : ∀ u ∈ us, u.Inside) (rest : List Char) :
    unclosed p (spelled us ++ rest) = ⟨.unterminatedString, p, p + 1 + bytes (spelled us) +
      bytes (rest.takeWhile fun c => !isLineEnd c)⟩ := by
  have htake : (spelled us ++ rest).takeWhile (fun c => !isLineEnd c) =
      spelled us ++ rest.takeWhile fun c => !isLineEnd c :=
    List.takeWhile_append_of_pos fun c hc => by simp [isLineEnd_of_mem_spelled hus c hc]
  have hquote : ('"' : Char).utf8Size = 1 := rfl
  rw [unclosed, htake, bytes_cons, hquote, bytes_append]
  simp only [Nat.add_assoc]

/-- A literal that is closed, or whose text ends behind a whole stroke, has the error of its escapes. -/
theorem stringError_closed (start pos : Nat) (bad : Option (Char × Nat)) {rest : List Char}
    (h : rest.head? = some '"' ∨ rest = []) :
    stringError start pos bad rest = closeError start pos bad := by
  rcases h with h | rfl
  · obtain ⟨after, rfl⟩ := List.head?_eq_some_iff.1 h
    rw [stringError.eq_def]
    exact if_pos rfl
  · rfl

/-- Behind any other cut the literal is not closed, whatever its escapes are. -/
theorem stringError_open (start pos : Nat) (bad : Option (Char × Nat)) {rest : List Char}
    (hcut : Cut rest) (h : ¬ (rest.head? = some '"' ∨ rest = [])) :
    stringError start pos bad rest =
      ⟨.unterminatedString, start, pos + bytes (rest.takeWhile fun c => !isLineEnd c)⟩ := by
  have hbackslash : ('\\' : Char).utf8Size = 1 := rfl
  have hline : isLineEnd '\\' = false := rfl
  cases hcut with
  | closed after => exact absurd (.inl rfl) h
  | finished => exact absurd (.inr rfl) h
  | dangling => simp [stringError, hline, hbackslash]
  | lineEnd hc more =>
    rcases isLineEnd_iff.1 hc with rfl | rfl <;> simp [stringError.eq_def, hc]
  | danglingLineEnd hc more =>
    rcases isLineEnd_iff.1 hc with rfl | rfl <;> simp [stringError, hc, hline, hbackslash]

/-- **The error of a literal**: its first bad escape if it is closed, or if the text ends before the line
does, and else that it is not closed. -/
theorem stringError_cut (p : Nat) {us : List Stroke} {rest : List Char} (hus : ∀ u ∈ us, u.Inside)
    (hcut : Cut rest) (hnone : takeString? (spelled us ++ rest) = none) :
    stringError p (p + 1) none (spelled us ++ rest) =
      match firstBad? (p + 1) us with
      | none => unclosed p (spelled us ++ rest)
      | some (c, q) =>
        if rest.head? = some '"' ∨ rest = [] then ⟨.invalidEscape c, q, q + 1 + c.utf8Size⟩
        else unclosed p (spelled us ++ rest) := by
  rw [stringError_spelled p hus, unclosed_spelled p hus, Option.none_or]
  by_cases hclosed : rest.head? = some '"' ∨ rest = []
  · rw [stringError_closed _ _ _ hclosed]
    cases hbad : firstBad? (p + 1) us with
    | some b => simp [closeError, hclosed]
    | none =>
      rcases hclosed with hquote | rfl
      · obtain ⟨after, rfl⟩ := List.head?_eq_some_iff.1 hquote
        have hsome := takeString?_spelled hus hbad after
        rw [hnone] at hsome
        cases hsome
      · rfl
  · rw [stringError_open _ _ _ hcut hclosed]
    cases firstBad? (p + 1) us with
    | some b => simp [hclosed]
    | none => rfl

/-! ## What an error says -/

/-- An error describes the text `rest` at offset `p`. If a number is at the front, it names the longest
one, and that is out of range. If a literal is opened there, it is not closed, or it has an escape without
a meaning. Else it names the first character. -/
structure ErrorAt (p : Nat) (rest : List Char) (e : LexError) : Prop where
  number : ∀ v ∈ Pattern.number.language, v <+: rest →
    ∃ w, LongestMatch rest .number w ∧ Binary32.decode? (String.ofList w) = none ∧
      e = ⟨.numberOutOfRange (String.ofList w), p, p + bytes w⟩
  literal : ∀ cs, rest = '"' :: cs →
    (∃ w more, cs = w ++ more ∧ e = ⟨.unterminatedString, p, p + bytes ('"' :: w)⟩) ∨
    ∃ us c more, (∀ u ∈ us, u.Inside) ∧ c ≠ '"' ∧ c ≠ '\\' ∧ isLineEnd c = false ∧
      cs = spelled us ++ '\\' :: c :: more ∧
      e = ⟨.invalidEscape c, p + bytes ('"' :: spelled us),
        p + bytes ('"' :: spelled us) + bytes ['\\', c]⟩
  character : ∀ c cs, rest = c :: cs → c ≠ '"' → (∀ v ∈ Pattern.number.language, ¬ v <+: rest) →
    e = ⟨.unexpectedCharacter c, p, p + c.utf8Size⟩

theorem not_number_of_quote {v cs : List Char} (hv : v ∈ Pattern.number.language) :
    ¬ v <+: '"' :: cs := by
  intro hfront
  have hlead := ofLead?_of_front hv hfront
  exact absurd hlead (by decide)

theorem errorAt_of_takeString? {p : Nat} {cs : List Char} (hnone : takeString? cs = none) :
    ErrorAt p ('"' :: cs) (stringError p (p + 1) none cs) := by
  refine ⟨fun v hv hfront => absurd hfront (not_number_of_quote hv), fun cs' hcs' => ?_, ?_⟩
  · obtain rfl : cs = cs' := by simpa using hcs'
    obtain ⟨us, rest, hus, rfl, hcut⟩ := splits cs
    have hunclosed : ∃ w more, spelled us ++ rest = w ++ more ∧ unclosed p (spelled us ++ rest) =
        ⟨.unterminatedString, p, p + bytes ('"' :: w)⟩ :=
      ⟨_, _, List.takeWhile_append_dropWhile.symm, rfl⟩
    rw [stringError_cut p hus hcut hnone]
    cases hbad : firstBad? (p + 1) us with
    | none => exact .inl hunclosed
    | some b =>
      obtain ⟨c, q⟩ := b
      dsimp only
      split
      · obtain ⟨vs, ws, rfl, rfl, hquote, hslash, -⟩ := exists_of_firstBad? hbad
        have hone : ('"' : Char).utf8Size = 1 := rfl
        have hbackslash : ('\\' : Char).utf8Size = 1 := rfl
        have hline : (Stroke.pair c).Inside := hus _ (by simp)
        refine .inr ⟨vs, c, spelled ws ++ rest, fun u hu => hus u ?_, hquote, hslash, hline, ?_, ?_⟩
        · exact List.mem_append_left _ hu
        · simp [spelled, Stroke.text]
        · simp [hone, hbackslash, Nat.add_assoc]
      · exact .inl hunclosed
  · rintro c cs' hcs' hc
    cases hcs'
    exact absurd rfl hc

/-- **The error that is met describes the text where it is met.** -/
theorem errorAt_of_head {p : Nat} {rest : List Char} {e : LexError} (h : head p rest = .error e) :
    ErrorAt p rest e := by
  rcases head_eq_error h with ⟨cs, rfl, hnone, rfl⟩ | ⟨w, more, htake, hdecode, rfl⟩ |
    ⟨c, cs, rfl, hc, hnone, rfl⟩
  · exact errorAt_of_takeString? hnone
  · have hmatch := longestMatch_number htake
    refine ⟨fun _ _ _ => ⟨w, hmatch, hdecode, rfl⟩, ?_, ?_⟩
    · rintro cs rfl
      exact absurd hmatch.front (not_number_of_quote hmatch.mem)
    · intro c cs _ _ hnumber
      exact absurd hmatch.front (hnumber w hmatch.mem)
  · refine ⟨fun v hv hfront => ?_, ?_, ?_⟩
    · obtain ⟨taken, rest, htake, -⟩ := takeNumber?_complete hv hfront
      rw [hnone] at htake
      cases htake
    · rintro cs' hcs'
      cases hcs'
      exact absurd rfl hc
    · rintro c' cs' hcs' - -
      cases hcs'
      rfl

/-- **The span of an error is a part of the text that is not empty.** -/
theorem ErrorAt.spanned {front rest : List Char} {e : LexError} (h : ErrorAt (bytes front) rest e)
    (hne : rest ≠ []) : ∃ w, w ≠ [] ∧ Slice (front ++ rest) e.span.start e.span.stop w := by
  by_cases hnumber : ∃ v ∈ Pattern.number.language, v <+: rest
  · obtain ⟨v, hv, hfront⟩ := hnumber
    obtain ⟨w, hmatch, -, rfl⟩ := h.number v hv hfront
    obtain ⟨c, v, hw, -⟩ := ofLead?_of_mem hmatch.mem
    obtain ⟨more, rfl⟩ := hmatch.front
    exact ⟨w, by simp [hw], front, more, rfl, rfl, rfl⟩
  · obtain ⟨c, cs, rfl⟩ := List.exists_cons_of_ne_nil hne
    by_cases hc : c = '"'
    · subst hc
      rcases h.literal cs rfl with ⟨w, more, rfl, rfl⟩ | ⟨us, c, more, -, -, -, -, rfl, rfl⟩
      · exact ⟨'"' :: w, by simp, front, more, rfl, rfl, rfl⟩
      · refine ⟨['\\', c], by simp, front ++ '"' :: spelled us, more, by simp, ?_, rfl⟩
        rw [bytes_append]
    · obtain rfl := h.character c cs rfl hc fun v hv hfront => hnumber ⟨v, hv, hfront⟩
      exact ⟨[c], by simp, front, cs, rfl, rfl, by simp⟩

/-! ## Telling an error from offsets -/

/-- Whether a text can be read as a float of any magnitude. -/
def readsAsFloat (w : List Char) : Bool :=
  (Decimal.read? w).isSome || [['i', 'n', 'f'], ['i', 'n', 'f', 'i', 'n', 'i', 't', 'y'],
    ['n', 'a', 'n']].contains ((readSign w).2.map Char.toLower)

/-- What is tried as a token where nothing can be taken: the longest number, or the first character. -/
def attempt (p : Nat) (rest : List Char) : Span :=
  match takeNumber? rest with
  | some (w, _) => ⟨p, p + bytes w⟩
  | none => ⟨p, p + bytes (rest.take 1)⟩

/-- The error of an attempt, told by cutting the text at its offsets. Nothing when a cut is not between two
characters. -/
def classify? (text : List Char) (span : Span) : Option LexError := do
  let rest ← dropBytes? span.start text
  if rest.head? = some '"' then
    let body ← dropBytes? (span.start + 1) text
    some (stringError span.start (span.start + 1) none body)
  else
    let taken ← slice? span.start span.stop text
    if readsAsFloat taken then some ⟨.numberOutOfRange (String.ofList taken), span⟩
    else
      let found := rest.head?.getD '\x00'
      some ⟨.unexpectedCharacter found, span.start, span.start + found.utf8Size⟩

theorem readsAsFloat_of_mem {w : List Char} (h : w ∈ Pattern.number.language) :
    readsAsFloat w = true := by
  obtain ⟨n, rfl⟩ := NumberLiteral.mem_number_iff.1 h
  rw [readsAsFloat, n.read?_text]
  rfl

theorem readsAsFloat_singleton {c : Char} (h : c.isDigit = false) : readsAsFloat [c] = false := by
  by_cases hminus : c = '-'
  · subst hminus; decide
  by_cases hplus : c = '+'
  · subst hplus; decide
  by_cases hpoint : c = '.'
  · subst hpoint; decide
  have hsign : readSign [c] = (false, [c]) := by
    unfold readSign
    split <;> simp_all
  have hfraction : splitFraction [c] = ([], [c]) := by
    unfold splitFraction
    split <;> simp_all
  simp [readsAsFloat, Decimal.read?, hsign, h, hfraction]

/-- **The error told from offsets is the one that is met**, so that every cut is between two characters. -/
theorem classify?_attempt {front rest : List Char} {e : LexError}
    (h : head (bytes front) rest = .error e) :
    classify? (front ++ rest) (attempt (bytes front) rest) = some e := by
  have hstart : (attempt (bytes front) rest).start = bytes front := by
    unfold attempt
    split <;> rfl
  unfold classify?
  rw [hstart, dropBytes?_append, Option.bind_eq_bind, Option.bind_some]
  rcases head_eq_error h with ⟨cs, rfl, -, rfl⟩ | ⟨w, more, htake, hdecode, rfl⟩ |
    ⟨c, cs, rfl, hc, hnone, rfl⟩
  · have hbody : dropBytes? (bytes front + 1) (front ++ '"' :: cs) = some cs := by
      have := dropBytes?_append (front ++ ['"']) cs
      rwa [bytes_append, List.append_assoc] at this
    simp [hbody]
  · have hmatch := longestMatch_number htake
    obtain rfl : w ++ more = rest := (takeNumber?_append htake).2
    have hquote : (w ++ more).head? ≠ some '"' := by
      intro hquote
      obtain ⟨cs, hcs⟩ := List.head?_eq_some_iff.1 hquote
      rw [hcs] at hmatch
      exact not_number_of_quote hmatch.mem hmatch.front
    have hattempt : attempt (bytes front) (w ++ more) = ⟨bytes front, bytes front + bytes w⟩ := by
      rw [attempt, htake]
    rw [if_neg hquote, hattempt, slice?_append]
    simp [readsAsFloat_of_mem hmatch.mem]
  · have hattempt : attempt (bytes front) (c :: cs) = ⟨bytes front, bytes front + bytes [c]⟩ := by
      rw [attempt, hnone]
      rfl
    have hdigit : c.isDigit = false := by
      by_contra hdigit
      have hnumber : [c] ∈ Pattern.number.language :=
        mem_number.2 ⟨[], .inl rfl, [c], mem_digits.2 (by simpa using hdigit), [],
          mem_optional.2 (.inl rfl), [], mem_optional.2 (.inl rfl), rfl⟩
      obtain ⟨taken, rest, htake, -⟩ := takeNumber?_complete hnumber (List.prefix_append [c] cs)
      rw [List.singleton_append, hnone] at htake
      cases htake
    have hslice := slice?_append front [c] cs
    rw [List.singleton_append] at hslice
    rw [if_neg (by simpa using hc), hattempt, hslice]
    simp [readsAsFloat_singleton hdigit]

/-! ## Whole texts -/

/-- **A text that cannot be read is read up to some place where nothing can be taken, and the error
describes that place.** Its span is a part of the text, and it is told from offsets without cutting a
character. -/
theorem lex_error_describes_stop {text : List Char} {e : LexError} (h : lex text = .error e) :
    ∃ front rest, text = front ++ rest ∧ Passes front rest ∧ (∃ ls, lex front = .ok ls) ∧
      Blocked rest ∧ ErrorAt (bytes front) rest e ∧
      (∃ w, w ≠ [] ∧ Slice text e.span.start e.span.stop w) ∧
      classify? text (attempt (bytes front) rest) = some e := by
  obtain ⟨front, rest, rfl, hpass, hhead⟩ := exists_stop h
  rw [Nat.zero_add] at hhead
  have hblocked := blocked_of_head hhead
  have herror := errorAt_of_head hhead
  obtain ⟨ls, hfront, -⟩ := hpass.lexFrom 0
  exact ⟨front, rest, rfl, hpass, ⟨ls, hfront⟩, hblocked, herror, herror.spanned hblocked.nonempty,
    classify?_attempt hhead⟩

/-- A number behind a comment with two-byte characters, and another one behind it: the longest number is
named, at its offset in bytes. -/
theorem lex_error_behind_comment :
    let text := "// é\n-1e50.x".toList
    let e : LexError := ⟨.numberOutOfRange "-1e50", 6, 11⟩
    lex text = .error e ∧ ∃ front rest, text = front ++ rest ∧ Passes front rest ∧
      (∃ ls, lex front = .ok ls) ∧ Blocked rest ∧ ErrorAt (bytes front) rest e ∧
      (∃ w, w ≠ [] ∧ Slice text e.span.start e.span.stop w) ∧
      classify? text (attempt (bytes front) rest) = some e := by
  intro text e
  have hlex : lex text = .error e := by decide +kernel
  exact ⟨hlex, lex_error_describes_stop hlex⟩

theorem Blocked.takeString?_eq_none {cs : List Char} (h : Blocked ('"' :: cs)) :
    takeString? cs = none := by
  cases htake : takeString? cs with
  | none => rfl
  | some r =>
    have hmatch := longestMatch_literal htake
    refine absurd ?_ (h.no_token (.str (String.ofList r.1)) trivial)
    simpa [Token.pattern, Token.spelling] using hmatch

theorem head_of_takeString? (p : Nat) {cs : List Char} (h : takeString? cs = none) :
    head p ('"' :: cs) = .error (stringError p (p + 1) none cs) := by
  rw [head, if_neg (by decide), if_neg (by simp), if_neg (by decide), if_pos rfl, h]

/-- **Where reading stops at a literal, its strokes and their cut tell the error.** It is the first bad
escape if the literal is closed, and also if the text ends behind a whole stroke and there is a bad
escape. Else the literal is not closed, and the error lasts to the end of its line. -/
theorem lex_literal_error {front cs : List Char} (hfront : Passes front ('"' :: cs))
    (hblocked : Blocked ('"' :: cs)) :
    Splits cs ∧ ∀ us rest, (∀ u ∈ us, u.Inside) → cs = spelled us ++ rest → Cut rest →
      ∃ e, lex (front ++ '"' :: cs) = .error e ∧
        ((∃ c q, (rest.head? = some '"' ∨ rest = []) ∧
            firstBad? (bytes front + 1) us = some (c, q) ∧
            e = ⟨.invalidEscape c, q, q + 1 + c.utf8Size⟩) ∨
          rest.head? ≠ some '"' ∧ (rest = [] → firstBad? (bytes front + 1) us = none) ∧
            e = unclosed (bytes front) cs) := by
  refine ⟨splits cs, ?_⟩
  rintro us rest hus rfl hcut
  have hnone := hblocked.takeString?_eq_none
  obtain ⟨ls, -, hlex⟩ := hfront.lexFrom 0
  rw [Nat.zero_add, lexFrom_error (head_of_takeString? _ hnone), stringError_cut _ hus hcut hnone]
    at hlex
  refine ⟨_, hlex, ?_⟩
  cases hbad : firstBad? (bytes front + 1) us with
  | none =>
    refine .inr ⟨fun hquote => ?_, fun _ => rfl, rfl⟩
    obtain ⟨after, rfl⟩ := List.head?_eq_some_iff.1 hquote
    have hsome := takeString?_spelled hus hbad after
    rw [hnone] at hsome
    cases hsome
  | some b =>
    obtain ⟨c, q⟩ := b
    by_cases hclosed : rest.head? = some '"' ∨ rest = []
    · exact .inl ⟨c, q, hclosed, rfl, if_pos hclosed⟩
    · refine .inr ⟨fun hquote => hclosed (.inl hquote), fun hnil => ?_, if_neg hclosed⟩
      exact absurd (.inr hnil) hclosed

/-- A literal that is not closed on its line, with a bad escape in it, behind an identifier: the error
lasts to the end of the line. -/
theorem lex_literal_error_open :
    let front := "Shader".toList ++ [' ']
    let cs := "a\\qb\nOn".toList
    (Passes front ('"' :: cs) ∧ Blocked ('"' :: cs)) ∧ Splits cs ∧
      ∀ us rest, (∀ u ∈ us, u.Inside) → cs = spelled us ++ rest → Cut rest →
        ∃ e, lex (front ++ '"' :: cs) = .error e ∧
          ((∃ c q, (rest.head? = some '"' ∨ rest = []) ∧
              firstBad? (bytes front + 1) us = some (c, q) ∧
              e = ⟨.invalidEscape c, q, q + 1 + c.utf8Size⟩) ∨
            rest.head? ≠ some '"' ∧ (rest = [] → firstBad? (bytes front + 1) us = none) ∧
              e = unclosed (bytes front) cs) := by
  intro front cs
  have hblocked : Blocked ('"' :: cs) := blocked_of_head (head_of_takeString? 0 (by decide +kernel))
  have hblank : LongestMatch (' ' :: '"' :: cs) .blanks [' '] :=
    longestMatch_blanks ('"' :: cs) (by decide)
  have hword : LongestMatch ("Shader".toList ++ ' ' :: '"' :: cs) .identifier "Shader".toList :=
    longestMatch_identifier (c := 'S') _ (by decide)
  have hgap : Passes ([' '] ++ []) ('"' :: cs) := Passes.layout (.inl rfl) hblank (.start _)
  have hpass : Passes front ('"' :: cs) := Passes.token (t := .ident "Shader") hword trivial hgap
  exact ⟨⟨hpass, hblocked⟩, lex_literal_error hpass hblocked⟩

/-- A bad escape is reported though no quote closes the literal, when the text ends before the line
does. -/
theorem invalidEscape_without_quote :
    ¬ ∀ (front cs : List Char) (e : LexError), Passes front ('"' :: cs) → Blocked ('"' :: cs) →
      lex (front ++ '"' :: cs) = .error e → (∃ c, e.cause = .invalidEscape c) →
      ∃ us after, (∀ u ∈ us, u.Inside) ∧ cs = spelled us ++ '"' :: after := by
  intro h
  have hnone : takeString? "a\\q".toList = none := by decide +kernel
  have hhead := head_of_takeString? 0 hnone
  obtain ⟨us, after, -, hcs⟩ := h [] "a\\q".toList _ (.start _) (blocked_of_head hhead)
    (lexFrom_error hhead) ⟨'q', by decide +kernel⟩
  have hquote : '"' ∈ "a\\q".toList := by
    rw [hcs]
    simp
  exact absurd hquote (by decide)

end MaterialScript.Lexer
