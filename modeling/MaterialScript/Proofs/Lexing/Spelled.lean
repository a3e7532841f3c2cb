import MaterialScript.Proofs.Lexing.Arrangement

/-!
# Texts that spell tokens

Identifiers and numbers end at blanks and at punctuation, and punctuation ends anywhere. So a text that
is put together from words, blanks between words, commas, parentheses and lines is read to the tokens
of its parts.

* `ReadsAs cs ts` : the text is read to the tokens, wherever it starts;
* `Parts rest` : the text may stand right behind a word;
* `Spells w ts` : the text `w` is read to the tokens in front of any text that may stand behind it;
* `spells_ident`, `spells_number`, `Spells.append_blank`, `Spells.append_comma`, `Spells.parens` : the
  parts of a text; `spells_row` : a row with commas; `readsAs_lines` : lines.
-/

namespace MaterialScript.Lexer

open Text

/-! ## Reading -/

/-- A text is read to tokens, at whatever offset it starts. -/
def ReadsAs (cs : List Char) (ts : List Token) : Prop :=
  ∀ offset, ∃ ls, lexFrom offset cs = .ok ls ∧ ls.map (·.token) = ts

/-- A text that may stand right behind a word: it is empty, or starts with a blank or punctuation. -/
def Parts (rest : List Char) : Prop :=
  ∀ c cs, rest = c :: cs → isBlank c = true ∨ (punctuation? c).isSome

variable {w v rest : List Char} {ts us : List Token}

theorem readsAs_nil : ReadsAs [] [] := fun offset => ⟨[], lexFrom_nil offset, rfl⟩

theorem parts_nil : Parts [] := by
  intro c cs h
  cases h

theorem parts_blank {c : Char} (hc : isBlank c = true) (cs : List Char) : Parts (c :: cs) := by
  rintro _ _ ⟨⟩
  exact .inl hc

theorem parts_punctuation {c : Char} {t : Token} (hc : punctuation? c = some t) (cs : List Char) :
    Parts (c :: cs) := by
  rintro _ _ ⟨⟩
  exact .inr (by rw [hc]; rfl)

theorem ReadsAs.blank (h : ReadsAs rest us) {c : Char} (hc : isBlank c = true) :
    ReadsAs (c :: rest) us := by
  intro offset
  obtain ⟨ls, hlex, htokens⟩ := h (offset + bytes [c])
  refine ⟨ls, ?_, htokens⟩
  rw [← hlex]
  exact lexFrom_blanks offset (w := [c]) rest (by simpa using hc)

theorem ReadsAs.token (h : ReadsAs rest us) {t : Token} (ht : t.InRange)
    (hmatch : LongestMatch (t.spelling ++ rest) t.pattern t.spelling) :
    ReadsAs (t.spelling ++ rest) (t :: us) := by
  intro offset
  obtain ⟨ls, hlex, htokens⟩ := h (offset + bytes t.spelling)
  refine ⟨Lexeme.spelled offset t :: ls, ?_, congrArg (t :: ·) htokens⟩
  rw [lexFrom_token (head_of_match offset hmatch ht), hlex]
  rfl

theorem ReadsAs.punctuation (h : ReadsAs rest us) {c : Char} {t : Token}
    (hc : punctuation? c = some t) : ReadsAs (c :: rest) (t :: us) := by
  obtain ⟨hpattern, hrange⟩ := pattern_of_punctuation? hc
  have hspelling := spelling_of_punctuation? hc
  have hmatch : LongestMatch (t.spelling ++ rest) t.pattern t.spelling := by
    rw [hpattern, hspelling]
    exact longestMatch_punctuation rest hc
  have := h.token hrange hmatch
  rwa [hspelling] at this

/-- What may stand behind a word starts with no character of a word. -/
theorem Parts.not_mem {p : Pattern} (h : Parts rest) (hp : p = .identifier ∨ p = .number) (c : Char)
    (cs : List Char) (hrest : rest = c :: cs) : ∀ v ∈ p.language, c ∉ v := by
  intro v hv
  refine not_mem_word hp hv ?_
  exact (h c cs hrest).imp_right .inr

/-! ## Spelling -/

/-- A text is read to tokens in front of anything that may stand right behind a word. -/
def Spells (w : List Char) (ts : List Token) : Prop :=
  ∀ rest us, Parts rest → ReadsAs rest us → ReadsAs (w ++ rest) (ts ++ us)

theorem spells_ident {text : String} (h : text.toList ∈ Pattern.identifier.language) :
    Spells text.toList [.ident text] := by
  intro rest us hparts hrest
  exact hrest.token (t := .ident text) trivial
    (longestMatch_of_breaks h fun c cs hcs => hparts.not_mem (.inl rfl) c cs hcs)

theorem spells_number {text : String} (h : text.toList ∈ Pattern.number.language)
    (hrange : (Binary32.decode? text).isSome) : Spells text.toList [.number text] := by
  intro rest us hparts hrest
  exact hrest.token (t := .number text) hrange
    (longestMatch_of_breaks h fun c cs hcs => hparts.not_mem (.inr rfl) c cs hcs)

theorem Spells.append_blank (hw : Spells w ts) {c : Char} (hc : isBlank c = true)
    (hv : Spells v us) : Spells (w ++ c :: v) (ts ++ us) := by
  intro rest more hparts hrest
  have hread := hw (c :: (v ++ rest)) (us ++ more) (parts_blank hc _)
    ((hv rest more hparts hrest).blank hc)
  simpa using hread

theorem Spells.append_comma (hw : Spells w ts) (hv : Spells v us) :
    Spells (w ++ ',' :: ' ' :: v) (ts ++ .comma :: us) := by
  intro rest more hparts hrest
  have hcomma : punctuation? ',' = some .comma := rfl
  have hread := hw (',' :: ' ' :: (v ++ rest)) (.comma :: (us ++ more)) (parts_punctuation hcomma _)
    (((hv rest more hparts hrest).blank rfl).punctuation hcomma)
  simpa using hread

theorem Spells.parens (hw : Spells w ts) :
    Spells ('(' :: w ++ [')']) (.leftParen :: ts ++ [.rightParen]) := by
  intro rest more hparts hrest
  have hleft : punctuation? '(' = some .leftParen := rfl
  have hright : punctuation? ')' = some .rightParen := rfl
  have hread := (hw (')' :: rest) (.rightParen :: more) (parts_punctuation hright _)
    (hrest.punctuation hright)).punctuation hleft
  simpa using hread

theorem spells_row {α : Type} (text : α → List Char) (token : α → Token) {xs : List α}
    (hne : xs ≠ []) (h : ∀ x ∈ xs, Spells (text x) [token x]) :
    Spells ([',', ' '].intercalate (xs.map text)) ((xs.map token).intersperse .comma) := by
  induction xs with
  | nil => exact absurd rfl hne
  | cons x xs ih =>
    have hx := h x List.mem_cons_self
    cases xs with
    | nil => simpa using hx
    | cons y ys =>
      have hrow := ih (by simp) fun z hz => h z (List.mem_cons_of_mem x hz)
      have hboth := hx.append_comma hrow
      simpa [List.intercalate_cons_cons, List.intersperse_cons_cons] using hboth

/-- Lines, the last one with or without its end. -/
theorem readsAs_lines {α : Type} (text : α → List Char) (tokens : α → List Token) (xs : List α)
    (h : ∀ x ∈ xs, Spells (text x) (tokens x)) {ending : List Char}
    (hending : ending = [] ∨ ending = ['\n']) :
    ReadsAs (['\n'].intercalate (xs.map text) ++ ending) (xs.flatMap tokens) := by
  have hend : Parts ending ∧ ReadsAs ending [] := by
    rcases hending with rfl | rfl
    · exact ⟨parts_nil, readsAs_nil⟩
    · exact ⟨parts_blank rfl _, readsAs_nil.blank rfl⟩
  suffices hlines : ∀ ys : List α, (∀ x ∈ ys, Spells (text x) (tokens x)) → ys ≠ [] →
      Spells (['\n'].intercalate (ys.map text)) (ys.flatMap tokens) by
    cases xs with
    | nil => simpa using hend.2
    | cons x xs =>
      have hread := hlines (x :: xs) h (by simp) ending [] hend.1 hend.2
      rwa [List.append_nil] at hread
  intro ys hys hne
  induction ys with
  | nil => exact absurd rfl hne
  | cons y ys ih =>
    have hy := hys y List.mem_cons_self
    cases ys with
    | nil => simpa using hy
    | cons z zs =>
      have hmore := ih (fun x hx => hys x (List.mem_cons_of_mem y hx)) (by simp)
      have hboth := hy.append_blank (c := '\n') rfl hmore
      simpa [List.intercalate_cons_cons] using hboth

end MaterialScript.Lexer
