import MaterialScript.Proofs.Lexing.Match

/-!
# String literals by strokes

What follows the opening quote of a string literal is scanned by strokes: a stroke is a character, or a
backslash with the character after it. The first stroke that cannot stand inside a literal decides
whether the literal is closed on its line, and the strokes before it hold its bad escapes.

* `Stroke`, `Stroke.Inside`, `Stroke.bad?` : strokes, and what they may be inside a literal;
* `spelled us`, `firstBad? offset us` : the text of strokes, and the first bad escape in it;
* `Cut rest` : what is left when strokes end: a closing quote, nothing, or the end of the line;
* `Splits`, `splits` : every text is strokes up to a cut;
* `takeString?_spelled` : closed strokes without a bad escape are a literal;
* `stringError_spelled` : the error of a literal is told by its strokes and their cut.
-/

namespace MaterialScript.Lexer

open Text

/-- One step of the scan of a string literal. -/
inductive Stroke where
  | plain (c : Char)
  /-- A backslash and the character after it. -/
  | pair (c : Char)
deriving DecidableEq, Repr

namespace Stroke

def text : Stroke → List Char
  | plain c => [c]
  | pair c => ['\\', c]

/-- The strokes that leave a literal open on its line. -/
def Inside : Stroke → Prop
  | plain c => c ≠ '"' ∧ c ≠ '\\' ∧ isLineEnd c = false
  | pair c => isLineEnd c = false

/-- The character of an escape that has no meaning. -/
def bad? : Stroke → Option Char
  | plain _ => none
  | pair c => if c = '"' ∨ c = '\\' then none else some c

end Stroke

def spelled (us : List Stroke) : List Char := us.flatMap Stroke.text

/-- The first bad escape of strokes that start at an offset, with the offset of its backslash. -/
def firstBad? (offset : Nat) : List Stroke → Option (Char × Nat)
  | [] => none
  | u :: us => (u.bad?.map (·, offset)).or (firstBad? (offset + bytes u.text) us)

@[simp] theorem spelled_nil : spelled [] = [] := rfl

@[simp] theorem spelled_cons (u : Stroke) (us : List Stroke) :
    spelled (u :: us) = u.text ++ spelled us := List.flatMap_cons

/-! ## Cuts -/

/-- What is left of a text when the strokes inside a literal end. -/
inductive Cut : List Char → Prop where
  /-- The literal is closed. -/
  | closed (after : List Char) : Cut ('"' :: after)
  /-- The text ends after a whole stroke. -/
  | finished : Cut []
  /-- The text ends inside a stroke. -/
  | dangling : Cut ['\\']
  /-- The line ends after a whole stroke. -/
  | lineEnd {c : Char} (hc : isLineEnd c = true) (rest : List Char) : Cut (c :: rest)
  /-- The line ends inside a stroke. -/
  | danglingLineEnd {c : Char} (hc : isLineEnd c = true) (rest : List Char) : Cut ('\\' :: c :: rest)

/-- The text is strokes inside a literal up to a cut. -/
def Splits (cs : List Char) : Prop :=
  ∃ us rest, (∀ u ∈ us, u.Inside) ∧ cs = spelled us ++ rest ∧ Cut rest

theorem Cut.splits {cs : List Char} (h : Cut cs) : Splits cs := ⟨[], cs, by simp, rfl, h⟩

theorem Splits.cons {cs : List Char} {u : Stroke} (hu : u.Inside) (h : Splits cs) :
    Splits (u.text ++ cs) := by
  obtain ⟨us, rest, hus, rfl, hrest⟩ := h
  refine ⟨u :: us, rest, List.forall_mem_cons.2 ⟨hu, hus⟩, ?_, hrest⟩
  rw [spelled_cons, List.append_assoc]

/-- **Every text is strokes inside a literal up to a cut.** -/
theorem splits : ∀ cs : List Char, Splits cs
  | [] => Cut.finished.splits
  | c :: more => by
    by_cases hquote : c = '"'
    · subst hquote
      exact (Cut.closed more).splits
    by_cases hend : isLineEnd c = true
    · exact (Cut.lineEnd hend more).splits
    by_cases hslash : c = '\\'
    · subst hslash
      cases more with
      | nil => exact Cut.dangling.splits
      | cons e rest =>
        by_cases he : isLineEnd e = true
        · exact (Cut.danglingLineEnd he rest).splits
        · exact Splits.cons (u := .pair e) (by simpa [Stroke.Inside] using he) (splits rest)
    · have hinside : (Stroke.plain c).Inside := ⟨hquote, hslash, by simpa using hend⟩
      exact Splits.cons hinside (splits more)
termination_by cs => cs.length

/-! ## Literals -/

theorem isLineEnd_of_mem_spelled {us : List Stroke} (hus : ∀ u ∈ us, u.Inside) :
    ∀ c ∈ spelled us, isLineEnd c = false := by
  intro c hc
  obtain ⟨u, hu, hcu⟩ := List.mem_flatMap.1 hc
  have hinside := hus u hu
  cases u with
  | plain d =>
    obtain rfl := List.mem_singleton.1 hcu
    exact hinside.2.2
  | pair d =>
    rcases List.mem_cons.1 hcu with rfl | hcu
    · decide
    · obtain rfl := List.mem_singleton.1 hcu
      exact hinside

theorem firstBad?_cons_eq_none {offset : Nat} {u : Stroke} {us : List Stroke} :
    firstBad? offset (u :: us) = none ↔
      u.bad? = none ∧ firstBad? (offset + bytes u.text) us = none := by
  rw [firstBad?, Option.or_eq_none_iff, Option.map_eq_none_iff]

theorem exists_of_firstBad? {offset q : Nat} {us : List Stroke} {c : Char}
    (h : firstBad? offset us = some (c, q)) :
    ∃ vs ws, us = vs ++ .pair c :: ws ∧ q = offset + bytes (spelled vs) ∧
      c ≠ '"' ∧ c ≠ '\\' ∧ ∀ v ∈ vs, v.bad? = none := by
  induction us generalizing offset with
  | nil => cases h
  | cons u us ih =>
    rw [firstBad?] at h
    cases hbad : u.bad? with
    | some d =>
      rw [hbad] at h
      cases h
      cases u with
      | plain e => cases hbad
      | pair e =>
        rw [Stroke.bad?] at hbad
        by_cases hne : e = '"' ∨ e = '\\'
        · rw [if_pos hne] at hbad
          cases hbad
        · rw [if_neg hne] at hbad
          cases hbad
          rw [not_or] at hne
          exact ⟨[], us, rfl, rfl, hne.1, hne.2, by simp⟩
    | none =>
      rw [hbad] at h
      obtain ⟨vs, ws, rfl, rfl, hquote, hslash, hvs⟩ := ih h
      refine ⟨u :: vs, ws, rfl, ?_, hquote, hslash, List.forall_mem_cons.2 ⟨hbad, hvs⟩⟩
      rw [spelled_cons, bytes_append, Nat.add_assoc]

/-- **Strokes without a bad escape and a closing quote are a literal.** -/
theorem takeString?_spelled {us : List Stroke} (hus : ∀ u ∈ us, u.Inside) {offset : Nat}
    (hgood : firstBad? offset us = none) (after : List Char) :
    (takeString? (spelled us ++ '"' :: after)).isSome := by
  induction us generalizing offset with
  | nil =>
    rw [spelled_nil, List.nil_append, takeString?.eq_def]
    rfl
  | cons u us ih =>
    obtain ⟨hu, hus⟩ := List.forall_mem_cons.1 hus
    obtain ⟨hbad, hgood⟩ := firstBad?_cons_eq_none.1 hgood
    have hrest := ih hus hgood
    rw [spelled_cons, List.append_assoc]
    cases u with
    | plain c =>
      rw [Stroke.text, List.singleton_append, takeString?.eq_def]
      simp [hu.1, hu.2.1, hu.2.2, hrest]
    | pair c =>
      have hc : c = '"' ∨ c = '\\' := by
        by_contra hc
        rw [Stroke.bad?, if_neg hc] at hbad
        cases hbad
      rw [Stroke.text, List.cons_append, List.singleton_append, takeString?.eq_def]
      simp [hc, hrest]

/-! ## Errors -/

/-- **The scan for an error goes on behind strokes inside the literal**, and keeps the first bad
escape. -/
theorem stringError_spelled (start : Nat) {us : List Stroke} (hus : ∀ u ∈ us, u.Inside) (pos : Nat)
    (bad : Option (Char × Nat)) (rest : List Char) :
    stringError start pos bad (spelled us ++ rest) =
      stringError start (pos + bytes (spelled us)) (bad.or (firstBad? pos us)) rest := by
  induction us generalizing pos bad with
  | nil => simp [firstBad?]
  | cons u us ih =>
    obtain ⟨hu, hus⟩ := List.forall_mem_cons.1 hus
    have hstep : stringError start pos bad (u.text ++ (spelled us ++ rest)) =
        stringError start (pos + bytes u.text) (bad.or (u.bad?.map (·, pos)))
          (spelled us ++ rest) := by
      cases u with
      | plain c =>
        obtain ⟨hquote, hslash, hend⟩ := hu
        rw [Stroke.text, List.singleton_append, stringError.eq_def]
        simp [hquote, hslash, hend, Stroke.bad?]
      | pair c =>
        have hend : isLineEnd c = false := hu
        have hbackslash : ('\\' : Char).utf8Size = 1 := rfl
        rw [Stroke.text, List.cons_append, List.singleton_append, stringError]
        by_cases hc : c = '"' ∨ c = '\\'
        · have hsize : c.utf8Size = 1 := by rcases hc with rfl | rfl <;> rfl
          simp [Stroke.bad?, hc, hbackslash, hsize]
        · simp [Stroke.bad?, hc, hend, hbackslash, Nat.add_assoc]
    rw [spelled_cons, List.append_assoc, hstep, ih hus, bytes_append, firstBad?, Option.or_assoc,
      Nat.add_assoc]

end MaterialScript.Lexer
