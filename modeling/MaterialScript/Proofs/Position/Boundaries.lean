import Mathlib.Data.List.Induction
import MaterialScript.Position

/-!
# Positions between characters

An offset between two characters of a text can be told from its position: the line says how many ends
of lines stand before it, and the column how many bytes lie between the last of them and the offset.
So positions are ordered as the offsets are.

* `Boundary text offset` : an offset between two characters, or at one of the ends of the text;
  `not_boundary_iff` : the other ones are past the end or inside of a character;
* `lineStart? n text` : the offset right after the first `n` ends of lines;
* `Position.Before` : the order of positions, by lines and then by columns;
* `Position.exists_line_of_after` : the position after a front of a text, by induction from its end;
* `Position.exists_line_of_ofOffset`, `Position.ofOffset_before_iff`,
  `Position.ofOffset_of_not_boundary` : positions of offsets.
-/

namespace MaterialScript

open Text

/-! ## Boundaries -/

/-- An offset between two characters of a text, or at one of its ends. -/
def Boundary (text : List Char) (offset : Nat) : Prop :=
  ∃ before after, text = before ++ after ∧ bytes before = offset

theorem boundary_iff {text : List Char} {offset : Nat} :
    Boundary text offset ↔ (takeBytes? offset text).isSome = true := by
  refine ⟨?_, fun h => ?_⟩
  · rintro ⟨before, after, rfl, rfl⟩
    rw [takeBytes?_append]
    rfl
  · obtain ⟨front, hfront⟩ := Option.isSome_iff_exists.1 h
    obtain ⟨hbytes, after, rfl⟩ := eq_append_of_takeBytes? hfront
    exact ⟨front, after, rfl, hbytes⟩

instance (text : List Char) (offset : Nat) : Decidable (Boundary text offset) :=
  decidable_of_iff _ boundary_iff.symm

theorem boundary_end (text : List Char) : Boundary text (bytes text) :=
  ⟨text, [], (List.append_nil text).symm, rfl⟩

theorem Boundary.cons {cs : List Char} {offset : Nat} (h : Boundary cs offset) (c : Char) :
    Boundary (c :: cs) (c.utf8Size + offset) := by
  obtain ⟨before, after, rfl, rfl⟩ := h
  exact ⟨c :: before, after, rfl, rfl⟩

/-- An offset inside of a character. -/
def Inside (text : List Char) (offset : Nat) : Prop :=
  ∃ before c after, text = before ++ c :: after ∧
    bytes before < offset ∧ offset < bytes before + c.utf8Size

theorem past_or_inside_of_not_boundary {text : List Char} {offset : Nat}
    (h : ¬ Boundary text offset) : bytes text < offset ∨ Inside text offset := by
  induction text generalizing offset with
  | nil => exact .inl (Nat.pos_of_ne_zero fun hzero => h ⟨[], [], rfl, hzero.symm⟩)
  | cons c cs ih =>
    have hpos : offset ≠ 0 := fun hzero => h ⟨[], c :: cs, rfl, hzero.symm⟩
    by_cases hlt : offset < c.utf8Size
    · refine .inr ⟨[], c, cs, rfl, Nat.pos_of_ne_zero hpos, ?_⟩
      rwa [bytes_nil, Nat.zero_add]
    obtain ⟨k, rfl⟩ := Nat.exists_eq_add_of_le (Nat.le_of_not_lt hlt)
    rcases ih fun hk => h (hk.cons c) with hpast | ⟨before, d, after, rfl, hlow, hhigh⟩
    · left
      rw [bytes_cons]
      omega
    · refine .inr ⟨c :: before, d, after, rfl, ?_, ?_⟩
      · rw [bytes_cons]
        omega
      · rw [bytes_cons]
        omega

theorem Boundary.le {text : List Char} {offset : Nat} (h : Boundary text offset) :
    offset ≤ bytes text := by
  obtain ⟨before, after, rfl, rfl⟩ := h
  rw [bytes_append]
  exact Nat.le_add_right _ _

theorem Boundary.not_inside {text : List Char} {offset : Nat} (h : Boundary text offset) :
    ¬ Inside text offset := by
  rintro ⟨before, c, after, rfl, hlow, hhigh⟩
  obtain ⟨front, rest, htext, rfl⟩ := h
  rcases List.append_eq_append_iff.1 htext with ⟨mid, rfl, hmid⟩ | ⟨mid, rfl, -⟩
  · cases mid with
    | nil =>
      rw [List.append_nil] at hlow
      exact Nat.lt_irrefl _ hlow
    | cons d mid =>
      obtain ⟨rfl, -⟩ := List.cons.inj hmid
      rw [bytes_append, bytes_cons] at hhigh
      omega
  · rw [bytes_append] at hlow
    omega

theorem not_boundary_iff {text : List Char} {offset : Nat} :
    ¬ Boundary text offset ↔ bytes text < offset ∨ Inside text offset := by
  refine ⟨past_or_inside_of_not_boundary, fun h hboundary => ?_⟩
  rcases h with hpast | hinside
  · exact absurd hboundary.le (Nat.not_le_of_lt hpast)
  · exact hboundary.not_inside hinside

/-! ## Lines -/

/-- The offset right after the first ends of lines in a text, given how many. -/
def lineStart? : Nat → List Char → Option Nat
  | 0, _ => some 0
  | _ + 1, [] => none
  | n + 1, c :: cs => (lineStart? (if c = '\n' then n else n + 1) cs).map (c.utf8Size + ·)

theorem lineStart?_append_newline (xs ys : List Char) :
    lineStart? (xs.count '\n' + 1) (xs ++ '\n' :: ys) = some (bytes xs + 1) := by
  induction xs with
  | nil => cases ys <;> rfl
  | cons x xs ih =>
    rw [List.count_cons, List.cons_append, lineStart?, bytes_cons]
    by_cases hx : x = '\n'
    · simp [hx, ih]
      omega
    · simp [hx, ih]
      omega

namespace Position

/-- The order of positions: by lines, and in one line by columns. -/
def Before (p q : Position) : Prop := p.line < q.line ∨ p.line = q.line ∧ p.column < q.column

theorem Before.trans {p q r : Position} (h : p.Before q) (h' : q.Before r) : p.Before r := by
  unfold Before at h h' ⊢
  omega

theorem Before.irrefl (p : Position) : ¬ p.Before p := by
  unfold Before
  omega

/-! ## Positions after a front of a text -/

theorem line_foldl_advance (p : Position) (cs : List Char) :
    (cs.foldl advance p).line = p.line + cs.count '\n' := by
  induction cs generalizing p with
  | nil => rfl
  | cons c cs ih =>
    rw [List.foldl_cons, ih, List.count_cons]
    unfold advance
    by_cases hc : c = '\n'
    · simp [hc]
      omega
    · simp [hc]

theorem line_after (cs : List Char) : (after cs).line = cs.count '\n' := by
  unfold after
  rw [line_foldl_advance]
  exact Nat.zero_add _

theorem before_advance (p : Position) (c : Char) : p.Before (p.advance c) := by
  have hc := c.utf8Size_pos
  unfold Before advance
  split
  · exact .inl (Nat.lt_succ_self _)
  · exact .inr ⟨rfl, Nat.lt_add_of_pos_right hc⟩

theorem before_foldl_advance (p : Position) {cs : List Char} (hcs : cs ≠ []) :
    p.Before (cs.foldl advance p) := by
  induction cs generalizing p with
  | nil => exact absurd rfl hcs
  | cons c cs ih =>
    cases cs with
    | nil => exact before_advance p c
    | cons d ds => exact (before_advance p c).trans (ih (p.advance c) (List.cons_ne_nil d ds))

/-- **The line of a position** is the last one that starts before it, and the column counts the bytes
since its start. -/
theorem exists_line_of_after (front : List Char) :
    ∃ before w, front = before ++ w ∧ '\n' ∉ w ∧ (after front).column = bytes w ∧
      ∀ rest, lineStart? (after front).line (front ++ rest) = some (bytes before) := by
  induction front using List.reverseRecOn with
  | nil => exact ⟨[], [], rfl, List.not_mem_nil, rfl, fun rest => by cases rest <;> rfl⟩
  | append_singleton front c ih =>
    obtain ⟨before, w, rfl, hw, hcolumn, hline⟩ := ih
    have hafter : after (before ++ w ++ [c]) = (after (before ++ w)).advance c := after_append _ _
    by_cases hc : c = '\n'
    · subst hc
      have hadvance : (after (before ++ w)).advance '\n' = ⟨(before ++ w).count '\n' + 1, 0⟩ := by
        rw [advance, if_pos rfl, line_after]
      refine ⟨before ++ w ++ ['\n'], [], (List.append_nil _).symm, List.not_mem_nil, ?_, ?_⟩
      · rw [hafter, hadvance]
        rfl
      · intro rest
        rw [hafter, hadvance, List.append_assoc, bytes_append]
        exact lineStart?_append_newline _ rest
    · have hadvance : (after (before ++ w)).advance c =
          ⟨(after (before ++ w)).line, (after (before ++ w)).column + c.utf8Size⟩ := by
        rw [advance, if_neg hc]
      refine ⟨before, w ++ [c], List.append_assoc .., ?_, ?_, ?_⟩
      · rw [List.mem_append, List.mem_singleton]
        exact fun h => h.elim hw fun h => hc h.symm
      · rw [hafter, hadvance, hcolumn, bytes_append]
        rfl
      · intro rest
        rw [hafter, hadvance, List.append_assoc]
        exact hline (c :: rest)

/-! ## Positions of offsets -/

section Offsets
variable {text : List Char} {offset offset' : Nat}

/-- The position of a boundary: right after the ends of lines that it counts, and as many bytes
further on in that line. -/
theorem exists_line_of_ofOffset (h : Boundary text offset) :
    ∃ before w rest, text = before ++ (w ++ rest) ∧ bytes before + bytes w = offset ∧ '\n' ∉ w ∧
      (ofOffset text offset).column = bytes w ∧
      lineStart? (ofOffset text offset).line text = some (bytes before) := by
  obtain ⟨front, rest, rfl, rfl⟩ := h
  obtain ⟨before, w, rfl, hw, hcolumn, hline⟩ := exists_line_of_after front
  rw [ofOffset_append]
  exact ⟨before, w, rest, List.append_assoc .., (bytes_append before w).symm, hw, hcolumn, hline rest⟩

theorem ofOffset_before (h : Boundary text offset) (h' : Boundary text offset')
    (hlt : offset < offset') : (ofOffset text offset).Before (ofOffset text offset') := by
  obtain ⟨front, rest, rfl, rfl⟩ := h
  obtain ⟨front', rest', htext, rfl⟩ := h'
  rcases List.append_eq_append_iff.1 htext with ⟨mid, rfl, -⟩ | ⟨mid, rfl, -⟩
  · have hmid : mid ≠ [] := by
      rintro rfl
      rw [List.append_nil] at hlt
      exact Nat.lt_irrefl _ hlt
    rw [ofOffset_append, htext, ofOffset_append, after_append]
    exact before_foldl_advance (after front) hmid
  · rw [bytes_append] at hlt
    omega

/-- **Positions of boundaries are ordered as their offsets are.** -/
theorem ofOffset_before_iff (h : Boundary text offset) (h' : Boundary text offset') :
    (ofOffset text offset).Before (ofOffset text offset') ↔ offset < offset' := by
  refine ⟨fun hbefore => ?_, ofOffset_before h h'⟩
  by_contra hle
  rcases Nat.eq_or_lt_of_le (Nat.le_of_not_lt hle) with rfl | hlt
  · exact Before.irrefl _ hbefore
  · exact Before.irrefl _ (hbefore.trans (ofOffset_before h' h hlt))

theorem ofOffset_inj (h : Boundary text offset) (h' : Boundary text offset') :
    ofOffset text offset = ofOffset text offset' ↔ offset = offset' := by
  refine ⟨fun heq => ?_, fun heq => by rw [heq]⟩
  rcases Nat.lt_trichotomy offset offset' with hlt | rfl | hlt
  · exact absurd (heq ▸ ofOffset_before h h' hlt) (Before.irrefl _)
  · rfl
  · exact absurd (heq ▸ ofOffset_before h' h hlt) (Before.irrefl _)

theorem ofOffset_end (text : List Char) : ofOffset text (bytes text) = after text := by
  have hall := ofOffset_append text []
  rwa [List.append_nil] at hall

/-- **Any other offset has the position of the end.** -/
theorem ofOffset_of_not_boundary (h : ¬ Boundary text offset) :
    ofOffset text offset = ofOffset text (bytes text) := by
  rw [boundary_iff, Option.not_isSome_iff_eq_none] at h
  rw [ofOffset_end, ofOffset, h]
  rfl

end Offsets

end Position

end MaterialScript
