import MaterialScript.Output.Printer
import Mathlib.Data.List.Basic

/-!
# Outlines and their lines

An outline can be told from its lines, whatever its labels are: the line of a sibling starts with a
connector where the lines of nodes below start with a continuation, and connectors and continuations
never share their first character.

* `Outline.Ends pad ls` : lines at which a level with padding `pad` ends;
* `Outline.childLines_append_inj` : outlines are told from their lines in front of other lines, by
  induction on the outlines;
* `Outline.labels` : the labels of all nodes; `Outline.length_childLines` : one line for each of them;
* `append_separator_inj` : cutting at a separator;
* `joined ls` : lines as a text; `joined_inj` : they can be told from it.
-/

namespace MaterialScript

namespace Outline

/-! ## Levels -/

/-- A level with this padding ends at these lines: there are none, or the first one has less padding. -/
def Ends (pad : String) (ls : List String) : Prop := ∀ l ∈ ls.head?, ¬ pad.toList <+: l.toList

theorem ends_nil (pad : String) : Ends pad [] := by
  intro l hl
  cases hl

theorem Ends.append {pad : String} {ls : List String} (h : Ends pad ls) (more : String) :
    Ends (pad ++ more) ls := by
  intro l hl hfront
  rw [String.toList_append] at hfront
  exact h l hl ((List.prefix_append ..).trans hfront)

def headLine (pad : String) (last : Bool) (label : String) : String :=
  pad ++ connector last ++ " " ++ label

theorem childLines_cons (pad label : String) (children ts : List Outline) :
    childLines pad (.node label children :: ts) = headLine pad ts.isEmpty label ::
      (childLines (pad ++ continuation ts.isEmpty) children ++ childLines pad ts) := by
  simp [childLines, lines, headLine]

theorem toList_headLine (pad label : String) (last : Bool) :
    (headLine pad last label).toList =
      pad.toList ++ ((connector last).toList ++ ' ' :: label.toList) := by
  simp [headLine]

theorem headLine_inj {pad label label' : String} {last last' : Bool}
    (h : headLine pad last label = headLine pad last' label') : last = last' ∧ label = label' := by
  rw [← String.toList_inj, toList_headLine, toList_headLine, List.append_cancel_left_eq] at h
  cases last <;> cases last' <;> simp [connector, String.toList_inj] at h ⊢ <;> exact h

/-- The levels below a node end at the line of a sibling. -/
theorem not_continuation_prefix (pad label : String) (last last' : Bool) :
    ¬ (pad ++ continuation last).toList <+: (headLine pad last' label).toList := by
  rw [String.toList_append, toList_headLine, List.prefix_append_right_inj]
  cases last <;> cases last' <;> simp [continuation, connector]

/-- The levels below a node end where its own level goes on. -/
theorem ends_childLines {pad : String} {ls : List String} (h : Ends pad ls) (last : Bool)
    (ts : List Outline) : Ends (pad ++ continuation last) (childLines pad ts ++ ls) := by
  cases ts with
  | nil => exact h.append _
  | cons t ts =>
    obtain ⟨label, children⟩ := t
    rw [childLines_cons]
    rintro l ⟨⟩
    exact not_continuation_prefix pad label last ts.isEmpty

theorem not_ends_headLine (pad label : String) (last : Bool) (ls : List String) :
    ¬ Ends pad (headLine pad last label :: ls) := by
  intro h
  refine h _ rfl ?_
  rw [toList_headLine]
  exact List.prefix_append ..

/-- **Outlines are told from their lines**, in front of any lines at which their level ends. -/
theorem childLines_append_inj {pad : String} {ts us : List Outline} {ls ms : List String}
    (hls : Ends pad ls) (hms : Ends pad ms)
    (h : childLines pad ts ++ ls = childLines pad us ++ ms) : ts = us ∧ ls = ms := by
  match ts, us with
  | [], [] => exact ⟨rfl, h⟩
  | [], .node label children :: us =>
    rw [childLines_cons] at h
    change ls = _ at h
    rw [h] at hls
    exact (not_ends_headLine _ _ _ _ hls).elim
  | .node label children :: ts, [] =>
    rw [childLines_cons] at h
    change _ = ms at h
    rw [← h] at hms
    exact (not_ends_headLine _ _ _ _ hms).elim
  | .node label children :: ts, .node label' children' :: us =>
    rw [childLines_cons, childLines_cons, List.cons_append, List.cons_append, List.cons.injEq,
      List.append_assoc, List.append_assoc] at h
    obtain ⟨hhead, htail⟩ := h
    obtain ⟨hlast, rfl⟩ := headLine_inj hhead
    rw [hlast] at htail
    obtain ⟨rfl, hmore⟩ := childLines_append_inj (ends_childLines hls _ ts)
      (ends_childLines hms _ us) htail
    obtain ⟨rfl, rfl⟩ := childLines_append_inj hls hms hmore
    exact ⟨rfl, rfl⟩
termination_by sizeOf ts

theorem childLines_inj {pad : String} {ts us : List Outline}
    (h : childLines pad ts = childLines pad us) : ts = us :=
  (childLines_append_inj (ends_nil pad) (ends_nil pad) (by rw [h])).1

/-! ## Labels -/

/-- The labels of outlines, each before those below it. -/
def labels : List Outline → List String
  | [] => []
  | .node label children :: ts => label :: (labels children ++ labels ts)

@[simp] theorem labels_nil : labels [] = [] := by rw [labels]

@[simp] theorem labels_cons (label : String) (children ts : List Outline) :
    labels (.node label children :: ts) = label :: (labels children ++ labels ts) := by rw [labels]

@[simp] theorem labels_append (ts us : List Outline) : labels (ts ++ us) = labels ts ++ labels us := by
  induction ts with
  | nil => simp
  | cons t ts ih =>
    obtain ⟨label, children⟩ := t
    simp [ih]

theorem labels_map {α : Type} (f : α → Outline) (xs : List α) :
    labels (xs.map f) = xs.flatMap fun x => labels [f x] := by
  induction xs with
  | nil => simp
  | cons x xs ih =>
    rw [List.map_cons, ← List.singleton_append, labels_append, ih, List.flatMap_cons]

theorem length_childLines (pad : String) (ts : List Outline) :
    (childLines pad ts).length = (labels ts).length := by
  match ts with
  | [] => simp [childLines]
  | .node label children :: ts =>
    have hchildren := length_childLines (pad ++ continuation ts.isEmpty) children
    have hts := length_childLines pad ts
    simp [childLines_cons, hchildren, hts]
termination_by sizeOf ts

theorem not_mem_childLines {c : Char} (hc : c ∉ ['├', '└', '│', '─', ' ']) {pad : String}
    (hpad : c ∉ pad.toList) {ts : List Outline} (hts : ∀ label ∈ labels ts, c ∉ label.toList) :
    ∀ l ∈ childLines pad ts, c ∉ l.toList := by
  match ts with
  | [] => simp [childLines]
  | .node label children :: ts =>
    simp only [List.mem_cons, List.not_mem_nil, or_false, not_or] at hc
    obtain ⟨hlabel, hmore⟩ := List.forall_mem_cons.1 (labels_cons label children ts ▸ hts)
    obtain ⟨hchildren, hsiblings⟩ := List.forall_mem_append.1 hmore
    have hbelow : c ∉ (pad ++ continuation ts.isEmpty).toList := by
      cases ts.isEmpty <;> simp [continuation, hpad, hc]
    rw [childLines_cons, List.forall_mem_cons, List.forall_mem_append]
    refine ⟨?_, not_mem_childLines (by simp [hc]) hbelow hchildren,
      not_mem_childLines (by simp [hc]) hpad hsiblings⟩
    rw [toList_headLine]
    cases ts.isEmpty <;> simp [connector, hpad, hlabel, hc]
termination_by sizeOf ts

end Outline

/-! ## Texts of lines -/

theorem append_separator_inj {α : Type} {c : α} {xs ys more more' : List α} (hxs : c ∉ xs)
    (hys : c ∉ ys) (h : xs ++ c :: more = ys ++ c :: more') : xs = ys ∧ more = more' := by
  induction xs generalizing ys with
  | nil =>
    cases ys with
    | nil => exact ⟨rfl, (List.cons.inj h).2⟩
    | cons y ys =>
      rw [(List.cons.inj h).1] at hys
      exact absurd List.mem_cons_self hys
  | cons x xs ih =>
    cases ys with
    | nil =>
      rw [(List.cons.inj h).1] at hxs
      exact absurd List.mem_cons_self hxs
    | cons y ys =>
      obtain ⟨rfl, hmore⟩ := List.cons.inj h
      rw [List.mem_cons, not_or] at hxs hys
      obtain ⟨rfl, rfl⟩ := ih hxs.2 hys.2 hmore
      exact ⟨rfl, rfl⟩

/-- Lines as a text, each of them ended. -/
def joined (ls : List String) : String := String.join (ls.map (· ++ "\n"))

theorem toList_joined (ls : List String) :
    (joined ls).toList = ls.flatMap fun l => l.toList ++ ['\n'] := by
  induction ls with
  | nil => rfl
  | cons l ls ih =>
    have hcons : joined (l :: ls) = l ++ "\n" ++ joined ls := by
      simp [joined, String.join_cons]
    simp [hcons, ih]

/-- **Lines are told from their text.** -/
theorem joined_inj {ls ms : List String} (hls : ∀ l ∈ ls, '\n' ∉ l.toList)
    (hms : ∀ l ∈ ms, '\n' ∉ l.toList) (h : joined ls = joined ms) : ls = ms := by
  rw [← String.toList_inj, toList_joined, toList_joined] at h
  induction ls generalizing ms with
  | nil =>
    cases ms with
    | nil => rfl
    | cons m ms => simp at h
  | cons l ls ih =>
    cases ms with
    | nil => simp at h
    | cons m ms =>
      obtain ⟨hl, hls⟩ := List.forall_mem_cons.1 hls
      obtain ⟨hm, hms⟩ := List.forall_mem_cons.1 hms
      rw [List.flatMap_cons, List.flatMap_cons, List.append_assoc, List.append_assoc,
        List.singleton_append, List.singleton_append] at h
      obtain ⟨hlm, hmore⟩ := append_separator_inj hl hm h
      rw [String.toList_inj.1 hlm, ih hls hms hmore]

end MaterialScript
