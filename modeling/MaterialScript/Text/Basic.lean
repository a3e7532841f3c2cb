/-!
# Characters of a text

Offsets, spans and columns count UTF-8 bytes, while texts are handled as lists of characters.

* `bytes cs` : the number of bytes the characters `cs` take (`bytes_append`, `bytes_pos`);
* `takeBytes? n cs` : the first `n` bytes of `cs`, when they end between two characters
  (`takeBytes?_append`, `eq_append_of_takeBytes?`);
* `inRanges rs c` : the code point of `c` lies in one of the ranges `rs`.
-/

namespace MaterialScript.Text

/-- The number of UTF-8 bytes that the characters take. -/
def bytes : List Char → Nat
  | [] => 0
  | c :: cs => c.utf8Size + bytes cs

@[simp] theorem bytes_nil : bytes [] = 0 := rfl

@[simp] theorem bytes_cons (c : Char) (cs : List Char) :
    bytes (c :: cs) = c.utf8Size + bytes cs := rfl

@[simp] theorem bytes_append (xs ys : List Char) : bytes (xs ++ ys) = bytes xs + bytes ys := by
  induction xs with
  | nil => simp
  | cons x xs ih => simp [ih, Nat.add_assoc]

theorem bytes_pos {cs : List Char} (h : cs ≠ []) : 0 < bytes cs := by
  cases cs with
  | nil => exact absurd rfl h
  | cons c cs => have := c.utf8Size_pos; simp; omega

/-- The first `n` bytes of a text, or nothing when `n` is past its end or inside a character. -/
def takeBytes? : Nat → List Char → Option (List Char)
  | 0, _ => some []
  | _ + 1, [] => none
  | n + 1, c :: cs =>
    if c.utf8Size ≤ n + 1 then (takeBytes? (n + 1 - c.utf8Size) cs).map (c :: ·) else none

@[simp] theorem takeBytes?_zero (cs : List Char) : takeBytes? 0 cs = some [] := by
  cases cs <;> rfl

theorem takeBytes?_cons (n : Nat) (c : Char) (cs : List Char) :
    takeBytes? (c.utf8Size + n) (c :: cs) = (takeBytes? n cs).map (c :: ·) := by
  have hc := c.utf8Size_pos
  obtain ⟨k, hk⟩ : ∃ k, c.utf8Size + n = k + 1 := ⟨c.utf8Size + n - 1, by omega⟩
  have hn : k + 1 - c.utf8Size = n := by omega
  have hle : c.utf8Size ≤ k + 1 := by omega
  rw [hk, takeBytes?, if_pos hle, hn]

theorem takeBytes?_append (xs ys : List Char) : takeBytes? (bytes xs) (xs ++ ys) = some xs := by
  induction xs with
  | nil => simp
  | cons x xs ih => rw [bytes_cons, List.cons_append, takeBytes?_cons, ih]; rfl

theorem eq_append_of_takeBytes? {n : Nat} {cs front : List Char}
    (h : takeBytes? n cs = some front) : bytes front = n ∧ ∃ back, cs = front ++ back := by
  induction cs generalizing n front with
  | nil =>
    cases n with
    | zero => simp at h; subst h; simp
    | succ n => simp [takeBytes?] at h
  | cons c cs ih =>
    cases n with
    | zero => simp at h; subst h; simp
    | succ n =>
      rw [takeBytes?] at h
      split at h
      · next hle =>
        obtain ⟨front', hf, rfl⟩ := Option.map_eq_some_iff.1 h
        obtain ⟨hb, back, rfl⟩ := ih hf
        refine ⟨?_, back, rfl⟩
        rw [bytes_cons, hb]
        omega
      · exact absurd h (by simp)

/-! ## Ranges of code points -/

/-- Whether the code point of a character lies in one of some ranges, both ends included. -/
def inRanges (rs : List (Nat × Nat)) (c : Char) : Bool :=
  rs.any (fun r => r.1 ≤ c.toNat && c.toNat ≤ r.2)

end MaterialScript.Text
