import MaterialScript.Proofs.Lexing.Pattern

/-!
# Longest match

What is taken at the front of a text is the longest match of a pattern, and nothing is taken only if
no pattern has a match.

* `Pattern.ofLead?` : the first character of a word tells its pattern (`ofLead?_of_mem`), so that two
  patterns never compete at the front of a text (`pattern_unique`);
* `LongestMatch.unique` : longest match leaves no choice;
* `longestMatch_blanks`, `longestMatch_comment`, `longestMatch_identifier`,
  `longestMatch_punctuation` : runs of characters of a class;
* `longestMatch_number`, `takeNumber?_complete` : numbers, with greedy fractions and exponents;
* `longestMatch_literal`, `takeString?_complete` : string literals.
-/

namespace MaterialScript.Lexer

/-! ## Leads -/

/-- The pattern of the words that start with a character. -/
def Pattern.ofLead? (c : Char) : Option Pattern :=
  if isBlank c then some blanks
  else if c = '/' then some comment
  else if isIdentStart c then some identifier
  else if c = '"' then some literal
  else if (punctuation? c).isSome then some punctuation
  else if c = '-' ∨ c.isDigit then some number
  else none

theorem plain_of_isIdentRest {c : Char} (h : isIdentRest c = true) :
    isBlank c = false ∧ c ≠ '/' ∧ c ≠ '"' ∧ punctuation? c = none := by
  have hne : ∀ d, isIdentRest d = false → c ≠ d := by
    rintro d hd rfl
    rw [h] at hd
    cases hd
  refine ⟨?_, hne _ (by decide), hne _ (by decide), ?_⟩
  · simp [isBlank, hne ' ' (by decide), hne '\t' (by decide), hne '\r' (by decide),
      hne '\n' (by decide), hne '\x0c' (by decide)]
  · simp [punctuation?, hne '{' (by decide), hne '}' (by decide), hne '(' (by decide),
      hne ')' (by decide), hne ',' (by decide), hne ':' (by decide)]

theorem isIdentRest_of_isDigit {c : Char} (h : c.isDigit = true) : isIdentRest c = true := by
  simp [isIdentRest, Char.isAlphanum, h]

theorem isIdentStart_of_isDigit {c : Char} (h : c.isDigit = true) : isIdentStart c = false := by
  rw [isDigit_iff, Digit] at h
  rw [← Bool.not_eq_true, isIdentStart_iff, Letter]
  rintro (⟨h', -⟩ | ⟨h', -⟩ | rfl)
  · exact absurd (Char.le_trans h' h.2) (by decide)
  · exact absurd (Char.le_trans h' h.2) (by decide)
  · exact absurd h.2 (by decide)

theorem ofLead?_of_isDigit {c : Char} (h : c.isDigit = true) :
    Pattern.ofLead? c = some .number := by
  obtain ⟨hblank, hslash, hquote, hpunct⟩ := plain_of_isIdentRest (isIdentRest_of_isDigit h)
  simp [Pattern.ofLead?, hblank, hslash, hquote, hpunct, isIdentStart_of_isDigit h, h]

theorem ofLead?_of_mem {p : Pattern} {w : List Char} (h : w ∈ p.language) :
    ∃ c v, w = c :: v ∧ Pattern.ofLead? c = some p := by
  cases p with
  | blanks =>
    obtain ⟨hne, hall⟩ := mem_blanks.1 h
    obtain ⟨c, v, rfl⟩ := List.exists_cons_of_ne_nil hne
    exact ⟨c, v, rfl, by simp [Pattern.ofLead?, hall c List.mem_cons_self]⟩
  | comment =>
    obtain ⟨v, rfl, -⟩ := mem_comment.1 h
    exact ⟨'/', '/' :: v, rfl, by decide⟩
  | punctuation =>
    obtain ⟨c, hc, rfl⟩ := h
    simp only [List.mem_cons, List.not_mem_nil, or_false] at hc
    rcases hc with rfl | rfl | rfl | rfl | rfl | rfl <;> exact ⟨_, [], rfl, by decide⟩
  | identifier =>
    obtain ⟨c, v, rfl, hc, -⟩ := mem_identifier.1 h
    obtain ⟨hblank, hslash, -, -⟩ := plain_of_isIdentRest (isIdentRest_of_isIdentStart hc)
    exact ⟨c, v, rfl, by simp [Pattern.ofLead?, hblank, hslash, hc]⟩
  | number =>
    obtain ⟨minus, rfl | rfl, ds, hds, f, -, e, -, rfl⟩ := mem_number.1 h
    · obtain ⟨hne, hall⟩ := mem_digits.1 hds
      obtain ⟨c, ds, rfl⟩ := List.exists_cons_of_ne_nil hne
      exact ⟨c, ds ++ (f ++ e), rfl, ofLead?_of_isDigit (hall c List.mem_cons_self)⟩
    · exact ⟨'-', ds ++ (f ++ e), rfl, by decide⟩
  | literal =>
    obtain ⟨content, -, rfl⟩ := mem_literal.1 h
    exact ⟨'"', _, rfl, by decide⟩

theorem ofLead?_of_front {p : Pattern} {w cs : List Char} {c : Char} (h : w ∈ p.language)
    (hfront : w <+: c :: cs) : Pattern.ofLead? c = some p := by
  obtain ⟨d, v, rfl, hd⟩ := ofLead?_of_mem h
  rw [← (List.cons_prefix_cons.1 hfront).1]
  exact hd

/-- Patterns do not compete: words at the front of one text are of one pattern. -/
theorem pattern_unique {p q : Pattern} {v w cs : List Char} (hv : v ∈ p.language)
    (hw : w ∈ q.language) (hvcs : v <+: cs) (hwcs : w <+: cs) : p = q := by
  obtain ⟨c, v, rfl, hc⟩ := ofLead?_of_mem hv
  obtain ⟨rest, rfl⟩ := hvcs
  have hc' := ofLead?_of_front hw hwcs
  rw [hc] at hc'
  exact Option.some.inj hc'

/-- It is enough to look at the words of the pattern itself. -/
theorem longestMatch_of_pattern {cs w : List Char} {p : Pattern} (hw : w ∈ p.language)
    (hfront : w <+: cs) (h : ∀ v ∈ p.language, v <+: cs → v.length ≤ w.length) :
    LongestMatch cs p w := by
  refine ⟨hw, hfront, fun q v hv hvcs => ?_⟩
  obtain rfl := pattern_unique hv hw hvcs hfront
  exact h v hv hvcs

/-- **Longest match leaves no choice.** -/
theorem LongestMatch.unique {cs v w : List Char} {p q : Pattern} (hv : LongestMatch cs p v)
    (hw : LongestMatch cs q w) : p = q ∧ v = w := by
  have hlength : v.length = w.length :=
    Nat.le_antisymm (hw.longest p v hv.mem hv.front) (hv.longest q w hw.mem hw.front)
  have hprefix : v <+: w :=
    List.prefix_of_prefix_length_le hv.front hw.front (Nat.le_of_eq hlength)
  exact ⟨pattern_unique hv.mem hw.mem hv.front hw.front, hprefix.eq_of_length hlength⟩

/-! ## Runs of characters -/

theorem length_le_takeWhile {p : Char → Bool} {v cs : List Char} (hv : ∀ c ∈ v, p c = true)
    (hfront : v <+: cs) : v.length ≤ (cs.takeWhile p).length := by
  obtain ⟨rest, rfl⟩ := hfront
  rw [List.takeWhile_append_of_pos hv, List.length_append]
  omega

theorem forall_mem_takeWhile (p : Char → Bool) (cs : List Char) :
    ∀ c ∈ cs.takeWhile p, p c = true :=
  List.all_eq_true.1 List.all_takeWhile

theorem longestMatch_blanks {c : Char} (cs : List Char) (hc : isBlank c = true) :
    LongestMatch (c :: cs) .blanks ((c :: cs).takeWhile isBlank) := by
  refine longestMatch_of_pattern (mem_blanks.2 ⟨?_, forall_mem_takeWhile _ _⟩)
    (List.takeWhile_prefix _) fun v hv hfront => ?_
  · simp [hc]
  · exact length_le_takeWhile (mem_blanks.1 hv).2 hfront

theorem longestMatch_comment (cs : List Char) :
    LongestMatch ('/' :: '/' :: cs) .comment (('/' :: '/' :: cs).takeWhile (· != '\n')) := by
  have htake : ('/' :: '/' :: cs).takeWhile (· != '\n') =
      '/' :: '/' :: cs.takeWhile (· != '\n') := by
    simp
  refine longestMatch_of_pattern (mem_comment.2 ⟨_, htake, fun c hc => ?_⟩)
    (List.takeWhile_prefix _) fun v hv hfront => ?_
  · simpa using forall_mem_takeWhile _ _ c hc
  · obtain ⟨u, rfl, hu⟩ := mem_comment.1 hv
    refine length_le_takeWhile (fun c hc => ?_) hfront
    simp only [List.mem_cons] at hc
    rcases hc with rfl | rfl | hc
    · decide
    · decide
    · simpa using hu c hc

theorem longestMatch_identifier {c : Char} (cs : List Char) (hc : isIdentStart c = true) :
    LongestMatch (c :: cs) .identifier ((c :: cs).takeWhile isIdentRest) := by
  have hrest := isIdentRest_of_isIdentStart hc
  refine longestMatch_of_pattern
    (mem_identifier.2 ⟨c, cs.takeWhile isIdentRest, ?_, hc, forall_mem_takeWhile _ _⟩)
    (List.takeWhile_prefix _) fun v hv hfront => ?_
  · simp [hrest]
  · obtain ⟨d, v, rfl, hd, hv⟩ := mem_identifier.1 hv
    refine length_le_takeWhile (fun e he => ?_) hfront
    rcases List.mem_cons.1 he with rfl | he
    · exact isIdentRest_of_isIdentStart hd
    · exact hv e he

theorem longestMatch_punctuation {c : Char} {t : Token} (cs : List Char)
    (hc : punctuation? c = some t) : LongestMatch (c :: cs) .punctuation [c] := by
  refine longestMatch_of_pattern (mem_punctuation.2 ⟨c, by simp [hc], rfl⟩) ⟨cs, rfl⟩
    fun v hv hfront => ?_
  obtain ⟨d, -, rfl⟩ := mem_punctuation.1 hv
  exact Nat.le_refl _

/-! ## Numbers -/

theorem takeFraction_mem (cs : List Char) : (takeFraction cs).1 ∈ optional fraction := by
  rw [mem_optional]
  unfold takeFraction
  split
  · next rest =>
    split
    · exact .inl rfl
    · next hne =>
      refine .inr (mem_fraction.2 ⟨_, mem_digits.2 ⟨?_, forall_mem_takeWhile _ _⟩, rfl⟩)
      simpa using hne
  · exact .inl rfl

theorem takeSign_eq (cs : List Char) :
    (takeSign cs).1 = [] ∨ (takeSign cs).1 = ['+'] ∨ (takeSign cs).1 = ['-'] := by
  unfold takeSign
  split <;> simp

theorem takeExponent_mem (cs : List Char) : (takeExponent cs).1 ∈ optional exponent := by
  rw [mem_optional]
  cases cs with
  | nil => exact .inl rfl
  | cons e rest =>
    rw [takeExponent]
    dsimp only
    split
    · next h =>
      simp only [Bool.and_eq_true, Bool.or_eq_true, beq_iff_eq, Bool.not_eq_true'] at h
      refine .inr (mem_exponent.2 ⟨e, h.1, _, takeSign_eq rest, _, mem_digits.2 ⟨?_, ?_⟩, rfl⟩)
      · intro hnil
        rw [hnil] at h
        exact absurd h.2 (by decide)
      · exact forall_mem_takeWhile _ _
    · exact .inl rfl

theorem takeNumber?_mem {cs taken rest : List Char} (h : takeNumber? cs = some (taken, rest)) :
    taken ∈ Pattern.number.language := by
  have hminus : (takeMinus cs).1 = [] ∨ (takeMinus cs).1 = ['-'] := by
    unfold takeMinus
    split <;> simp
  unfold takeNumber? at h
  dsimp only at h
  split at h
  · cases h
  · next hne =>
    simp only [Option.some.injEq, Prod.mk.injEq] at h
    obtain ⟨rfl, -⟩ := h
    have hdigits : (takeMinus cs).2.takeWhile Char.isDigit ∈ digits :=
      mem_digits.2 ⟨by simpa using hne, forall_mem_takeWhile _ _⟩
    have hfraction := takeFraction_mem ((takeMinus cs).2.dropWhile Char.isDigit)
    have hexponent := takeExponent_mem (takeFraction ((takeMinus cs).2.dropWhile Char.isDigit)).2
    refine mem_number.2 ⟨_, hminus, _, hdigits, _, hfraction, _, hexponent, ?_⟩
    simp only [List.append_assoc]

theorem takeWhile_digits {ds : List Char} (hds : ds ∈ digits) (rest : List Char) :
    (ds ++ rest).takeWhile Char.isDigit = ds ++ rest.takeWhile Char.isDigit ∧
      (ds ++ rest).dropWhile Char.isDigit = rest.dropWhile Char.isDigit :=
  ⟨List.takeWhile_append_of_pos (mem_digits.1 hds).2,
    List.dropWhile_append_of_pos (mem_digits.1 hds).2⟩

theorem isEmpty_digits_append {ds : List Char} (hds : ds ∈ digits) (rest : List Char) :
    (ds ++ rest).isEmpty = false := by
  obtain ⟨d, ds, rfl⟩ := List.exists_cons_of_ne_nil (mem_digits.1 hds).1
  rfl

theorem takeSign_complete {sign ds : List Char} (hsign : sign = [] ∨ sign = ['+'] ∨ sign = ['-'])
    (hds : ds ∈ digits) (rest : List Char) :
    takeSign (sign ++ (ds ++ rest)) = (sign, ds ++ rest) := by
  rcases hsign with rfl | rfl | rfl
  · obtain ⟨hne, hall⟩ := mem_digits.1 hds
    obtain ⟨d, ds, rfl⟩ := List.exists_cons_of_ne_nil hne
    have hd : d.isDigit = true := hall d List.mem_cons_self
    unfold takeSign
    split
    · next heq => cases heq; exact absurd hd (by decide)
    · next heq => cases heq; exact absurd hd (by decide)
    · rfl
  · rfl
  · rfl

theorem takeExponent_complete {e : List Char} (he : e ∈ optional exponent) (rest : List Char) :
    e.length ≤ (takeExponent (e ++ rest)).1.length := by
  rcases mem_optional.1 he with rfl | he
  · exact Nat.zero_le _
  obtain ⟨c, hc, sign, hsign, ds, hds, rfl⟩ := mem_exponent.1 he
  have hlead : (c == 'e' || c == 'E') = true := by simpa using hc
  rw [List.cons_append, List.append_assoc, takeExponent, takeSign_complete hsign hds]
  simp only [hlead, (takeWhile_digits hds rest).1, isEmpty_digits_append hds, Bool.not_false,
    Bool.and_self, if_true, List.length_append, List.length_cons]
  omega

theorem exponent_stops {e : List Char} (he : e ∈ exponent) (rest : List Char) :
    (e ++ rest).takeWhile Char.isDigit = [] ∧ (e ++ rest).dropWhile Char.isDigit = e ++ rest ∧
      takeFraction (e ++ rest) = ([], e ++ rest) := by
  obtain ⟨c, hc, sign, -, ds, -, rfl⟩ := mem_exponent.1 he
  rcases hc with rfl | rfl <;> exact ⟨rfl, rfl, rfl⟩

theorem takeFraction_complete {f e : List Char} (hf : f ∈ optional fraction)
    (he : e ∈ optional exponent) (rest : List Char) :
    f.length + e.length ≤ (takeFraction (f ++ (e ++ rest))).1.length +
      (takeExponent (takeFraction (f ++ (e ++ rest))).2).1.length := by
  have hexponent := takeExponent_complete he rest
  rcases mem_optional.1 hf with rfl | hf
  · rcases mem_optional.1 he with rfl | he
    · exact Nat.zero_le _
    · rw [List.nil_append, (exponent_stops he rest).2.2]
      simpa using hexponent
  · obtain ⟨ds, hds, rfl⟩ := mem_fraction.1 hf
    obtain ⟨htake, hdrop⟩ := takeWhile_digits hds (e ++ rest)
    rw [List.cons_append, takeFraction, htake, hdrop, isEmpty_digits_append hds]
    simp only [Bool.false_eq_true, if_false, List.length_cons, List.length_append]
    rcases mem_optional.1 he with rfl | he
    · simp only [List.length_nil]
      omega
    · rw [(exponent_stops he rest).2.1]
      omega

/-- A digit, if any, is all that a fraction and an exponent can be mistaken for. -/
theorem fraction_stops {f e : List Char} (hf : f ∈ optional fraction) (he : e ∈ optional exponent)
    (rest : List Char) : (f = [] ∧ e = []) ∨
      (f ++ (e ++ rest)).takeWhile Char.isDigit = [] ∧
        (f ++ (e ++ rest)).dropWhile Char.isDigit = f ++ (e ++ rest) := by
  rcases mem_optional.1 hf with rfl | hf
  · rcases mem_optional.1 he with rfl | he
    · exact .inl ⟨rfl, rfl⟩
    · obtain ⟨htake, hdrop, -⟩ := exponent_stops he rest
      exact .inr ⟨htake, hdrop⟩
  · obtain ⟨ds, -, rfl⟩ := mem_fraction.1 hf
    exact .inr ⟨rfl, rfl⟩

theorem takeMinus_complete {minus ds : List Char} (hminus : minus = [] ∨ minus = ['-'])
    (hds : ds ∈ digits) (rest : List Char) :
    takeMinus (minus ++ (ds ++ rest)) = (minus, ds ++ rest) := by
  rcases hminus with rfl | rfl
  · obtain ⟨hne, hall⟩ := mem_digits.1 hds
    obtain ⟨d, ds, rfl⟩ := List.exists_cons_of_ne_nil hne
    have hd : d.isDigit = true := hall d List.mem_cons_self
    unfold takeMinus
    split
    · next heq => cases heq; exact absurd hd (by decide)
    · rfl
  · rfl

/-- **A number at the front of a text is taken, if not a longer one.** -/
theorem takeNumber?_complete {v cs : List Char} (hv : v ∈ Pattern.number.language)
    (hfront : v <+: cs) :
    ∃ taken rest, takeNumber? cs = some (taken, rest) ∧ v.length ≤ taken.length := by
  obtain ⟨rest, rfl⟩ := hfront
  obtain ⟨minus, hminus, ds, hds, f, hf, e, he, rfl⟩ := mem_number.1 hv
  have htext : minus ++ (ds ++ (f ++ e)) ++ rest = minus ++ (ds ++ (f ++ (e ++ rest))) := by
    simp only [List.append_assoc]
  obtain ⟨htake, hdrop⟩ := takeWhile_digits hds (f ++ (e ++ rest))
  rw [htext, takeNumber?, takeMinus_complete hminus hds]
  simp only [htake, hdrop, isEmpty_digits_append hds, Bool.false_eq_true, if_false]
  refine ⟨_, _, rfl, ?_⟩
  simp only [List.length_append]
  rcases fraction_stops hf he rest with ⟨rfl, rfl⟩ | ⟨hnone, hall⟩
  · simp only [List.length_nil]
    omega
  · rw [hall]
    have := takeFraction_complete hf he rest
    omega

theorem longestMatch_number {cs taken rest : List Char}
    (h : takeNumber? cs = some (taken, rest)) : LongestMatch cs .number taken := by
  refine longestMatch_of_pattern (takeNumber?_mem h) ⟨rest, (takeNumber?_append h).2⟩
    fun v hv hfront => ?_
  obtain ⟨taken', rest', h', hle⟩ := takeNumber?_complete hv hfront
  rw [h] at h'
  cases h'
  exact hle

/-! ## String literals -/

theorem isLineEnd_of_takeString? {cs content rest : List Char}
    (h : takeString? cs = some (content, rest)) : ∀ c ∈ content, isLineEnd c = false := by
  fun_induction takeString? cs generalizing content rest with
  | case1 => cases h
  | case2 cs => cases h; simp
  | case3 => cases h
  | case4 e rest' he _ ih =>
    obtain ⟨⟨content', rest''⟩, hr, heq⟩ := Option.map_eq_some_iff.1 h
    cases heq
    have hend : isLineEnd e = false := by rcases he with rfl | rfl <;> decide
    simpa using ⟨hend, ih hr⟩
  | case5 => cases h
  | case6 => cases h
  | case7 c cs _ _ hend ih =>
    obtain ⟨⟨content', rest''⟩, hr, heq⟩ := Option.map_eq_some_iff.1 h
    cases heq
    simpa using ⟨by simpa using hend, ih hr⟩

theorem takeString?_complete (content rest : List Char) (h : ∀ c ∈ content, isLineEnd c = false) :
    takeString? (content.flatMap Token.spellChar ++ '"' :: rest) = some (content, rest) := by
  induction content with
  | nil =>
    rw [List.flatMap_nil, List.nil_append]
    unfold takeString?
    rfl
  | cons c content ih =>
    have ih := ih fun d hd => h d (List.mem_cons_of_mem c hd)
    have hend : isLineEnd c = false := h c List.mem_cons_self
    rw [List.flatMap_cons, List.append_assoc, Token.spellChar]
    by_cases hescape : c = '"' ∨ c = '\\'
    · rw [if_pos hescape]
      simp [takeString?, hescape, ih]
    · rw [if_neg hescape]
      rw [not_or] at hescape
      unfold takeString?
      simp [hescape.1, hescape.2, hend, ih]

theorem takeString?_of_front {v cs : List Char} (hv : v ∈ Pattern.literal.language)
    (hfront : v <+: '"' :: cs) : ∃ content rest, takeString? cs = some (content, rest) ∧
      v = '"' :: content.flatMap Token.spellChar ++ ['"'] := by
  obtain ⟨content, hcontent, rfl⟩ := mem_literal.1 hv
  obtain ⟨rest, hcs⟩ := hfront
  obtain rfl : content.flatMap Token.spellChar ++ '"' :: rest = cs := by simpa using hcs
  exact ⟨content, rest, takeString?_complete content rest hcontent, rfl⟩

theorem longestMatch_literal {cs content rest : List Char}
    (h : takeString? cs = some (content, rest)) :
    LongestMatch ('"' :: cs) .literal ('"' :: content.flatMap Token.spellChar ++ ['"']) := by
  refine longestMatch_of_pattern (mem_literal.2 ⟨content, isLineEnd_of_takeString? h, rfl⟩)
    ⟨rest, ?_⟩ fun v hv hfront => ?_
  · simp [← takeString?_append h]
  · obtain ⟨content', rest', h', rfl⟩ := takeString?_of_front hv hfront
    rw [h] at h'
    cases h'
    exact Nat.le_refl _

end MaterialScript.Lexer
