import Mathlib.Computability.Language
import MaterialScript.Proofs.Derivation.Parse

/-!
# How far rules get

A rule that fails, or that matches less than it tried, has a frontier: the lexemes from the furthest
failure on. For the rules of the grammar the frontier is where the lexemes stop being the front of
anything that the rule accepts. This is shown once for each way of making rules.

* `Viable L ls` : some word of the language `L` starts with the lexemes `ls`;
* `Stops L ls rest` : the front of `ls` before `rest` is the longest viable one;
* `Reply.frontier` : the furthest place that a rule got to (`frontier_bind`);
* `Rule.Takes x L p` : the rule takes words of `L`, and where another word of `L` ends, a lexeme with
  the property `p` follows (`Reads.takes`, `Reads.takes_optional`, `Reads.takes_many`);
* `Rule.Reaches x L` : the rule accepts the words of `L` and gets as far as `L` allows;
* `reaches_pure`, `Reads.reaches_classify`, `Takes.reaches_bind`, `Reads.reaches_optional`,
  `Reads.reaches_orElse`, `Reads.reaches_choice_cons`, `Reads.reaches_many` : one lemma for each way
  of making rules.
-/

namespace MaterialScript.Grammar

open Computability

variable {α β T : Type}

/-! ## Viable fronts -/

/-- Some word of the language starts with these lexemes. -/
def Viable (L : Language Lexeme) (ls : List Lexeme) : Prop := ∃ w ∈ L, ls <+: w

theorem viable_add {L K : Language Lexeme} {ls : List Lexeme} :
    Viable (L + K) ls ↔ Viable L ls ∨ Viable K ls := by
  constructor
  · rintro ⟨w, hw | hw, hfront⟩
    · exact .inl ⟨w, hw, hfront⟩
    · exact .inr ⟨w, hw, hfront⟩
  · rintro (⟨w, hw, hfront⟩ | ⟨w, hw, hfront⟩)
    · exact ⟨w, .inl hw, hfront⟩
    · exact ⟨w, .inr hw, hfront⟩

/-- A front of a word of a product lies in the first factor, or it holds a word of that factor. -/
theorem viable_mul {L K : Language Lexeme} {ls : List Lexeme} (hK : ∃ k, k ∈ K) :
    Viable (L * K) ls ↔ Viable L ls ∨ ∃ w ∈ L, ∃ more, ls = w ++ more ∧ Viable K more := by
  constructor
  · rintro ⟨_, ⟨w, hw, k, hk, rfl⟩, hfront⟩
    rcases List.prefix_or_prefix_of_prefix hfront (List.prefix_append w k) with hw' | ⟨more, rfl⟩
    · exact .inl ⟨w, hw, hw'⟩
    · exact .inr ⟨w, hw, more, rfl, k, hk, (List.prefix_append_right_inj w).1 hfront⟩
  · rintro (⟨w, hw, hfront⟩ | ⟨w, hw, more, rfl, k, hk, hfront⟩)
    · obtain ⟨k, hk⟩ := hK
      exact ⟨w ++ k, Language.append_mem_mul hw hk, hfront.trans (List.prefix_append w k)⟩
    · exact ⟨w ++ k, Language.append_mem_mul hw hk, (List.prefix_append_right_inj w).2 hfront⟩

/-- The further one of two places in a list: what is left there is shorter. -/
def further (r r' : List Lexeme) : List Lexeme := if r'.length < r.length then r' else r

theorem rest_furthest (a b : Failure) : (a.furthest b).rest = further a.rest b.rest := by
  unfold Failure.furthest further
  split <;> rfl

/-- Of the fronts of `ls`, the one before `rest` is the longest that is viable. -/
structure Stops (L : Language Lexeme) (ls rest : List Lexeme) : Prop where
  viable : ∃ front, ls = front ++ rest ∧ Viable L front
  longest : ∀ front rest', ls = front ++ rest' → Viable L front → rest.length ≤ rest'.length

section Stopping
variable {L K M : Language Lexeme} {ls rest r r' : List Lexeme}

theorem Stops.nonempty (h : Stops L ls r) : ∃ w, w ∈ L := by
  obtain ⟨front, -, w, hw, -⟩ := h.viable
  exact ⟨w, hw⟩

theorem Stops.length_le (h : Stops L ls r) : r.length ≤ ls.length := by
  obtain ⟨front, rfl, -⟩ := h.viable
  rw [List.length_append]
  omega

theorem Stops.further_self (h : Stops L ls r) : further ls r = r := by
  obtain ⟨front, rfl, -⟩ := h.viable
  unfold further
  split
  · rfl
  · next hle =>
    rw [List.length_append] at hle
    have hnil : front = [] := List.length_eq_zero_iff.1 (by omega)
    rw [hnil, List.nil_append]

theorem Stops.congr (h : Stops L ls r)
    (hM : ∀ front rest, ls = front ++ rest → (Viable M front ↔ Viable L front)) :
    Stops M ls r := by
  constructor
  · obtain ⟨front, hls, hviable⟩ := h.viable
    exact ⟨front, hls, (hM front r hls).2 hviable⟩
  · intro front rest' hls hviable
    exact h.longest front rest' hls ((hM front rest' hls).1 hviable)

theorem Stops.further (h : Stops L ls r) (h' : Stops K ls r')
    (hM : ∀ front rest, ls = front ++ rest → (Viable M front ↔ Viable L front ∨ Viable K front)) :
    Stops M ls (further r r') := by
  unfold Grammar.further
  constructor
  · obtain ⟨front, hls, hviable⟩ := h.viable
    obtain ⟨front', hls', hviable'⟩ := h'.viable
    split
    · exact ⟨front', hls', (hM _ _ hls').2 (.inr hviable')⟩
    · exact ⟨front, hls, (hM _ _ hls).2 (.inl hviable)⟩
  · intro front rest hls hviable
    rcases (hM _ _ hls).1 hviable with hviable | hviable
    · have := h.longest front rest hls hviable
      split <;> omega
    · have := h'.longest front rest hls hviable
      split <;> omega

theorem Stops.one_add (h : Stops L ls r) : Stops (1 + L) ls r := by
  refine h.congr fun front rest _ => ?_
  rw [viable_add]
  constructor
  · rintro (⟨w, rfl, hfront⟩ | hviable)
    · obtain ⟨w, hw⟩ := h.nonempty
      rw [List.prefix_nil.1 hfront]
      exact ⟨w, hw, List.nil_prefix⟩
    · exact hviable
  · exact .inr

theorem Stops.after (h : Stops K rest r) (w : List Lexeme) : Stops ({w} * K) (w ++ rest) r := by
  have hlength := h.length_le
  constructor
  · obtain ⟨front, rfl, hviable⟩ := h.viable
    exact ⟨w ++ front, by rw [List.append_assoc],
      (viable_mul h.nonempty).2 (.inr ⟨w, rfl, front, rfl, hviable⟩)⟩
  · intro front rest' hls hviable
    rcases (viable_mul h.nonempty).1 hviable with ⟨w', rfl, hfront⟩ | ⟨w', rfl, more, rfl, hmore⟩
    · have hle := hfront.length_le
      have htotal := congrArg List.length hls
      simp only [List.length_append] at htotal
      omega
    · rw [List.append_assoc] at hls
      exact h.longest more rest' (List.append_cancel_left hls) hmore

end Stopping

/-! ## Frontiers -/

/-- The further one of a place and a failure that need not be there. -/
def beyond (rest : List Lexeme) (alt : Option Failure) : List Lexeme :=
  (alt.map fun e => further rest e.rest).getD rest

/-- The lexemes from the furthest place on that a rule got to. -/
def Reply.frontier : Reply α → List Lexeme
  | .ok _ rest alt => beyond rest alt
  | .fail e => e.rest

theorem beyond_furthest? (rest : List Lexeme) (alt alt' : Option Failure) :
    beyond rest (furthest? alt alt') = beyond (beyond rest alt) alt' := by
  cases alt <;> cases alt' <;> simp only [beyond, furthest?, Option.map_some, Option.map_none,
    Option.getD_some, Option.getD_none, rest_furthest]
  unfold further
  repeat' split
  all_goals first | rfl | (exfalso; omega)

/-- The place where the first of two rules ends does not count if the second gets further. -/
theorem beyond_eq_further {r rest : List Lexeme} (alt : Option Failure)
    (h : r.length ≤ rest.length) : beyond r alt = further r (beyond rest alt) := by
  cases alt with
  | none =>
    simp only [beyond, Option.map_none, Option.getD_none]
    unfold further
    split
    · omega
    · rfl
  | some e =>
    simp only [beyond, Option.map_some, Option.getD_some]
    unfold further
    repeat' split
    all_goals first | rfl | (exfalso; omega)

theorem frontier_bind {x : Rule α} {f : α → Rule β} {ls rest : List Lexeme} {a : α}
    {alt : Option Failure} (hx : x ls = .ok a rest alt)
    (hle : (f a rest).frontier.length ≤ rest.length) :
    ((x >>= f) ls).frontier = further (f a rest).frontier (x ls).frontier := by
  have hbind : (x >>= f) ls = Rule.bind x f ls := rfl
  rw [hbind, Rule.bind, hx]
  cases hf : f a rest with
  | fail e =>
    rw [hf, Reply.frontier] at hle
    simp only [hf, Reply.frontier]
    rw [← beyond_eq_further alt hle]
    cases alt with
    | none => rfl
    | some e' => exact rest_furthest e e'
  | ok b rest' alt' =>
    rw [hf, Reply.frontier] at hle
    simp only [hf, Reply.frontier]
    rw [beyond_furthest?, beyond_eq_further alt hle]

/-! ## Words that rules take -/

/-- The rule takes words of the language. Where another word of the language ends at the front of the
same lexemes, a lexeme with the property `p` follows it. The rule fails only if no word of the
language is at the front. -/
structure Rule.Takes (x : Rule α) (L : Language Lexeme) (p : Lexeme → Prop) : Prop where
  sound : ∀ {ls a rest}, x.Accepts ls a rest → ∃ w ∈ L, ls = w ++ rest
  next : ∀ {ls a rest}, x.Accepts ls a rest → ∀ w ∈ L, ∀ rest', ls = w ++ rest' →
    rest' = rest ∨ ∃ l more, rest' = l :: more ∧ p l
  complete : ∀ {ls}, x.Rejects ls → ∀ w ∈ L, ∀ rest, ls ≠ w ++ rest

/-- The rule accepts the words of the language, and it gets as far as the language allows. -/
structure Rule.Reaches (x : Rule α) (L : Language Lexeme) : Prop where
  accepts : ∀ w, w ∈ L ↔ ∃ a, x.Accepts w a []
  stops : ∀ ls, Stops L ls (x ls).frontier

/-- The lexemes of trees with a property. -/
def yields (lexemes : T → List Lexeme) (P : T → Prop) : Language Lexeme :=
  {w | ∃ t, P t ∧ w = lexemes t}

theorem Rule.accepts_or_rejects (x : Rule α) (ls : List Lexeme) :
    (∃ a rest, x.Accepts ls a rest) ∨ x.Rejects ls := by
  cases hx : x ls with
  | ok a rest alt => exact .inl ⟨a, rest, alt, hx⟩
  | fail e => exact .inr (Rule.rejects_of_fail hx)

section Trees
variable {x y : Rule β} {lexemes : T → List Lexeme} {value : T → β} {P Q : T → Prop}

theorem Rule.Reads.mem_yields (hx : x.Reads lexemes value P) (w : List Lexeme) :
    w ∈ yields lexemes P ↔ ∃ b, x.Accepts w b [] := by
  constructor
  · rintro ⟨t, ht, rfl⟩
    exact ⟨value t, (hx _ _ _).2 ⟨t, ht, by rw [List.append_nil], rfl⟩⟩
  · rintro ⟨b, h⟩
    obtain ⟨t, ht, hw, -⟩ := (hx _ _ _).1 h
    exact ⟨t, ht, by rw [hw, List.append_nil]⟩

/-- A rule that reads trees reaches what it accepts, so the language is that of the trees. -/
theorem Rule.Reaches.of_reads {L : Language Lexeme} (h : x.Reaches L)
    (hx : x.Reads lexemes value P) : x.Reaches (yields lexemes P) := by
  have hL : L = yields lexemes P := by
    ext w
    rw [h.accepts w, hx.mem_yields w]
  rwa [← hL]

theorem Rule.Reads.takes (hx : x.Reads lexemes value P) :
    x.Takes (yields lexemes P) (fun _ => False) := by
  constructor
  · intro ls b rest h
    obtain ⟨t, ht, hls, -⟩ := (hx _ _ _).1 h
    exact ⟨lexemes t, ⟨t, ht, rfl⟩, hls⟩
  · rintro ls b rest h _ ⟨t, ht, rfl⟩ rest' hls
    exact .inl (((hx _ _ _).2 ⟨t, ht, hls, rfl⟩).unique h).2
  · rintro ls hr _ ⟨t, ht, rfl⟩ rest hls
    exact hr _ _ ((hx _ _ _).2 ⟨t, ht, hls, rfl⟩)

end Trees

/-! ## Sequences -/

section Sequences
variable {x : Rule α} {L K : Language Lexeme} {p : Lexeme → Prop}

theorem Rule.Takes.stops_of_rejects (ht : x.Takes L p) {ls r : List Lexeme} (hr : x.Rejects ls)
    (h : Stops L ls r) (hK : ∃ k, k ∈ K) : Stops (L * K) ls r := by
  refine h.congr fun front rest hls => ?_
  rw [viable_mul hK]
  constructor
  · rintro (hviable | ⟨w, hw, more, rfl, -⟩)
    · exact hviable
    · rw [List.append_assoc] at hls
      exact absurd hls (ht.complete hr w hw (more ++ rest))
  · exact .inl

/-- Where the first rule takes a word, the sequence gets as far as either rule. No continuation may
start with a lexeme that follows the words which are not taken. -/
theorem Rule.Takes.stops_of_accepts (ht : x.Takes L p) {ls rest r r' : List Lexeme} {a : α}
    (ha : x.Accepts ls a rest) (h : Stops L ls r) (h' : Stops K rest r')
    (hp : ∀ l more, p l → l :: more ∉ K) : Stops (L * K) ls (further r' r) := by
  obtain ⟨w, hw, rfl⟩ := ht.sound ha
  refine (h'.after w).further h fun front rest' hls => ?_
  rw [viable_mul h'.nonempty, viable_mul h'.nonempty]
  constructor
  · rintro (hviable | ⟨w', hw', more, rfl, hmore⟩)
    · exact .inr hviable
    · rw [List.append_assoc] at hls
      rcases ht.next ha w' hw' (more ++ rest') hls with heq | ⟨l, more', heq, hl⟩
      · rw [heq] at hls
        obtain rfl := List.append_cancel_right hls
        exact .inl (.inr ⟨w, rfl, more, rfl, hmore⟩)
      · cases more with
        | nil =>
          refine .inr ⟨w', hw', ?_⟩
          rw [List.append_nil]
        | cons m more =>
          obtain ⟨rfl, -⟩ := List.cons.inj heq
          obtain ⟨k, hk, more', rfl⟩ := hmore
          exact absurd hk (hp m (more ++ more') hl)
  · rintro ((⟨w', rfl, hfront⟩ | ⟨w', rfl, more, rfl, hmore⟩) | hviable)
    · exact .inl ⟨w', hw, hfront⟩
    · exact .inr ⟨w', hw, more, rfl, hmore⟩
    · exact .inl hviable

theorem Rule.Takes.reaches_bind {f : α → Rule β} (ht : x.Takes L p) (hx : x.Reaches L)
    (hf : ∀ a, (f a).Reaches K) (hp : ∀ l more, p l → l :: more ∉ K) :
    (x >>= f).Reaches (L * K) := by
  constructor
  · intro w
    simp only [accepts_bind]
    constructor
    · rintro ⟨u, hu, k, hk, rfl⟩
      rcases x.accepts_or_rejects (u ++ k) with ⟨a, rest, ha⟩ | hr
      · rcases ht.next ha u hu k rfl with rfl | ⟨l, more, rfl, hl⟩
        · obtain ⟨b, hb⟩ := ((hf a).accepts k).1 hk
          exact ⟨b, a, k, ha, hb⟩
        · exact absurd hk (hp l more hl)
      · exact absurd rfl (ht.complete hr u hu k)
    · rintro ⟨b, a, mid, ha, hb⟩
      obtain ⟨u, hu, rfl⟩ := ht.sound ha
      exact Language.append_mem_mul hu (((hf a).accepts mid).2 ⟨b, hb⟩)
  · intro ls
    have hstops := hx.stops ls
    cases hxls : x ls with
    | fail e =>
      have hbind : (x >>= f) ls = .fail e := by
        show Rule.bind x f ls = .fail e
        rw [Rule.bind, hxls]
      rw [hxls] at hstops
      rw [hbind]
      obtain ⟨w, hw⟩ := hstops.nonempty
      have hK : ∃ k, k ∈ K := by
        rcases x.accepts_or_rejects w with ⟨a, rest, -⟩ | hr
        · exact ((hf a).stops []).nonempty
        · exact absurd (List.append_nil w).symm (ht.complete hr w hw [])
      exact ht.stops_of_rejects (Rule.rejects_of_fail hxls) hstops hK
    | ok a rest alt =>
      have hK := (hf a).stops rest
      rw [frontier_bind hxls hK.length_le]
      exact ht.stops_of_accepts ⟨alt, hxls⟩ hstops hK hp

theorem takes_map (ht : x.Takes L p) (g : α → β) :
    (x >>= fun a => pure (g a)).Takes L p := by
  have haccepts : ∀ {ls b rest}, (x >>= fun a => pure (g a)).Accepts ls b rest ↔
      ∃ a, x.Accepts ls a rest ∧ b = g a := by
    intro ls b rest
    simp only [accepts_bind, accepts_pure]
    constructor
    · rintro ⟨a, _, ha, rfl, rfl⟩
      exact ⟨a, ha, rfl⟩
    · rintro ⟨a, ha, rfl⟩
      exact ⟨a, rest, ha, rfl, rfl⟩
  constructor
  · intro ls b rest h
    obtain ⟨a, ha, -⟩ := haccepts.1 h
    exact ht.sound ha
  · intro ls b rest h
    obtain ⟨a, ha, -⟩ := haccepts.1 h
    exact ht.next ha
  · intro ls hr
    exact ht.complete fun a rest ha => hr _ _ (haccepts.2 ⟨a, ha, rfl⟩)

theorem reaches_pure (a : α) : (pure a : Rule α).Reaches 1 := by
  constructor
  · intro w
    simp only [accepts_pure, exists_eq_left]
    exact eq_comm
  · intro ls
    have hfrontier : ((pure a : Rule α) ls).frontier = ls := rfl
    rw [hfrontier]
    constructor
    · exact ⟨[], rfl, [], rfl, List.nil_prefix⟩
    · rintro front rest rfl ⟨w, rfl, hfront⟩
      rw [List.prefix_nil.1 hfront, List.nil_append]

end Sequences

section Trees
variable {x y : Rule β} {lexemes : T → List Lexeme} {value : T → β} {P Q : T → Prop}

theorem Rule.Reads.reaches_bind {γ : Type} {f : β → Rule γ} {K : Language Lexeme}
    (hx : x.Reads lexemes value P) (hxr : x.Reaches (yields lexemes P))
    (hf : ∀ a, (f a).Reaches K) : (x >>= f).Reaches (yields lexemes P * K) :=
  hx.takes.reaches_bind hxr hf fun _ _ h => h.elim

/-! ## One lexeme -/

theorem Rule.Reads.reaches_classify {read : Lexeme → Except Reason β}
    (hx : (classify read).Reads lexemes value P) (hne : ∃ t, P t) :
    (classify read).Reaches (yields lexemes P) := by
  have hword : ∀ w ∈ yields lexemes P, ∃ l b, read l = .ok b ∧ w = [l] := by
    intro w hw
    obtain ⟨b, h⟩ := (hx.mem_yields w).1 hw
    obtain ⟨l, hl, rfl⟩ := accepts_classify.1 h
    exact ⟨l, b, hl, rfl⟩
  have hnil : Viable (yields lexemes P) [] := by
    obtain ⟨t, ht⟩ := hne
    exact ⟨lexemes t, ⟨t, ht, rfl⟩, List.nil_prefix⟩
  refine ⟨hx.mem_yields, fun ls => ?_⟩
  cases ls with
  | nil => exact ⟨⟨[], rfl, hnil⟩, fun _ _ _ _ => Nat.zero_le _⟩
  | cons l ls =>
    cases hread : read l with
    | ok b =>
      have hfrontier : (classify read (l :: ls)).frontier = ls := by rw [classify, hread]; rfl
      have hl : [l] ∈ yields lexemes P :=
        (hx.mem_yields [l]).2 ⟨b, accepts_classify.2 ⟨l, hread, rfl⟩⟩
      rw [hfrontier]
      refine ⟨⟨[l], rfl, [l], hl, List.prefix_refl _⟩, fun front rest hls hviable => ?_⟩
      obtain ⟨w, hw, hfront⟩ := hviable
      obtain ⟨l', -, -, rfl⟩ := hword w hw
      have hle := hfront.length_le
      have htotal := congrArg List.length hls
      simp only [List.length_append, List.length_cons, List.length_nil] at hle htotal
      omega
    | error reason =>
      have hfrontier : (classify read (l :: ls)).frontier = l :: ls := by rw [classify, hread]; rfl
      rw [hfrontier]
      refine ⟨⟨[], rfl, hnil⟩, fun front rest hls hviable => ?_⟩
      obtain ⟨w, hw, hfront⟩ := hviable
      obtain ⟨l', b, hl', rfl⟩ := hword w hw
      cases front with
      | nil => rw [hls, List.nil_append]
      | cons m front =>
        obtain ⟨rfl, -⟩ := List.cons.inj hls
        obtain ⟨rfl, -⟩ := List.cons_prefix_cons.1 hfront
        rw [hread] at hl'
        cases hl'

/-! ## Choices -/

theorem yields_or : yields lexemes (fun t => P t ∨ Q t) = yields lexemes P + yields lexemes Q := by
  ext w
  constructor
  · rintro ⟨t, ht | ht, rfl⟩
    · exact .inl ⟨t, ht, rfl⟩
    · exact .inr ⟨t, ht, rfl⟩
  · rintro (⟨t, ht, rfl⟩ | ⟨t, ht, rfl⟩)
    · exact ⟨t, .inl ht, rfl⟩
    · exact ⟨t, .inr ht, rfl⟩

/-- Where a tree has been read, no other tree gets beyond it. -/
theorem Unambiguous.front_of_viable (hu : Unambiguous lexemes) {t : T} {front rest rest' : List Lexeme}
    (hls : lexemes t ++ rest = front ++ rest') (hviable : Viable (yields lexemes P) front) :
    front <+: lexemes t := by
  obtain ⟨_, ⟨t', -, rfl⟩, hfront⟩ := hviable
  have ht : lexemes t <+: front ++ rest' := ⟨rest, hls⟩
  rcases List.prefix_or_prefix_of_prefix ht (List.prefix_append front rest') with h | h
  · obtain ⟨more, hmore⟩ := h.trans hfront
    obtain ⟨rfl, -⟩ := hu t t' more [] (by rw [hmore, List.append_nil])
    exact hfront
  · exact h

theorem Rule.Reads.stops_of_accepts (hu : Unambiguous lexemes) (hx : x.Reads lexemes value P)
    {ls rest r : List Lexeme} {b : β} (ha : x.Accepts ls b rest)
    (h : Stops (yields lexemes P) ls r) :
    Stops (yields lexemes P + yields lexemes Q) ls r := by
  obtain ⟨t, ht, rfl, -⟩ := (hx _ _ _).1 ha
  refine h.congr fun front rest' hls => ?_
  rw [viable_add]
  refine ⟨?_, .inl⟩
  rintro (hviable | hviable)
  · exact hviable
  · exact ⟨lexemes t, ⟨t, ht, rfl⟩, hu.front_of_viable hls hviable⟩

/-- A rule that tries one rule and then another, and that reports the further one of two failures,
whichever it is if they are equal. -/
theorem reaches_of_either (hu : Unambiguous lexemes) (hx : x.Reads lexemes value P)
    (hy : y.Reads lexemes value Q) (hxr : x.Reaches (yields lexemes P))
    (hyr : y.Reaches (yields lexemes Q)) {z : Rule β}
    (hz : z.Reads lexemes value (fun t => P t ∨ Q t))
    (hfirst : ∀ {ls b rest alt}, x ls = .ok b rest alt → z ls = .ok b rest alt)
    (hsecond : ∀ {ls e b rest alt}, x ls = .fail e → y ls = .ok b rest alt → z ls = .ok b rest alt)
    (hneither : ∀ {ls e e'}, x ls = .fail e → y ls = .fail e' →
      z ls = .fail (e.furthest e') ∨ z ls = .fail (e'.furthest e)) :
    z.Reaches (yields lexemes (fun t => P t ∨ Q t)) := by
  refine ⟨hz.mem_yields, fun ls => ?_⟩
  rw [yields_or]
  have hxs := hxr.stops ls
  have hys := hyr.stops ls
  cases hxls : x ls with
  | ok b rest alt =>
    rw [hfirst hxls, ← hxls]
    exact hx.stops_of_accepts hu ⟨alt, hxls⟩ hxs
  | fail e =>
    cases hyls : y ls with
    | ok b rest alt =>
      rw [hsecond hxls hyls, ← hyls, add_comm]
      exact hy.stops_of_accepts hu ⟨alt, hyls⟩ hys
    | fail e' =>
      rw [hxls] at hxs
      rw [hyls] at hys
      rcases hneither hxls hyls with hzls | hzls
      · rw [hzls, Reply.frontier, rest_furthest]
        exact hxs.further hys fun _ _ _ => viable_add
      · rw [hzls, Reply.frontier, rest_furthest, add_comm]
        exact hys.further hxs fun _ _ _ => viable_add

theorem Rule.Reads.reaches_orElse (hu : Unambiguous lexemes) (hx : x.Reads lexemes value P)
    (hy : y.Reads lexemes value Q) (hxr : x.Reaches (yields lexemes P))
    (hyr : y.Reaches (yields lexemes Q)) :
    (Grammar.orElse x y).Reaches (yields lexemes (fun t => P t ∨ Q t)) := by
  refine reaches_of_either hu hx hy hxr hyr (Rule.Reads.orElse hu hx hy) ?_ ?_ ?_
  · intro ls b rest alt hxls
    rw [Grammar.orElse, hxls]
  · intro ls e b rest alt hxls hyls
    rw [Grammar.orElse, hxls, hyls]
  · intro ls e e' hxls hyls
    exact .inl (by rw [Grammar.orElse, hxls, hyls])

theorem choiceFrom_furthest (e e' : Failure) (xs : List (Rule β)) (ls : List Lexeme) :
    choiceFrom (e'.furthest e) xs ls =
      match choiceFrom e' xs ls with
      | .ok b rest alt => .ok b rest alt
      | .fail f => .fail (f.furthest e) := by
  induction xs generalizing e' with
  | nil => rfl
  | cons x xs ih =>
    rw [choiceFrom, choiceFrom]
    cases x ls with
    | ok b rest alt => rfl
    | fail f =>
      dsimp only
      rw [← Failure.furthest_assoc, ih]

theorem choice_cons_of_fail {ys : List (Rule β)} {ls : List Lexeme} {e : Failure}
    (h : x ls = .fail e) :
    choice x (y :: ys) ls =
      match choice y ys ls with
      | .ok b rest alt => .ok b rest alt
      | .fail f => .fail (f.furthest e) := by
  rw [choice, h]
  dsimp only
  rw [choiceFrom, choice]
  cases y ls with
  | ok b rest alt => rfl
  | fail f => exact choiceFrom_furthest e f ys ls

theorem Rule.Reads.reaches_choice_cons {ys : List (Rule β)} (hu : Unambiguous lexemes)
    (hx : x.Reads lexemes value P) (hys : (choice y ys).Reads lexemes value Q)
    (hxr : x.Reaches (yields lexemes P)) (hysr : (choice y ys).Reaches (yields lexemes Q)) :
    (choice x (y :: ys)).Reaches (yields lexemes (fun t => P t ∨ Q t)) := by
  refine reaches_of_either hu hx hys hxr hysr (hx.choice_cons hu hys) ?_ ?_ ?_
  · intro ls b rest alt hxls
    rw [choice, hxls]
  · intro ls e b rest alt hxls hyls
    rw [choice_cons_of_fail hxls, hyls]
  · intro ls e e' hxls hyls
    exact .inr (by rw [choice_cons_of_fail hxls, hyls])

theorem Rule.Reaches.choice_nil {L : Language Lexeme} (hx : x.Reaches L) : (choice x []).Reaches L := by
  have hchoice : choice x [] = x := by
    funext ls
    rw [choice]
    cases x ls <;> rfl
  rwa [hchoice]

/-! ## Rules that may be left out -/

theorem Rule.Reads.takes_optional (hx : x.Reads lexemes value P) {p : Lexeme → Prop}
    (hp : ∀ t, P t → ∃ l more, lexemes t = l :: more ∧ p l) :
    (optional x).Takes (1 + yields lexemes P) p := by
  constructor
  · intro ls o rest h
    rcases accepts_optional.1 h with ⟨b, -, hb⟩ | ⟨-, rfl, -⟩
    · obtain ⟨w, hw, hls⟩ := hx.takes.sound hb
      exact ⟨w, .inr hw, hls⟩
    · exact ⟨[], .inl rfl, rfl⟩
  · rintro ls o rest h w (rfl | ⟨t, ht, rfl⟩) rest' hls
    · rcases accepts_optional.1 h with ⟨b, -, hb⟩ | ⟨-, rfl, -⟩
      · obtain ⟨t, ht, hls', -⟩ := (hx _ _ _).1 hb
        obtain ⟨l, more, hl, hpl⟩ := hp t ht
        refine .inr ⟨l, more ++ rest, ?_, hpl⟩
        rw [← List.cons_append, ← hl, ← hls', hls, List.nil_append]
      · rw [List.nil_append] at hls
        exact .inl hls.symm
    · have hb : x.Accepts ls (value t) rest' := (hx _ _ _).2 ⟨t, ht, hls, rfl⟩
      exact .inl ((accepts_optional.2 (.inl ⟨_, rfl, hb⟩)).unique h).2
  · intro ls hr
    rcases x.accepts_or_rejects ls with ⟨b, rest, hb⟩ | hr'
    · exact absurd (accepts_optional.2 (.inl ⟨b, rfl, hb⟩)) (hr _ _)
    · exact absurd (accepts_optional.2 (.inr ⟨rfl, rfl, hr'⟩)) (hr _ _)

theorem Rule.Reads.reaches_optional (hx : x.Reads lexemes value P)
    (hxr : x.Reaches (yields lexemes P)) : (optional x).Reaches (1 + yields lexemes P) := by
  constructor
  · intro w
    constructor
    · intro hw
      rcases x.accepts_or_rejects w with ⟨b, rest, hb⟩ | hr
      · rcases hw with rfl | hw
        · obtain ⟨v, -, hv⟩ := hx.takes.sound hb
          obtain ⟨rfl, rfl⟩ := List.append_eq_nil_iff.1 hv.symm
          exact ⟨some b, accepts_optional.2 (.inl ⟨b, rfl, hb⟩)⟩
        · obtain ⟨b, hb⟩ := (hx.mem_yields w).1 hw
          exact ⟨some b, accepts_optional.2 (.inl ⟨b, rfl, hb⟩)⟩
      · rcases hw with rfl | hw
        · exact ⟨none, accepts_optional.2 (.inr ⟨rfl, rfl, hr⟩)⟩
        · exact absurd (List.append_nil w).symm (hx.takes.complete hr w hw [])
    · rintro ⟨o, h⟩
      rcases accepts_optional.1 h with ⟨b, -, hb⟩ | ⟨-, rfl, -⟩
      · exact .inr ((hx.mem_yields w).2 ⟨b, hb⟩)
      · exact .inl rfl
  · intro ls
    have hstops := hxr.stops ls
    cases hxls : x ls with
    | ok b rest alt =>
      have hoptional : optional x ls = .ok (some b) rest alt := by rw [optional, hxls]
      rw [hxls] at hstops
      rw [hoptional]
      exact hstops.one_add
    | fail e =>
      have hoptional : optional x ls = .ok none ls (some e) := by rw [optional, hxls]
      rw [hxls] at hstops
      have hbeyond : beyond ls (some e) = e.rest := hstops.further_self
      rw [hoptional, Reply.frontier, hbeyond]
      exact hstops.one_add

/-! ## Repetition -/

theorem mem_kstar_yields {w : List Lexeme} :
    w ∈ (yields lexemes (fun _ => True))∗ ↔ ∃ ts : List T, w = ts.flatMap lexemes := by
  constructor
  · intro hw
    obtain ⟨ws, rfl, hws⟩ := Language.mem_kstar.1 hw
    clear hw
    induction ws with
    | nil => exact ⟨[], rfl⟩
    | cons v ws ih =>
      obtain ⟨t, -, rfl⟩ := hws v List.mem_cons_self
      obtain ⟨ts, hts⟩ := ih fun u hu => hws u (List.mem_cons_of_mem _ hu)
      exact ⟨t :: ts, by rw [List.flatten_cons, List.flatMap_cons, hts]⟩
  · rintro ⟨ts, rfl⟩
    refine Language.mem_kstar.2 ⟨ts.map lexemes, List.flatMap_def, fun w hw => ?_⟩
    obtain ⟨t, -, rfl⟩ := List.mem_map.1 hw
    exact ⟨t, trivial, rfl⟩

theorem Rule.Reads.takes_many (hne : ∀ t, lexemes t ≠ [])
    (hx : x.Reads lexemes value (fun _ => True)) {p : Lexeme → Prop}
    (hp : ∀ t, ∃ l more, lexemes t = l :: more ∧ p l) :
    (many x).Takes ((yields lexemes (fun _ => True))∗) p := by
  constructor
  · intro ls bs rest h
    obtain ⟨ts, hls, -, -⟩ := (hx.accepts_many hne).1 h
    exact ⟨ts.flatMap lexemes, mem_kstar_yields.2 ⟨ts, rfl⟩, hls⟩
  · intro ls bs rest h w hw rest' hls
    obtain ⟨ts, rfl⟩ := mem_kstar_yields.1 hw
    rcases x.accepts_or_rejects rest' with ⟨b, rest'', hb⟩ | hr
    · obtain ⟨t, -, rfl, -⟩ := (hx _ _ _).1 hb
      obtain ⟨l, more, hl, hpl⟩ := hp t
      exact .inr ⟨l, more ++ rest'', by rw [hl, List.cons_append], hpl⟩
    · exact .inl (((hx.accepts_many hne).2 ⟨ts, hls, rfl, hr⟩).unique h).2
  · intro ls hr
    exact absurd ⟨_, rfl⟩ (hr _ _)

theorem Rule.Reads.reaches_many (hne : ∀ t, lexemes t ≠ [])
    (hx : x.Reads lexemes value (fun _ => True))
    (hxr : x.Reaches (yields lexemes (fun _ => True))) :
    (many x).Reaches ((yields lexemes (fun _ => True))∗) := by
  have hkstar := Language.one_add_self_mul_kstar_eq_kstar (yields lexemes (fun _ => True))
  constructor
  · intro w
    simp only [mem_kstar_yields, hx.accepts_many hne]
    constructor
    · rintro ⟨ts, rfl⟩
      refine ⟨ts.map value, ts, by rw [List.append_nil], rfl, fun b rest h => ?_⟩
      obtain ⟨t, -, hnil, -⟩ := (hx _ _ _).1 h
      exact hne t (List.append_eq_nil_iff.1 hnil.symm).1
    · rintro ⟨bs, ts, rfl, -, -⟩
      exact ⟨ts, List.append_nil _⟩
  · intro ls
    show Stops _ ls (beyond (manyFrom x ls).rest (manyFrom x ls).alt)
    fun_induction manyFrom x ls with
    | case1 ls e hfail =>
      have hstops := hxr.stops ls
      rw [hfail] at hstops
      have hbeyond : beyond ls (some e) = e.rest := hstops.further_self
      rw [hbeyond, ← hkstar]
      refine (hx.takes.stops_of_rejects (Rule.rejects_of_fail hfail) hstops ?_).one_add
      exact ⟨[], Language.nil_mem_kstar _⟩
    | case2 ls b rest alt hok hlt more ih =>
      have hstops := hxr.stops ls
      rw [hok] at hstops
      rw [beyond_furthest?, beyond_eq_further alt ih.length_le, ← hkstar]
      exact (hx.takes.stops_of_accepts ⟨alt, hok⟩ hstops ih fun _ _ h => h.elim).one_add
    | case3 ls b rest alt hok hge =>
      obtain ⟨t, -, rfl, -⟩ := (hx _ _ _).1 ⟨alt, hok⟩
      have hpos := List.length_pos_iff.2 (hne t)
      rw [List.length_append] at hge
      omega

end Trees

end MaterialScript.Grammar
