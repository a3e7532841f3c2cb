import MaterialScript.Proofs.Output.JsonReader

/-!
# The JSON text of data

The text of data is a JSON text, and it is read back to what the data stands for: lists and records by
induction on the data, with the entries of each bracket read one after the other.

* `Data.induction` : induction on data;
* `Data.toJson` : what data stands for as a JSON text;
* `ReadsEntry` : a text is read back, behind blanks and in front of any text that stops a number;
* `entries?_inner`, `sequence?_block` : entries between brackets are read back;
* `value?_value` : the text of data is read back, in front of any text that may follow;
* `read?_value` : whole texts.
-/

namespace MaterialScript

open Lexer Number

/-! ## Induction on data -/

/-- A property of all data is shown of scalars, and of lists, records and values with a tag if it is so of
what they hold. -/
theorem Data.induction {P : Data → Prop} (null : P .null) (bool : ∀ b, P (.bool b))
    (nat : ∀ n, P (.nat n)) (float : ∀ x, P (.float x)) (text : ∀ s, P (.text s))
    (list : ∀ items, (∀ v ∈ items, P v) → P (.list items))
    (record : ∀ fields, (∀ f ∈ fields, P f.2) → P (.record fields))
    (variant : ∀ tag v, P v → P (.variant tag v)) : ∀ data, P data
  | .null => null
  | .bool b => bool b
  | .nat n => nat n
  | .float x => float x
  | .text s => text s
  | .list items =>
    list items fun v _ => induction null bool nat float text list record variant v
  | .record fields =>
    record fields fun f _ => induction null bool nat float text list record variant f.2
  | .variant tag v => variant tag v (induction null bool nat float text list record variant v)
termination_by data => sizeOf data
decreasing_by
  · have hlt := List.sizeOf_lt_of_mem ‹_ ∈ items›
    simp only [Data.list.sizeOf_spec]
    omega
  · have hlt := List.sizeOf_lt_of_mem ‹f ∈ fields›
    have hpair : sizeOf f = 1 + sizeOf f.1 + sizeOf f.2 := rfl
    simp only [Data.record.sizeOf_spec]
    omega
  · simp only [Data.variant.sizeOf_spec]
    omega

/-! ## What data stands for -/

/-- What a float stands for: the decimal it is written as, if it is finite. -/
def Json.floatValue (x : Binary32) : Json.Value :=
  match Decimal.read? (Json.number x).toList with
  | some (negative, magnitude) => .number negative magnitude
  | none => .null

mutual

def Data.toJson : Data → Json.Value
  | .null => .null
  | .bool b => .bool b
  | .nat n => .number false ⟨n, 0⟩
  | .float x => Json.floatValue x
  | .text s => .string s
  | .list items => .array (Data.listToJson items)
  | .record fields => .object (Data.fieldsToJson fields)
  | .variant tag v => .object [(tag, v.toJson)]

def Data.listToJson : List Data → List Json.Value
  | [] => []
  | v :: vs => v.toJson :: Data.listToJson vs

def Data.fieldsToJson : List (String × Data) → List (String × Json.Value)
  | [] => []
  | (name, v) :: fields => (name, v.toJson) :: Data.fieldsToJson fields

end

theorem Data.listToJson_eq (items : List Data) : Data.listToJson items = items.map Data.toJson := by
  induction items with
  | nil => rfl
  | cons v items ih => rw [Data.listToJson, ih, List.map_cons]

theorem Data.fieldsToJson_eq (fields : List (String × Data)) :
    Data.fieldsToJson fields = fields.map fun f => (f.1, f.2.toJson) := by
  induction fields with
  | nil => rfl
  | cons f fields ih =>
    obtain ⟨name, v⟩ := f
    rw [Data.fieldsToJson, ih, List.map_cons]

namespace Json

theorem values_eq (level : Nat) (items : List Data) : values level items = items.map (value level) := by
  induction items with
  | nil => rfl
  | cons v items ih => rw [values, ih, List.map_cons]

def entry (level : Nat) (field : String × Data) : String :=
  string field.1 ++ ": " ++ value level field.2

theorem entries_eq (level : Nat) (fields : List (String × Data)) :
    entries level fields = fields.map (entry level) := by
  induction fields with
  | nil => rfl
  | cons f fields ih =>
    obtain ⟨name, v⟩ := f
    rw [entries, ih, List.map_cons, entry]

/-! ## Brackets -/

theorem isSpace_lineStart (level : Nat) : ∀ c ∈ (lineStart level).toList, isSpace c = true := by
  intro c hc
  rw [lineStart, String.toList_append] at hc
  rcases List.mem_append.1 hc with hc | hc
  · obtain rfl : c = '\n' := by simpa using hc
    rfl
  · rw [String.toList_ofList] at hc
    rw [List.eq_of_mem_replicate hc]
    rfl

theorem stops_cons {c : Char} (h : isNumeric c = false) (cs : List Char) : Stops (c :: cs) := by
  rintro _ ⟨⟩
  exact h

theorem stops_lineStart (level : Nat) (rest : List Char) : Stops ((lineStart level).toList ++ rest) := by
  rw [lineStart, String.toList_append, List.append_assoc]
  exact stops_cons rfl _

/-- The text between brackets of entries at a level, and the text after it. -/
def inner (level : Nat) (texts : List (List Char)) (after : List Char) : List Char :=
  (lineStart (level + 1)).toList ++
    ((',' :: (lineStart (level + 1)).toList).intercalate texts ++ ((lineStart level).toList ++ after))

theorem inner_singleton (level : Nat) (t after : List Char) :
    inner level [t] after =
      (lineStart (level + 1)).toList ++ (t ++ ((lineStart level).toList ++ after)) := by
  rw [inner, List.intercalate_singleton]

theorem inner_cons_cons (level : Nat) (t u : List Char) (ts : List (List Char)) (after : List Char) :
    inner level (t :: u :: ts) after =
      (lineStart (level + 1)).toList ++ (t ++ ',' :: inner level (u :: ts) after) := by
  simp [inner, List.intercalate_cons_cons]

theorem exists_skip_inner (level : Nat) {t : List Char} (ts : List (List Char)) (after : List Char)
    {c : Char} {cs : List Char} (ht : t = c :: cs) (hc : isSpace c = false) :
    ∃ more, skip (inner level (t :: ts) after) = c :: more := by
  have hblanks := isSpace_lineStart (level + 1)
  cases ts with
  | nil =>
    rw [inner_singleton, skip_append hblanks, ht, List.cons_append, skip_cons hc]
    exact ⟨_, rfl⟩
  | cons u ts =>
    rw [inner_cons_cons, skip_append hblanks, ht, List.cons_append, skip_cons hc]
    exact ⟨_, rfl⟩

/-- The entries take room: as much as each of them, and as many characters as there are entries. -/
theorem length_le_inner (level : Nat) (ts : List (List Char)) (after : List Char) :
    (∀ t ∈ ts, t.length + after.length < (inner level ts after).length) ∧
      ts.length ≤ (inner level ts after).length := by
  have hline : 0 < (lineStart level).toList.length := by simp [lineStart]
  induction ts with
  | nil => exact ⟨by simp, Nat.zero_le _⟩
  | cons u ts ih =>
    cases ts with
    | nil =>
      rw [inner_singleton]
      simp only [List.mem_singleton, forall_eq, List.length_append, List.length_singleton]
      omega
    | cons v ts =>
      obtain ⟨hle, hcard⟩ := ih
      rw [inner_cons_cons]
      simp only [List.length_append, List.length_cons] at hle hcard ⊢
      refine ⟨List.forall_mem_cons.2 ⟨?_, fun t ht => ?_⟩, by omega⟩
      · have := hle v List.mem_cons_self
        omega
      · have := hle t ht
        omega

theorem toList_block (level : Nat) (left right : String) {texts : List String} (hne : texts ≠ []) :
    (block level left right texts).toList =
      left.toList ++ inner level (texts.map String.toList) right.toList := by
  cases texts with
  | nil => exact absurd rfl hne
  | cons t ts =>
    rw [block]
    · simp [inner, String.toList_intercalate]
    · simp

theorem length_lt_block (level : Nat) (left right : String) (hright : right.toList.length = 1)
    {texts : List String} {t : String} (ht : t ∈ texts) :
    t.toList.length < (block level left right texts).toList.length := by
  have hlt := (length_le_inner level (texts.map String.toList) right.toList).1 t.toList
    (List.mem_map_of_mem ht)
  rw [toList_block level left right (List.ne_nil_of_mem ht), List.length_append]
  omega

section Sequences
variable {α : Type} {close : Char} {entry : List Char → Option (α × List Char)}

/-- The text of an entry is read back behind blanks, in front of any text that may follow. -/
def ReadsEntry (entry : List Char → Option (α × List Char)) (text : String) (x : α) : Prop :=
  ∀ blanks rest, (∀ c ∈ blanks, isSpace c = true) → Stops rest →
    entry (blanks ++ (text.toList ++ rest)) = some (x, rest)

/-- **Entries on lines of their own are read back**, one after the other. -/
theorem entries?_inner (hclose : isSpace close = false) (hcomma : close ≠ ',') (level : Nat)
    {ps : List (String × α)} (hne : ps ≠ []) (h : ∀ p ∈ ps, ReadsEntry entry p.1 p.2)
    {n : Nat} (hn : ps.length ≤ n) (rest : List Char) :
    entries? close entry n (inner level (ps.map fun p => p.1.toList) (close :: rest)) =
      some (ps.map Prod.snd, rest) := by
  have hblanks := isSpace_lineStart (level + 1)
  induction ps generalizing n with
  | nil => exact absurd rfl hne
  | cons p ps ih =>
    obtain ⟨hp, hps⟩ := List.forall_mem_cons.1 h
    obtain ⟨k, rfl⟩ : ∃ k, n = k + 1 := ⟨n - 1, by rw [List.length_cons] at hn; omega⟩
    cases ps with
    | nil =>
      have hread := hp _ _ hblanks (stops_lineStart level (close :: rest))
      have hskip : skip ((lineStart level).toList ++ close :: rest) = close :: rest := by
        rw [skip_append (isSpace_lineStart level), skip_cons hclose]
      rw [List.map_singleton, inner_singleton, entries?, hread, Option.bind_eq_bind,
        Option.bind_some]
      dsimp only
      rw [hskip]
      dsimp only
      rw [if_neg hcomma, if_pos rfl]
      rfl
    | cons q ps =>
      have hmore := ih (List.cons_ne_nil q ps) hps (n := k)
        (by simp only [List.length_cons] at hn ⊢; omega)
      have hread := fun more => hp _ (',' :: more) hblanks (stops_cons rfl more)
      rw [List.map_cons] at hmore
      rw [List.map_cons, List.map_cons, inner_cons_cons, entries?, hread, Option.bind_eq_bind,
        Option.bind_some]
      dsimp only
      rw [skip_cons rfl]
      dsimp only
      rw [if_pos rfl, hmore]
      rfl

/-- **Entries between brackets are read back.** -/
theorem sequence?_block (level : Nat) (left : String) {right : String} (hright : right.toList = [close])
    (hclose : isSpace close = false) (hcomma : close ≠ ',') {ps : List (String × α)}
    (h : ∀ p ∈ ps, ReadsEntry entry p.1 p.2)
    (hhead : ∀ p ∈ ps, ∃ c cs, p.1.toList = c :: cs ∧ isSpace c = false ∧ c ≠ close) :
    ∃ body, (block level left right (ps.map Prod.fst)).toList = left.toList ++ body ∧
      ∀ rest, sequence? close entry (body ++ rest) = some (ps.map Prod.snd, rest) := by
  cases ps with
  | nil =>
    refine ⟨[close], by simp [block, hright], fun rest => ?_⟩
    rw [List.singleton_append, sequence?, skip_cons hclose]
    exact if_pos rfl
  | cons p ps =>
    refine ⟨_, toList_block level left right (by simp), fun rest => ?_⟩
    obtain ⟨c, cs, htext, hc, hne⟩ := hhead p List.mem_cons_self
    have hbody : inner level (((p :: ps).map Prod.fst).map String.toList) right.toList ++ rest =
        inner level ((p :: ps).map fun p => p.1.toList) (close :: rest) := by
      rw [List.map_map, hright, inner, inner]
      simp [Function.comp_def]
    obtain ⟨more, hskip⟩ := exists_skip_inner level (ps.map fun p => p.1.toList) (close :: rest)
      htext hc
    have hcard := (length_le_inner level ((p :: ps).map fun p => p.1.toList) (close :: rest)).2
    rw [List.length_map] at hcard
    rw [hbody, sequence?, List.map_cons, hskip]
    dsimp only
    rw [if_neg hne, ← List.map_cons (f := fun p : String × α => p.1.toList)]
    exact entries?_inner hclose hcomma level (List.cons_ne_nil p ps) h hcard rest

end Sequences

/-! ## Data -/

theorem ne_of_isNumeric {c : Char} (h : isNumeric c = true) :
    isSpace c = false ∧ ∀ d ∈ ['n', 't', 'f', '"', '[', '{', ']', '}'], c ≠ d := by
  have hne : ∀ d, isNumeric d = false → c ≠ d := by
    rintro d hd rfl
    rw [h] at hd
    cases hd
  refine ⟨?_, ?_⟩
  · simp [isSpace, hne ' ' (by decide), hne '\t' (by decide), hne '\n' (by decide),
      hne '\r' (by decide)]
  · intro d hd
    have hall : ['n', 't', 'f', '"', '[', '{', ']', '}'].all (fun d => !isNumeric d) = true := by
      decide
    exact hne d (by simpa using List.all_eq_true.1 hall d hd)

theorem value?_numeric {blanks cs : List Char} {c : Char} (hblanks : ∀ d ∈ blanks, isSpace d = true)
    (hc : isNumeric c = true) (depth : Nat) :
    value? (depth + 1) (blanks ++ c :: cs) = number? (c :: cs) := by
  obtain ⟨hspace, hne⟩ := ne_of_isNumeric hc
  simp only [List.forall_mem_cons] at hne
  rw [value?, skip_append hblanks, skip_cons hspace]
  split <;> simp_all

theorem value?_literal (n : NumberLiteral) (hzero : leadingZero n.text = false)
    {blanks rest : List Char} (hblanks : ∀ d ∈ blanks, isSpace d = true) (hrest : Stops rest)
    (depth : Nat) : value? (depth + 1) (blanks ++ (n.text ++ rest)) =
      some (.number n.negative n.decimal, rest) := by
  have hmem : n.text ∈ Pattern.number.language := NumberLiteral.mem_number_iff.2 ⟨n, rfl⟩
  obtain ⟨c, cs, htext, -⟩ := ofLead?_of_mem hmem
  have hc : isNumeric c = true := isNumeric_of_mem_number hmem c (by simp [htext])
  rw [← number?_text n hzero hrest, htext]
  exact value?_numeric hblanks hc depth

theorem exists_literal_nat (n : Nat) : ∃ l : NumberLiteral, l.text = (toString n).toList ∧
    l.negative = false ∧ l.decimal = ⟨n, 0⟩ ∧ leadingZero l.text = false := by
  have htext : (toString n).toList = Nat.toDigits 10 n := Nat.toList_repr
  let l : NumberLiteral :=
    { negative := false, whole := Nat.toDigits 10 n, places := none, exponent := none
      whole_mem := toDigits_mem_digits n, places_mem := by simp }
  have hl : l.text = Nat.toDigits 10 n := by
    simp [l, NumberLiteral.text, NumberLiteral.fractionText, NumberLiteral.exponentText, signed]
  have hdecimal : l.decimal = ⟨n, 0⟩ := by
    have hdigits : digitsValue (Nat.toDigits 10 n ++ []) = n := by
      rw [List.append_nil, digitsValue_toDigits]
    exact congrArg₂ Decimal.mk hdigits rfl
  refine ⟨l, by rw [hl, htext], rfl, hdecimal, ?_⟩
  rw [hl]
  rcases Nat.eq_zero_or_pos n with rfl | hpos
  · rfl
  · exact leadingZero_of_significant (significant_toDigits hpos) false

theorem exists_literal_number {x : Binary32} (hx : x.isFinite = true) :
    ∃ l : NumberLiteral, l.text = (number x).toList ∧ l.negative = x.negative ∧
      Format.binary32.ofDecimal l.decimal = x.code ∧ leadingZero l.text = false ∧
      floatValue x = .number l.negative l.decimal := by
  have hplus : floatStyle.plus.toList = [] ∨ floatStyle.plus.toList = ['+'] := .inr rfl
  obtain ⟨l, htext, hsign, hcode, hzero⟩ := Binary32.exists_literal_scaled hx hplus
  have hnumber : number x = x.scaledText floatStyle := if_pos hx
  refine ⟨l, by rw [hnumber, htext], hsign, hcode, by rw [htext, hzero], ?_⟩
  rw [floatValue, hnumber, ← htext, l.read?_text]

/-- A text has a first character that is no blank and closes no bracket. -/
def Opens (cs : List Char) : Prop := ∃ c more, cs = c :: more ∧ isSpace c = false ∧ c ≠ ']' ∧ c ≠ '}'

theorem opens_literal (l : NumberLiteral) : Opens l.text := by
  have hmem : l.text ∈ Pattern.number.language := NumberLiteral.mem_number_iff.2 ⟨l, rfl⟩
  obtain ⟨c, cs, htext, -⟩ := ofLead?_of_mem hmem
  obtain ⟨hspace, hne⟩ := ne_of_isNumeric (isNumeric_of_mem_number hmem c (by simp [htext]))
  exact ⟨c, cs, htext, hspace, hne _ (by simp), hne _ (by simp)⟩

theorem opens_string (s : String) (cs : List Char) : Opens ((string s).toList ++ cs) := by
  rw [string, String.toList_ofList]
  exact ⟨'"', _, rfl, by decide, by decide, by decide⟩

theorem opens_block (level : Nat) {left right : String} {c : Char} (hleft : left.toList = [c])
    (hc : isSpace c = false ∧ c ≠ ']' ∧ c ≠ '}') (texts : List String) :
    Opens (block level left right texts).toList := by
  have hfront : ∃ more, (block level left right texts).toList = c :: more := by
    cases texts with
    | nil => exact ⟨right.toList, by simp [block, hleft]⟩
    | cons t ts =>
      rw [toList_block level left right (List.cons_ne_nil t ts), hleft]
      exact ⟨_, rfl⟩
  obtain ⟨more, hmore⟩ := hfront
  exact ⟨c, more, hmore, hc⟩

theorem opens_null : Opens "null".toList :=
  ⟨'n', _, rfl, by decide, by decide, by decide⟩

theorem opens_value (level : Nat) (data : Data) : Opens (value level data).toList := by
  cases data with
  | null =>
    rw [value]
    exact opens_null
  | bool b =>
    rw [value]
    cases b with
    | false => exact ⟨'f', _, rfl, by decide, by decide, by decide⟩
    | true => exact ⟨'t', _, rfl, by decide, by decide, by decide⟩
  | nat n =>
    obtain ⟨l, htext, -⟩ := exists_literal_nat n
    rw [value, ← htext]
    exact opens_literal l
  | float x =>
    by_cases hx : x.isFinite = true
    · obtain ⟨l, htext, -⟩ := exists_literal_number hx
      rw [value, ← htext]
      exact opens_literal l
    · rw [value, number, if_neg hx]
      exact opens_null
  | text s =>
    have hopens := opens_string s []
    rw [List.append_nil] at hopens
    rw [value]
    exact hopens
  | list items =>
    rw [value]
    exact opens_block level rfl (by decide) _
  | record fields =>
    rw [value]
    exact opens_block level rfl (by decide) _
  | variant tag v =>
    rw [value]
    exact opens_block level rfl (by decide) _

theorem value?_string (s : String) {blanks : List Char} (hblanks : ∀ d ∈ blanks, isSpace d = true)
    (rest : List Char) (depth : Nat) :
    value? (depth + 1) (blanks ++ ((string s).toList ++ rest)) = some (.string s, rest) := by
  have htext : (string s).toList ++ rest = '"' :: (s.toList.flatMap escape ++ '"' :: rest) := by
    simp [string]
  rw [htext, value?_quote hblanks, string?_content, Option.map_some, String.ofList_toList]

theorem readsEntry_member {depth level : Nat} {field : String × Data}
    (h : ReadsEntry (value? depth) (value level field.2) field.2.toJson) :
    ReadsEntry (member? (value? depth)) (entry level field) (field.1, field.2.toJson) := by
  intro blanks rest hblanks hrest
  have htext : (entry level field).toList ++ rest = '"' :: (field.1.toList.flatMap escape ++
      '"' :: ':' :: ([' '] ++ ((value level field.2).toList ++ rest))) := by
    simp [entry, string]
  have hblank : ∀ c ∈ [' '], isSpace c = true := by simp [isSpace]
  rw [htext, member?_content hblanks, h [' '] rest hblank hrest, Option.map_some,
    String.ofList_toList]

theorem value?_list {depth level : Nat} {items : List Data}
    (h : ∀ v ∈ items, ReadsEntry (value? depth) (value (level + 1) v) v.toJson)
    {blanks : List Char} (hblanks : ∀ d ∈ blanks, isSpace d = true) (rest : List Char) :
    value? (depth + 1) (blanks ++ ((value level (.list items)).toList ++ rest)) =
      some (Data.toJson (.list items), rest) := by
  let ps := items.map fun v => (value (level + 1) v, v.toJson)
  have hps : ∀ p ∈ ps, ReadsEntry (value? depth) p.1 p.2 := by
    intro p hp
    obtain ⟨v, hv, rfl⟩ := List.mem_map.1 hp
    exact h v hv
  have hhead : ∀ p ∈ ps, ∃ c cs, p.1.toList = c :: cs ∧ isSpace c = false ∧ c ≠ ']' := by
    intro p hp
    obtain ⟨v, -, rfl⟩ := List.mem_map.1 hp
    obtain ⟨c, more, hfront, hspace, hbracket, -⟩ := opens_value (level + 1) v
    exact ⟨c, more, hfront, hspace, hbracket⟩
  have hright : "]".toList = [']'] := rfl
  obtain ⟨body, htext, hread⟩ := sequence?_block level "[" hright rfl (by decide) hps hhead
  have hvalue : (value level (.list items)).toList = '[' :: body := by
    rw [value, values_eq]
    rw [List.map_map] at htext
    exact htext
  rw [hvalue, List.cons_append, value?_bracket hblanks, hread, Option.map_some, Data.toJson,
    Data.listToJson_eq, List.map_map]
  rfl

theorem value?_record {depth level : Nat} {fields : List (String × Data)}
    (h : ∀ f ∈ fields, ReadsEntry (value? depth) (value (level + 1) f.2) f.2.toJson)
    {blanks : List Char} (hblanks : ∀ d ∈ blanks, isSpace d = true) (rest : List Char) :
    value? (depth + 1) (blanks ++ ((value level (.record fields)).toList ++ rest)) =
      some (Data.toJson (.record fields), rest) := by
  let ps := fields.map fun f => (entry (level + 1) f, (f.1, f.2.toJson))
  have hps : ∀ p ∈ ps, ReadsEntry (member? (value? depth)) p.1 p.2 := by
    intro p hp
    obtain ⟨f, hf, rfl⟩ := List.mem_map.1 hp
    exact readsEntry_member (h f hf)
  have hhead : ∀ p ∈ ps, ∃ c cs, p.1.toList = c :: cs ∧ isSpace c = false ∧ c ≠ '}' := by
    intro p hp
    obtain ⟨f, -, rfl⟩ := List.mem_map.1 hp
    obtain ⟨c, more, hfront, hspace, -, hbrace⟩ :=
      opens_string f.1 (": " ++ value (level + 1) f.2).toList
    refine ⟨c, more, ?_, hspace, hbrace⟩
    rw [← hfront]
    simp [entry]
  have hright : "\x7d".toList = ['}'] := rfl
  obtain ⟨body, htext, hread⟩ := sequence?_block level "\x7b" hright rfl (by decide) hps hhead
  have hvalue : (value level (.record fields)).toList = '{' :: body := by
    rw [value, entries_eq]
    rw [List.map_map] at htext
    exact htext
  rw [hvalue, List.cons_append, value?_brace hblanks, hread, Option.map_some, Data.toJson,
    Data.fieldsToJson_eq, List.map_map]
  rfl

/-- A value with a tag is written as the record of that field. -/
theorem value_variant (level : Nat) (tag : String) (v : Data) :
    value level (.variant tag v) = value level (.record [(tag, v)]) := by
  rw [value, value, entries_eq]
  rfl

theorem length_lt_record (level : Nat) {fields : List (String × Data)} {f : String × Data}
    (hf : f ∈ fields) : (value (level + 1) f.2).toList.length <
      (value level (.record fields)).toList.length := by
  have hentry : entry (level + 1) f ∈ fields.map (entry (level + 1)) := List.mem_map_of_mem hf
  have hlt := length_lt_block level "\x7b" "\x7d" rfl hentry
  rw [entry, String.toList_append, List.length_append] at hlt
  rw [value, entries_eq]
  omega

theorem length_lt_list (level : Nat) {items : List Data} {v : Data} (hv : v ∈ items) :
    (value (level + 1) v).toList.length < (value level (.list items)).toList.length := by
  rw [value, values_eq]
  exact length_lt_block level _ _ rfl (List.mem_map_of_mem hv)

/-- Where there is room for the text of data there is a level for it. -/
theorem exists_depth {depth level : Nat} {data : Data}
    (h : (value level data).toList.length ≤ depth) : ∃ k, depth = k + 1 := by
  obtain ⟨c, more, hfront, -⟩ := opens_value level data
  rw [hfront, List.length_cons] at h
  exact ⟨depth - 1, by omega⟩

/-- **The text of data is read back**, behind blanks and in front of any text that stops a number, if it
has no more characters than levels are allowed. -/
theorem value?_value (data : Data) : ∀ {depth level : Nat},
    (value level data).toList.length ≤ depth →
      ReadsEntry (value? depth) (value level data) data.toJson := by
  -- By induction on the data: what stands in brackets has a shorter text, so one level less is
  -- enough for it.
  induction data using Data.induction with
  | null =>
    intro depth level hroom blanks rest hblanks _
    obtain ⟨k, rfl⟩ := exists_depth hroom
    rw [value]
    exact (value?_word hblanks rest k).1
  | bool b =>
    intro depth level hroom blanks rest hblanks _
    obtain ⟨k, rfl⟩ := exists_depth hroom
    rw [value]
    cases b with
    | false => exact (value?_word hblanks rest k).2.2
    | true => exact (value?_word hblanks rest k).2.1
  | nat n =>
    intro depth level hroom blanks rest hblanks hrest
    obtain ⟨k, rfl⟩ := exists_depth hroom
    obtain ⟨l, htext, hsign, hdecimal, hzero⟩ := exists_literal_nat n
    rw [value, ← htext, value?_literal l hzero hblanks hrest, hsign, hdecimal]
    rfl
  | float x =>
    intro depth level hroom blanks rest hblanks hrest
    obtain ⟨k, rfl⟩ := exists_depth hroom
    by_cases hx : x.isFinite = true
    · obtain ⟨l, htext, -, -, hzero, hfloat⟩ := exists_literal_number hx
      rw [value, ← htext, value?_literal l hzero hblanks hrest, Data.toJson, hfloat]
    · have hnull : number x = "null" := if_neg hx
      have hfloat : floatValue x = .null := by
        rw [floatValue, hnull]
        rfl
      rw [value, hnull, Data.toJson, hfloat]
      exact (value?_word hblanks rest k).1
  | text s =>
    intro depth level hroom blanks rest hblanks _
    obtain ⟨k, rfl⟩ := exists_depth hroom
    rw [value]
    exact value?_string s hblanks rest k
  | list items ih =>
    intro depth level hroom blanks rest hblanks _
    obtain ⟨k, rfl⟩ := exists_depth hroom
    refine value?_list (fun v hv => ih v hv ?_) hblanks rest
    have hlt := length_lt_list level hv
    omega
  | record fields ih =>
    intro depth level hroom blanks rest hblanks _
    obtain ⟨k, rfl⟩ := exists_depth hroom
    refine value?_record (fun f hf => ih f hf ?_) hblanks rest
    have hlt := length_lt_record level hf
    omega
  | variant tag v ih =>
    intro depth level hroom blanks rest hblanks _
    obtain ⟨k, rfl⟩ := exists_depth hroom
    have hjson : Data.toJson (.variant tag v) = Data.toJson (.record [(tag, v)]) := rfl
    rw [value_variant] at hroom ⊢
    rw [hjson]
    refine value?_record (fun f hf => ?_) hblanks rest
    have hlt := length_lt_record level hf
    obtain rfl := List.mem_singleton.1 hf
    refine ih ?_
    dsimp only at hlt
    omega

/-- **The text of data is a JSON text for it.** -/
theorem read?_value (data : Data) : read? (value 0 data) = some data.toJson := by
  have hread := value?_value data (Nat.le_refl (value 0 data).toList.length) [] [] (by simp)
    (by simp [Stops])
  rw [List.nil_append, List.append_nil] at hread
  rw [read?, hread]
  rfl

end Json

end MaterialScript
