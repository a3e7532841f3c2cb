import Mathlib.Data.List.Induction
import MaterialScript.Proofs.Translation.Trace
import MaterialScript.Registry

/-!
# How a registry numbers paths

A registry gives each path of a kind the number of paths of that kind before it, at the first call
that succeeds. From then on path and handle belong together.

* `Registry.changing` : a registry as a resolver while files come and go;
* `PathTable.Invertible` : paths and handles of a table belong together;
* `granted` : the paths of one kind that calls have loaded;
* `Registry.Records r cs` : the tables of a registry are those that the calls `cs` lead to;
* `Registry.Records.load` : one more call; `Registry.Records.serves` : the calls for requests;
* `Registry.Records.handle?_eq_some_iff`, `Registry.Records.lt_size_iff`,
  `Registry.Records.handle_eq_iff` : what follows for handles.
-/

namespace MaterialScript

open Grammar

/-- A registry as a resolver while files come and go: `isFile n` tells which files exist at the
call that has `n` calls before it. -/
def Registry.changing (isFile : Nat → String → Bool) : Resolver (Registry × Nat) where
  load kind path s :=
    let (answer, r) := Registry.load (isFile s.2) kind path s.1
    (answer, r, s.2 + 1)

theorem Registry.load_of_changing {isFile : Nat → String → Bool} {kind : ResourceKind}
    {path : String} {s s' : Registry × Nat} {answer : Except ResourceError (Handle kind)}
    (h : (changing isFile).load kind path s = (answer, s')) :
    Registry.load (isFile s.2) kind path s.1 = (answer, s'.1) := by
  unfold changing at h
  cases h
  rfl

/-! ## Tables -/

namespace PathTable

/-- Looking up a path and looking up a handle are inverse to each other. -/
def Invertible (t : PathTable) : Prop := ∀ path n, t.handle? path = some n ↔ t.path? n = some path

theorem lt_size_of_path? {t : PathTable} {n : Nat} {path : String} (h : t.path? n = some path) :
    n < t.size := by
  obtain ⟨hn, -⟩ := Array.getElem?_eq_some_iff.1 h
  exact hn

theorem path?_insert_of_path? {t : PathTable} {n : Nat} {path : String} (h : t.path? n = some path)
    (other : String) : (t.insert other).path? n = some path := by
  have hn := lt_size_of_path? h
  rw [path?_insert, if_neg (by omega), h]

theorem Invertible.insert {t : PathTable} (h : t.Invertible) {path : String}
    (hnew : t.handle? path = none) : (t.insert path).Invertible := by
  intro other n
  rw [handle?_insert, path?_insert]
  by_cases hpath : path = other
  · subst hpath
    rw [if_pos rfl]
    by_cases hn : n = t.size
    · simp [hn]
    · rw [if_neg hn, ← h path n, hnew]
      simp [Ne.symm hn]
  · rw [if_neg hpath]
    by_cases hn : n = t.size
    · subst hn
      rw [if_pos rfl, h other t.size]
      simp [hpath, path?, size]
    · rw [if_neg hn]
      exact h other n

end PathTable

/-! ## Calls that succeed -/

/-- The path of a call that loads a resource of a kind. -/
def Call.granted? (kind : ResourceKind) (c : Call) : Option String :=
  if c.kind = kind then
    match c.answer with
    | .ok _ => some c.path
    | .error _ => none
  else none

/-- The paths of one kind that calls have loaded, one for each call that succeeds. -/
def granted (kind : ResourceKind) (cs : List Call) : List String := cs.filterMap (Call.granted? kind)

@[simp] theorem granted_append (kind : ResourceKind) (cs cs' : List Call) :
    granted kind (cs ++ cs') = granted kind cs ++ granted kind cs' := List.filterMap_append

theorem granted?_eq_some {kind : ResourceKind} {c : Call} {path : String} :
    c.granted? kind = some path ↔ ∃ handle, c = ⟨kind, path, .ok handle⟩ := by
  rcases c with ⟨kind', path', answer⟩
  unfold Call.granted?
  by_cases hkind : kind' = kind
  · subst hkind
    rw [if_pos rfl]
    cases answer with
    | error e => simp
    | ok handle => simp
  · rw [if_neg hkind]
    constructor
    · intro h
      cases h
    · rintro ⟨handle, h⟩
      cases h
      exact absurd rfl hkind

theorem mem_granted {kind : ResourceKind} {cs : List Call} {path : String} :
    path ∈ granted kind cs ↔ ∃ handle, Call.mk kind path (.ok handle) ∈ cs := by
  unfold granted
  rw [List.mem_filterMap]
  constructor
  · rintro ⟨c, hc, hpath⟩
    obtain ⟨handle, rfl⟩ := granted?_eq_some.1 hpath
    exact ⟨handle, hc⟩
  · rintro ⟨handle, hc⟩
    exact ⟨_, hc, granted?_eq_some.2 ⟨handle, rfl⟩⟩

theorem eraseDups_concat (paths : List String) (path : String) :
    (paths ++ [path]).eraseDups =
      if path ∈ paths then paths.eraseDups else paths.eraseDups ++ [path] := by
  rw [List.eraseDups_append]
  by_cases h : path ∈ paths <;> simp [List.removeAll, h, List.eraseDups_cons]

theorem nodup_eraseDups (paths : List String) : paths.eraseDups.Nodup := by
  induction paths using List.reverseRecOn with
  | nil => exact List.nodup_nil
  | append_singleton paths path ih =>
    rw [eraseDups_concat]
    split
    · exact ih
    · next hnew =>
      rw [← List.concat_eq_append]
      exact ih.concat (by simpa using hnew)

theorem eraseDups_granted_concat (kind other : ResourceKind) (path : String) (handle : Handle kind)
    (cs : List Call) :
    (granted other (cs ++ [⟨kind, path, .ok handle⟩])).eraseDups =
      if kind = other ∧ path ∉ granted other cs then (granted other cs).eraseDups ++ [path]
      else (granted other cs).eraseDups := by
  rw [granted_append]
  by_cases hkind : kind = other
  · have hone : granted other [⟨kind, path, .ok handle⟩] = [path] := by
      simp [granted, Call.granted?, hkind]
    rw [hone, eraseDups_concat]
    by_cases hpath : path ∈ granted other cs <;> simp [hkind, hpath]
  · have hnone : granted other [⟨kind, path, .ok handle⟩] = [] := by
      simp [granted, Call.granted?, hkind]
    rw [hnone, List.append_nil, if_neg fun h => hkind h.1]

/-! ## Records -/

namespace Registry

/-- The tables of a registry are those that calls lead to: they list the loaded paths, each one where
it came first, the index is the inverse of that list, and every answer is the place of its path. -/
structure Records (r : Registry) (cs : List Call) : Prop where
  paths : ∀ kind, (r.table kind).paths.toList = (granted kind cs).eraseDups
  inverse : ∀ kind, (r.table kind).Invertible
  answered : ∀ kind path (handle : Handle kind), Call.mk kind path (.ok handle) ∈ cs →
    r.path? handle = some path

theorem records_empty (root : Option String) (check : Bool) : Records { root, check } [] := by
  refine ⟨fun kind => ?_, fun kind path n => ?_, fun kind path handle hc => ?_⟩
  · cases kind <;> rfl
  · cases kind <;> simp [table, PathTable.handle?, PathTable.path?]
  · cases hc

/-- What a call of a registry can do: answer from its table, number a new path, or deny it. -/
theorem load_cases (isFile : String → Bool) (kind : ResourceKind) (path : String) (r : Registry) :
    (∃ n, (r.table kind).handle? path = some n ∧ load isFile kind path r = (.ok ⟨n⟩, r)) ∨
    ((r.table kind).handle? path = none ∧ load isFile kind path r =
      (.ok ⟨(r.table kind).size⟩, r.setTable kind ((r.table kind).insert path))) ∨
    load isFile kind path r = (.error (.notFound kind path), r) := by
  unfold load
  cases hknown : (r.table kind).handle? path with
  | some n => exact .inl ⟨n, rfl, rfl⟩
  | none =>
    by_cases hadmits : r.admits isFile path = true
    · exact .inr (.inl ⟨rfl, if_pos hadmits⟩)
    · exact .inr (.inr (if_neg hadmits))

variable {r : Registry} {cs : List Call}

theorem Records.path?_eq (h : r.Records cs) (kind : ResourceKind) (n : Nat) :
    (r.table kind).path? n = (granted kind cs).eraseDups[n]? := by
  rw [← h.paths kind, PathTable.path?, Array.getElem?_toList]

theorem Records.handle?_isSome_iff (h : r.Records cs) (kind : ResourceKind) (path : String) :
    (∃ n, (r.table kind).handle? path = some n) ↔ path ∈ granted kind cs := by
  rw [← List.mem_eraseDups, List.mem_iff_getElem?]
  constructor
  · rintro ⟨n, hn⟩
    exact ⟨n, by rw [← h.path?_eq]; exact (h.inverse kind path n).1 hn⟩
  · rintro ⟨n, hn⟩
    exact ⟨n, (h.inverse kind path n).2 (by rw [h.path?_eq]; exact hn)⟩

theorem Records.answered_concat {r' : Registry} (h : r.Records cs)
    (hkeeps : ∀ (kind : ResourceKind) (handle : Handle kind) path,
      r.path? handle = some path → r'.path? handle = some path)
    {kind : ResourceKind} {path : String} {handle : Handle kind}
    (hnew : r'.path? handle = some path) :
    ∀ kind' path' (handle' : Handle kind'),
      Call.mk kind' path' (.ok handle') ∈ cs ++ [⟨kind, path, .ok handle⟩] →
        r'.path? handle' = some path' := by
  intro kind' path' handle' hc
  rcases List.mem_append.1 hc with hc | hc
  · exact hkeeps kind' handle' path' (h.answered kind' path' handle' hc)
  · cases List.mem_singleton.1 hc
    exact hnew

theorem Records.known (h : r.Records cs) {kind : ResourceKind} {path : String} {n : Nat}
    (hknown : (r.table kind).handle? path = some n) :
    r.Records (cs ++ [⟨kind, path, .ok ⟨n⟩⟩]) := by
  have hmem : path ∈ granted kind cs := (h.handle?_isSome_iff kind path).1 ⟨n, hknown⟩
  refine ⟨fun other => ?_, h.inverse,
    h.answered_concat (fun _ _ _ hpath => hpath) ((h.inverse kind path n).1 hknown)⟩
  rw [eraseDups_granted_concat, if_neg, h.paths]
  rintro ⟨rfl, hnot⟩
  exact hnot hmem

theorem Records.denied (h : r.Records cs) (kind : ResourceKind) (path : String)
    (e : ResourceError) : r.Records (cs ++ [⟨kind, path, .error e⟩]) := by
  refine ⟨fun other => ?_, h.inverse, fun kind' path' handle' hc => ?_⟩
  · have hnone : granted other [⟨kind, path, .error e⟩] = [] := by simp [granted, Call.granted?]
    rw [granted_append, hnone, List.append_nil, h.paths]
  · rcases List.mem_append.1 hc with hc | hc
    · exact h.answered kind' path' handle' hc
    · cases List.mem_singleton.1 hc

theorem Records.inserted (h : r.Records cs) {kind : ResourceKind} {path : String}
    (hnew : (r.table kind).handle? path = none) :
    (r.setTable kind ((r.table kind).insert path)).Records
      (cs ++ [⟨kind, path, .ok ⟨(r.table kind).size⟩⟩]) := by
  have hfresh : path ∉ granted kind cs := by
    intro hmem
    obtain ⟨n, hn⟩ := (h.handle?_isSome_iff kind path).2 hmem
    rw [hnew] at hn
    cases hn
  refine ⟨fun other => ?_, fun other => ?_, h.answered_concat ?_ ?_⟩
  · rw [eraseDups_granted_concat]
    by_cases hkind : other = kind
    · subst hkind
      rw [table_setTable_self, if_pos ⟨rfl, hfresh⟩, ← h.paths]
      simp [PathTable.insert]
    · rw [table_setTable_of_ne _ _ hkind, if_neg fun hc => hkind hc.1.symm, h.paths]
  · by_cases hkind : other = kind
    · subst hkind
      rw [table_setTable_self]
      exact (h.inverse other).insert hnew
    · rw [table_setTable_of_ne _ _ hkind]
      exact h.inverse other
  · intro other handle path' hpath
    unfold path? at hpath ⊢
    by_cases hkind : other = kind
    · subst hkind
      rw [table_setTable_self]
      exact PathTable.path?_insert_of_path? hpath path
    · rw [table_setTable_of_ne _ _ hkind]
      exact hpath
  · rw [path?, table_setTable_self, PathTable.path?_insert, if_pos rfl]

/-- **One more call.** -/
theorem Records.load (h : r.Records cs) {isFile : String → Bool} {kind : ResourceKind}
    {path : String} {answer : Except ResourceError (Handle kind)} {r' : Registry}
    (hload : Registry.load isFile kind path r = (answer, r')) :
    r'.Records (cs ++ [⟨kind, path, answer⟩]) := by
  rcases load_cases isFile kind path r with ⟨n, hknown, heq⟩ | ⟨hnew, heq⟩ | heq
  · rw [hload] at heq
    cases heq
    exact h.known hknown
  · rw [hload] at heq
    cases heq
    exact h.inserted hnew
  · rw [hload] at heq
    cases heq
    exact h.denied kind path _

/-- **The calls for requests.** -/
theorem Records.serves {isFile : Nat → String → Bool} {base : String} {s last : Registry × Nat}
    {rs : List Grammar.Request} {cs' : List Call} (h : s.1.Records cs)
    (hserves : Serves (changing isFile) base s rs cs' last) : last.1.Records (cs ++ cs') := by
  induction hserves generalizing cs with
  | nil s =>
    rw [List.append_nil]
    exact h
  | @cons s s' last r rs cs' answer hload hrest ih =>
    rw [List.append_cons]
    exact ih (h.load (load_of_changing hload))

/-! ## Handles -/

theorem Records.handle?_eq_some_iff (h : r.Records cs) (kind : ResourceKind) (path : String) (n : Nat) :
    (r.table kind).handle? path = some n ↔ Call.mk kind path (.ok ⟨n⟩) ∈ cs := by
  constructor
  · intro hn
    obtain ⟨handle, hcall⟩ := mem_granted.1 ((h.handle?_isSome_iff kind path).1 ⟨n, hn⟩)
    have hsame := (h.inverse kind path handle.id).2 (h.answered kind path handle hcall)
    rw [hn] at hsame
    obtain rfl : n = handle.id := Option.some.inj hsame
    exact hcall
  · intro hcall
    exact (h.inverse kind path n).2 (h.answered kind path ⟨n⟩ hcall)

theorem Records.lt_size_iff (h : r.Records cs) (kind : ResourceKind) (n : Nat) :
    n < (r.table kind).size ↔ ∃ path, Call.mk kind path (.ok ⟨n⟩) ∈ cs := by
  constructor
  · intro hn
    have hpath : (r.table kind).path? n = some ((r.table kind).paths[n]) :=
      Array.getElem?_eq_getElem hn
    exact ⟨_, (h.handle?_eq_some_iff kind _ n).1 ((h.inverse kind _ n).2 hpath)⟩
  · rintro ⟨path, hcall⟩
    exact PathTable.lt_size_of_path? (h.answered kind path ⟨n⟩ hcall)

theorem Records.handle_eq_iff (h : r.Records cs) {kind : ResourceKind} {path path' : String}
    {handle handle' : Handle kind} (hcall : Call.mk kind path (.ok handle) ∈ cs)
    (hcall' : Call.mk kind path' (.ok handle') ∈ cs) : handle = handle' ↔ path = path' := by
  have hpath := h.answered kind path handle hcall
  have hpath' := h.answered kind path' handle' hcall'
  constructor
  · rintro rfl
    rw [hpath] at hpath'
    exact Option.some.inj hpath'
  · rintro rfl
    have hid := (h.handle?_eq_some_iff kind path handle.id).2 hcall
    rw [(h.handle?_eq_some_iff kind path handle'.id).2 hcall'] at hid
    cases handle
    cases handle'
    cases hid
    rfl

end Registry

end MaterialScript
