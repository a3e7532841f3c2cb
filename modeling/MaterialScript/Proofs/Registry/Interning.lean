import MaterialScript.Proofs.Registry.Numbering

/-!
# Loads in any order

A registry that starts out empty is asked for shaders and textures in any order, while files come and go.
Each kind has its paths in a list and the place of each path in an index. The two stay inverse to each
other, a place is kept for good, and the kinds do not disturb each other.

* `Load`, `Registry.loadAll` : loads one after the other, with their answers;
* `Registry.Records.loadAll` : the tables are those that the answers lead to;
* `Registry.load_of_handle?`, `Registry.load_eq_error_iff` : a path with a handle is answered from the
  table, and a load that fails changes nothing;
* `Registry.table_loadAll_of_ne` : loads of one kind leave the table of another one;
* `Registry.Interns` : what this amounts to for one kind; `loads_intern_paths` : it holds after any loads.
-/

namespace MaterialScript

/-- One load: what is asked for, and which files exist at that time. -/
structure Load where
  isFile : String → Bool
  kind : ResourceKind
  path : String

namespace Registry

/-- Loads one after the other: each one with its answer, and the registry after them. -/
def loadAll : List Load → Registry → List Call × Registry
  | [], r => ([], r)
  | l :: ls, r =>
    let (answer, r') := load l.isFile l.kind l.path r
    let (cs, last) := loadAll ls r'
    (⟨l.kind, l.path, answer⟩ :: cs, last)

/-! ## One load -/

section Load
variable (isFile : String → Bool) {kind : ResourceKind} {path : String} (r : Registry)

/-- A path with a handle is answered from the table, whichever files exist. -/
theorem load_of_handle? {n : Nat} (h : (r.table kind).handle? path = some n) :
    load isFile kind path r = (.ok ⟨n⟩, r) := by
  unfold load
  rw [h]

/-- **A load fails just if the path has no handle and may not be loaded**, and then it changes nothing. -/
theorem load_eq_error_iff (e : ResourceError) (r' : Registry) :
    load isFile kind path r = (.error e, r') ↔
      (r.table kind).handle? path = none ∧ r.admits isFile path = false ∧
        e = .notFound kind path ∧ r' = r := by
  unfold load
  cases (r.table kind).handle? path with
  | some n => simp
  | none =>
    by_cases hadmits : r.admits isFile path = true
    · simp [hadmits]
    · simp [hadmits, eq_comm]

theorem table_load_of_ne {other : ResourceKind} (h : kind ≠ other) :
    (load isFile kind path r).2.table other = r.table other := by
  rcases load_cases isFile kind path r with ⟨n, -, heq⟩ | ⟨-, heq⟩ | heq
  · rw [heq]
  · rw [heq]
    exact table_setTable_of_ne r _ h.symm
  · rw [heq]

end Load

/-! ## Many loads -/

theorem table_loadAll_of_ne {kind : ResourceKind} {ls : List Load} (h : ∀ l ∈ ls, l.kind ≠ kind)
    (r : Registry) : (loadAll ls r).2.table kind = r.table kind := by
  induction ls generalizing r with
  | nil => rfl
  | cons l ls ih =>
    have hrest := ih (fun l' hl' => h l' (List.mem_cons_of_mem l hl')) (load l.isFile l.kind l.path r).2
    exact hrest.trans (table_load_of_ne l.isFile r (h l List.mem_cons_self))

/-- **The tables are those that the answers lead to.** -/
theorem Records.loadAll {r : Registry} {cs : List Call} (h : r.Records cs) (ls : List Load) :
    (Registry.loadAll ls r).2.Records (cs ++ (Registry.loadAll ls r).1) := by
  induction ls generalizing r cs with
  | nil =>
    rw [Registry.loadAll, List.append_nil]
    exact h
  | cons l ls ih =>
    have hload : Registry.load l.isFile l.kind l.path r = (_, _) := rfl
    have hrest := ih (h.load hload)
    rw [List.append_assoc] at hrest
    exact hrest

/-! ## Handles for good -/

/-- What is known of one kind after the answered loads `cs`. Looking up a path and looking up a handle are
inverse to each other; paths are distinct, and handles count them from zero. The handle of a path is the
one that it was given, and later loads give it again whatever they find. Loads that fail change nothing,
and loads of other kinds do not change the table. -/
structure Interns (r : Registry) (cs : List Call) (kind : ResourceKind) : Prop where
  inverse : ∀ path n, (r.table kind).handle? path = some n ↔ (r.table kind).path? n = some path
  distinct : (r.table kind).paths.toList.Nodup
  counted : ∀ n, (∃ path, (r.table kind).handle? path = some n) ↔ n < (r.table kind).size
  answered : ∀ path n, (r.table kind).handle? path = some n ↔ Call.mk kind path (.ok ⟨n⟩) ∈ cs
  kept : ∀ path n, (r.table kind).handle? path = some n → ∀ later isFile,
    load isFile kind path (loadAll later r).2 = (.ok ⟨n⟩, (loadAll later r).2)
  denied : ∀ isFile path e r', load isFile kind path r = (.error e, r') ↔
    (r.table kind).handle? path = none ∧ r.admits isFile path = false ∧ e = .notFound kind path ∧ r' = r
  apart : ∀ later, (∀ l ∈ later, l.kind ≠ kind) → (loadAll later r).2.table kind = r.table kind

theorem Records.interns {r : Registry} {cs : List Call} (h : r.Records cs) (kind : ResourceKind) :
    r.Interns cs kind where
  inverse := h.inverse kind
  distinct := by
    rw [h.paths kind]
    exact nodup_eraseDups _
  counted n := by
    rw [h.lt_size_iff]
    simp only [h.handle?_eq_some_iff]
  answered := h.handle?_eq_some_iff kind
  kept path n hn later isFile := by
    apply load_of_handle?
    rw [(h.loadAll later).handle?_eq_some_iff]
    exact List.mem_append_left _ ((h.handle?_eq_some_iff kind path n).1 hn)
  denied isFile path := load_eq_error_iff isFile r
  apart later hlater := table_loadAll_of_ne hlater r

end Registry

/-- **Any loads intern their paths**: a registry starts out empty, with or without a root and a check, and
is asked for shaders and textures in any order, whichever files exist at each load. -/
theorem loads_intern_paths (root : Option String) (check : Bool) (ls : List Load) (kind : ResourceKind) :
    let (cs, r) := Registry.loadAll ls { root, check }
    r.Interns cs kind :=
  ((Registry.records_empty root check).loadAll ls).interns kind

example :
    let loads : List Load := [⟨fun _ => true, .shader, "a"⟩, ⟨fun _ => false, .shader, "a"⟩,
      ⟨fun _ => false, .texture, "a"⟩]
    (Registry.loadAll loads { check := true }).1.map (fun c => c.answer.toOption.map Handle.id) =
      [some 0, some 0, none] := by
  decide +kernel

end MaterialScript
