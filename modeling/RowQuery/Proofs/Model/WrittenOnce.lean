import RowQuery.Model.Cache
import RowQuery.Model.Shape

/-!
# What a cache keeps

A cache looks for a key by its fingerprint first, and fingerprints may coincide.  This
module follows a cache through any list of requests and says that it is a map nonetheless:
the first success for a key is what the key is answered from then on, and no key has a part
in the answers to another one.

Main results:

- Definition {lit}`Cache.serve`: requests that are made one after the other.
- Definition {lit}`Cache.Keeps`: what a cache has to do with the answers it gave.
- Theorems {lit}`Cache.Keeps.getOrBuild` and {lit}`Cache.keeps_serve`: a request, and a list of
  them, preserve it.
- Definition {lit}`Cache.WritesOnce`: what the next request can rely on.
- Theorem {lit}`written_once`: what is built under a key is written once, whatever the fingerprints
  are.
-/

namespace RowQuery

namespace Cache

variable {κ φ : Type} [DecidableEq κ]

/-! ## Requests -/

/-- What is asked of a cache: a key, and the builder to run if nothing is kept under it. -/
structure Request (κ φ : Type) where
  key : κ
  build : κ → Except Fault φ

/-- The keys and the answers of requests that are made one after the other, and the cache behind
them. -/
def serve (c : Cache κ φ) : List (Request κ φ) → List (κ × Except Fault φ) × Cache κ φ
  | [] => ([], c)
  | r :: rest =>
    let (answer, c') := c.getOrBuild r.key r.build
    let (answers, c'') := c'.serve rest
    ((r.key, answer) :: answers, c'')

/-- The first success for a key among answers. -/
def firstSuccess? (history : List (κ × Except Fault φ)) (key : κ) : Option φ :=
  history.findSome? fun answered => if answered.1 = key then answered.2.toOption else none

/-- There is no first success for a key if there is none at all. -/
theorem firstSuccess?_eq_none_iff {history : List (κ × Except Fault φ)} {key : κ} :
    firstSuccess? history key = none ↔ ∀ found, (key, .ok found) ∉ history := by
  simp only [firstSuccess?, List.findSome?_eq_none_iff]
  constructor
  · intro h found hmem
    simpa [Except.toOption] using h _ hmem
  · rintro h ⟨other, answer⟩ hmem
    by_cases hkey : other = key
    · cases answer with
      | error f => simp [Except.toOption]
      | ok found => exact absurd (hkey ▸ hmem) (h found)
    · simp [hkey]

/-- In front of the first success for a key there is none. -/
theorem split_of_firstSuccess? {history : List (κ × Except Fault φ)} {key : κ} {found : φ}
    (h : firstSuccess? history key = some found) :
    ∃ front rest, history = front ++ (key, .ok found) :: rest ∧
      ∀ other, (key, .ok other) ∉ front := by
  rcases List.findSome?_eq_some_iff.1 h with ⟨front, ⟨other, answer⟩, rest, rfl, hfound, hfront⟩
  by_cases hkey : other = key
  · cases answer with
    | error f => simp [Except.toOption] at hfound
    | ok built =>
      have hbuilt : built = found := by simpa [hkey, Except.toOption] using hfound
      refine ⟨front, rest, by rw [hkey, hbuilt], ?_⟩
      exact firstSuccess?_eq_none_iff.1 (List.findSome?_eq_none_iff.2 hfront)
  · simp [hkey] at hfound

/-- One more answer matters only if there was no success before. -/
theorem firstSuccess?_concat (history : List (κ × Except Fault φ)) (key other : κ)
    (answer : Except Fault φ) :
    firstSuccess? (history ++ [(key, answer)]) other =
      (firstSuccess? history other).or (if key = other then answer.toOption else none) := by
  simp only [firstSuccess?, List.findSome?_append, List.findSome?_cons, List.findSome?_nil]
  cases (if key = other then answer.toOption else none : Option φ) <;> rfl

/-! ## What is kept -/

/-- The keys with something kept. -/
def keys (c : Cache κ φ) : List κ := c.entries.map (·.2.1)

/-- A cache that gave some answers keeps the first success for each key, under the fingerprint of
the key, and nothing else. -/
structure Keeps (c : Cache κ φ) (history : List (κ × Except Fault φ)) : Prop where
  fingerprints : ∀ entry ∈ c.entries, entry.1 = c.fingerprint entry.2.1
  find : ∀ key, c.find? key = firstSuccess? history key
  nodup : c.keys.Nodup

/-- At first nothing is kept. -/
theorem keeps_empty (fingerprint : κ → UInt64) : (empty fingerprint : Cache κ φ).Keeps [] where
  fingerprints := by simp [empty]
  find key := rfl
  nodup := List.nodup_nil

/-- With the fingerprints of its keys in order, a cache finds something under a key exactly if the
key has an entry. -/
theorem isSome_find?_iff {c : Cache κ φ}
    (h : ∀ entry ∈ c.entries, entry.1 = c.fingerprint entry.2.1) (key : κ) :
    (c.find? key).isSome = true ↔ key ∈ c.keys := by
  simp only [find?, keys, Option.isSome_map, List.find?_isSome, List.mem_map, decide_eq_true_eq]
  constructor
  · rintro ⟨entry, hentry, -, rfl⟩
    exact ⟨entry, hentry, rfl⟩
  · rintro ⟨entry, hentry, rfl⟩
    exact ⟨entry, hentry, h entry hentry, rfl⟩

/-- What is found is answered, and nothing changes. -/
theorem getOrBuild_of_find? {c : Cache κ φ} {key : κ} {found : φ} (h : c.find? key = some found)
    (build : κ → Except Fault φ) : c.getOrBuild key build = (.ok found, c) := by
  rw [getOrBuild, h]

/-- A build that fails is noted, and nothing is kept. -/
theorem getOrBuild_of_error {c : Cache κ φ} {key : κ} {build : κ → Except Fault φ} {f : Fault}
    (h : c.find? key = none) (hbuild : build key = .error f) :
    c.getOrBuild key build = (.error f, { c with attempts := c.attempts ++ [key] }) := by
  rw [getOrBuild, h]
  simp [hbuild]

/-- What is built is noted, answered and kept. -/
theorem getOrBuild_of_ok {c : Cache κ φ} {key : κ} {build : κ → Except Fault φ} {built : φ}
    (h : c.find? key = none) (hbuild : build key = .ok built) :
    c.getOrBuild key build = (.ok built,
      { c with
        entries := (c.fingerprint key, key, built) :: c.entries
        attempts := c.attempts ++ [key] }) := by
  rw [getOrBuild, h]
  simp [hbuild]

/-- A new entry is found under its key, and every other key is looked for behind it. -/
theorem find?_cons (c : Cache κ φ) (attempts : List κ) (key other : κ) (built : φ) :
    find? { c with entries := (c.fingerprint key, key, built) :: c.entries, attempts } other =
      if key = other then some built else c.find? other := by
  by_cases h : key = other
  · simp [find?, h]
  · simp [find?, h]

/-- A request keeps the first success for each key. -/
theorem Keeps.getOrBuild {c : Cache κ φ} {history : List (κ × Except Fault φ)}
    (h : c.Keeps history) (key : κ) (build : κ → Except Fault φ) :
    (c.getOrBuild key build).2.Keeps (history ++ [(key, (c.getOrBuild key build).1)]) := by
  cases hfind : c.find? key with
  | some found =>
    rw [getOrBuild_of_find? hfind]
    refine { h with find := ?_ }
    intro other
    rw [firstSuccess?_concat, ← h.find]
    by_cases hkey : key = other
    · rw [← hkey, hfind]
      rfl
    · simp [hkey]
  | none =>
    cases hbuild : build key with
    | error f =>
      rw [getOrBuild_of_error hfind hbuild]
      refine ⟨h.fingerprints, ?_, h.nodup⟩
      intro other
      rw [firstSuccess?_concat, ← h.find]
      simp [find?, Except.toOption]
    | ok built =>
      rw [getOrBuild_of_ok hfind hbuild]
      refine ⟨?_, ?_, ?_⟩
      · intro entry hentry
        rcases List.mem_cons.1 hentry with rfl | hentry
        · rfl
        · exact h.fingerprints entry hentry
      · intro other
        rw [find?_cons, firstSuccess?_concat, ← h.find]
        by_cases hkey : key = other
        · rw [← hkey, hfind]
          simp [Except.toOption]
        · simp [hkey]
      · -- the key has no entry yet, for nothing was found under it
        have hnew : key ∉ c.keys := by
          rw [← isSome_find?_iff h.fingerprints, hfind]
          exact nofun
        exact List.nodup_cons.2 ⟨hnew, h.nodup⟩

/-- Requests keep the first success for each key. -/
theorem keeps_serve {c : Cache κ φ} {history : List (κ × Except Fault φ)} (h : c.Keeps history)
    (requests : List (Request κ φ)) :
    (c.serve requests).2.Keeps (history ++ (c.serve requests).1) := by
  induction requests generalizing c history with
  | nil => simpa [serve] using h
  | cons r rest ih =>
    have hrest := ih (h.getOrBuild r.key r.build)
    simpa [serve] using hrest

/-- A cache keeps as many results as keys succeeded. -/
theorem Keeps.size_eq {c : Cache κ φ} {history : List (κ × Except Fault φ)} (h : c.Keeps history) :
    ∃ succeeded : List κ, succeeded.Nodup ∧
      (∀ key, key ∈ succeeded ↔ ∃ found, (key, .ok found) ∈ history) ∧
      c.size = succeeded.length := by
  refine ⟨c.keys, h.nodup, ?_, by simp [size, keys]⟩
  intro key
  rw [← isSome_find?_iff h.fingerprints, h.find, ← Option.ne_none_iff_isSome, ne_eq,
    firstSuccess?_eq_none_iff]
  simp

/-- Every success for a key was kept under it before, or was built under it for a request. -/
theorem built_of_mem_serve {c : Cache κ φ} {requests : List (Request κ φ)} {key : κ} {found : φ}
    (h : (key, .ok found) ∈ (c.serve requests).1) :
    c.find? key = some found ∨ ∃ r ∈ requests, r.key = key ∧ r.build key = .ok found := by
  induction requests generalizing c with
  | nil => simp [serve] at h
  | cons r rest ih =>
    have hlater {c' : Cache κ φ} (hmem : (key, .ok found) ∈ (c'.serve rest).1)
        (hkept : c'.find? key = some found → c.find? key = some found ∨
          r.key = key ∧ r.build key = .ok found) :
        c.find? key = some found ∨ ∃ r' ∈ r :: rest, r'.key = key ∧ r'.build key = .ok found := by
      rcases ih hmem with hfind | ⟨r', hr', hbuilt⟩
      · rcases hkept hfind with hfind | hbuilt
        · exact .inl hfind
        · exact .inr ⟨r, List.mem_cons_self, hbuilt⟩
      · exact .inr ⟨r', List.mem_cons_of_mem r hr', hbuilt⟩
    rw [serve] at h
    cases hfind : c.find? r.key with
    | some kept =>
      rw [getOrBuild_of_find? hfind] at h
      rcases List.mem_cons.1 h with hfirst | hrest
      · cases hfirst
        exact .inl hfind
      · exact hlater hrest .inl
    | none =>
      cases hbuild : r.build r.key with
      | error f =>
        rw [getOrBuild_of_error hfind hbuild] at h
        rcases List.mem_cons.1 h with hfirst | hrest
        · cases hfirst
        · exact hlater hrest .inl
      | ok built =>
        rw [getOrBuild_of_ok hfind hbuild] at h
        rcases List.mem_cons.1 h with hfirst | hrest
        · cases hfirst
          exact .inr ⟨r, List.mem_cons_self, rfl, hbuild⟩
        · refine hlater hrest ?_
          rw [find?_cons]
          by_cases hkey : r.key = key
          · intro hbuilt
            rw [if_pos hkey, Option.some.injEq] at hbuilt
            rw [hkey, hbuilt] at hbuild
            exact .inr ⟨hkey, hbuild⟩
          · rw [if_neg hkey]
            exact .inl

/-! ## Written once -/

/-- What a cache is behind some requests and the answers to them. -/
structure WritesOnce (before : List (Request κ φ)) (history : List (κ × Except Fault φ))
    (c : Cache κ φ) : Prop where
  /-- If no request for a key succeeded so far, then the builder of the next one is run, and the
  request is answered with what comes of that. -/
  runs : ∀ r : Request κ φ, (∀ found, (r.key, .ok found) ∉ history) →
    (c.getOrBuild r.key r.build).1 = r.build r.key ∧
      (c.getOrBuild r.key r.build).2.attempts = c.attempts ++ [r.key]
  /-- Otherwise the builder is not run: the first success for the key is answered, and the
  cache stays as it is. -/
  answersFirst : ∀ (r : Request κ φ) (other : φ), (r.key, .ok other) ∈ history →
    ∃ front first rest, history = front ++ (r.key, .ok first) :: rest ∧
      (∀ earlier, (r.key, .ok earlier) ∉ front) ∧ c.getOrBuild r.key r.build = (.ok first, c)
  /-- A request that fails leaves what is kept as it is. -/
  keepsOnFault : ∀ (r : Request κ φ) (f : Fault), (c.getOrBuild r.key r.build).1 = .error f →
    (c.getOrBuild r.key r.build).2.entries = c.entries
  /-- Every success for a key was built under it for one of the requests, so what is found is of the
  type that its key stands for. -/
  built : ∀ key found, (key, .ok found) ∈ history →
    ∃ r ∈ before, r.key = key ∧ r.build key = .ok found
  /-- There are as many results kept as keys for which a request succeeded. -/
  size : ∃ succeeded : List κ, succeeded.Nodup ∧
    (∀ key, key ∈ succeeded ↔ ∃ found, (key, .ok found) ∈ history) ∧ c.size = succeeded.length

/-- A cache that served requests from the start writes once. -/
theorem writesOnce_serve (fingerprint : κ → UInt64) (before : List (Request κ φ)) :
    WritesOnce before ((empty fingerprint).serve before).1
      ((empty fingerprint).serve before).2 := by
  have h := keeps_serve (keeps_empty (φ := φ) fingerprint) before
  rw [List.nil_append] at h
  refine ⟨?_, ?_, ?_, ?_, h.size_eq⟩
  · intro r hnone
    have hfind := h.find r.key
    rw [firstSuccess?_eq_none_iff.2 hnone] at hfind
    cases hbuild : r.build r.key with
    | error f => simp [getOrBuild_of_error hfind hbuild]
    | ok built => simp [getOrBuild_of_ok hfind hbuild]
  · intro r other hmem
    have hfind := h.find r.key
    cases hfirst : firstSuccess? ((empty fingerprint).serve before).1 r.key with
    | none => exact absurd hmem (firstSuccess?_eq_none_iff.1 hfirst other)
    | some first =>
      rcases split_of_firstSuccess? hfirst with ⟨front, rest, hsplit, hfront⟩
      rw [hfirst] at hfind
      exact ⟨front, first, rest, hsplit, hfront, getOrBuild_of_find? hfind r.build⟩
  · intro r f hfault
    cases hfind : ((empty fingerprint).serve before).2.find? r.key with
    | some found => rw [getOrBuild_of_find? hfind]
    | none =>
      cases hbuild : r.build r.key with
      | error f => rw [getOrBuild_of_error hfind hbuild]
      | ok built => simp [getOrBuild_of_ok hfind hbuild] at hfault
  · intro key found hmem
    rcases built_of_mem_serve hmem with hfind | hbuilt
    · simp [find?, empty] at hfind
    · exact hbuilt

end Cache

/-- Whatever the fingerprints of shapes are and whatever the builders do: a cache of factories runs
a builder exactly if no request for the same shape succeeded before, and answers with the first
success otherwise.  Shapes are the same exactly if the kinds, the types, and the names and native
types of all columns are, one by one. -/
theorem written_once {φ : Type} (fingerprint : Shape → UInt64)
    (before : List (Cache.Request Shape φ)) :
    Cache.WritesOnce before ((Cache.empty fingerprint).serve before).1
        ((Cache.empty fingerprint).serve before).2 ∧
      ∀ kind kind' typeName typeName' fields fields',
        Shape.of kind typeName fields = Shape.of kind' typeName' fields' ↔
          kind = kind' ∧ typeName = typeName' ∧
            fields.map (fun f => (f.name, f.nativeType)) =
              fields'.map (fun f => (f.name, f.nativeType)) := by
  refine ⟨Cache.writesOnce_serve fingerprint before, ?_⟩
  intro kind kind' typeName typeName' fields fields'
  simp [Shape.of]

/-- Two shapes whose prints are the same. -/
def shiftedBoundary : Shape × Shape :=
  (⟨.scalar, "i32", [("Id", "int")]⟩, ⟨.scalar, "i32", [("I", "dint")]⟩)

/-- A cache whose fingerprints are all the same keeps both, and a build that
failed is made up for. -/
example :
    let requests : List (Cache.Request Shape Nat) :=
      [⟨shiftedBoundary.1, fun _ => .error (Fault.invalidQuery .countNotConstant)⟩,
        ⟨shiftedBoundary.1, fun _ => .ok 1⟩, ⟨shiftedBoundary.2, fun _ => .ok 2⟩,
        ⟨shiftedBoundary.1, fun _ => .ok 3⟩]
    let served := (Cache.empty fun _ => 0).serve requests
    shiftedBoundary.1.print = shiftedBoundary.2.print ∧
      served.1.map (fun answered => answered.2.toOption) = [none, some 1, some 2, some 1] ∧
      served.2.size = 2 := by
  decide

end RowQuery
