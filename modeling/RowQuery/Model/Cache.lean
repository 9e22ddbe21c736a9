import RowQuery.Fault

/-!
# Caches that are written once

A cache keeps what was built under a key.  A key is looked for by its fingerprint first, but
two keys are the same only if they agree in full.  What is kept is never replaced; a build
that fails leaves nothing behind.

Main results:

- {lit}`Cache.getOrBuild` answers from the cache or builds; {lit}`Cache.attempts` lists the
  keys that were built or failed to be.
-/

namespace RowQuery

/-- What was built under keys, with the fingerprint of each key, and the keys for which a
builder was run. -/
structure Cache (κ φ : Type) where
  fingerprint : κ → UInt64
  entries : List (UInt64 × κ × φ)
  attempts : List κ

namespace Cache

variable {κ φ : Type} [DecidableEq κ]

/-- A cache with nothing in it. -/
def empty (fingerprint : κ → UInt64) : Cache κ φ := ⟨fingerprint, [], []⟩

/-- What is kept under a key. -/
def find? (c : Cache κ φ) (key : κ) : Option φ :=
  (c.entries.find? fun entry => entry.1 = c.fingerprint key ∧ entry.2.1 = key).map (·.2.2)

/-- The number of keys with something kept. -/
def size (c : Cache κ φ) : Nat := c.entries.length

/-- Answers with what is kept under a key, or builds and keeps it. -/
def getOrBuild (c : Cache κ φ) (key : κ) (build : κ → Except Fault φ) :
    Except Fault φ × Cache κ φ :=
  match c.find? key with
  | some found => (.ok found, c)
  | none =>
    let tried := { c with attempts := c.attempts ++ [key] }
    match build key with
    | .ok built =>
      (.ok built, { tried with entries := (c.fingerprint key, key, built) :: c.entries })
    | .error f => (.error f, tried)

end Cache

end RowQuery
