/-!
# Caches

What was made for a key is kept, and made only once. Failures are not kept.

* `Cache.fetch`: what is kept for a key, or what is made for it now.
-/

namespace Feel

/-- What was made, by key. -/
structure Cache (α : Type) where
  entries : List (String × α) := []

/-- What a look-up gives: the result, the cache after it, and whether something was made. -/
structure Fetched (ε α : Type) where
  result : Except ε α
  cache : Cache α
  made : Bool

namespace Cache

variable {ε α : Type}

/-- What is kept for a key. -/
def get? (c : Cache α) (key : String) : Option α := c.entries.lookup key

/-- How many keys something is kept for. -/
def size (c : Cache α) : Nat := c.entries.length

/-- What is kept for a key, or what is made for it now; a success is kept. -/
def fetch (c : Cache α) (key : String) (make : Unit → Except ε α) : Fetched ε α :=
  match c.get? key with
  | some a => ⟨.ok a, c, false⟩
  | none =>
    match make () with
    | .ok a => ⟨.ok a, ⟨(key, a) :: c.entries⟩, true⟩
    | .error e => ⟨.error e, c, true⟩

theorem fetch_of_get? {c : Cache α} {key : String} {a : α} (h : c.get? key = some a)
    (make : Unit → Except ε α) : c.fetch key make = ⟨.ok a, c, false⟩ := by
  simp [fetch, h]

theorem get?_fetch_of_ok {c : Cache α} {key : String} {a : α} (make : Unit → Except ε α)
    (h : (c.fetch key make).result = .ok a) : (c.fetch key make).cache.get? key = some a := by
  cases hk : c.get? key with
  | some b =>
    simp only [fetch, hk] at h ⊢
    simpa [hk] using h
  | none =>
    cases hm : make () with
    | ok b =>
      simp only [fetch, hk, hm] at h ⊢
      simpa [get?] using h
    | error e => simp [fetch, hk, hm] at h

end Cache

end Feel
