import Mathlib.Data.Finset.Card
import Mathlib.Data.Finset.Dedup
import Feel.Engine.Cache
import Feel.Proofs.CacheTransparency
import Feel.Proofs.TypeJoins

/-!
# The books of an engine

Programs are kept in slots. A slot is there before anything is compiled for it, and a failure
leaves it empty; it is then removed, unless another caller waits for it. Empty slots change
neither what a look-up gives nor what is counted, so that slots show a plain cache.

How often an engine has compiled and how much it keeps, over whole histories: a request compiles
exactly when its key is not among the keys that compiled since the last `clear`; those are the
keys that are kept. An engine that keeps its programs in slots keeps the same books.

* `Cache.keys_fetch`, `Cache.Distinct.fetch`: what a look-up does to the keys of a cache.
* `SlotMap.fetch`: a look-up in slots.
* `SlotMap.Shows.fetch`: slots give what the cache gives that they show.
* `SlotMap.Full.fetch`: slots that nobody else holds stay full.
* `Engine.compiledSince`: the keys of what compiled since the last `clear`.
* `Engine.Booked.step`, `Engine.booked_after`: what one command keeps true, and a history.
* `Shelf`, `Shelf.shows_after`: engines that keep slots.
* `Engine.accounted`: the books over every history.
-/

namespace Feel

/-! ### Keys of a cache -/

namespace Cache

variable {ε α : Type} {c : Cache α} {key : String}

/-- The keys that something is kept for. -/
def keys (c : Cache α) : Finset String := (c.entries.map (·.1)).toFinset

/-- Nothing is kept twice for a key. -/
def Distinct (c : Cache α) : Prop := (c.entries.map (·.1)).Nodup

theorem mem_keys : key ∈ c.keys ↔ ∃ a, c.get? key = some a := by
  rw [keys, List.mem_toFinset, List.mem_map]
  constructor
  · rintro ⟨p, hp, rfl⟩
    cases hget : c.entries.lookup p.1 with
    | none => simpa using List.lookup_eq_none_iff.mp hget p hp
    | some a => exact ⟨a, hget⟩
  · rintro ⟨a, ha⟩
    exact ⟨(key, a), Ty.mem_of_lookup ha, rfl⟩

theorem not_mem_keys : key ∉ c.keys ↔ c.get? key = none := by
  rw [mem_keys, Option.eq_none_iff_forall_ne_some, not_exists]

theorem size_eq_card (h : c.Distinct) : c.size = c.keys.card := by
  rw [keys, List.toFinset_card_of_nodup h, List.length_map, size]

/-- A look-up adds its key, if something could be made for it. -/
theorem keys_fetch (c : Cache α) (key : String) (make : Unit → Except ε α) :
    (c.fetch key make).cache.keys = if (make ()).isOk then insert key c.keys else c.keys := by
  cases hget : c.get? key with
  | some a =>
    rw [fetch_of_get? hget]
    split
    · exact (Finset.insert_eq_self.mpr (mem_keys.mpr ⟨a, hget⟩)).symm
    · rfl
  | none =>
    cases hmake : make () with
    | error e => simp [fetch, hget, hmake, Except.isOk, Except.toBool]
    | ok a => simp [fetch, hget, hmake, Except.isOk, Except.toBool, keys]

theorem Distinct.fetch (h : c.Distinct) (key : String) (make : Unit → Except ε α) :
    (c.fetch key make).cache.Distinct := by
  unfold Cache.fetch
  split
  · exact h
  · next hget =>
    split
    · refine List.nodup_cons.mpr ⟨fun hmem => ?_, h⟩
      exact not_mem_keys.mpr hget (List.mem_toFinset.mpr hmem)
    · exact h

theorem made_fetch (c : Cache α) (key : String) (make : Unit → Except ε α) :
    (c.fetch key make).made = decide (key ∉ c.keys) := by
  cases hget : c.get? key with
  | some a =>
    rw [fetch_of_get? hget]
    simp [mem_keys.mpr ⟨a, hget⟩]
  | none =>
    rw [decide_eq_true (not_mem_keys.mpr hget), fetch, hget]
    cases make () <;> rfl

theorem get?_fetch (c : Cache α) (key other : String) (make : Unit → Except ε α) :
    (c.fetch key make).cache.get? other =
      if other = key then (c.get? key).or (make ()).toOption else c.get? other := by
  cases hget : c.get? key with
  | some a =>
    rw [fetch_of_get? hget]
    split
    · next h => rw [h, hget, Option.some_or]
    · rfl
  | none =>
    rw [fetch, hget]
    cases hmake : make () with
    | error e =>
      by_cases h : other = key
      · rw [if_pos h, h]
        exact hget
      · exact (if_neg h).symm
    | ok a =>
      by_cases h : other = key
      · simp [get?, h, Except.toOption]
      · rw [if_neg h, get?, List.lookup_cons, beq_false_of_ne h]
        rfl

end Cache

/-! ### Slots -/

/-- Slots by key, each empty or filled. -/
structure SlotMap (α : Type) where
  entries : List (String × Option α) := []

/-- What a look-up gives: the result, the slots after it, and whether something was made. -/
structure SlotFetched (ε α : Type) where
  result : Except ε α
  slots : SlotMap α
  made : Bool

namespace SlotMap

variable {ε α : Type} {m : SlotMap α} {c : Cache α} {key : String}

/-- What the slot of a key is filled with. -/
def get? (m : SlotMap α) (key : String) : Option α := (m.entries.lookup key).join

/-- The number of filled slots. -/
def size (m : SlotMap α) : Nat := m.entries.countP (·.2.isSome)

/-- A slot for a key, empty if there was none. -/
def opened (m : SlotMap α) (key : String) : SlotMap α :=
  match m.entries.lookup key with
  | some _ => m
  | none => ⟨(key, none) :: m.entries⟩

/-- The slot of a key is filled. -/
def filled (m : SlotMap α) (key : String) (a : α) : SlotMap α :=
  ⟨m.entries.map fun p => (p.1, if p.1 = key then some a else p.2)⟩

def removed (m : SlotMap α) (key : String) : SlotMap α := ⟨m.entries.filter (·.1 ≠ key)⟩

/-- What a slot is filled with, or what it is filled with now. The slot is there before anything
is made. A failure leaves it empty, and it is removed unless another caller holds it. -/
def fetch (m : SlotMap α) (held : Bool) (key : String) (make : Unit → Except ε α) :
    SlotFetched ε α :=
  match (m.opened key).get? key with
  | some a => ⟨.ok a, m.opened key, false⟩
  | none =>
    match make () with
    | .ok a => ⟨.ok a, (m.opened key).filled key a, true⟩
    | .error e => ⟨.error e, if held then m.opened key else (m.opened key).removed key, true⟩

/-- Slots that show what a cache keeps: each key has one slot at most, and is looked up to the
same. -/
structure Shows (m : SlotMap α) (c : Cache α) : Prop where
  names : (m.entries.map (·.1)).Nodup
  get?_eq : ∀ key, m.get? key = c.get? key

theorem get?_opened (m : SlotMap α) (key other : String) :
    (m.opened key).get? other = m.get? other := by
  unfold opened
  split
  · rfl
  · next h =>
    by_cases hother : other = key
    · rw [hother, get?, get?, h, List.lookup_cons_self]
      rfl
    · rw [get?, List.lookup_cons, beq_false_of_ne hother]
      rfl

theorem lookup_opened (m : SlotMap α) (key : String) :
    ∃ o, (m.opened key).entries.lookup key = some o := by
  unfold opened
  split
  · next o h => exact ⟨o, h⟩
  · exact ⟨none, List.lookup_cons_self⟩

theorem names_opened (h : (m.entries.map (·.1)).Nodup) :
    ((m.opened key).entries.map (·.1)).Nodup := by
  unfold opened
  split
  · exact h
  · next hnone =>
    refine List.nodup_cons.mpr ⟨fun hmem => ?_, h⟩
    obtain ⟨p, hp, hkey⟩ := List.mem_map.mp hmem
    simpa [hkey] using List.lookup_eq_none_iff.mp hnone p hp

theorem lookup_filled (entries : List (String × Option α)) (key : String) (a : α)
    (other : String) : (filled ⟨entries⟩ key a).entries.lookup other =
      (entries.lookup other).map fun o => if other = key then some a else o := by
  induction entries with
  | nil => rfl
  | cons p entries ih =>
    have hcons : (filled ⟨p :: entries⟩ key a).entries =
      (p.1, if p.1 = key then some a else p.2) :: (filled ⟨entries⟩ key a).entries := rfl
    rw [hcons, List.lookup_cons, List.lookup_cons]
    by_cases h : other = p.1
    · rw [beq_iff_eq.mpr h, h]
      rfl
    · rw [beq_false_of_ne h]
      exact ih

theorem names_filled (h : (m.entries.map (·.1)).Nodup) (a : α) :
    ((m.filled key a).entries.map (·.1)).Nodup := by
  rw [filled, List.map_map]
  exact h

theorem lookup_removed (entries : List (String × Option α)) (key other : String) :
    (removed ⟨entries⟩ key).entries.lookup other =
      if other = key then none else entries.lookup other := by
  induction entries with
  | nil => simp [removed]
  | cons p entries ih =>
    by_cases h : p.1 = key
    · have hcons : (removed ⟨p :: entries⟩ key).entries = (removed ⟨entries⟩ key).entries := by
        simp [removed, h]
      rw [hcons, ih, List.lookup_cons, h]
      by_cases hother : other = key
      · rw [if_pos hother, if_pos hother]
      · rw [beq_false_of_ne hother]
    · have hcons : (removed ⟨p :: entries⟩ key).entries =
          p :: (removed ⟨entries⟩ key).entries := by
        simp [removed, h]
      rw [hcons, List.lookup_cons, List.lookup_cons]
      by_cases hother : other = p.1
      · rw [beq_iff_eq.mpr hother, if_neg (hother ▸ h)]
      · rw [beq_false_of_ne hother]
        exact ih

theorem names_removed (h : (m.entries.map (·.1)).Nodup) :
    ((m.removed key).entries.map (·.1)).Nodup :=
  h.sublist (List.filter_sublist.map _)

/-- A slot that another caller holds stays there empty, or is removed. -/
theorem get?_left (m : SlotMap α) (held : Bool) (h : m.get? key = none) (other : String) :
    (if held then m.opened key else (m.opened key).removed key).get? other = m.get? other := by
  split
  · exact get?_opened m key other
  · rw [get?, lookup_removed]
    split
    · next hother => rw [hother, h]; rfl
    · exact get?_opened m key other

/-- Slots give what the cache gives that they show, and go on to show it, whoever holds them. -/
theorem Shows.fetch (h : m.Shows c) (held : Bool) (key : String) (make : Unit → Except ε α) :
    (m.fetch held key make).result = (c.fetch key make).result ∧
      (m.fetch held key make).made = (c.fetch key make).made ∧
      (m.fetch held key make).slots.Shows (c.fetch key make).cache := by
  have hopened : (m.opened key).get? key = c.get? key := by rw [get?_opened, h.get?_eq]
  cases hget : c.get? key with
  | some a =>
    rw [SlotMap.fetch, hopened, hget, Cache.fetch_of_get? hget]
    exact ⟨rfl, rfl, names_opened h.names, fun other => by rw [get?_opened, h.get?_eq]⟩
  | none =>
    have hshown := fun other => Cache.get?_fetch c key other make
    rw [SlotMap.fetch, hopened]
    rw [Cache.fetch, hget] at hshown ⊢
    cases hmake : make () with
    | ok a =>
      refine ⟨rfl, rfl, names_filled (names_opened h.names) a, fun other => ?_⟩
      rw [hmake] at hshown
      rw [hshown, get?, lookup_filled]
      by_cases hother : other = key
      · obtain ⟨o, ho⟩ := lookup_opened m key
        rw [hother, ho, if_pos rfl]
        simp [Except.toOption]
      · rw [if_neg hother, ← h.get?_eq, ← get?_opened m key other, get?]
        simp [hother]
    | error e =>
      refine ⟨rfl, rfl, ?_, fun other => ?_⟩
      · show ((if held then m.opened key else (m.opened key).removed key).entries.map _).Nodup
        split
        · exact names_opened h.names
        · exact names_removed (names_opened h.names)
      · exact (get?_left m held ((h.get?_eq key).trans hget) other).trans (h.get?_eq other)

/-- As many slots are filled as keys are kept. -/
theorem Shows.size_eq (h : m.Shows c) (hc : c.Distinct) : m.size = c.size := by
  have hkeys : ((m.entries.filter (·.2.isSome)).map (·.1)).Perm (c.entries.map (·.1)) := by
    have hnodup : ((m.entries.filter (·.2.isSome)).map (·.1)).Nodup :=
      h.names.sublist (List.filter_sublist.map _)
    refine (List.perm_ext_iff_of_nodup hnodup hc).mpr fun key => ?_
    rw [← List.mem_toFinset (l := c.entries.map _), ← Cache.keys, Cache.mem_keys, ← h.get?_eq]
    constructor
    · intro hmem
      obtain ⟨⟨_, o⟩, hp, rfl⟩ := List.mem_map.mp hmem
      obtain ⟨hp, ho⟩ := List.mem_filter.mp hp
      obtain ⟨a, rfl⟩ := Option.isSome_iff_exists.mp ho
      exact ⟨a, by rw [get?, (Entries.lookup_eq_some_iff_mem h.names).mpr hp]; rfl⟩
    · rintro ⟨a, ha⟩
      have hlookup : m.entries.lookup key = some (some a) := Option.join_eq_some_iff.mp ha
      refine List.mem_map.mpr ⟨(key, some a), List.mem_filter.mpr ⟨?_, rfl⟩, rfl⟩
      exact (Entries.lookup_eq_some_iff_mem h.names).mp hlookup
  rw [size, List.countP_eq_length_filter, Cache.size]
  simpa using hkeys.length_eq

/-- No slot is empty. -/
def Full (m : SlotMap α) : Prop := ∀ p ∈ m.entries, p.2.isSome

/-- Slots that nobody else holds stay full. -/
theorem Full.fetch (h : m.Full) (hnames : (m.entries.map (·.1)).Nodup) (key : String)
    (make : Unit → Except ε α) : (m.fetch false key make).slots.Full := by
  have hopened : ∀ p ∈ (m.opened key).entries, p.1 = key ∨ p.2.isSome := by
    unfold opened
    split
    · exact fun p hp => .inr (h p hp)
    · intro p hp
      rcases List.mem_cons.mp hp with rfl | hp
      · exact .inl rfl
      · exact .inr (h p hp)
  unfold SlotMap.fetch
  split
  · next a hget =>
    rintro ⟨name, o⟩ hp
    rcases hopened _ hp with rfl | ho
    · -- the slot that was found is the only one of its key
      have hlookup := (Entries.lookup_eq_some_iff_mem (names_opened hnames)).mpr hp
      rw [get?, hlookup] at hget
      exact Option.isSome_iff_exists.mpr ⟨a, hget⟩
    · exact ho
  · split
    · intro p hp
      obtain ⟨q, hq, rfl⟩ := List.mem_map.mp hp
      rcases hopened q hq with hkey | ho
      · simp [hkey]
      · show (if q.1 = key then _ else q.2).isSome = true
        split
        · rfl
        · exact ho
    · intro p hp
      obtain ⟨hp, hkey⟩ := List.mem_filter.mp hp
      exact (hopened p hp).resolve_left (of_decide_eq_true hkey)

end SlotMap

/-! ### Histories -/

namespace Engine

variable {e s : Engine} {history : List Command} {r : Request} {c : Command}

/-- The key that an engine keeps the program of a request under. -/
def keyOf (e : Engine) (r : Request) : String := r.key e.config.hashThreshold

/-- Whether a request has a program. -/
def compiles (e : Engine) (r : Request) : Bool := (r.load (e.keyOf r) e.scope).isOk

/-- The requests since the last `clear`, the last one first. -/
def requestsSince (history : List Command) : List Request :=
  (history.reverse.takeWhile (·.request?.isSome)).filterMap Command.request?

/-- The keys of the requests that have a program, since the last `clear`. -/
def compiledSince (e : Engine) (history : List Command) : Finset String :=
  (((requestsSince history).filter e.compiles).map e.keyOf).toFinset

/-- The keys that an engine keeps after a history. -/
def keptSince (e : Engine) (history : List Command) : Finset String :=
  if e.config.caching then e.compiledSince history else ∅

theorem requestsSince_snoc (history : List Command) (c : Command) :
    requestsSince (history ++ [c]) = match c.request? with
      | some r => r :: requestsSince history
      | none => [] := by
  rw [requestsSince, List.reverse_append, List.reverse_singleton, List.singleton_append,
    List.takeWhile_cons]
  cases h : c.request? with
  | none => rfl
  | some r => simp [h, requestsSince]

theorem compiledSince_snoc (e : Engine) (history : List Command) (hc : c.request? = some r) :
    e.compiledSince (history ++ [c]) =
      if e.compiles r then insert (e.keyOf r) (e.compiledSince history)
      else e.compiledSince history := by
  rw [compiledSince, requestsSince_snoc, hc, List.filter_cons]
  split
  · rw [List.map_cons, List.toFinset_cons, compiledSince]
  · rfl

theorem compiledSince_clear (e : Engine) (history : List Command) (hc : c.request? = none) :
    e.compiledSince (history ++ [c]) = ∅ := by
  rw [compiledSince, requestsSince_snoc, hc]
  rfl

theorem step_of_request (s : Engine) (hc : c.request? = some r) : s.step c = (s.compile r).2 := by
  cases c with
  | compile _ => cases hc; rfl
  | evaluate _ _ => cases hc; rfl
  | clear => cases hc

theorem step_of_none (s : Engine) (hc : c.request? = none) : s.step c = s.clear := by
  cases c with
  | compile _ => cases hc
  | evaluate _ _ => cases hc
  | clear => rfl

theorem after_snoc (s : Engine) (history : List Command) (c : Command) :
    s.after (history ++ [c]) = (s.after history).step c := by
  rw [after, List.foldl_append]
  rfl

/-! ### What a history keeps true -/

/-- After a history an engine keeps, once each, the keys that compiled since the last `clear`. -/
structure Booked (e : Engine) (history : List Command) (s : Engine) : Prop where
  config : s.config = e.config
  scope : s.scope = e.scope
  distinct : s.cache.Distinct
  keys : s.cache.keys = e.keptSince history

theorem Booked.keyOf (h : Booked e history s) (r : Request) : s.keyOf r = e.keyOf r := by
  rw [Engine.keyOf, h.config, Engine.keyOf]

/-- What is kept for a request, or what is compiled for it now. -/
def fetched (s : Engine) (r : Request) : Fetched EngineError Program :=
  s.fetch (s.keyOf r) fun _ => r.load (s.keyOf r) s.scope

theorem compile_eq (s : Engine) (r : Request) :
    s.compile r = ((s.fetched r).result.bind (ofKind r.kind (s.keyOf r)),
      { s with
        cache := (s.fetched r).cache
        compilations := if (s.fetched r).made then s.compilations + 1 else s.compilations }) := rfl

/-- A command adds the key of its request, if the request has a program, or leaves no key. -/
theorem Booked.step (h : Booked e history s) (c : Command) :
    Booked e (history ++ [c]) (s.step c) := by
  cases hc : c.request? with
  | none =>
    rw [step_of_none s hc]
    refine ⟨h.config, h.scope, List.nodup_nil, ?_⟩
    rw [keptSince, compiledSince_clear e history hc, ite_self]
    rfl
  | some r =>
    have hkeys := h.keys
    rw [step_of_request s hc, compile_eq]
    refine ⟨h.config, h.scope, ?_, ?_⟩
    · change (s.fetched r).cache.Distinct
      unfold fetched fetch
      split
      · exact h.distinct.fetch _ _
      · exact h.distinct
    · change (s.fetched r).cache.keys = _
      rw [fetched, fetch, h.config, h.keyOf, h.scope]
      unfold keptSince at hkeys ⊢
      split at hkeys
      · next hcaching =>
        rw [if_pos hcaching, if_pos hcaching, Cache.keys_fetch, hkeys,
          compiledSince_snoc e history hc, compiles]
      · next hcaching =>
        rw [if_neg hcaching, if_neg hcaching]
        exact hkeys

theorem booked_after (h : Booked e [] s) (history : List Command) :
    Booked e history (s.after history) := by
  induction history using List.reverseRecOn with
  | nil => exact h
  | append_singleton history c ih =>
    rw [after_snoc]
    exact ih.step c

/-- Whether a command makes a request whose key is not kept. -/
def misses (e : Engine) (kept : Finset String) (c : Command) : Bool :=
  c.request?.any fun r => e.keyOf r ∉ kept

/-- A command compiles once if it makes a request whose key is not kept, and else not at all. -/
theorem Booked.compilations_step (h : Booked e history s) (c : Command) :
    (s.step c).compilations =
      s.compilations + if e.misses (e.keptSince history) c then 1 else 0 := by
  cases hc : c.request? with
  | none =>
    rw [step_of_none s hc, misses, hc]
    rfl
  | some r =>
    have hmade : (s.fetched r).made = e.misses (e.keptSince history) c := by
      rw [misses, hc, Option.any_some, ← h.keys, ← h.keyOf, fetched, fetch]
      split
      · exact Cache.made_fetch _ _ _
      · next hcaching =>
        rw [h.keys, keptSince, ← h.config, if_neg hcaching]
        rfl
    rw [step_of_request s hc, compile_eq, ← hmade]
    change (if _ then _ else _) = _
    split <;> rfl

/-- A request without an answer leaves all that is kept. -/
theorem cache_compile_of_error {err : EngineError} (h : (s.compile r).1 = .error err) :
    (s.compile r).2.cache = s.cache := by
  change (s.fetched r).cache = s.cache
  rw [fetched, fetch]
  split
  · cases hget : s.cache.get? (s.keyOf r) with
    | some p => rw [Cache.fetch_of_get? hget]
    | none =>
      -- what is made for a request is of its kind, so that it failed to be made
      have hload : r.load (s.keyOf r) s.scope = .error err := (compile_of_none hget).symm.trans h
      rw [Cache.fetch, hget, hload]
  · rfl

end Engine

/-! ### Engines that keep slots -/

/-- Programs in slots, and how often something was compiled. -/
structure Shelf where
  slots : SlotMap Program := {}
  compilations : Nat := 0

namespace Shelf

variable {e s : Engine} {shelf : Shelf}

/-- What the slot of a request is filled with, or what is compiled for it now. -/
def fetched (shelf : Shelf) (e : Engine) (held : Bool) (r : Request) :
    SlotFetched EngineError Program :=
  if e.config.caching then
    shelf.slots.fetch held (e.keyOf r) fun _ => r.load (e.keyOf r) e.scope
  else ⟨r.load (e.keyOf r) e.scope, shelf.slots, true⟩

/-- The program of a request to an engine that keeps its programs on a shelf, and the shelf after
it. -/
def compile (shelf : Shelf) (e : Engine) (held : Bool) (r : Request) :
    Except EngineError Program × Shelf :=
  let fetched := shelf.fetched e held r
  (fetched.result.bind (Engine.ofKind r.kind (e.keyOf r)),
    ⟨fetched.slots, if fetched.made then shelf.compilations + 1 else shelf.compilations⟩)

/-- The shelf after a command, during which another caller holds the slot or does not. -/
def step (shelf : Shelf) (e : Engine) (c : Command × Bool) : Shelf :=
  match c.1.request? with
  | some r => (shelf.compile e c.2 r).2
  | none => { shelf with slots := {} }

/-- The shelf after a history. -/
def after (e : Engine) (history : List (Command × Bool)) : Shelf :=
  history.foldl (fun shelf c => shelf.step e c) {}

/-- A shelf on which an engine with a cache could keep its programs. -/
structure Shows (shelf : Shelf) (s : Engine) : Prop where
  slots : shelf.slots.Shows s.cache
  compilations : shelf.compilations = s.compilations

/-- A request gets the same answer from a shelf. -/
theorem Shows.compile (h : shelf.Shows s) (held : Bool) (r : Request) :
    (shelf.compile s held r).1 = (s.compile r).1 ∧
      (shelf.compile s held r).2.Shows (s.compile r).2 := by
  have hfetched : (shelf.fetched s held r).result = (s.fetched r).result ∧
      (shelf.fetched s held r).made = (s.fetched r).made ∧
      (shelf.fetched s held r).slots.Shows (s.fetched r).cache := by
    unfold fetched Engine.fetched Engine.fetch
    split
    · exact h.slots.fetch held _ _
    · exact ⟨rfl, rfl, h.slots⟩
  obtain ⟨hresult, hmade, hslots⟩ := hfetched
  rw [Engine.compile_eq, Shelf.compile, hresult, hmade, h.compilations]
  exact ⟨rfl, hslots, rfl⟩

/-- A command does to a shelf what it does to the cache that the shelf shows. -/
theorem Shows.step (h : shelf.Shows s) (c : Command × Bool) :
    (shelf.step s c).Shows (s.step c.1) := by
  cases hc : c.1.request? with
  | none =>
    rw [Engine.step_of_none s hc, Shelf.step, hc]
    exact ⟨⟨List.nodup_nil, fun _ => rfl⟩, h.compilations⟩
  | some r =>
    rw [Engine.step_of_request s hc, Shelf.step, hc]
    exact (h.compile c.2 r).2

theorem compile_congr (hconfig : s.config = e.config) (hscope : s.scope = e.scope) (held : Bool)
    (r : Request) : shelf.compile s held r = shelf.compile e held r := by
  cases s
  cases hconfig
  cases hscope
  rfl

theorem step_congr (hconfig : s.config = e.config) (hscope : s.scope = e.scope)
    (c : Command × Bool) : shelf.step s c = shelf.step e c := by
  unfold step
  split
  · rw [compile_congr hconfig hscope]
  · rfl

theorem after_snoc (e : Engine) (history : List (Command × Bool)) (c : Command × Bool) :
    after e (history ++ [c]) = (after e history).step e c := by
  rw [after, List.foldl_append]
  rfl

theorem shows_after (h : e.Booked [] e) (hcompilations : e.compilations = 0)
    (history : List (Command × Bool)) :
    (after e history).Shows (e.after (history.map (·.1))) := by
  induction history using List.reverseRecOn with
  | nil =>
    refine ⟨⟨List.nodup_nil, fun key => ?_⟩, hcompilations.symm⟩
    have hkeys : e.cache.keys = ∅ := h.keys.trans (ite_self _)
    exact (Cache.not_mem_keys.mp (hkeys ▸ Finset.notMem_empty key)).symm
  | append_singleton history c ih =>
    have hbooked := Engine.booked_after h (history.map (·.1))
    rw [after_snoc, List.map_append, List.map_singleton, Engine.after_snoc,
      ← step_congr hbooked.config hbooked.scope]
    exact ih.step c

/-- Without other callers no slot is ever empty. -/
theorem full_after (h : e.Booked [] e) (hcompilations : e.compilations = 0)
    {history : List (Command × Bool)} (hheld : ∀ c ∈ history, c.2 = false) :
    (after e history).slots.Full := by
  induction history using List.reverseRecOn with
  | nil => exact fun _ hp => nomatch hp
  | append_singleton history c ih =>
    have hfull := ih fun d hd => hheld d (List.mem_append_left _ hd)
    have hnames := (shows_after h hcompilations history).slots.names
    rw [after_snoc, step]
    split
    · next r _ =>
      rw [hheld c (by simp)]
      change ((after e history).fetched e false r).slots.Full
      unfold fetched
      split
      · exact hfull.fetch hnames _ _
      · exact hfull
    · exact fun _ hp => nomatch hp

end Shelf

/-! ### The books -/

namespace Engine

variable {e : Engine}

/-- What the counters of an engine tell after every history. -/
structure Accounted (e : Engine) : Prop where
  /-- A request whose key is not kept is compiled, and nothing else is. -/
  step : ∀ history c, (e.after (history ++ [c])).compilations =
    (e.after history).compilations + if e.misses (e.after history).cache.keys c then 1 else 0
  /-- The commands of a history that are compiled, by what compiled before them. -/
  compilations : ∀ history, (e.after history).compilations =
    (List.range history.length).countP fun i =>
      history[i]?.any (e.misses (e.keptSince (history.take i)))
  /-- An engine that keeps nothing compiles every request. -/
  uncached : e.config.caching = false →
    ∀ history, (e.after history).compilations = history.countP (·.request?.isSome)
  /-- A request without an answer leaves what is kept. -/
  failure : ∀ history c r err, c.request? = some r →
    ((e.after history).compile r).1 = .error err →
    (e.after (history ++ [c])).cache = (e.after history).cache
  /-- The keys that are kept are those that compiled since the last `clear`. -/
  keys : ∀ history, (e.after history).cache.keys = e.keptSince history
  size : ∀ history, (e.after history).cache.size =
    if e.config.caching then (e.compiledSince history).card else 0
  /-- An engine that keeps slots answers and counts alike, whoever holds its slots. -/
  shelf : ∀ history : List (Command × Bool),
    (∀ held r, ((Shelf.after e history).compile e held r).1 =
      ((e.after (history.map (·.1))).compile r).1) ∧
    (Shelf.after e history).compilations = (e.after (history.map (·.1))).compilations ∧
    (Shelf.after e history).slots.size = (e.after (history.map (·.1))).cache.size
  /-- Without other callers it keeps no empty slot. -/
  slots : ∀ history : List (Command × Bool), (∀ c ∈ history, c.2 = false) →
    (Shelf.after e history).slots.entries.length = (Shelf.after e history).slots.size

theorem compilations_after (h : Booked e [] e) (hcompilations : e.compilations = 0)
    (history : List Command) : (e.after history).compilations =
      (List.range history.length).countP fun i =>
        history[i]?.any (e.misses (e.keptSince (history.take i))) := by
  induction history using List.reverseRecOn with
  | nil => exact hcompilations
  | append_singleton history c ih =>
    -- the commands before the last one are compiled or not whatever comes after them
    have hbefore : ∀ i ∈ List.range history.length,
        (history ++ [c])[i]?.any (e.misses (e.keptSince ((history ++ [c]).take i))) =
          history[i]?.any (e.misses (e.keptSince (history.take i))) := by
      intro i hi
      have hi := List.mem_range.mp hi
      rw [List.getElem?_append_left hi, List.take_append_of_le_length hi.le]
    rw [after_snoc, (booked_after h history).compilations_step, ih, List.length_append,
      List.length_singleton, List.range_succ, List.countP_append,
      List.countP_congr fun i hi => Bool.eq_iff_iff.mp (hbefore i hi)]
    simp [List.countP_singleton]

/-- **The books of an engine.** An engine as it is built has compiled nothing. Over every history
of requests and `clear`s a request is compiled exactly if its key is not kept then, a request
without an answer leaves what is kept, and what is kept is counted by the keys of the requests
that have a program since the last `clear`. -/
theorem accounted {config : Config} {types : List (String × Ty)} {libraries : Libraries}
    {natives : Natives} (hbuild : build config types libraries natives = .ok e) :
    e.compilations = 0 ∧ e.Accounted := by
  have hbuilt : e.cache = {} ∧ e.compilations = 0 := by
    unfold build at hbuild
    split at hbuild
    · cases hbuild
    · cases hbuild
      exact ⟨rfl, rfl⟩
  obtain ⟨hcache, hcompilations⟩ := hbuilt
  have hstart : Booked e [] e := by
    refine ⟨rfl, rfl, ?_, ?_⟩
    · rw [hcache]
      exact List.nodup_nil
    · rw [hcache]
      exact (ite_self _).symm
  have hbooked := booked_after hstart
  have hcount := compilations_after hstart hcompilations
  refine ⟨hcompilations, {
    step := fun history c => ?_
    compilations := hcount
    uncached := fun hcaching history => ?_
    failure := fun history c r err hc herr => ?_
    keys := fun history => (hbooked history).keys
    size := fun history => ?_
    shelf := fun history => ?_
    slots := fun history hheld => ?_ }⟩
  · rw [after_snoc, (hbooked history).compilations_step, (hbooked history).keys]
  · induction history using List.reverseRecOn with
    | nil => exact hcompilations
    | append_singleton history c ih =>
      have hkept : e.keptSince history = ∅ := if_neg (by simp [hcaching])
      rw [after_snoc, (hbooked history).compilations_step, ih, hkept, List.countP_append,
        List.countP_singleton]
      cases hc : c.request? <;> simp [misses, hc]
  · rw [after_snoc, step_of_request _ hc]
    exact cache_compile_of_error herr
  · rw [Cache.size_eq_card (hbooked history).distinct, (hbooked history).keys, keptSince]
    split <;> rfl
  · have hshows := Shelf.shows_after hstart hcompilations history
    have hbooked := hbooked (history.map (·.1))
    refine ⟨fun held r => ?_, hshows.compilations, hshows.slots.size_eq hbooked.distinct⟩
    rw [← (hshows.compile held r).1, Shelf.compile_congr hbooked.config hbooked.scope]
  · exact (List.countP_eq_length.mpr (Shelf.full_after hstart hcompilations hheld)).symm

/-- A text that is asked for twice, one that does not compile, and a `clear`. -/
theorem accounted_retries : ∃ e, build {} [] [] (fun _ _ => .null) = .ok e ∧ e.Accounted ∧
    ∃ history : List Command,
      (e.after history).compilations = 4 ∧ (e.after history).cache.size = 1 ∧
      (e.after (history ++ [.clear])).cache.size = 0 := by
  let e : Engine :=
    { config := {}, scope := { libraries := [.builtins] }, natives := fun _ _ => .null }
  have hbuild : build {} [] [] (fun _ _ => .null) = .ok e := rfl
  let ask (text : String) : Command := .compile (.expression text .any)
  refine ⟨e, hbuild, (accounted hbuild).2,
    [ask "1", ask " 1", ask "1 +", ask "1 +", .clear, ask "1"], ?_, ?_, ?_⟩ <;> decide +kernel

end Engine

end Feel
