import Feel.Engine.Basic
import Feel.Proofs.Refinement

/-!
# Answers from the cache

An engine that keeps programs answers a request with a program that was made for the first
request of the same key. The answers after any history are those of an engine that was asked
nothing else exactly when requests that have one key behave in one way, and a key tells of a
request its kind, its text without superfluous blanks and the texts of its types.

* `Command`, `Engine.after`: histories of an engine.
* `Engine.Alike`, `Engine.Transparent`: answers that no caller can tell apart.
* `Request.told`, `Request.told_of_key`: what the key of a request tells of it.
* `Engine.Filled`, `Engine.filled_after`: what is kept was made for a request of its key.
* `Engine.transparent_iff`: the cache does not show exactly where keys tell requests apart that
  behave differently.
-/

namespace Feel

/-! ### Histories -/

/-- What an engine can be asked to do. -/
inductive Command where
  | compile (r : Request)
  | evaluate (text : String) (input : Value)
  | clear

/-- The request that a command makes. -/
def Command.request? : Command → Option Request
  | compile r => some r
  | evaluate text input => some (.expression text input.type)
  | clear => none

namespace Engine

/-- The engine after a command. -/
def step (e : Engine) : Command → Engine
  | .compile r => (e.compile r).2
  | .evaluate text input => (e.evaluate text input).2
  | .clear => e.clear

/-- The engine after a history of commands. -/
def after (e : Engine) (history : List Command) : Engine := history.foldl step e

/-- A history whose requests are all of a kind. -/
def Asks (R : Request → Prop) (history : List Command) : Prop :=
  ∀ c ∈ history, ∀ r, c.request? = some r → R r

/-! ### Answers -/

/-- Answers that differ in no more than their errors: both fail, or both programs have one type
and one result on every input. -/
def Alike (e : Engine) : Except EngineError Program → Except EngineError Program → Prop
  | .ok p, .ok q =>
    p.resultType = q.resultType ∧ ∀ input test, e.run p input test = e.run q input test
  | .error _, .error _ => True
  | _, _ => False

/-- Values that differ in no more than the error of a request that does not compile. -/
def AlikeValue : Except Failure Value → Except Failure Value → Prop
  | .ok v, .ok w => v = w
  | .error (.run a), .error (.run b) => a = b
  | .error (.engine _), .error (.engine _) => True
  | _, _ => False

/-- After every history of requests of a kind such a request gets the answer that it gets from the
engine itself. -/
structure Transparent (e : Engine) (R : Request → Prop) : Prop where
  compile : ∀ history, Asks R history → ∀ r, R r →
    e.Alike ((e.after history).compile r).1 (e.compile r).1
  evaluate : ∀ history, Asks R history → ∀ text (input : Value), R (.expression text input.type) →
    AlikeValue ((e.after history).evaluate text input).1 (e.evaluate text input).1

theorem Alike.refl (e : Engine) (x : Except EngineError Program) : e.Alike x x := by
  cases x with
  | error _ => trivial
  | ok p => exact ⟨rfl, fun _ _ => rfl⟩

/-- Answers that are alike give values that are alike. -/
theorem Alike.evaluate {e : Engine} {x y : Except EngineError Program} (h : e.Alike x y)
    (input : Value) :
    AlikeValue (x.mapError Failure.engine >>= fun p => (e.run p input none).mapError Failure.run)
      (y.mapError Failure.engine >>= fun p => (e.run p input none).mapError Failure.run) := by
  cases x with
  | error a =>
    cases y with
    | error b => trivial
    | ok q => cases h
  | ok p =>
    cases y with
    | error b => cases h
    | ok q =>
      change AlikeValue ((e.run p input none).mapError Failure.run)
        ((e.run q input none).mapError Failure.run)
      rw [h.2 input none]
      cases e.run q input none with
      | error _ => rfl
      | ok v => rfl

end Engine

/-! ### Keys -/

namespace Request

/-- What the key of a request tells of it beside its kind: the text without superfluous blanks and
the texts of its types, joined. -/
def told (r : Request) : String := Key.separator.intercalate r.parts

theorem key_eq (r : Request) (threshold : Nat) :
    r.key threshold = if r.told.utf8ByteSize ≤ threshold then r.kind.text ++ ":" ++ r.told
      else r.kind.text ++ "#" ++ Sha256.hex r.told := rfl

/-- Two texts behind the names of two kinds. -/
theorem kind_of_append {a b : SourceKind} {s t : String}
    (h : a.text ++ s = b.text ++ t) : a = b ∧ s = t := by
  have hlist := congrArg String.toList h
  rw [String.toList_append, String.toList_append] at hlist
  cases a <;> cases b <;>
    simp [SourceKind.text, String.toList_inj] at hlist ⊢
  all_goals exact hlist

/-- Keys tell requests apart that differ in kind or in what is told of them, unless two texts have
one digest. -/
theorem told_of_key {r s : Request} {threshold : Nat}
    (hdigest : Sha256.hex r.told = Sha256.hex s.told → r.told = s.told)
    (h : r.key threshold = s.key threshold) : r.kind = s.kind ∧ r.told = s.told := by
  rw [key_eq, key_eq] at h
  split at h
  · split at h
    · rw [String.append_assoc, String.append_assoc] at h
      obtain ⟨hkind, htail⟩ := kind_of_append h
      exact ⟨hkind, by simpa [String.append_right_inj] using htail⟩
    · rw [String.append_assoc, String.append_assoc] at h
      have hlist := congrArg String.toList (kind_of_append h).2
      simp at hlist
  · split at h
    · rw [String.append_assoc, String.append_assoc] at h
      have hlist := congrArg String.toList (kind_of_append h).2
      simp at hlist
    · rw [String.append_assoc, String.append_assoc] at h
      obtain ⟨hkind, htail⟩ := kind_of_append h
      exact ⟨hkind, hdigest (by simpa [String.append_right_inj] using htail)⟩

theorem key_of_told {r s : Request} (hkind : r.kind = s.kind) (htold : r.told = s.told)
    (threshold : Nat) : r.key threshold = s.key threshold := by
  rw [key_eq, key_eq, hkind, htold]

/-- A program is of the kind of the request it was made for. -/
theorem kind_of_load {r : Request} {key : String} {scope : Scope} {p : Program}
    (h : r.load key scope = .ok p) : p.kind = r.kind := by
  obtain ⟨q, hq, h⟩ := bind_eq_ok.mp h
  have hp : q = p := by
    split at h
    · cases h
    · exact pure_eq_ok.mp h
  subst hp
  cases hprogram : r.program { unit := Key.unitName key } scope with
  | error e =>
    rw [hprogram] at hq
    cases hq
  | ok p =>
    rw [hprogram] at hq
    cases hq
    cases r with
    | expression text inputType =>
      obtain ⟨_, _, h⟩ := bind_eq_ok.mp hprogram
      exact (congrArg Program.kind (pure_eq_ok.mp h)).symm
    | tests text testType inputType =>
      obtain ⟨_, _, h⟩ := bind_eq_ok.mp hprogram
      exact (congrArg Program.kind (pure_eq_ok.mp h)).symm
    | table definition inputType =>
      obtain ⟨_, _, h⟩ := bind_eq_ok.mp hprogram
      obtain ⟨_, _, h⟩ := bind_eq_ok.mp h
      exact (congrArg Program.kind (pure_eq_ok.mp h)).symm

end Request

/-! ### What is kept -/

namespace Engine

/-- An engine that differs from another in what it keeps, and all that it keeps was made for a
request of a kind, whose key it is kept under. -/
structure Filled (R : Request → Prop) (e s : Engine) : Prop where
  config : s.config = e.config
  scope : s.scope = e.scope
  natives : s.natives = e.natives
  kept : ∀ key p, s.cache.get? key = some p →
    ∃ r, R r ∧ r.key e.config.hashThreshold = key ∧ r.load key e.scope = .ok p

variable {R : Request → Prop} {e s : Engine}

/-- What a new engine answers is what is made for the request. -/
theorem compile_of_none {r : Request}
    (h : s.cache.get? (r.key s.config.hashThreshold) = none) :
    (s.compile r).1 = r.load (r.key s.config.hashThreshold) s.scope := by
  have hfetch : (s.fetch (r.key s.config.hashThreshold) fun _ =>
      r.load (r.key s.config.hashThreshold) s.scope).result =
        r.load (r.key s.config.hashThreshold) s.scope := by
    unfold fetch
    split
    · rw [Cache.fetch, h]
      cases r.load (r.key s.config.hashThreshold) s.scope <;> rfl
    · rfl
  change (Fetched.result _).bind _ = _
  rw [hfetch]
  cases hload : r.load (r.key s.config.hashThreshold) s.scope with
  | error _ => rfl
  | ok p =>
    change ofKind _ _ p = _
    rw [ofKind, if_pos (Request.kind_of_load hload)]

/-- What is kept is answered. -/
theorem compile_of_some (hcaching : s.config.caching = true) {r : Request} {p : Program}
    (h : s.cache.get? (r.key s.config.hashThreshold) = some p) (hkind : p.kind = r.kind) :
    (s.compile r).1 = .ok p := by
  change (Fetched.result _).bind _ = _
  rw [fetch, if_pos hcaching, Cache.fetch_of_get? h]
  change ofKind _ _ p = _
  rw [ofKind, if_pos hkind]

/-- What is kept after a request was kept before, or was made for the request. -/
theorem get?_compile {r : Request} {key : String} {p : Program}
    (h : (s.compile r).2.cache.get? key = some p) :
    s.cache.get? key = some p ∨
      key = r.key s.config.hashThreshold ∧ r.load key s.scope = .ok p := by
  have hcache : (s.compile r).2.cache = (s.fetch (r.key s.config.hashThreshold) fun _ =>
    r.load (r.key s.config.hashThreshold) s.scope).cache := rfl
  rw [hcache, fetch] at h
  split at h
  · unfold Cache.fetch at h
    split at h
    · exact .inl h
    · split at h
      · next q hload =>
        by_cases hkey : key = r.key s.config.hashThreshold
        · subst hkey
          rw [Cache.get?, List.lookup_cons_self] at h
          cases h
          exact .inr ⟨rfl, hload⟩
        · rw [Cache.get?, List.lookup_cons, beq_false_of_ne hkey] at h
          exact .inl h
      · exact .inl h
  · exact .inl h

/-- A request leaves an engine filled. -/
theorem Filled.compile (h : Filled R e s) {r : Request} (hr : R r) :
    Filled R e (s.compile r).2 := by
  refine ⟨h.config, h.scope, h.natives, fun key p hp => ?_⟩
  rcases get?_compile hp with hp | ⟨rfl, hload⟩
  · exact h.kept key p hp
  · rw [h.config, h.scope] at hload
    exact ⟨r, hr, by rw [h.config], by rw [h.config]; exact hload⟩

/-- A command leaves an engine filled. -/
theorem Filled.step (h : Filled R e s) {c : Command} (hc : ∀ r, c.request? = some r → R r) :
    Filled R e (s.step c) := by
  cases c with
  | compile r => exact h.compile (hc r rfl)
  | evaluate text input => exact h.compile (hc _ rfl)
  | clear => exact ⟨h.config, h.scope, h.natives, nofun⟩

/-- An engine is filled after every history. -/
theorem filled_after (h : Filled R e s) {history : List Command} (hasks : Asks R history) :
    Filled R e (s.after history) := by
  induction history generalizing s with
  | nil => exact h
  | cons c history ih =>
    have hc := hasks c List.mem_cons_self
    exact ih (h.step hc) fun d hd => hasks d (List.mem_cons_of_mem _ hd)

/-- **The cache does not show exactly where requests of one key behave in one way.** Of an engine
as it is built, asked for requests of some kind of which no two have one digest: after every
history every such request is answered as if it were the only one, if and only if any two of them
that are of one kind and have, without superfluous blanks, one text and one text of their types
are answered alike, once the first of them compiles. -/
theorem transparent_iff {config : Config} {types : List (String × Ty)} {libraries : Libraries}
    {natives : Natives} (hbuild : build config types libraries natives = .ok e)
    (hcaching : config.caching = true)
    (hdigest : ∀ r s, R r → R s → Sha256.hex r.told = Sha256.hex s.told → r.told = s.told) :
    e.Transparent R ↔ ∀ r s, R r → R s → r.kind = s.kind → r.told = s.told →
      (∃ p, (e.compile r).1 = .ok p) → e.Alike (e.compile r).1 (e.compile s).1 := by
  have hbuilt : e.config = config ∧ e.cache = {} := by
    unfold build at hbuild
    split at hbuild
    · cases hbuild
    · cases hbuild
      exact ⟨rfl, rfl⟩
  obtain ⟨rfl, hcache⟩ := hbuilt
  have hnone : ∀ key, e.cache.get? key = none := fun key => by rw [hcache]; rfl
  have hfresh : ∀ r : Request, (e.compile r).1 = r.load (r.key e.config.hashThreshold) e.scope :=
    fun r => compile_of_none (hnone _)
  constructor
  · intro htransparent r s hr hs hkind htold ⟨p, hp⟩
    -- the second request gets what was kept for the first
    have hasks : Asks R [.compile r] := by
      intro c hc r' hr'
      cases List.mem_singleton.mp hc
      cases hr'
      exact hr
    have halike := htransparent.compile [.compile r] hasks s hs
    have hload : r.load (r.key e.config.hashThreshold) e.scope = .ok p := (hfresh r).symm.trans hp
    have hkept : (e.compile r).2.cache.get? (r.key e.config.hashThreshold) = some p := by
      change (e.fetch _ _).cache.get? _ = _
      rw [fetch, if_pos hcaching]
      apply Cache.get?_fetch_of_ok
      rw [Cache.fetch, hnone, hload]
    have hanswer : ((e.after [.compile r]).compile s).1 = .ok p := by
      refine compile_of_some (s := (e.compile r).2) hcaching ?_ ?_
      · change (e.compile r).2.cache.get? (s.key e.config.hashThreshold) = _
        rw [← Request.key_of_told hkind htold]
        exact hkept
      · rw [Request.kind_of_load hload, hkind]
    rw [hanswer] at halike
    rw [hp]
    exact halike
  · intro hkeys
    have hstart : Filled R e e := ⟨rfl, rfl, rfl, fun key p hp => by rw [hnone] at hp; cases hp⟩
    have hcompile : ∀ history, Asks R history → ∀ r, R r →
        e.Alike ((e.after history).compile r).1 (e.compile r).1 := by
      intro history hasks r hr
      have hfilled := filled_after hstart hasks
      cases hget : (e.after history).cache.get? (r.key (e.after history).config.hashThreshold) with
      | none =>
        rw [compile_of_none hget, hfresh, hfilled.config, hfilled.scope]
        exact .refl _ _
      | some p =>
        obtain ⟨r', hr', hkey, hload⟩ := hfilled.kept _ p hget
        rw [hfilled.config] at hkey
        obtain ⟨hkind, htold⟩ := Request.told_of_key (hdigest r' r hr' hr) hkey
        have hanswer := compile_of_some (by rw [hfilled.config]; exact hcaching) hget
          ((Request.kind_of_load hload).trans hkind)
        have hfirst : (e.compile r').1 = .ok p := by
          rw [hfresh, hkey, ← hfilled.config]
          exact hload
        rw [hanswer, ← hfirst]
        exact hkeys r' r hr' hr hkind htold ⟨p, hfirst⟩
    refine ⟨hcompile, fun history hasks text input hr => ?_⟩
    have hnatives := (filled_after hstart hasks).natives
    have halike := (hcompile history hasks _ hr).evaluate input
    have hrun : ∀ p, ((e.after history).evaluate text input).2.run p input none =
        e.run p input none := fun p =>
      congrArg (fun n => p.run n input none) hnatives
    have hevaluate : ((e.after history).evaluate text input).1 =
        (((e.after history).compile (.expression text input.type)).1.mapError Failure.engine >>=
          fun p => (e.run p input none).mapError Failure.run) :=
      congrArg (_ >>= ·) (funext fun p => congrArg (Except.mapError Failure.run) (hrun p))
    rw [hevaluate]
    exact halike

/-- Two texts of a field that differ in their blanks. -/
theorem transparent_field : ∃ e r s, build {} [] [] (fun _ _ => .null) = .ok e ∧
    r ≠ s ∧ r.told = s.told ∧ (∃ p, (e.compile r).1 = .ok p) ∧
    e.Transparent (fun q => q = r ∨ q = s) := by
  let e : Engine :=
    { config := {}, scope := { libraries := [.builtins] }, natives := fun _ _ => .null }
  have hbuild : build {} [] [] (fun _ _ => .null) = .ok e := rfl
  let r : Request := .expression "n" (.context [("n", .boolean)])
  let s : Request := .expression " n" (.context [("n", .boolean)])
  -- both programs read the field
  have hfield : ∀ q, q = r ∨ q = s → ∃ p, (e.compile q).1 = .ok p ∧ p.resultType = .boolean ∧
      p.root = .inputField "n" := by
    intro q hq
    have hsee : (match (e.compile q).1 with
        | .ok p => (Code.inputField "n").same p.root && p.resultType == .boolean
        | .error _ => false) = true := by
      rcases hq with rfl | rfl <;> decide +kernel
    cases hp : (e.compile q).1 with
    | error _ =>
      rw [hp] at hsee
      cases hsee
    | ok p =>
      rw [hp] at hsee
      obtain ⟨hroot, htype⟩ := Bool.and_eq_true_iff.mp hsee
      refine ⟨p, rfl, eq_of_beq htype, ?_⟩
      unfold Code.same at hroot
      split at hroot
      · next m heq => rw [heq, eq_of_beq hroot]
      · cases hroot
  have htold : ∀ q, q = r ∨ q = s → q.told = r.told := by
    rintro q (rfl | rfl) <;> decide +kernel
  refine ⟨e, r, s, hbuild, by simp [r, s], (htold s (.inr rfl)).symm, ?_, ?_⟩
  · obtain ⟨p, hp, -⟩ := hfield r (.inl rfl)
    exact ⟨p, hp⟩
  · refine (transparent_iff hbuild rfl fun a b ha hb _ => ?_).mpr fun a b ha hb _ _ _ => ?_
    · rw [htold a ha, htold b hb]
    · obtain ⟨p, hp, hptype, hproot⟩ := hfield a ha
      obtain ⟨q, hq, hqtype, hqroot⟩ := hfield b hb
      rw [hp, hq]
      refine ⟨hptype.trans hqtype.symm, fun input test => ?_⟩
      rw [run, run, Program.run, Program.run, hproot, hqroot]
      rfl

end Engine

end Feel
