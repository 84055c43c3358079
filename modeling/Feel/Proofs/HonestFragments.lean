import Feel.Proofs.Growth
import Feel.Proofs.GuardedCode
import Feel.Proofs.LoweringPairs
import Feel.Proofs.Marks

/-!
# What fragments say of their values

Lowering keeps with the code of a term what it knows of the value: whether it can be null, whether
it is a boolean or a machine number, and the value itself where it is a constant. Arithmetic on
operands that cannot be null looks for no null. Operators keep all of this true of every run, with
one exception: the comparison of marked booleans and machine numbers is marked as never null, and
finds no order where the type of an operand is a join that its values do not all share.

Programs run simplified code. That code may give a value where the code it comes from fails, so what
it gives is followed on its own: there are two readings of code, and every law is one of both.

* `Code.Reading`: code as it stands, and simplified code.
* `Fragment.Honest`: what a fragment says of its values is true.
* `Fragment.arithmetic_honest` and the laws beside it: one for each rule for operators.
* `Fragment.ensures_honestBinary`: operators keep fragments honest.
-/

namespace Feel

/-! ### Simplified code -/

namespace Code.Gives

variable {pool : List Value} {Q : Frame → Prop} {P : Value → Prop}

/-- A list of code gives a list. -/
theorem anyList {cs : List Code} (h : ∀ vs, P (.list vs)) : (Code.list cs).Gives pool Q P := by
  intro m hm hp site frame v hQ hv
  obtain ⟨vs, -, hv⟩ := bind_eq_ok.mp hv
  rw [← pure_eq_ok.mp hv]
  exact h vs

theorem anyContext {es : List (String × Code)} (h : ∀ entries, P (.context entries)) :
    (Code.context es).Gives pool Q P := by
  intro m hm hp site frame v hQ hv
  obtain ⟨entries, -, hv⟩ := bind_eq_ok.mp hv
  rw [← pure_eq_ok.mp hv]
  exact h entries

theorem anyRange {s e : Option Code} {si ei : Bool} (h : ∀ a b, P (.range a b si ei)) :
    (Code.range s e si ei).Gives pool Q P := by
  intro m hm hp site frame v hQ hv
  obtain ⟨a, -, hv⟩ := bind_eq_ok.mp hv
  obtain ⟨b, -, hv⟩ := bind_eq_ok.mp hv
  rw [← pure_eq_ok.mp hv]
  exact h a b

theorem anyFor {bs : List (Binding Code)} {body : Code} (h : ∀ vs, P (.list vs)) :
    (Code.forIn bs body).Gives pool Q P := by
  intro m hm hp site frame v hQ hv
  obtain ⟨vs, -, hv⟩ := bind_eq_ok.mp hv
  rw [← pure_eq_ok.mp hv]
  exact h _

/-- A connective of two booleans is a boolean, also under short-circuit. -/
theorem booleanLogic {op : Operator} {l r : Code} {shortCircuit : Bool}
    (hl : l.Gives pool Q fun v => Ty.boolean.holds v = true)
    (hr : r.Gives pool Q fun v => Ty.boolean.holds v = true) :
    (Code.logic op shortCircuit l r).Gives pool Q fun v => Ty.boolean.holds v = true := by
  have hlogic : ∀ x y : Value, Ty.boolean.holds x = true → Ty.boolean.holds y = true →
      Ty.boolean.holds (Datum.logic op x y) = true := by
    intro x y hx hy
    obtain ⟨a, rfl⟩ := Ty.holds_boolean hx
    obtain ⟨b, rfl⟩ := Ty.holds_boolean hy
    cases op <;> cases a <;> cases b <;> rfl
  intro m hm hp site frame v hQ hv
  change (simplifyLogic m.constants op shortCircuit _ _).denote _ _ _ = _ at hv
  rw [simplifyLogic] at hv
  split at hv
  · next x y hx hy =>
    cases hv
    exact hlogic x y (hl.of_valueIn? hm hp hQ hx) (hr.of_valueIn? hm hp hQ hy)
  · split at hv
    · cases hv
      rfl
    · obtain ⟨x, hx, hv⟩ := bind_eq_ok.mp hv
      have hholds := hl m hm hp _ _ x hQ hx
      split at hv
      · rw [← pure_eq_ok.mp hv]
        exact hholds
      · obtain ⟨y, hy, hv⟩ := bind_eq_ok.mp hv
        have hholds' := hr m hm hp _ _ y hQ hy
        rw [← pure_eq_ok.mp hv]
        split
        · exact hholds'
        · exact hlogic x y hholds hholds'

end Code.Gives

/-! ### Readings -/

namespace Code

/-- How code is read: as it stands, or simplified at the default precision. -/
inductive Reading where
  | plain
  | simplified

namespace Reading

/-- The scopes that fragments are made in: simplified code is that of the default options. -/
def Admits : Reading → Scope → Prop
  | plain, _ => True
  | simplified, S => S.Standard

theorem Admits.withTest {ρ : Reading} {S : Scope} (h : ρ.Admits S) (type : Ty) :
    ρ.Admits (S.withTest type) := by
  cases ρ with
  | plain => trivial
  | simplified => exact ⟨h.options, h.libraries⟩

/-- On every machine over a pool that begins with `pool`, and in every frame, code gives values with
a property, if it gives any. -/
def Yields (ρ : Reading) (pool : List Value) (c : Code) (P : Value → Prop) : Prop :=
  match ρ with
  | plain => c.Yields pool (fun _ => True) P
  | simplified => c.Gives pool (fun _ => True) P

/-- Code that stands leaves out checks only where they find nothing. -/
def Guards (ρ : Reading) (pool : List Value) (cursor : Option String) (c : Code) : Prop :=
  match ρ with
  | plain => c.Guarded pool cursor
  | simplified => True

variable {ρ : Reading} {pool : List Value} {P P' R : Value → Prop} {c l r : Code}

namespace Yields

theorem extend {pool' : List Value} (h : ρ.Yields pool c P) (hpool : pool <+: pool') :
    ρ.Yields pool' c P := by
  cases ρ with
  | plain => exact Code.Yields.extend h hpool
  | simplified => exact Gives.extend h hpool

theorem imp (h : ρ.Yields pool c P) (hP : ∀ v, P v → R v) : ρ.Yields pool c R := by
  cases ρ with
  | plain => exact Code.Yields.imp h hP
  | simplified => exact Gives.imp h hP

theorem and (h : ρ.Yields pool c P) (h' : ρ.Yields pool c R) :
    ρ.Yields pool c fun v => P v ∧ R v := by
  cases ρ with
  | plain => exact fun m hm site frame v hQ hv =>
      ⟨h m hm site frame v hQ hv, h' m hm site frame v hQ hv⟩
  | simplified => exact fun m hm hp site frame v hQ hv =>
      ⟨h m hm hp site frame v hQ hv, h' m hm hp site frame v hQ hv⟩

theorem any (h : ∀ v, P v) : ρ.Yields pool c P := by
  cases ρ with
  | plain => exact fun _ _ _ _ v _ _ => h v
  | simplified => exact .trivial h

theorem const {v : Value} (h : P v) : ρ.Yields pool (.const v) P := by
  cases ρ with
  | plain => exact .const h
  | simplified => exact .const h

theorem constRef {i : Nat} {v : Value} (hi : pool[i]? = some v) (h : P v) :
    ρ.Yields pool (.constRef i) P := by
  cases ρ with
  | plain => exact .constRef hi h
  | simplified => exact .constRef hi h

theorem equal {mode : EqualMode} {negated : Bool} (h : ∀ b, P (.boolean b)) :
    ρ.Yields pool (.equal mode negated l r) P := by
  cases ρ with
  | plain =>
    have hany : ∀ {c : Code}, c.Yields pool (fun _ => True) fun _ => True :=
      fun _ _ _ _ _ _ _ => trivial
    exact .both (fun _ => rfl) hany hany fun _ _ _ _ => h _
  | simplified => exact .equal h

theorem compare {op : Operator} {mode : CompareMode} (hl : ρ.Yields pool l P)
    (hr : ρ.Yields pool r P') (hf : ∀ x y, P x → P' y → R (Datum.compareAs op mode x y)) :
    ρ.Yields pool (.compare op mode l r) R := by
  cases ρ with
  | plain => exact .both (fun _ => rfl) hl hr hf
  | simplified => exact .compare hl hr hf

theorem concat (hl : ρ.Yields pool l P) (hr : ρ.Yields pool r P')
    (hf : ∀ x y, P x → P' y → R (Datum.concat x y)) : ρ.Yields pool (.concat l r) R := by
  cases ρ with
  | plain => exact .both (fun _ => rfl) hl hr hf
  | simplified => exact .concat hl hr hf

/-- Arithmetic on operands that are not null, whether it looks for null or not. -/
theorem arith {op : Operator} {mode : NumericMode} {nullCheck : Bool} (hl : ρ.Yields pool l P)
    (hr : ρ.Yields pool r P') (hnull : ∀ x, P x → x.isNull = false)
    (hf : ∀ x y precision, P x → P' y → R (x.arith op y mode precision)) :
    ρ.Yields pool (.arith op mode l r nullCheck) R := by
  cases ρ with
  | plain => exact .arith hl hr hnull hf
  | simplified => exact .arith hl hr (fun x y => hf x y _) fun h => nomatch hnull _ h

theorem negate (h : ρ.Yields pool c P) (hf : ∀ x, P x → R x.negate) :
    ρ.Yields pool (.negate c) R := by
  cases ρ with
  | plain => exact .map (fun _ => rfl) h hf
  | simplified => exact .negate h hf

theorem instanceOf {target : Ty} (h : ∀ b, P (.boolean b)) :
    ρ.Yields pool (.instanceOf c target) P := by
  cases ρ with
  | plain =>
    exact .map (P := fun _ => True) (fun _ => rfl) (fun _ _ _ _ _ _ _ => trivial) fun _ _ => h _
  | simplified => exact .instanceOf h

/-- A connective of two booleans is a boolean, also under short-circuit. -/
theorem shortCircuit {op : Operator} (hl : ρ.Yields pool l fun v => Ty.boolean.holds v = true)
    (hr : ρ.Yields pool r fun v => Ty.boolean.holds v = true) :
    ρ.Yields pool (.logic op true l r) fun v => Ty.boolean.holds v = true := by
  cases ρ with
  | plain => exact Code.Yields.shortCircuit hl hr
  | simplified => exact Gives.booleanLogic hl hr

theorem ite {condition : Code} (hl : ρ.Yields pool l P) (hr : ρ.Yields pool r P) :
    ρ.Yields pool (.ite condition l r) P := by
  cases ρ with
  | plain => exact Code.Yields.ite hl hr
  | simplified => exact Gives.ite hl hr

theorem list {cs : List Code} (h : ∀ vs, P (.list vs)) : ρ.Yields pool (.list cs) P := by
  cases ρ with
  | plain => exact .list h
  | simplified => exact .anyList h

theorem context {es : List (String × Code)} (h : ∀ entries, P (.context entries)) :
    ρ.Yields pool (.context es) P := by
  cases ρ with
  | plain => exact .context h
  | simplified => exact .anyContext h

theorem range {s e : Option Code} {si ei : Bool} (h : ∀ a b, P (.range a b si ei)) :
    ρ.Yields pool (.range s e si ei) P := by
  cases ρ with
  | plain => exact .range h
  | simplified => exact .anyRange h

theorem forIn {bs : List (Binding Code)} {body : Code} (h : ∀ vs, P (.list vs)) :
    ρ.Yields pool (.forIn bs body) P := by
  cases ρ with
  | plain => exact .forIn h
  | simplified => exact .anyFor h

theorem function {params : List String} {body : Code} {type : Ty} (h : ∀ f, P (.function f)) :
    ρ.Yields pool (.function params body type) P := by
  cases ρ with
  | plain => exact .function h
  | simplified => exact .function h

end Yields

namespace Guards

variable {cursor : Option String}

theorem extend {pool' : List Value} (h : ρ.Guards pool cursor c) (hpool : pool <+: pool') :
    ρ.Guards pool' cursor c := by
  cases ρ with
  | plain => exact Guarded.extend h hpool
  | simplified => trivial

theorem of_guarded (h : c.Guarded pool cursor) : ρ.Guards pool cursor c := by
  cases ρ with
  | plain => exact h
  | simplified => trivial

/-- Code without parts. -/
theorem leaf (h : c.children = []) : ρ.Guards pool cursor c := of_guarded (.leaf h)

/-- A form that leaves out no check and is no iteration. -/
theorem of_children (hplaced : c.placed = c.children.map (none, ·))
    (hchecked : c.isUnchecked = false) (h : ∀ d ∈ c.children, ρ.Guards pool none d) :
    ρ.Guards pool cursor c := by
  cases ρ with
  | plain => exact .of_children hplaced hchecked h
  | simplified => trivial

theorem arith {op : Operator} {mode : NumericMode} {nullCheck : Bool}
    (hl : ρ.Guards pool none l) (hr : ρ.Guards pool none r) (hunchecked : nullCheck = false →
      ρ.Yields pool l (· ≠ .null) ∧ ρ.Yields pool r (· ≠ .null)) :
    ρ.Guards pool none (.arith op mode l r nullCheck) := by
  cases ρ with
  | plain =>
    refine .arith hl hr fun h => ?_
    obtain ⟨hlnull, hrnull⟩ := hunchecked h
    exact ⟨Code.Yields.anyFrame hlnull _, Code.Yields.anyFrame hrnull _, nofun⟩
  | simplified => trivial

theorem logic {op : Operator} {shortCircuit : Bool} (hl : ρ.Guards pool none l)
    (hr : ρ.Guards pool none r) (hunchecked : shortCircuit = true →
      ρ.Yields pool l (fun v => ∃ b, v = .boolean b) ∧
        ρ.Yields pool r fun v => ∃ b, v = .boolean b) :
    ρ.Guards pool cursor (.logic op shortCircuit l r) := by
  cases ρ with
  | plain => exact .logic hl hr hunchecked
  | simplified => trivial

section Iterations

variable {bs : List (Binding Code)} {body : Code}
  (hbs : ∀ b ∈ bs, ∀ p ∈ b.domain.placed, ρ.Guards pool p.1 p.2) (hbody : ρ.Guards pool none body)
include hbs hbody

theorem forIn : ρ.Guards pool cursor (.forIn bs body) := by
  cases ρ with
  | plain => exact .forIn hbs hbody
  | simplified => trivial

theorem quantified (every : Bool) : ρ.Guards pool cursor (.quantified every bs body) := by
  cases ρ with
  | plain => exact .quantified hbs hbody every
  | simplified => trivial

end Iterations

end Guards

end Reading

end Code

/-! ### Machine values -/

namespace Ty

/-- Types that booleans and machine numbers can have. -/
def hasMachineValues : Ty → Bool
  | any | boolean | number _ => true
  | _ => false

variable {t u : Ty} {v : Value}

theorem hasMachineValues_of_isMachineType (h : Fragment.isMachineType t = true) :
    t.hasMachineValues = true := by
  unfold Fragment.isMachineType at h
  split at h <;> first | rfl | cases h

theorem hasMachineValues_of_holds (hv : Fragment.isMachineValue v = true) (h : t.holds v = true) :
    t.hasMachineValues = true := by
  unfold Fragment.isMachineValue at hv
  split at hv <;> first | (cases t <;> first | rfl | cases h) | cases hv

/-- Types of more values have machine values too. -/
theorem hasMachineValues_imp (hu : ∀ v, t.holds v = true → u.holds v = true)
    (h : t.hasMachineValues = true) : u.hasMachineValues = true := by
  cases t <;> try cases h
  case any | boolean => exact hasMachineValues_of_holds rfl (hu (.boolean true) rfl)
  case number k =>
    refine hasMachineValues_of_holds rfl (hu (.number (.integer 0)) ?_)
    simp [holds, Number.kind]

/-- Booleans are ordered. -/
theorem compareAs_boolean (op : Operator) (mode : CompareMode) {x y : Value}
    (hx : Ty.boolean.holds x = true) (hy : Ty.boolean.holds y = true) :
    Datum.compareAs op mode x y ≠ .null := by
  obtain ⟨a, rfl⟩ := holds_boolean hx
  obtain ⟨b, rfl⟩ := holds_boolean hy
  cases mode <;> exact nofun

end Ty

/-! ### Fragments -/

namespace Lowering.Ensures

variable {α : Type} {pool : List Value} {x : Lowering α}

theorem and {P R : α → List Value → Prop} (hP : Ensures pool x P) (hR : Ensures pool x R) :
    Ensures pool x fun a pool' => P a pool' ∧ R a pool' := by
  intro d a d' hd hx
  obtain ⟨hgrow, hPa⟩ := hP d a d' hd hx
  exact ⟨hgrow, hPa, (hR d a d' hd hx).2⟩

/-- The code of a constant has no parts, and gives the constant or a value that it shares a place
with. -/
theorem constantLeaf {v : Value} {P : Code → List Value → Prop}
    (h : ∀ c pool', c.children = [] →
      (∀ ρ : Code.Reading, ρ.Yields pool' c fun w => w = v ∨ Draft.sharesPlace w v = true) →
        P c pool') : Ensures pool (Lowering.constantCode v) P :=
  constantCodePlaced (fun _ _ => h _ _ rfl fun _ => .const (.inl rfl))
    fun _ _ _ _ hw hshare => h _ _ rfl fun _ => .constRef hw hshare

end Lowering.Ensures

namespace Fragment

open Code (Reading)
open Lowering (Ensures)

/-- The code of a fragment that is marked as never null gives no null. -/
def NeverNull (ρ : Reading) (pool : List Value) (f : Fragment) : Prop :=
  f.nullable = false → ρ.Yields pool f.code (· ≠ .null)

/-- What a fragment says of its values is true: where it is marked as never null, it has the type
that its term is written with, if there is one, and its code gives values of the family of its own
type; its value is marked by whether it is null, and is of the same family; what is marked as a
boolean or a machine number is of a type that has such values; and arithmetic in its code leaves out
the check for null only where no null comes. -/
structure Honest (ρ : Reading) (pool : List Value) (T : Option Ty) (f : Fragment) : Prop where
  type : ∀ t ∈ T, f.nullable = false → f.type = t
  runs : f.nullable = false → ρ.Yields pool f.code fun v => f.type.holds v = true
  nullable : ∀ v, f.constant = some v → f.nullable = v.isNull
  known : ∀ v, f.constant = some v → v ≠ .null → f.type.holds v = true
  primitive : f.primitive = true → f.nullable = false ∧ f.type.hasMachineValues = true
  guarded : ρ.Guards pool none f.code

variable {ρ : Reading} {pool : List Value} {T : Option Ty} {t u : Ty} {f l r : Fragment}
  {o : Options}

namespace Honest

theorem extend {pool' : List Value} (h : f.Honest ρ pool T) (hpool : pool <+: pool') :
    f.Honest ρ pool' T :=
  ⟨h.type, fun hf => (h.runs hf).extend hpool, h.nullable, h.known, h.primitive,
    h.guarded.extend hpool⟩

/-- Of the type of its term nothing need be said. -/
theorem untyped (h : f.Honest ρ pool T) : f.Honest ρ pool none := { h with type := nofun }

theorem null : Fragment.null.Honest ρ pool T := by
  refine ⟨nofun, nofun, fun v hv => ?_, fun v hv hne => ?_, nofun, .leaf rfl⟩
  · cases hv
    rfl
  · cases hv
    exact absurd rfl hne

theorem computed {c : Code} (hc : ρ.Guards pool none c) (t : Ty) :
    (Fragment.computed c t).Honest ρ pool T := ⟨nofun, nofun, nofun, nofun, nofun, hc⟩

theorem nonNull {c : Code} (hc : ρ.Guards pool none c) (ht : ∀ u ∈ T, t = u)
    (h : ρ.Yields pool c fun v => t.holds v = true) :
    (Fragment.computed c t).nonNull.Honest ρ pool T :=
  ⟨fun u hu _ => ht u hu, fun _ => h, nofun, nofun,
    fun hp => ⟨rfl, Ty.hasMachineValues_of_isMachineType hp⟩, hc⟩

theorem withNullable {c : Code} {b : Bool} (hc : ρ.Guards pool none c)
    (ht : b = false → ∀ u ∈ T, t = u)
    (h : b = false → ρ.Yields pool c fun v => t.holds v = true) :
    ((Fragment.computed c t).withNullable b).Honest ρ pool T := by
  cases b with
  | true => exact ⟨nofun, nofun, nofun, nofun, nofun, hc⟩
  | false => exact nonNull hc (ht rfl) (h rfl)

/-- A known value that is not null is that of a marked fragment. -/
theorem nullable_of_known (h : f.Honest ρ pool T) {v : Value} (hv : f.constant = some v)
    (hne : v ≠ .null) : f.nullable = false := by
  rw [h.nullable v hv, Ty.isNull_of_holds (h.known v hv hne)]

/-- A branch at the join of the types of both. -/
theorem withType (h : f.Honest ρ pool (some t)) (hu : ∀ v, t.holds v = true → u.holds v = true) :
    Honest ρ pool (some u) { f with type := u } := by
  have hown : f.nullable = false → f.type = t := h.type t rfl
  refine ⟨fun s hs _ => Option.some.inj hs, fun hf => ?_, h.nullable, fun v hv hne => ?_,
    fun hp => ?_, h.guarded⟩
  · have hruns := h.runs hf
    rw [hown hf] at hruns
    exact hruns.imp hu
  · exact hu v (hown (h.nullable_of_known hv hne) ▸ h.known v hv hne)
  · obtain ⟨hf, hmachine⟩ := h.primitive hp
    exact ⟨hf, Ty.hasMachineValues_imp hu (hown hf ▸ hmachine)⟩

theorem neverNull (h : f.Honest ρ pool T) : f.NeverNull ρ pool := fun hf =>
  (h.runs hf).imp fun _ => Ty.ne_null_of_holds

end Honest

theorem isNull_eq_false {v : Value} (h : v.isNull = false) : v ≠ .null := by
  rintro rfl
  cases h

/-- A constant is honest at a type that has it, unless it is null. -/
theorem ensures_honest {v : Value} (h : v ≠ .null → t.holds v = true ∧ ∀ u ∈ T, t = u) :
    Ensures pool (ofConstant v t) fun f pool' => f.Honest ρ pool' T := by
  refine .bind (.constantLeaf fun c pool' hc hv => And.intro hc hv) fun c pool' _ hc => ?_
  refine .pure fun pool'' hpool => ⟨fun u hu hf => ?_, fun hf => ?_, fun w hw => ?_,
    fun w hw hne => ?_, fun hf => ?_, .leaf hc.1⟩
  · exact (h (isNull_eq_false hf)).2 u hu
  · refine ((hc.2 ρ).extend hpool).imp fun w hw => ?_
    exact Ty.holds_of_sharesPlace (h (isNull_eq_false hf)).1 hw
  · cases hw
    rfl
  · cases hw
    exact (h hne).1
  · have hne : v ≠ .null := by
      rintro rfl
      cases hf
    have hholds := (h hne).1
    exact ⟨Ty.isNull_of_holds hholds, Ty.hasMachineValues_of_holds hf hholds⟩

/-! ### Operators -/

/-- An outcome is honest. -/
def OutcomeHonest (ρ : Reading) (pool : List Value) (T : Option Ty) : Outcome → Prop
  | .value v t => v ≠ .null → t.holds v = true ∧ ∀ u ∈ T, t = u
  | .fragment f => f.Honest ρ pool T

/-- What is a boolean or null is honest as a boolean. -/
theorem outcomeHonest_boolean {v : Value} (h : (∃ c, v = .boolean c) ∨ v = .null) :
    OutcomeHonest ρ pool (some .boolean) (.ofValue v) := by
  rcases h with ⟨c, rfl⟩ | rfl
  · exact fun _ => ⟨rfl, fun u hu => Option.some.inj hu⟩
  · exact fun h => absurd rfl h

/-- Arithmetic on values of number types gives a value of the type of the result; only a quotient
and a power may be null. -/
theorem holds_arithmetic {T U : Ty} {op : Operator} (heq : op.isEquality = false)
    (hlogic : op.isLogic = false) (hord : op.isOrdering = false)
    (hnumbers : (T.isNumber && U.isNumber) = true) {x y : Value} (hx : T.holds x = true)
    (hy : U.holds y = true) (precision : Nat) :
    (op.resultType T U).holds (x.arith op y (numericMode o op (op.resultType T U)) precision) =
        true ∨
      x.arith op y (numericMode o op (op.resultType T U)) precision = .null ∧
        (op = .div ∨ op = .pow) := by
  obtain ⟨k, hresult⟩ := exists_resultType_eq_number heq hlogic hord hnumbers
  obtain ⟨a, rfl⟩ : ∃ a, T = .number a := by
    cases T <;> first | exact ⟨_, rfl⟩ | cases hnumbers
  obtain ⟨b, rfl⟩ : ∃ b, U = .number b := by
    rw [Bool.and_comm] at hnumbers
    cases U <;> first | exact ⟨_, rfl⟩ | cases hnumbers
  have hwide : Ty.numberResult op a b = .number k := by
    rw [← hresult]
    cases op <;> first | rfl | contradiction
  have hmode : numericMode o op (op.resultType (.number a) (.number b)) = .native →
      isExact (.number k) = false := by
    intro hnative
    by_contra hexact
    rw [Bool.not_eq_false] at hexact
    rw [hresult, numericMode, hexact] at hnative
    cases hnative
  have hvalue := Ty.holds_arith hx hy hwide hmode precision
  rw [← hresult] at hvalue
  refine hvalue.imp_right fun hnull => ⟨hnull.1, ?_⟩
  obtain ⟨-, hadd, hsub, hmul⟩ := hnull
  cases op <;> first | contradiction | simp

section Rules

variable {T U : Ty} {op : Operator}

/-- The code of two parts is guarded where the parts are. -/
theorem guarded_pair {c : Code} (hl : ρ.Guards pool none l.code) (hr : ρ.Guards pool none r.code)
    (hchildren : c.children = [l.code, r.code]) (hplaced : c.placed = c.children.map (none, ·))
    (hchecked : c.isUnchecked = false) : ρ.Guards pool none c := by
  refine .of_children hplaced hchecked ?_
  rw [hchildren]
  exact List.forall_mem_cons.mpr ⟨hl, List.forall_mem_singleton.mpr hr⟩

variable (hl : l.Honest ρ pool (some T)) (hr : r.Honest ρ pool (some U))
include hl hr

theorem equality_honest (op : Operator) :
    OutcomeHonest ρ pool (some .boolean) (equality o op l r) := by
  unfold equality
  dsimp only
  split
  · exact outcomeHonest_boolean (.inl ⟨_, rfl⟩)
  · split
    · exact outcomeHonest_boolean (.inl ⟨_, rfl⟩)
    · exact .nonNull (guarded_pair hl.guarded hr.guarded rfl rfl rfl)
        (fun u hu => Option.some.inj hu) (.equal fun _ => rfl)

theorem connective_honest (op : Operator) :
    OutcomeHonest ρ pool (some .boolean) (connective o op l r) := by
  have hproven : ∀ {f : Fragment} {T : Ty}, f.Honest ρ pool (some T) → isProvenBoolean f = true →
      ρ.Yields pool f.code fun v => Ty.boolean.holds v = true := by
    intro f T hf hproven
    rw [isProvenBoolean, Bool.and_eq_true, Bool.not_eq_true'] at hproven
    obtain ⟨hboolean, hnullable⟩ := hproven
    have hruns := hf.runs hnullable
    cases hkind : f.type <;> rw [hkind] at hboolean hruns <;> first | exact hruns | cases hboolean
  unfold connective
  split
  · exact outcomeHonest_boolean (logic_cases op _ _)
  · split
    · exact outcomeHonest_boolean (.inl ⟨_, rfl⟩)
    · dsimp only
      split
      · next hshort =>
        rw [hshort]
        rw [Bool.and_eq_true] at hshort
        have hlruns := hproven hl hshort.1
        have hrruns := hproven hr hshort.2
        refine .nonNull (.logic hl.guarded hr.guarded fun _ => ?_)
          (fun u hu => Option.some.inj hu) (.shortCircuit hlruns hrruns)
        exact ⟨hlruns.imp fun _ => Ty.holds_boolean, hrruns.imp fun _ => Ty.holds_boolean⟩
      · next hshort => exact .computed (.logic hl.guarded hr.guarded fun h => absurd h hshort) _

/-- Operands that are both marked have the types that they are written with. -/
theorem resultType_of_marked (op : Operator) (hln : l.nullable = false)
    (hrn : r.nullable = false) : op.resultType l.type r.type = op.resultType T U := by
  rw [hl.type T rfl hln, hr.type U rfl hrn]

/-- What is known of both operands makes the value of an operator that is null where one of them
is. -/
theorem known_honest {a b v : Value} (hab : operands? o l r = some (a, b))
    (hnull : a = .null ∨ b = .null → v = .null)
    (ht : v ≠ .null → t = op.resultType l.type r.type)
    (hv : l.type.holds a = true → r.type.holds b = true → v ≠ .null → t.holds v = true) :
    OutcomeHonest ρ pool (some (op.resultType T U)) (.value v t) := by
  intro hne
  obtain ⟨ha, hb⟩ := constants_of_operands? hab
  have hanull : a ≠ .null := fun h => hne (hnull (.inl h))
  have hbnull : b ≠ .null := fun h => hne (hnull (.inr h))
  refine ⟨hv (hl.known a ha hanull) (hr.known b hb hbnull) hne, fun u hu => ?_⟩
  rw [ht hne, resultType_of_marked hl hr op (hl.nullable_of_known ha hanull)
    (hr.nullable_of_known hb hbnull)]
  exact Option.some.inj hu

/-- An operator that is marked only where both operands are. -/
theorem computed_honest {c : Code} {b : Bool} (hc : ρ.Guards pool none c)
    (ht : t = op.resultType l.type r.type)
    (hb : b = false → l.nullable = false ∧ r.nullable = false)
    (h : b = false → ρ.Yields pool c fun v => t.holds v = true) :
    ((computed c t).withNullable b).Honest ρ pool (some (op.resultType T U)) := by
  refine .withNullable hc (fun hmarked u hu => ?_) h
  obtain ⟨hln, hrn⟩ := hb hmarked
  rw [ht, resultType_of_marked hl hr op hln hrn]
  exact Option.some.inj hu

/-- A comparison is honest where it is one of booleans, or is never null. -/
theorem comparison_honest (hboolean : op.resultType l.type r.type = .boolean)
    (hnever : (l.primitive && r.primitive) = true → T = .boolean ∧ U = .boolean ∨
      ∀ f, comparison o op l r = .fragment f → f.NeverNull ρ pool) :
    OutcomeHonest ρ pool (some (op.resultType T U)) (comparison o op l r) := by
  revert hnever
  unfold comparison
  extract_lets mode
  split
  · next a b hab =>
    intro _
    have hcases := compareAs_cases op mode a b
    refine known_honest hl hr hab Datum.compareAs_of_null (fun hne => ?_) fun _ _ hne => ?_
    · obtain ⟨c, hc⟩ := hcases.resolve_right hne
      rw [hc, hboolean]
      rfl
    · obtain ⟨c, hc⟩ := hcases.resolve_right hne
      rw [hc]
      rfl
  · intro hnever
    have hguarded : ρ.Guards pool none (Code.compare op mode l.code r.code) :=
      guarded_pair hl.guarded hr.guarded rfl rfl rfl
    cases hprimitive : l.primitive && r.primitive with
    | false => exact .computed hguarded _
    | true =>
      rw [hprimitive] at hnever
      rw [Bool.and_eq_true] at hprimitive
      have hln := (hl.primitive hprimitive.1).1
      have hrn := (hr.primitive hprimitive.2).1
      rw [← resultType_of_marked hl hr op hln hrn, hboolean]
      have hcases : ρ.Yields pool (.compare op mode l.code r.code) fun v =>
          (∃ c, v = .boolean c) ∨ v = .null :=
        .compare (.any fun _ => trivial) (.any fun _ => trivial) fun x y (_ : True) (_ : True) =>
          compareAs_cases op mode x y
      have hordered : ρ.Yields pool (.compare op mode l.code r.code) (· ≠ .null) := by
        rcases hnever rfl with ⟨hT, hU⟩ | hnever
        · have hlruns := hl.runs hln
          have hrruns := hr.runs hrn
          rw [hl.type T rfl hln, hT] at hlruns
          rw [hr.type U rfl hrn, hU] at hrruns
          exact .compare hlruns hrruns fun x y => Ty.compareAs_boolean op mode
        · exact hnever _ rfl rfl
      refine .nonNull hguarded (fun u hu => Option.some.inj hu) ((hcases.and hordered).imp ?_)
      rintro v ⟨⟨c, rfl⟩ | rfl, hne⟩
      · rfl
      · exact absurd rfl hne

theorem arithmetic_honest (heq : op.isEquality = false) (hlogic : op.isLogic = false)
    (hord : op.isOrdering = false) (hnumbers : (l.type.isNumber && r.type.isNumber) = true) :
    OutcomeHonest ρ pool (some (op.resultType T U)) (arithmetic o op l r) := by
  unfold arithmetic
  extract_lets result mode nullCheck nullable
  split
  · next x y hxy =>
    refine known_honest hl hr hxy (fun h => Datum.arith_of_null h _ _) (fun _ => rfl) ?_
    intro hx hy hne
    exact (holds_arithmetic heq hlogic hord hnumbers hx hy _).resolve_right fun h => hne h.1
  · -- the check is left out where both operands are marked
    have hchecked : nullCheck = false → l.nullable = false ∧ r.nullable = false := by
      intro h
      simpa [nullCheck] using h
    have hunchecked : nullable = false → nullCheck = false ∧ op ≠ .div ∧ op ≠ .pow := by
      intro h
      simpa [nullable, and_assoc] using h
    refine computed_honest hl hr ?_ rfl (fun h => hchecked (hunchecked h).1) fun h => ?_
    · refine .arith hl.guarded hr.guarded fun h => ?_
      obtain ⟨hln, hrn⟩ := hchecked h
      exact ⟨hl.neverNull hln, hr.neverNull hrn⟩
    · obtain ⟨hcheck, hdiv, hpow⟩ := hunchecked h
      obtain ⟨hln, hrn⟩ := hchecked hcheck
      refine .arith (hl.runs hln) (hr.runs hrn) (fun x => Ty.isNull_of_holds) fun x y n hx hy => ?_
      exact (holds_arithmetic heq hlogic hord hnumbers hx hy _).resolve_right
        fun h => h.2.elim hdiv hpow

theorem concatenation_honest (hresult : Operator.resultType .add l.type r.type = .string) :
    OutcomeHonest ρ pool (some (Operator.resultType .add T U)) (concatenation o l r) := by
  unfold concatenation
  split
  · next x y hxy =>
    refine known_honest hl hr hxy Datum.concat_of_null (fun _ => hresult.symm) fun hx hy _ => ?_
    exact Ty.holds_concat (Ty.ne_null_of_holds hx) (Ty.ne_null_of_holds hy)
  · have hmarked : (l.nullable || r.nullable) = false → l.nullable = false ∧ r.nullable = false :=
      Bool.or_eq_false_iff.mp
    refine computed_honest hl hr (guarded_pair hl.guarded hr.guarded rfl rfl rfl) hresult.symm
      hmarked fun h => ?_
    exact .concat (hl.neverNull (hmarked h).1) (hr.neverNull (hmarked h).2)
      fun x y => Ty.holds_concat

theorem temporal_honest
    (hresult : Ty.temporalResult? op l.type r.type = some (op.resultType l.type r.type)) :
    OutcomeHonest ρ pool (some (op.resultType T U)) (temporal o op l r) := by
  unfold temporal
  extract_lets result
  split
  · next x y hxy =>
    refine known_honest hl hr hxy Datum.temporal_of_null (fun _ => rfl) fun hx hy hne => ?_
    obtain ⟨hfx, hfy⟩ := Ty.fits_of_temporalResult? hresult hx hy
    exact Ty.holds_of_temporalResult? hresult (Fits.temporal hfx hfy hresult) hne
  · exact .computed (guarded_pair hl.guarded hr.guarded rfl rfl rfl) _

/-- Every rule for an operator is honest, a comparison where it is never null. -/
theorem outcome?_honest {x : Outcome} (hx : outcome? o op l r = some x)
    (hnever : op.isOrdering = true → (l.primitive && r.primitive) = true →
      T = .boolean ∧ U = .boolean ∨ ∀ f, x = .fragment f → f.NeverNull ρ pool) :
    OutcomeHonest ρ pool (some (op.resultType T U)) x := by
  cases rule_of_outcome? hx with
  | equality heq =>
    rw [resultType_eq_boolean (.inl heq)]
    exact equality_honest hl hr op
  | connective hlogic =>
    rw [resultType_eq_boolean (.inr hlogic)]
    exact connective_honest hl hr op
  | comparison hord hresult => exact comparison_honest hl hr hresult (hnever hord)
  | arithmetic heq hlogic hord hnumbers => exact arithmetic_honest hl hr heq hlogic hord hnumbers
  | concatenation hadd hstring =>
    subst hadd
    exact concatenation_honest hl hr hstring
  | temporal hresult => exact temporal_honest hl hr hresult

/-- **Operators keep fragments honest.** A comparison of what is marked as a boolean or a machine
number does where it is one of booleans, or is never null. -/
theorem ensures_honestBinary (span : Span) :
    Ensures pool (binary o span op l r) fun f pool' =>
      (op.isOrdering = true → (l.primitive && r.primitive) = true →
        T = .boolean ∧ U = .boolean ∨ f.NeverNull ρ pool') →
          f.Honest ρ pool' (some (op.resultType T U)) := by
  unfold binary
  split
  · next x hx =>
    cases x with
    | value v t =>
      have hvalue := outcome?_honest hl hr hx fun _ _ => .inr nofun
      exact (ensures_honest hvalue).imp fun f pool' _ h _ => h
    | fragment g =>
      refine .pure fun pool' hpool hnever => ?_
      refine outcome?_honest (hl.extend hpool) (hr.extend hpool) hx fun hord hprimitive => ?_
      refine (hnever hord hprimitive).imp_right fun hnever f hf => ?_
      cases hf
      exact hnever
  · dsimp only
    split
    · exact .pure fun _ hpool _ => .computed
        ((guarded_pair hl.guarded hr.guarded rfl rfl rfl).extend hpool) _
    · split
      · exact .pure fun _ _ _ => .null
      · exact .throw

end Rules

/-- Where nothing is known of the left operand, only booleans are marked. -/
theorem ensures_booleanBinary (c : Code) (t : Ty) (r : Fragment) (op : Operator) (span : Span) :
    Ensures pool (binary o span op (computed c t) r) fun f _ =>
      f.nullable = false → f.type = .boolean := by
  have hunknown : operands? o (computed c t) r = none := by
    have hvalue : (computed c t).value? o = none := by
      unfold value?
      split <;> rfl
    rw [operands?, hvalue]
  have hboolean (b : Bool) : Ensures pool (Outcome.ofValue (.boolean b)).emit fun f _ =>
      f.nullable = false → f.type = .boolean :=
    .bind (.constantLeaf fun _ _ _ _ => trivial) fun _ _ _ _ => .pure fun _ _ _ => rfl
  unfold binary
  split
  · next x hx =>
    cases rule_of_outcome? hx with
    | equality _ =>
      unfold equality
      dsimp only
      rw [hunknown]
      split
      · exact hboolean _
      · exact .pure fun _ _ _ => rfl
    | connective _ =>
      unfold connective
      rw [hunknown]
      dsimp only
      split
      · exact hboolean _
      · refine .pure fun _ _ _ => ?_
        split <;> rfl
    | comparison _ _ =>
      unfold comparison
      dsimp only
      rw [hunknown]
      exact .pure fun _ _ h => nomatch h
    | arithmetic _ _ _ _ =>
      unfold arithmetic
      dsimp only
      rw [hunknown]
      exact .pure fun _ _ h => nomatch h
    | concatenation _ _ =>
      unfold concatenation
      rw [hunknown]
      exact .pure fun _ _ h => nomatch h
    | temporal _ =>
      unfold temporal
      dsimp only
      rw [hunknown]
      exact .pure fun _ _ h => nomatch h
  · dsimp only
    split
    · exact .pure fun _ _ h => nomatch h
    · split
      · exact .pure fun _ _ h => nomatch h
      · exact .throw

end Fragment

end Feel
