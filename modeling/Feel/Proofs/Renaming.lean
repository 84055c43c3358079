import Feel.Builtin.Apply
import Feel.Eval.Frame
import Feel.Proofs.BuiltinTypes
import Feel.Proofs.Parts
import Feel.Proofs.SteadyValues

/-!
# Renaming the places of closures

A closure remembers the place in the run at which it was made, and steps of an iteration go by a
cursor whose name no expression can spell. Neither has a meaning beyond being told apart: places
can be renamed without confusing two of them, and cursors at will. What an operation makes of
renamed values is what it makes of the values, renamed: operators, comparisons and most built-in
functions give values without functions, which do not change, and what hands on parts of its
operands hands on the renamed parts.

* `Renaming`: new places and new cursors.
* `Datum.rename`, `Code.rename`: renamed values and renamed code.
* `Datum.Plain.rename`: values without functions stay as they are.
* `Datum.same_rename`, `Datum.equal_rename`: renaming makes no values equal.
* `Datum.dynamic_rename` and the others: operators on renamed operands.
* `Datum.convert_rename`, `Datum.member_rename`: conversions and members.
* `Builtin.value_rename`: built-in functions of renamed arguments.
-/

namespace Feel

/-- New places for those of closures, different for different ones, and new cursors. -/
structure Renaming where
  place : Site → Site
  cursor : String → String
  place_injective : Function.Injective place

/-! ### Steps -/

namespace Code

/-- Whether code is a step: arithmetic on the local of a cursor and a constant. -/
def isStep (cursor : String) : Code → Bool
  | arith _ _ («local» x) (const _) _ | temporal _ («local» x) (const _) => x == cursor
  | _ => false

/-- Arithmetic on the local of one cursor as arithmetic on that of another. -/
def rebase (cursor cursor' : String) : Code → Code
  | arith op mode («local» x) r nullCheck =>
    arith op mode («local» (if x = cursor then cursor' else x)) r nullCheck
  | temporal op («local» x) r => temporal op («local» (if x = cursor then cursor' else x)) r
  | c => c

theorem isStep_iff {cursor : String} {c : Code} : c.isStep cursor = true ↔
    (∃ op mode v nullCheck, c = arith op mode («local» cursor) (const v) nullCheck) ∨
      ∃ op v, c = temporal op («local» cursor) (const v) := by
  constructor
  · intro h
    unfold isStep at h
    split at h
    · next op mode x v nullCheck =>
      rw [beq_iff_eq] at h
      exact .inl ⟨op, mode, v, nullCheck, by rw [h]⟩
    · next op x v =>
      rw [beq_iff_eq] at h
      exact .inr ⟨op, v, by rw [h]⟩
    · cases h
  · rintro (⟨op, mode, v, nullCheck, rfl⟩ | ⟨op, v, rfl⟩) <;> exact beq_self_eq_true cursor

theorem rebase_arith (cursor cursor' : String) (op : Operator) (mode : NumericMode) (r : Code)
    (nullCheck : Bool) : (arith op mode («local» cursor) r nullCheck).rebase cursor cursor' =
      arith op mode («local» cursor') r nullCheck := by
  show arith op mode («local» (if cursor = cursor then cursor' else cursor)) r nullCheck = _
  rw [if_pos rfl]

theorem rebase_temporal (cursor cursor' : String) (op : Operator) (r : Code) :
    (temporal op («local» cursor) r).rebase cursor cursor' = temporal op («local» cursor') r := by
  show temporal op («local» (if cursor = cursor then cursor' else cursor)) r = _
  rw [if_pos rfl]

theorem rebase_self (cursor : String) (c : Code) : c.rebase cursor cursor = c := by
  unfold rebase
  split
  · split
    · next h => rw [h]
    · rfl
  · split
    · next h => rw [h]
    · rfl
  · rfl

end Code

/-! ### Renaming -/

mutual

/-- A value with the places and the cursors of its closures renamed. -/
def Datum.rename (R : Renaming) : Value → Value
  | .null => .null
  | .boolean b => .boolean b
  | .number n => .number n
  | .string s => .string s
  | .date d => .date d
  | .time t => .time t
  | .dateTime t => .dateTime t
  | .dayTimeDuration n => .dayTimeDuration n
  | .yearMonthDuration n => .yearMonthDuration n
  | .list items => .list (Datum.renameList R items)
  | .context entries => .context (Datum.renameEntries R entries)
  | .range s e si ei => .range (Datum.renameOption R s) (Datum.renameOption R e) si ei
  | .function f => .function (Function.rename R f)

/-- A function with its place, its body and what it captured renamed. -/
def Function.rename (R : Renaming) : FunctionValue → FunctionValue
  | .closure site params body captured constants type =>
    .closure (R.place site) params (Code.rename R body) (Datum.renameEntries R captured)
      (Datum.renameList R constants) type
  | .native id name type => .native id name type
  | .builtin name type => .builtin name type

def Datum.renameList (R : Renaming) : List Value → List Value
  | [] => []
  | v :: vs => Datum.rename R v :: Datum.renameList R vs

def Datum.renameEntries (R : Renaming) : List (String × Value) → List (String × Value)
  | [] => []
  | (name, v) :: es => (name, Datum.rename R v) :: Datum.renameEntries R es

def Datum.renameOption (R : Renaming) : Option Value → Option Value
  | none => none
  | some v => some (Datum.rename R v)

/-- Code with its constants and the cursors of its steps renamed. -/
def Code.rename (R : Renaming) : Code → Code
  | .const v => .const (Datum.rename R v)
  | .constRef i => .constRef i
  | .input => .input
  | .testInput => .testInput
  | .«local» name => .«local» name
  | .inputField name => .inputField name
  | .member s name => .member (Code.rename R s) name
  | .arith op mode l r n => .arith op mode (Code.rename R l) (Code.rename R r) n
  | .concat l r => .concat (Code.rename R l) (Code.rename R r)
  | .temporal op l r => .temporal op (Code.rename R l) (Code.rename R r)
  | .compare op mode l r => .compare op mode (Code.rename R l) (Code.rename R r)
  | .equal mode neg l r => .equal mode neg (Code.rename R l) (Code.rename R r)
  | .logic op s l r => .logic op s (Code.rename R l) (Code.rename R r)
  | .not c => .not (Code.rename R c)
  | .negate c => .negate (Code.rename R c)
  | .dynamic op l r => .dynamic op (Code.rename R l) (Code.rename R r)
  | .ite c y n => .ite (Code.rename R c) (Code.rename R y) (Code.rename R n)
  | .list items => .list (Code.renameList R items)
  | .context es => .context (Code.renameEntries R es)
  | .range s e si ei => .range (Code.renameOption R s) (Code.renameOption R e) si ei
  | .between v l h => .between (Code.rename R v) (Code.rename R l) (Code.rename R h)
  | .instanceOf v t => .instanceOf (Code.rename R v) t
  | .filter s p kind => .filter (Code.rename R s) (Code.rename R p) kind
  | .forIn bs body => .forIn (Code.renameBindings R bs) (Code.rename R body)
  | .quantified every bs c => .quantified every (Code.renameBindings R bs) (Code.rename R c)
  | .function ps body t => .function ps (Code.rename R body) t
  | .call target args names => .call (Code.renameTarget R target) (Code.renameList R args) names
  | .convert v t => .convert (Code.rename R v) t
  | .unaryMatch t => .unaryMatch (Code.rename R t)
  | .listContains l v => .listContains (Code.rename R l) (Code.rename R v)
  | .rangeContains r v => .rangeContains (Code.rename R r) (Code.rename R v)
  | .withTestInput s b => .withTestInput (Code.rename R s) (Code.rename R b)
  | .decision t => .decision (Code.renameMatrix R t)

def Code.renameList (R : Renaming) : List Code → List Code
  | [] => []
  | c :: cs => Code.rename R c :: Code.renameList R cs

def Code.renameEntries (R : Renaming) : List (String × Code) → List (String × Code)
  | [] => []
  | (name, c) :: es => (name, Code.rename R c) :: Code.renameEntries R es

def Code.renameOption (R : Renaming) : Option Code → Option Code
  | none => none
  | some c => some (Code.rename R c)

def Code.renameBindings (R : Renaming) : List (Binding Code) → List (Binding Code)
  | [] => []
  | ⟨name, domain⟩ :: bs => ⟨name, Code.renameDomain R domain⟩ :: Code.renameBindings R bs

/-- A domain renamed. The cursor of steps is bound for these alone, so that it is renamed where
they do nothing but go on from it. -/
def Code.renameDomain (R : Renaming) : Domain Code → Domain Code
  | .values c => .values (Code.rename R c)
  | .steps f l cursor s p =>
    let cursor' := if s.isStep cursor && p.isStep cursor then R.cursor cursor else cursor
    .steps (Code.rename R f) (Code.rename R l) cursor' ((Code.rename R s).rebase cursor cursor')
      ((Code.rename R p).rebase cursor cursor')

def Code.renameTarget (R : Renaming) : Target Code → Target Code
  | .builtin name => .builtin name
  | .value c => .value (Code.rename R c)

def Code.renameMatrix (R : Renaming) : DecisionMatrix Code → DecisionMatrix Code
  | ⟨name, inputs, rules, outputs, policy, aggregation, single⟩ =>
    ⟨name, Code.renameList R inputs, Code.renameRules R rules, Code.renameOutputs R outputs, policy,
      aggregation, single⟩

def Code.renameRules (R : Renaming) : List (MatrixRule Code) → List (MatrixRule Code)
  | [] => []
  | ⟨conditions, outputs⟩ :: rs =>
    ⟨Code.renameList R conditions, Code.renameList R outputs⟩ :: Code.renameRules R rs

def Code.renameOutputs (R : Renaming) : List (MatrixOutput Code) → List (MatrixOutput Code)
  | [] => []
  | ⟨name, check, priorities, fallback⟩ :: os =>
    ⟨name, Code.renameOption R check, Code.renameList R priorities, Code.renameOption R fallback⟩ ::
      Code.renameOutputs R os

end

variable (R : Renaming)

/-! ### Parts -/

theorem Code.rebase_rename_arith (cursor cursor' : String) (op : Operator) (mode : NumericMode)
    (v : Value) (nullCheck : Bool) :
    ((arith op mode («local» cursor) (const v) nullCheck).rename R).rebase cursor cursor' =
      arith op mode («local» cursor') (const (v.rename R)) nullCheck :=
  rebase_arith ..

theorem Code.rebase_rename_temporal (cursor cursor' : String) (op : Operator) (v : Value) :
    ((temporal op («local» cursor) (const v)).rename R).rebase cursor cursor' =
      temporal op («local» cursor') (const (v.rename R)) :=
  rebase_temporal ..

theorem Datum.renameList_eq (vs : List Value) : renameList R vs = vs.map (rename R) := by
  induction vs with
  | nil => rfl
  | cons v vs ih => exact congrArg _ ih

/-- Entries with their values renamed. -/
abbrev Entries.rename (es : List (String × Value)) : List (String × Value) :=
  es.map fun e => (e.1, e.2.rename R)

theorem Datum.renameEntries_eq (es : List (String × Value)) :
    renameEntries R es = Entries.rename R es := by
  induction es with
  | nil => rfl
  | cons e es ih => exact congrArg ((e.1, e.2.rename R) :: ·) ih

theorem Datum.renameOption_eq (o : Option Value) : renameOption R o = o.map (rename R) := by
  cases o <;> rfl

namespace Datum

@[simp] theorem rename_null : (null : Value).rename R = null := rfl

@[simp] theorem rename_boolean (b : Bool) : (boolean b : Value).rename R = boolean b := rfl

@[simp] theorem rename_number (n : Number) : (number n : Value).rename R = number n := rfl

@[simp] theorem rename_string (s : String) : (string s : Value).rename R = string s := rfl

@[simp] theorem rename_date (d : Date) : (date d : Value).rename R = date d := rfl

@[simp] theorem rename_time (t : Time) : (time t : Value).rename R = time t := rfl

@[simp] theorem rename_dateTime (t : DateTime) : (dateTime t : Value).rename R = dateTime t := rfl

@[simp] theorem rename_dayTimeDuration (n : Int) :
    (dayTimeDuration n : Value).rename R = dayTimeDuration n := rfl

@[simp] theorem rename_yearMonthDuration (n : Int64) :
    (yearMonthDuration n : Value).rename R = yearMonthDuration n := rfl

@[simp] theorem rename_list (vs : List Value) :
    (list vs).rename R = list (vs.map (rename R)) :=
  congrArg list (renameList_eq R vs)

@[simp] theorem rename_context (es : List (String × Value)) :
    (context es).rename R = context (Entries.rename R es) :=
  congrArg context (renameEntries_eq R es)

@[simp] theorem rename_range (s e : Option Value) (si ei : Bool) :
    (range s e si ei).rename R = range (s.map (rename R)) (e.map (rename R)) si ei := by
  show range (renameOption R s) (renameOption R e) si ei = _
  rw [renameOption_eq, renameOption_eq]

@[simp] theorem rename_function (f : FunctionValue) :
    (function f).rename R = function (f.rename R) := rfl

/-- Values without functions stay as they are. -/
theorem Plain.rename {v : Value} (h : v.Plain) : v.rename R = v := by
  induction h with
  | list _ ih => rw [rename_list, List.map_congr_left ih, List.map_id']
  | @context es _ ih =>
    have hes : Entries.rename R es = es.map id :=
      List.map_congr_left fun e he => Prod.ext rfl (ih e he)
    rw [rename_context, hes, List.map_id]
  | @range s e _ _ _ _ ihs ihe =>
    have hs : s.map (Datum.rename R) = s := by
      cases s with
      | none => rfl
      | some v => exact congrArg some (ihs v rfl)
    have he : e.map (Datum.rename R) = e := by
      cases e with
      | none => rfl
      | some v => exact congrArg some (ihe v rfl)
    rw [rename_range, hs, he]
  | _ => rfl

/-- Renaming leaves no function out. -/
theorem Plain.of_rename {v : Value} (h : (v.rename R).Plain) : v.Plain := by
  generalize hw : v.rename R = w at h
  induction h generalizing v with
  | list _ ih =>
    cases v with
    | list vs =>
      rw [rename_list, list.injEq] at hw
      subst hw
      exact .list fun u hu => ih _ (List.mem_map_of_mem hu) rfl
    | _ => cases hw
  | context _ ih =>
    cases v with
    | context es =>
      rw [rename_context, context.injEq] at hw
      subst hw
      exact .context fun e he => ih _ (List.mem_map_of_mem he) rfl
    | _ => cases hw
  | range _ _ ihs ihe =>
    cases v with
    | range s e si ei =>
      rw [rename_range, range.injEq] at hw
      obtain ⟨rfl, rfl, rfl, rfl⟩ := hw
      refine .range (fun u hu => ?_) fun u hu => ?_
      · subst hu
        exact ihs _ rfl rfl
      · subst hu
        exact ihe _ rfl rfl
    | _ => cases hw
  | _ =>
    cases v <;> cases hw
    constructor

end Datum

theorem Function.rename_closure (site : Site) (params : List String) (body : Code)
    (captured : List (String × Value)) (constants : List Value) (type : Ty) :
    (closure site params body captured constants type : FunctionValue).rename R =
      closure (R.place site) params (body.rename R) (Entries.rename R captured)
        (constants.map (Datum.rename R)) type := by
  show closure _ _ _ (Datum.renameEntries R captured) (Datum.renameList R constants) _ = _
  rw [Datum.renameEntries_eq, Datum.renameList_eq]

@[simp] theorem Function.type_rename (f : FunctionValue) : (f.rename R).type = f.type := by
  cases f <;> rfl

@[simp] theorem Function.paramNames_rename (f : FunctionValue) :
    (f.rename R).paramNames = f.paramNames := by
  cases f <;> rfl

/-- Different places have different names. -/
@[simp] theorem Function.same_rename (f g : FunctionValue) :
    (f.rename R).same (g.rename R) = f.same g := by
  cases f with
  | closure a =>
    cases g with
    | closure b =>
      show (R.place a == R.place b) = (a == b)
      rw [Bool.eq_iff_iff, beq_iff_eq, beq_iff_eq]
      exact R.place_injective.eq_iff
    | _ => rfl
  | _ => cases g <;> rfl

theorem Entries.lookup_rename (es : List (String × Value)) (name : String) :
    (Entries.rename R es).lookup name = (es.lookup name).map (Datum.rename R) := by
  induction es with
  | nil => rfl
  | cons e es ih =>
    rw [Entries.rename, List.map_cons, List.lookup_cons, List.lookup_cons]
    cases name == e.1 with
    | true => rfl
    | false => exact ih

theorem Entries.insert_rename (es : List (String × Value)) (name : String) (v : Value) :
    insert (Entries.rename R es) name (v.rename R) = Entries.rename R (insert es name v) := by
  induction es with
  | nil => rfl
  | cons e es ih =>
    obtain ⟨n, w⟩ := e
    simp only [Entries.rename, List.map_cons, insert]
    split
    · rfl
    · exact congrArg ((n, w.rename R) :: ·) ih

theorem Entries.ofList_rename (es : List (String × Value)) :
    ofList (Entries.rename R es) = Entries.rename R (ofList es) := by
  have hfold : ∀ done : List (String × Value),
      (Entries.rename R es).foldl (fun acc (name, value) => insert acc name value)
          (Entries.rename R done) =
        Entries.rename R (es.foldl (fun acc (name, value) => insert acc name value) done) := by
    induction es with
    | nil => exact fun done => rfl
    | cons e es ih =>
      intro done
      rw [List.foldl_cons, ← ih, ← insert_rename]
      rfl
  exact hfold []

namespace Datum

/-! ### What is seen of a value -/

variable (v w : Value)

@[simp] theorem isNull_rename : (v.rename R).isNull = v.isNull := by
  cases v <;> rfl

@[simp] theorem asBool?_rename : (v.rename R).asBool? = v.asBool? := by
  cases v <;> rfl

@[simp] theorem asNumber?_rename : (v.rename R).asNumber? = v.asNumber? := by
  cases v <;> rfl

@[simp] theorem asString?_rename : (v.rename R).asString? = v.asString? := by
  cases v <;> rfl

@[simp] theorem isBool_rename (b : Bool) : (v.rename R).isBool b = v.isBool b := by
  cases v <;> rfl

@[simp] theorem familyName_rename : (v.rename R).familyName = v.familyName := by
  cases v <;> rfl

@[simp] theorem instant?_rename : (v.rename R).instant? = v.instant? := by
  cases v <;> rfl

@[simp] theorem order?_rename : (v.rename R).order? (w.rename R) = v.order? w := by
  cases v <;> cases w <;> rfl

theorem get?_rename (name : String) :
    (v.rename R).get? name = (v.get? name).map (rename R) := by
  cases v with
  | context es =>
    rw [rename_context]
    exact Entries.lookup_rename R es name
  | _ => rfl

theorem getD_rename (o : Option Value) : (o.map (rename R)).getD null = (o.getD null).rename R := by
  cases o <;> rfl

theorem getD_get?_rename (name : String) :
    ((v.rename R).get? name).getD null = ((v.get? name).getD null).rename R := by
  rw [get?_rename, getD_rename]

theorem headD_rename (vs : List Value) :
    (vs.map (rename R)).headD null = (vs.headD null).rename R := by
  cases vs <;> rfl

theorem getD_map_rename (vs : List Value) (i : Nat) :
    (vs.map (rename R)).getD i null = (vs.getD i null).rename R := by
  rw [List.getD_eq_getElem?_getD, List.getD_eq_getElem?_getD, List.getElem?_map, getD_rename]

mutual

@[simp] theorem type_rename : ∀ v : Value, (v.rename R).type = v.type
  | null | boolean _ | number _ | string _ | date _ | time _ | dateTime _ | dayTimeDuration _
  | yearMonthDuration _ => rfl
  | list items => by
    show (list (renameList R items) : Value).type = _
    rw [type, type, types_rename items]
  | context entries => congrArg Ty.context (entryTypes_rename entries)
  | range s e si ei => by
    show (range (renameOption R s) (renameOption R e) si ei : Value).type = _
    rw [type, type, boundType?_rename s, boundType?_rename e]
  | function f => Function.type_rename R f

theorem types_rename : ∀ vs : List Value, types (renameList R vs) = types vs
  | [] => rfl
  | v :: vs => congrArg₂ List.cons (type_rename v) (types_rename vs)

theorem entryTypes_rename : ∀ es : List (String × Value),
    entryTypes (renameEntries R es) = entryTypes es
  | [] => rfl
  | (name, v) :: es =>
    congrArg₂ (fun t ts => (name, t) :: ts) (type_rename v) (entryTypes_rename es)

theorem boundType?_rename : ∀ o : Option Value, boundType? (renameOption R o) = boundType? o
  | none => rfl
  | some v => congrArg some (type_rename v)

end

mutual

@[simp] theorem text_rename : ∀ v : Value, (v.rename R).text = v.text
  | null | boolean _ | number _ | string _ | date _ | time _ | dateTime _ | dayTimeDuration _
  | yearMonthDuration _ => rfl
  | list items => by
    show "[" ++ ", ".intercalate (texts (renameList R items)) ++ "]" = _
    rw [texts_rename items]
    rfl
  | context entries => by
    show (context (renameEntries R entries) : Value).text = _
    rw [text, text, entryTexts_rename entries]
  | range s e si ei => by
    show (range (renameOption R s) (renameOption R e) si ei : Value).text = _
    rw [text, text, boundText_rename s, boundText_rename e]
  | function f => congrArg Ty.text (Function.type_rename R f)

theorem texts_rename : ∀ vs : List Value, texts (renameList R vs) = texts vs
  | [] => rfl
  | v :: vs => congrArg₂ List.cons (text_rename v) (texts_rename vs)

theorem entryTexts_rename : ∀ es : List (String × Value),
    entryTexts (renameEntries R es) = entryTexts es
  | [] => rfl
  | (name, v) :: es =>
    congrArg₂ (fun t ts => (name ++ ": " ++ t) :: ts) (text_rename v) (entryTexts_rename es)

theorem boundText_rename : ∀ o : Option Value, boundText (renameOption R o) = boundText o
  | none => rfl
  | some v => text_rename v

end

/-! ### Equality -/

mutual

/-- Renaming makes no values equal that were not, and keeps equal values so. -/
@[simp] theorem same_rename : ∀ v w : Value, (v.rename R).same (w.rename R) = v.same w
  | list vs, w => by
    cases w with
    | list ws => exact sameList_rename vs ws
    | _ => rfl
  | context es, w => by
    cases w with
    | context fs =>
      show ((renameEntries R es).length == (renameEntries R fs).length &&
        sameEntries (renameEntries R es) (renameEntries R fs)) =
          (es.length == fs.length && sameEntries es fs)
      rw [sameEntries_rename es fs, renameEntries_eq, renameEntries_eq, List.length_map,
        List.length_map]
    | _ => rfl
  | range s e si ei, w => by
    cases w with
    | range s' e' si' ei' =>
      show (sameBound (renameOption R s) (renameOption R s') &&
        sameBound (renameOption R e) (renameOption R e') && si == si' && ei == ei') =
          (sameBound s s' && sameBound e e' && si == si' && ei == ei')
      rw [sameBound_rename s s', sameBound_rename e e']
    | _ => rfl
  | function f, w => by
    cases w with
    | function g => exact Function.same_rename R f g
    | _ => rfl
  | null, w | boolean _, w | number _, w | string _, w | date _, w | time _, w | dateTime _, w
  | dayTimeDuration _, w | yearMonthDuration _, w => by cases w <;> rfl
termination_by structural v => v

theorem sameList_rename : ∀ vs ws : List Value,
    sameList (renameList R vs) (renameList R ws) = sameList vs ws
  | [], ws => by cases ws <;> rfl
  | _ :: _, [] => rfl
  | v :: vs, w :: ws => congrArg₂ (· && ·) (same_rename v w) (sameList_rename vs ws)
termination_by structural vs => vs

theorem sameEntries_rename : ∀ es fs : List (String × Value),
    sameEntries (renameEntries R es) (renameEntries R fs) = sameEntries es fs
  | [], _ => rfl
  | (name, v) :: es, fs => by
    refine congrArg₂ (· && ·) ?_ (sameEntries_rename es fs)
    rw [renameEntries_eq, Entries.lookup_rename]
    cases fs.lookup name with
    | none => rfl
    | some w => exact same_rename v w
termination_by structural es => es

theorem sameBound_rename : ∀ s t : Option Value,
    sameBound (renameOption R s) (renameOption R t) = sameBound s t
  | none, o => by cases o <;> rfl
  | some _, none => rfl
  | some v, some w => same_rename v w
termination_by structural s => s

end

@[simp] theorem equal_rename : (v.rename R).equal (w.rename R) = v.equal w := by
  have h : (v.rename R).same (w.rename R) = v.same w := same_rename R v w
  cases v <;> cases w <;> first | rfl | exact h

/-- Whether an item equals a value shows in the renamed items. -/
theorem any_equal_rename (vs : List Value) :
    (vs.map (rename R)).any (·.equal (w.rename R)) = vs.any (·.equal w) := by
  rw [List.any_map]
  exact congrArg vs.any (funext fun v => equal_rename R v w)

end Datum

namespace Datum

variable (l r v : Value)

/-! ### Operators -/

theorem arith_rename (op : Operator) (mode : NumericMode) (precision : Nat) :
    (l.rename R).arith op (r.rename R) mode precision = (l.arith op r mode precision).rename R := by
  rw [(Plain.arith op l r mode precision).rename]
  cases l with
  | number _ => cases r <;> rfl
  | _ => rfl

theorem concat_rename : (l.rename R).concat (r.rename R) = (l.concat r).rename R := by
  rw [(Plain.concat l r).rename]
  simp only [concat, isNull_rename, text_rename]

theorem compare_rename (op : Operator) :
    Datum.compare op (l.rename R) (r.rename R) = (Datum.compare op l r).rename R := by
  rw [(Plain.compare op l r).rename, Datum.compare, order?_rename, Datum.compare]

theorem compareAs_rename (op : Operator) (mode : CompareMode) :
    Datum.compareAs op mode (l.rename R) (r.rename R) =
      (Datum.compareAs op mode l r).rename R := by
  have h := compare_rename R l r op
  rw [(Plain.compare op l r).rename] at h
  rw [(Plain.compareAs op mode l r).rename]
  cases mode with
  | double =>
    cases l with
    | number _ =>
      cases r with
      | number _ => rfl
      | _ => exact h
    | _ => exact h
  | _ => exact h

theorem equality_rename (negated : Bool) :
    (l.rename R).equality (r.rename R) negated = (l.equality r negated).rename R := by
  rw [equality, equal_rename, equality, rename_boolean]

theorem and_rename : (l.rename R).and (r.rename R) = (l.and r).rename R := by
  rw [(Plain.and l r).rename]
  simp only [Datum.and, asBool?_rename]

theorem or_rename : (l.rename R).or (r.rename R) = (l.or r).rename R := by
  rw [((Fits.or l r).plain rfl).rename]
  simp only [Datum.or, asBool?_rename]

theorem logic_rename (op : Operator) :
    Datum.logic op (l.rename R) (r.rename R) = (Datum.logic op l r).rename R := by
  rw [(Plain.logic op l r).rename]
  simp only [Datum.logic, Datum.and, Datum.or, asBool?_rename]

theorem not_rename : (v.rename R).not = v.not.rename R := by
  rw [(Plain.not v).rename, Datum.not, asBool?_rename, Datum.not]

theorem negate_rename : (v.rename R).negate = v.negate.rename R := by
  cases v <;> rfl

theorem temporal_rename (op : Operator) :
    Datum.temporal op (l.rename R) (r.rename R) = (Datum.temporal op l r).rename R := by
  rw [(Steady.temporal op l r).plain.rename]
  have hadd : temporalAdd? (l.rename R) (r.rename R) = temporalAdd? l r := by
    cases l <;> cases r <;> rfl
  have hsub : temporalSub? (l.rename R) (r.rename R) = temporalSub? l r := by
    cases l <;> cases r <;> rfl
  have hmul : temporalMul? (l.rename R) (r.rename R) = temporalMul? l r := by
    cases l <;> cases r <;> rfl
  have hdiv : temporalDiv? (l.rename R) (r.rename R) = temporalDiv? l r := by
    cases l <;> cases r <;> rfl
  simp only [Datum.temporal, hadd, hsub, hmul, hdiv]

theorem dynamic_rename (op : Operator) :
    Datum.dynamic op (l.rename R) (r.rename R) = (Datum.dynamic op l r).rename R := by
  have hrest : (if op = .add && ((l.rename R).asString?.isSome || (r.rename R).asString?.isSome)
        then (l.rename R).concat (r.rename R)
        else Datum.temporal op (l.rename R) (r.rename R)) =
      (if op = .add && (l.asString?.isSome || r.asString?.isSome) then l.concat r
        else Datum.temporal op l r).rename R := by
    rw [asString?_rename, asString?_rename, concat_rename, temporal_rename,
      apply_ite (Datum.rename R)]
  unfold Datum.dynamic
  simp only [isNull_rename]
  split
  · exact logic_rename R l r op
  split
  · exact equality_rename R l r _
  split
  · exact compare_rename R l r op
  split
  · rfl
  · cases l with
    | number _ =>
      cases r with
      | number _ => exact arith_rename R _ _ op _ _
      | _ => exact hrest
    | _ => exact hrest

theorem rangeContains?_rename (s e : Option Value) (si ei : Bool) :
    rangeContains? (s.map (rename R)) (e.map (rename R)) si ei (v.rename R) =
      rangeContains? s e si ei v := by
  have habove : (v.rename R).above? si (s.map (rename R)) = v.above? si s := by
    cases s with
    | none => rfl
    | some s => rw [Option.map_some, above?, order?_rename, above?]
  have hbelow : (v.rename R).below? ei (e.map (rename R)) = v.below? ei e := by
    cases e with
    | none => rfl
    | some e => rw [Option.map_some, below?, order?_rename, below?]
  rw [rangeContains?, habove, hbelow, rangeContains?]

end Datum

/-! ### Types -/

namespace Ty

variable (v : Value)

/-- An instance of a type that has parts is one part by part; any other value is one by its own
type. -/
theorem conforms_rename (t : Ty) :
    (!(v.rename R).isNull && (v.rename R).type.conformsTo t) =
      (!v.isNull && v.type.conformsTo t) := by
  rw [Datum.isNull_rename, Datum.type_rename]

mutual

@[simp] theorem isInstance_rename : ∀ (t : Ty) (v : Value), t.isInstance (v.rename R) = t.isInstance v
  | any, _ => rfl
  | null, v => by
    rw [isInstance, isInstance, Datum.isNull_rename, Datum.type_rename]
  | list element, v => by
    cases v with
    | list items =>
      rw [Datum.rename_list, isInstance, isInstance, List.all_map]
      exact congrArg items.all (funext fun w => isInstance_rename element w)
    | _ =>
      rw [isInstance.eq_def, isInstance.eq_def]
      exact conforms_rename R _ _
  | context fields, v => by
    cases v with
    | context entries =>
      rw [Datum.rename_context, isInstance, isInstance, areInstances_rename fields entries]
    | _ =>
      rw [isInstance.eq_def, isInstance.eq_def]
      exact conforms_rename R _ _
  | range element si ei, v => by
    cases v with
    | range start finish _ _ =>
      have h : (fun w : Value => isInstance element (w.rename R)) = isInstance element :=
        funext fun w => isInstance_rename element w
      rw [Datum.rename_range, isInstance, isInstance, Option.all_map, Option.all_map]
      exact congrArg (fun f : Value → Bool => start.all f && finish.all f) h
    | _ =>
      rw [isInstance.eq_def, isInstance.eq_def]
      exact conforms_rename R _ _
  | number _, v | string, v | boolean, v | date, v | time, v | dateTime, v | dayTimeDuration, v
  | yearMonthDuration, v | function _ _ _, v => by
    rw [isInstance.eq_def, isInstance.eq_def]
    exact conforms_rename R v _

theorem areInstances_rename : ∀ (fields : List (String × Ty)) (entries : List (String × Value)),
    areInstances fields (Entries.rename R entries) = areInstances fields entries
  | [], _ => by rw [areInstances, areInstances]
  | (name, t) :: fields, entries => by
    rw [areInstances, areInstances, areInstances_rename fields entries, Entries.lookup_rename]
    cases entries.lookup name with
    | none => rfl
    | some w => exact congrArg (· && areInstances fields entries) (isInstance_rename t w)

end

end Ty

namespace Datum

/-! ### Conversions and members -/

theorem unwrap_rename : ∀ v : Value, (v.rename R).unwrap = v.unwrap.rename R
  | list [v] => unwrap_rename v
  | list [] | list (_ :: _ :: _) => rfl
  | null | boolean _ | number _ | string _ | date _ | time _ | dateTime _ | dayTimeDuration _
  | yearMonthDuration _ | context _ | range _ _ _ _ | function _ => rfl

theorem convertSingle_rename (target : Ty) (v : Value) :
    (v.rename R).convertSingle target = (v.convertSingle target).rename R := by
  have hplain : (if target.isInstance (v.rename R) then v.rename R else null) =
      (if target.isInstance v then v else null : Value).rename R := by
    rw [Ty.isInstance_rename, apply_ite (Datum.rename R), rename_null]
  have hnumber : ∀ (n : Number) (kind : NumberKind),
      (convertNumber n kind : Value) = (convertNumber n kind : Value).rename R := fun n kind =>
    (((Fits.ofNumber? _ .number).plain rfl).rename R).symm
  cases v with
  | number n =>
    cases target with
    | number kind => exact hnumber n kind
    | _ => exact hplain
  | date d =>
    cases target with
    | dateTime => rfl
    | _ => exact hplain
  | dateTime t =>
    cases target with
    | date => rfl
    | _ => exact hplain
  | null => rfl
  | _ => cases target <;> exact hplain

theorem convert_rename : ∀ (target : Ty) (v : Value),
    (v.rename R).convert target = (v.convert target).rename R
  | .any, _ => rfl
  | .list element, v => by
    cases v with
    | null => rfl
    | list items =>
      rw [rename_list, convert, convert, rename_list, List.map_map, List.map_map]
      exact congrArg list (List.map_congr_left fun w _ => convert_rename element w)
    | _ =>
      rw [convert.eq_def, convert.eq_def]
      exact congrArg (fun w => list [w]) (convert_rename element _)
  | .null, v | .number _, v | .string, v | .boolean, v | .date, v | .time, v | .dateTime, v
  | .dayTimeDuration, v | .yearMonthDuration, v | .context _, v | .range _ _ _, v
  | .function _ _ _, v => by
    rw [convert.eq_def, convert.eq_def]
    exact (congrArg (convertSingle _) (unwrap_rename R v)).trans (convertSingle_rename R _ _)

mutual

theorem member_rename (name : String) :
    ∀ v : Value, (v.rename R).member name = (v.member name).rename R
  | context entries => by
    rw [rename_context, member, member, Entries.lookup_rename, getD_rename]
  | list items => by
    show (list (renameList R items) : Value).member name = _
    rw [member.eq_def, member.eq_def]
    dsimp only
    split
    · rw [renameList_eq, List.length_map]
      rfl
    · rw [renameList_eq, List.isEmpty_map]
      rfl
    · rw [renameList_eq, List.isEmpty_map]
      rfl
    · rw [members_rename name items]
      exact (rename_list R _).symm
  | range s e si ei => by
    rw [rename_range, member.eq_def, member.eq_def]
    dsimp only
    split
    · exact getD_rename R s
    · exact getD_rename R e
    · rfl
    · rfl
    · rfl
  | function f => by
    have hsteady : ((function f).member name : Value).Steady :=
      .member name rfl rfl fun _ _ _ _ h => by cases h
    rw [hsteady.plain.rename, rename_function, member.eq_def, member.eq_def]
    dsimp only
    unfold functionMember
    rw [Function.type_rename, Function.paramNames_rename]
  | null | boolean _ | number _ | string _ | date _ | time _ | dateTime _ | dayTimeDuration _
  | yearMonthDuration _ => by
    rw [(Steady.member name rfl rfl fun _ _ _ _ h => by cases h).plain.rename]
    rfl

theorem members_rename (name : String) :
    ∀ vs : List Value, members name (renameList R vs) = (members name vs).map (rename R)
  | [] => rfl
  | v :: vs => congrArg₂ List.cons (member_rename name v) (members_rename name vs)

end

end Datum

end Feel
