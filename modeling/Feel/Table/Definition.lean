import Feel.Table.Policy
import Feel.Text.Characters
import Feel.Json.Reader

/-!
# Decision table definitions

A decision table has input clauses, output clauses and rules with one entry for each of
them. A definition is read from a JSON document and validated before it is compiled.

* `Definition`: the table as it is written.
* `DefinitionError`: the structural faults, with their messages.
* `Definition.validate`: reports the first fault.
* `Definition.ofJson?`, `Definition.toJson`: the document of a definition.
-/

namespace Feel

/-! ### Clauses and rules -/

/-- An input column: the expression that is tested and the values it may take. -/
structure InputClause where
  expression : String
  allowedValues : Option String := none
  deriving DecidableEq

/-- An output column: its name, the values it may take and the entry for no match. -/
structure OutputClause where
  name : Option String := none
  allowedValues : Option String := none
  defaultEntry : Option String := none
  deriving DecidableEq

/-- A row: one test per input and one expression per output. -/
structure RuleDefinition where
  inputEntries : List String
  outputEntries : List String
  annotationEntries : List String := []
  deriving DecidableEq

/-- A decision table as it is written. -/
structure Definition where
  name : String
  inputs : List InputClause
  outputs : List OutputClause
  annotations : List String := []
  rules : List RuleDefinition := []
  hitPolicy : HitPolicy := .unique
  aggregation : Option Aggregation := none
  deriving DecidableEq

/-! ### Faults -/

/-- A structural fault of a definition. Rules and clauses count from one. -/
inductive DefinitionError where
  | emptyName
  | noInputs (table : String)
  | noOutputs (table : String)
  | unnamedOutput (clause : Nat)
  | inputArity (rule expected actual : Nat)
  | outputArity (rule expected actual : Nat)
  | aggregationWithoutCollect (aggregation : Aggregation) (policy : HitPolicy)
  | aggregationWithSeveralOutputs (aggregation : Aggregation)
  deriving DecidableEq

namespace DefinitionError

/-- The message of a fault. -/
def message : DefinitionError → String
  | emptyName => "decision table name must not be empty"
  | noInputs table => "decision table '" ++ table ++ "' has no input clauses"
  | noOutputs table => "decision table '" ++ table ++ "' has no output clauses"
  | unnamedOutput clause =>
    "output clause " ++ toString clause ++ " must be named when the table has several outputs"
  | inputArity rule expected actual =>
    "rule " ++ toString rule ++ " has " ++ toString actual ++ " input entries, expected " ++
      toString expected
  | outputArity rule expected actual =>
    "rule " ++ toString rule ++ " has " ++ toString actual ++ " output entries, expected " ++
      toString expected
  | aggregationWithoutCollect aggregation policy =>
    "aggregation " ++ aggregation.text ++ " requires hit policy COLLECT, found " ++ policy.text
  | aggregationWithSeveralOutputs aggregation =>
    "aggregation " ++ aggregation.text ++ " requires a single output clause"

end DefinitionError

namespace Definition

/-- The first rule whose entries do not match the clauses in number. -/
def ruleFault? (inputs outputs : Nat) : Nat → List RuleDefinition → Option DefinitionError
  | _, [] => none
  | i, r :: rs =>
    if r.inputEntries.length ≠ inputs then some (.inputArity i inputs r.inputEntries.length)
    else if r.outputEntries.length ≠ outputs then
      some (.outputArity i outputs r.outputEntries.length)
    else ruleFault? inputs outputs (i + 1) rs

/-- The fault of an aggregation, if it has one. -/
def aggregationFault? (d : Definition) : Option DefinitionError :=
  d.aggregation.bind fun a =>
    if d.hitPolicy ≠ .collect then some (.aggregationWithoutCollect a d.hitPolicy)
    else if d.outputs.length ≠ 1 then some (.aggregationWithSeveralOutputs a)
    else none

/-- The first fault of a definition. -/
def fault? (d : Definition) : Option DefinitionError :=
  if (Text.trim d.name).isEmpty then some .emptyName
  else if d.inputs.isEmpty then some (.noInputs d.name)
  else if d.outputs.isEmpty then some (.noOutputs d.name)
  else
    let unnamed := if 1 < d.outputs.length then d.outputs.findIdx? (·.name.isNone) else none
    match unnamed with
    | some i => some (.unnamedOutput (i + 1))
    | none => (ruleFault? d.inputs.length d.outputs.length 1 d.rules).or d.aggregationFault?

/-- Reports the first fault. -/
def validate (d : Definition) : Except DefinitionError Unit :=
  match d.fault? with
  | some e => .error e
  | none => .ok ()

/-- The definition, if it has no fault. -/
def validated (d : Definition) : Except DefinitionError Definition := d.validate.map fun _ => d

/-- The table has one output and that has no name: its results are bare values. -/
def singleUnnamed (d : Definition) : Bool :=
  match d.outputs with
  | [o] => o.name.isNone
  | _ => false

/-! ### Documents -/

def inputKeys : List String := ["expression", "allowed_values"]

def outputKeys : List String := ["name", "allowed_values", "default_entry"]

def ruleKeys : List String := ["input_entries", "output_entries", "annotation_entries"]

/-- The parts of a definition's document, in order. Other members are skipped. -/
def members : List (String × Json.Shape) := [
  ("name", .all),
  ("inputs", .items (.fields inputKeys)),
  ("outputs", .items (.fields outputKeys)),
  ("annotations", .all),
  ("rules", .items (.fields ruleKeys)),
  ("hit_policy", .all),
  ("aggregation", .all)]

/-- The members of a structure in a document: an object with each known key at most once,
or an array with the members in their order. -/
def members? (keys : List String) : Json → Option (List (Option Json))
  | .object ms =>
    let known := ms.filter fun m => keys.contains m.1
    if (known.map (·.1)).eraseDups.length = known.length then
      some (keys.map fun key => known.lookup key)
    else none
  | .array items =>
    if items.length ≤ keys.length then
      some (items.map some ++ List.replicate (keys.length - items.length) none)
    else none
  | _ => none

def string? : Json → Option String
  | .string s => some s
  | _ => none

def strings? : Json → Option (List String)
  | .array items => items.mapM string?
  | _ => none

/-- An optional text: null and a missing member have none. -/
def optional? : Option Json → Option (Option String)
  | none => some none
  | some .null => some none
  | some j => (string? j).map some

/-- A named choice, as a string or as the key of an object that holds null. -/
def choice? {α : Type} (ofKey? : String → Option α) : Json → Option α
  | .string s => ofKey? s
  | .object [(s, .null)] => ofKey? s
  | _ => none

/-- Whether a structure was written as an array; its optional members are then required. -/
def isArray : Json → Bool
  | .array _ => true
  | _ => false

def ofInput? (j : Json) : Option InputClause := do
  let ms ← members? inputKeys j
  match ms with
  | [some expression, allowed] =>
    if isArray j && allowed.isNone then none
    some ⟨← string? expression, ← optional? allowed⟩
  | _ => none

def ofOutput? (j : Json) : Option OutputClause := do
  let ms ← members? outputKeys j
  match ms with
  | [name, allowed, entry] =>
    if isArray j && entry.isNone then none
    some ⟨← optional? name, ← optional? allowed, ← optional? entry⟩
  | _ => none

def ofRule? (j : Json) : Option RuleDefinition := do
  let ms ← members? ruleKeys j
  match ms with
  | [some inputs, some outputs, annotations] =>
    let annotations ← match annotations with
      | none => some []
      | some j => strings? j
    some ⟨← strings? inputs, ← strings? outputs, annotations⟩
  | _ => none

def items? {α : Type} (f : Json → Option α) : Json → Option (List α)
  | .array items => items.mapM f
  | _ => none

/-- Reads a definition from a document, without validation. -/
def ofJson? (j : Json) : Option Definition := do
  let ms ← members? (members.map (·.1)) j
  match ms with
  | [some name, some inputs, some outputs, annotations, rules, policy, aggregation] =>
    let annotations ← match annotations with
      | none => some []
      | some j => strings? j
    let rules ← match rules with
      | none => some []
      | some j => items? ofRule? j
    let policy ← match policy with
      | none => some .unique
      | some j => choice? HitPolicy.ofKey? j
    let aggregation ← match aggregation with
      | none => some none
      | some .null => some none
      | some j => (choice? Aggregation.ofKey? j).map some
    some ⟨← string? name, ← items? ofInput? inputs, ← items? ofOutput? outputs, annotations,
      rules, policy, aggregation⟩
  | _ => none

def optionalJson : Option String → Json
  | none => .null
  | some s => .string s

def stringsJson (ss : List String) : Json := .array (ss.map .string)

/-- The document of a definition, every member in its order. -/
def toJson (d : Definition) : Json :=
  .object [
    ("name", .string d.name),
    ("inputs", .array (d.inputs.map fun i => .object [
      ("expression", .string i.expression),
      ("allowed_values", optionalJson i.allowedValues)])),
    ("outputs", .array (d.outputs.map fun o => .object [
      ("name", optionalJson o.name),
      ("allowed_values", optionalJson o.allowedValues),
      ("default_entry", optionalJson o.defaultEntry)])),
    ("annotations", stringsJson d.annotations),
    ("rules", .array (d.rules.map fun r => .object [
      ("input_entries", stringsJson r.inputEntries),
      ("output_entries", stringsJson r.outputEntries),
      ("annotation_entries", stringsJson r.annotationEntries)])),
    ("hit_policy", .string d.hitPolicy.key),
    ("aggregation", optionalJson (d.aggregation.map Aggregation.text))]

/-- Why a text gives no definition. -/
inductive ReadError where
  /-- The text is no document of a definition. -/
  | malformed
  | invalid (e : DefinitionError)
  deriving DecidableEq

/-- Reads and validates a definition from the text of a document. -/
def parse (s : String) : Except ReadError Definition :=
  match (Json.parseShape? (.record members) s).bind ofJson? with
  | none => .error .malformed
  | some d => d.validated.mapError .invalid

end Definition

end Feel
