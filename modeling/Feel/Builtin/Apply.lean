import Feel.Builtin.Conversion
import Feel.Builtin.Lists
import Feel.Builtin.Ranges
import Feel.Builtin.Strings
import Feel.Text.LetterCase

/-!
# Applying built-in functions

Arguments come by position. Missing arguments and arguments of the wrong family give null.
Only `sort` calls back, with the function that says what comes first.

* `Builtin.value`: the functions that call nothing.
* `Builtin.inBounds`: whether a call stays within the bounds of its sequence.
* `Builtin.apply`: every function.
-/

namespace Feel

namespace Builtin

/-- A function of a list in the first place. -/
def onList (args : List Value) (f : List Value → Value) : Value :=
  match Args.get args 0 with
  | .list items => f items
  | _ => .null

/-- The value of a built-in function that calls no other; `precision` is for quotients. -/
def value (f : Builtin) (args : List Value) (precision : Nat) : Value :=
  let fst := Args.get args 0
  let snd := Args.get args 1
  match f with
  | date => ((dateOf? args).map .date).getD .null
  | time => ((timeOf? args).map .time).getD .null
  | dateAndTime => ((dateTimeOf? args).map .dateTime).getD .null
  | number => .ofNumber? (numberOf? args)
  | string => if fst.isNull then .null else .string fst.text
  | duration => onText args fun s => (Datum.parseDuration? s).getD .null
  | yearsAndMonthsDuration => yearsAndMonths fst snd
  | not => fst.not
  | is => .boolean (fst.familyName == snd.familyName && fst.equal snd)
  | substring => (substring? .wraps args).getD .null
  | stringLength => onText args fun s => .count s.length
  | upperCase => onText args fun s => .string (Text.upper s)
  | lowerCase => onText args fun s => .string (Text.lower s)
  | substringBefore => onTexts args fun s t => .string (((Text.cut? s t).map (·.1)).getD "")
  | substringAfter => onTexts args fun s t => .string (((Text.cut? s t).map (·.2)).getD "")
  | contains => onTexts args fun s t => .boolean (Text.cut? s t).isSome
  | startsWith => onTexts args fun s t => .boolean (t.toList.isPrefixOf s.toList)
  | endsWith => onTexts args fun s t => .boolean (t.toList.isSuffixOf s.toList)
  | «matches» => matchesValue args
  | replace => replaceValue args
  | split => splitValue args
  | listContains => onList args fun vs => .boolean (vs.any (·.equal snd))
  | count => onList args fun vs => .count vs.length
  | min => extreme .lt (Args.items args)
  | max => extreme .gt (Args.items args)
  | sum => total .add (Args.items args)
  | product => total .mul (Args.items args)
  | mean => meanOf (Args.items args) precision
  | median => medianOf (Args.items args) precision
  | stddev => deviation (Args.items args)
  | mode => modes (Args.items args)
  | all => quantify .and (.boolean true) (Args.items args)
  | any => quantify .or (.boolean false) (Args.items args)
  | sublist => onList args fun vs => (sublist? .wraps vs snd (Args.get args 2)).getD .null
  | append => onList args fun vs => .list (vs ++ args.tail)
  | concatenate => ((joined? args).map .list).getD .null
  | insertBefore => onList args fun vs => insertBeforeValue vs snd (Args.get args 2)
  | remove => onList args fun vs => removeValue vs snd
  | reverse => onList args fun vs => .list vs.reverse
  | indexOf => onList args fun vs => .list (indexesOf snd 0 vs)
  | union => ((joined? args).map fun vs => .list (distinct vs)).getD .null
  | distinctValues => onList args fun vs => .list (distinct vs)
  | flatten => onList args fun vs => .list (flatAll vs)
  | sort => onList args fun vs => if snd.isNull then sortNatural vs else .null
  | decimal => round args .halfEven false
  | floor => round args .floor true
  | ceiling => round args .ceiling true
  | abs => absolute fst
  | modulo => remainder fst snd
  | sqrt => squareRoot fst
  | log => logarithm fst
  | exp => exponential fst
  | odd => parity fst 1
  | even => parity fst 0
  | before => relate Interval.before? fst snd
  | after => relate Interval.before? snd fst
  | meets => relateRanges Interval.meets? fst snd
  | metBy => relateRanges Interval.meets? snd fst
  | overlaps => relateRanges Interval.overlaps? fst snd
  | finishes => relate Interval.finishes? fst snd
  | finishedBy => relate Interval.finishes? snd fst
  | starts => relate Interval.starts? fst snd
  | startedBy => relate Interval.starts? snd fst
  | coincides => relate Interval.coincides? fst snd
  | dayOfYear => onDate args fun d => .count d.ordinal
  | dayOfWeek => onDate args fun d => .string (dayNames.getD d.weekday "")
  | monthOfYear => onDate args fun d => .string (monthNames.getD (d.month - 1) "")
  | weekOfYear => onDate args fun d => .count d.isoWeek
  | getValue => entryOf fst snd
  | getEntries => entriesOf fst

/-- Whether the slice that a call takes lies within its sequence. -/
def inBounds (f : Builtin) (args : List Value) : Bool :=
  match f, Args.get args 0 with
  | substring, _ => (substring? .wraps args).isSome
  | sublist, .list items => (sublist? .wraps items (Args.get args 1) (Args.get args 2)).isSome
  | _, _ => true

/-- Whether an answer is the boolean true. -/
def isTrue {ε : Type} (answer : Except ε Value) : Except ε Bool :=
  answer.map (·.isBool true)

/-- Applies a built-in function; `invoke` calls function values. -/
def apply {ε : Type} (f : Builtin) (args : List Value) (precision : Nat)
    (invoke : FunctionValue → List Value → Except ε Value) : Except ε Value :=
  match f, Args.get args 0, Args.get args 1 with
  | sort, .list items, .function precedes =>
    (sortBy (fun a b => isTrue (invoke precedes [a, b])) items []).map .list
  | _, _, _ => .ok (f.value args precision)

end Builtin

end Feel
