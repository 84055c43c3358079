import Feel.Binary64.Basic
import Feel.Binary64.Text
import Feel.Builtin.Apply
import Feel.Builtin.Basic
import Feel.Builtin.Conversion
import Feel.Builtin.Lists
import Feel.Builtin.Numeric
import Feel.Builtin.Ranges
import Feel.Builtin.Signature
import Feel.Builtin.Sorting
import Feel.Builtin.Strings
import Feel.Calendar.Date
import Feel.Calendar.Text
import Feel.Calendar.Time
import Feel.Code.Basic
import Feel.Code.Equality
import Feel.Code.Fold
import Feel.Code.Json
import Feel.Code.Simplify
import Feel.CompileError
import Feel.Decimal.Basic
import Feel.Decimal.Division
import Feel.Decimal.Order
import Feel.Decimal.Text
import Feel.Engine.Basic
import Feel.Engine.Cache
import Feel.Engine.Digest
import Feel.Engine.Key
import Feel.Eval.Decision
import Feel.Eval.Denote
import Feel.Eval.Frame
import Feel.Eval.Iteration
import Feel.Fragment.Basic
import Feel.Fragment.Calls
import Feel.Fragment.Draft
import Feel.Fragment.OfTable
import Feel.Fragment.OfTerm
import Feel.Fragment.OfText
import Feel.Fragment.Operators
import Feel.Json.Basic
import Feel.Json.Reader
import Feel.Json.Skip
import Feel.Library
import Feel.Number.Basic
import Feel.Number.Overflow
import Feel.Operator
import Feel.Program.Basic
import Feel.Program.Compile
import Feel.Proofs.Agreement
import Feel.Proofs.AllowedValues
import Feel.Proofs.BuiltinTypes
import Feel.Proofs.CacheAccounting
import Feel.Proofs.CacheTransparency
import Feel.Proofs.CalendarTexts
import Feel.Proofs.CallProviders
import Feel.Proofs.CallTypes
import Feel.Proofs.Choices
import Feel.Proofs.ClosedPrograms
import Feel.Proofs.ClosureCalls
import Feel.Proofs.Connectives
import Feel.Proofs.ConstantPool
import Feel.Proofs.Conversions
import Feel.Proofs.ConvertedValues
import Feel.Proofs.DistinctValues
import Feel.Proofs.Documents
import Feel.Proofs.Equality
import Feel.Proofs.ExactArithmetic
import Feel.Proofs.FilteredNames
import Feel.Proofs.FloorRemainders
import Feel.Proofs.Folding
import Feel.Proofs.HitPolicies
import Feel.Proofs.Instances
import Feel.Proofs.IntegerLiterals
import Feel.Proofs.Layouts
import Feel.Proofs.MemberInstances
import Feel.Proofs.MonthAmounts
import Feel.Proofs.NamedCalls
import Feel.Proofs.NamedOutputs
import Feel.Proofs.NegatedTests
import Feel.Proofs.NestedSpans
import Feel.Proofs.NeverNull
import Feel.Proofs.NumberComparisons
import Feel.Proofs.OperatorFamilies
import Feel.Proofs.OperatorLevels
import Feel.Proofs.Parts
import Feel.Proofs.Powers
import Feel.Proofs.Quotients
import Feel.Proofs.RangeElements
import Feel.Proofs.RangeRelations
import Feel.Proofs.ReadingEnds
import Feel.Proofs.Refinement
import Feel.Proofs.RuleOrder
import Feel.Proofs.Simplify
import Feel.Proofs.Slices
import Feel.Proofs.StableSorting
import Feel.Proofs.Statistics
import Feel.Proofs.SteppedDomains
import Feel.Proofs.TableCells
import Feel.Proofs.TokenTilings
import Feel.Proofs.TreesReadBack
import Feel.Proofs.TypeDistances
import Feel.Proofs.TypeSoundness
import Feel.Proofs.TypeTexts
import Feel.Proofs.UnaryTests
import Feel.Regex.Class
import Feel.Regex.Escape
import Feel.Regex.Flags
import Feel.Regex.Matcher
import Feel.Regex.Parser
import Feel.Regex.Pattern
import Feel.Regex.Size
import Feel.Scope
import Feel.Span
import Feel.Surface.Basic
import Feel.Surface.Cursor
import Feel.Surface.Json
import Feel.Surface.Parser
import Feel.Surface.TypeParser
import Feel.Table.Definition
import Feel.Table.Policy
import Feel.Term.Basic
import Feel.Term.Json
import Feel.Term.OfSurface
import Feel.Text.CaseTable
import Feel.Text.CharSet
import Feel.Text.Characters
import Feel.Text.LetterCase
import Feel.Token.Basic
import Feel.Token.Lexer
import Feel.Ty.Basic
import Feel.Ty.Host
import Feel.Ty.Lattice
import Feel.Unicode.Age
import Feel.Unicode.Alias
import Feel.Unicode.Alphabet
import Feel.Unicode.Binary
import Feel.Unicode.Break
import Feel.Unicode.Category
import Feel.Unicode.Folding
import Feel.Unicode.Property
import Feel.Unicode.Script
import Feel.Unicode.ScriptExtension
import Feel.Value.Basic
import Feel.Value.Convert
import Feel.Value.Entries
import Feel.Value.Json
import Feel.Value.Operators
import Feel.Value.Order
import Feel.Value.Text
import Feel.Value.Typing
