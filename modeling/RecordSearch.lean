import RecordSearch.Text.Ascii
import RecordSearch.Text.Blank
import RecordSearch.Text.Fragment
import RecordSearch.Text.Digits
import RecordSearch.Text.CaseTable
import RecordSearch.Text.Case
import RecordSearch.Number.Ratio
import RecordSearch.Number.Numeral
import RecordSearch.Number.Binary
import RecordSearch.Number.Floating
import RecordSearch.Number.Decimal.Basic
import RecordSearch.Number.Decimal.Reader
import RecordSearch.Number.Decimal.OfDouble
import RecordSearch.Number.Basic
import RecordSearch.Number.Width
import RecordSearch.Calendar.Date
import RecordSearch.Calendar.Timestamp
import RecordSearch.Calendar.Pattern
import RecordSearch.Calendar.DateFormat
import RecordSearch.Calendar.Instant
import RecordSearch.Json.Basic
import RecordSearch.Json.Printer
import RecordSearch.Json.Reader
import RecordSearch.Json.Named
import RecordSearch.Value
import RecordSearch.Schema.Kind
import RecordSearch.Schema.FieldType
import RecordSearch.Schema.Basic
import RecordSearch.Search.Operation
import RecordSearch.Search.Error
import RecordSearch.Search.Condition
import RecordSearch.Search.Tree
import RecordSearch.Clause.Scalar
import RecordSearch.Clause.Expression
import RecordSearch.Clause.Evaluation
import RecordSearch.Plan.Target
import RecordSearch.Plan.Comparator
import RecordSearch.Plan.Binding
import RecordSearch.Plan.Search
import RecordSearch.Selection.Page
import RecordSearch.Selection.Filter
import RecordSearch.Selection.Log
import RecordSearch.Selection.Entity
import RecordSearch.Wire.Error
import RecordSearch.Wire.Number
import RecordSearch.Wire.Search
import RecordSearch.Wire.Record
import RecordSearch.Wire.PagedSearch
import RecordSearch.Command.Options
import RecordSearch.Command.Run
import RecordSearch.Main
import RecordSearch.Proofs.Result
import RecordSearch.Proofs.Meaning
import RecordSearch.Proofs.Filtering
import RecordSearch.Proofs.Digits
import RecordSearch.Proofs.DateText
import RecordSearch.Proofs.Rounding
import RecordSearch.Proofs.Positional
import RecordSearch.Proofs.NumberText
import RecordSearch.Proofs.Encoding
import RecordSearch.Proofs.RoundTrip
import RecordSearch.Proofs.Binding
import RecordSearch.Proofs.Replanning
import RecordSearch.Proofs.Classification
import RecordSearch.Proofs.Faults
import RecordSearch.Proofs.Operands
import RecordSearch.Proofs.NullSafety
import RecordSearch.Proofs.Complements
import RecordSearch.Proofs.ExactOperands
import RecordSearch.Proofs.Congruence
import RecordSearch.Proofs.PlannedExpressions
import RecordSearch.Proofs.ThreeValued
import RecordSearch.Proofs.LoadedKinds
import RecordSearch.Proofs.ShortestDigits
import RecordSearch.Proofs.ClauseScan
import RecordSearch.Proofs.ClauseReading
import RecordSearch.Proofs.ClauseText
import RecordSearch.Proofs.Reordering
import RecordSearch.Proofs.JsonScalars
import RecordSearch.Proofs.JsonText
import RecordSearch.Proofs.TextRoundTrip
import RecordSearch.Proofs.CodeSpelling
import RecordSearch.Proofs.Spelling
import RecordSearch.Proofs.Ranges
import RecordSearch.Proofs.DateFields
import RecordSearch.Proofs.DateOperands
import RecordSearch.Proofs.DateOrder
import RecordSearch.Proofs.NearestValue
import RecordSearch.Proofs.WholeDigits
import RecordSearch.Proofs.DecimalOfDouble
import RecordSearch.Proofs.Coercion
import RecordSearch.Proofs.Literals
import RecordSearch.Proofs.ExactValues
import RecordSearch.Proofs.WholeFields
import RecordSearch.Proofs.Overflow
import RecordSearch.Proofs.WidthRanges
import RecordSearch.Proofs.Trichotomy
import RecordSearch.Proofs.ListFields
import RecordSearch.Proofs.Paging
import RecordSearch.Proofs.TypeText
import RecordSearch.Proofs.CaseFolding
import RecordSearch.Proofs.FinalSigma
import RecordSearch.Proofs.Scanning
import RecordSearch.Proofs.ReadSet
import RecordSearch.Proofs.ClauseLiterals
import RecordSearch.Proofs.EnumFields
import RecordSearch.Proofs.NumberOrder
import RecordSearch.Proofs.Obtainable
import RecordSearch.Proofs.CommandRuns
import RecordSearch.Proofs.EmbeddedSearches
