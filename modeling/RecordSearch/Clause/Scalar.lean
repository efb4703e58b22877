import RecordSearch.Search.Operation
import RecordSearch.Value

/-!
Scalars are what comparisons compare, and projections make them of field values. Scalars of two
constructors never compare, so a comparison between them fails whatever it is.
-/

namespace RecordSearch

inductive Scalar where
  | text (value : String)
  | number (value : Number)
  | boolean (value : Bool)
  | member (value : String)
deriving DecidableEq

namespace Scalar

def compare? : Scalar → Scalar → Option Ordering
  | text a, text b => some (compare a b)
  | number a, number b => a.compare? b
  | boolean a, boolean b => some (compare a b)
  | member a, member b => some (compare a b)
  | _, _ => none

/-- A positive comparison with the field on the left. -/
def satisfies (field : Scalar) (c : Comparison) (operand : Scalar) : Bool :=
  if c.isTextual then
    match field, operand with
    | text a, text b => c.holdsOnText a b
    | _, _ => false
  else (field.compare? operand).any c.admits

/-- Both bounds belong to the range. -/
def isBetween (field low high : Scalar) : Bool :=
  (field.compare? low).any (· != .lt) && (field.compare? high).any (· != .gt)

/-- Equality as values, so numbers of different representations can be equal. -/
instance : BEq Scalar where
  beq
    | text a, text b => a == b
    | number a, number b => a == b
    | boolean a, boolean b => a == b
    | member a, member b => a == b
    | _, _ => false

/-- Between single quotes, with each single quote inside written twice. -/
def quote (s : String) : String :=
  String.ofList
    ('\'' :: (s.toList.flatMap (fun c => if c = '\'' then ['\'', '\''] else [c]) ++ ['\'']))

def display : Scalar → String
  | text s => quote s
  | number n => n.text
  | boolean b => if b then "true" else "false"
  | member m => quote m

end Scalar

/-- How a field value becomes a scalar. -/
inductive Projection where
  | text (mode : CaseMode)
  /-- The digits of a number that is held in the width. -/
  | numberText (width : Width)
  | number
  | boolean
  | dateText (format : DateFormat)
  | member
deriving DecidableEq

namespace Projection

/-- Null and values of another kind have no projection. -/
def project? : Projection → Value → Option Scalar
  | text mode, .text s => some (.text (mode.apply s))
  | numberText width, .number n => some (.text (width.text n))
  | number, .number n => some (.number n)
  | boolean, .boolean b => some (.boolean b)
  | dateText format, .instant t => some (.text (format.render t))
  | member, .member _ m => some (.member m)
  | _, _ => none

/-- The projection of a column, written as a function of its name. -/
def display (p : Projection) (column : String) : String :=
  match p with
  | text .default => column
  | text .lower => "lower(" ++ column ++ ")"
  | text .upper => "upper(" ++ column ++ ")"
  | numberText _ => "text(" ++ column ++ ")"
  | dateText format => "format(" ++ column ++ ", '" ++ format.pattern.mask ++ "')"
  | number | boolean | member => column

end Projection

end RecordSearch
