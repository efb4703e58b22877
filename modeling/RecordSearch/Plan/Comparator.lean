import RecordSearch.Clause.Expression
import RecordSearch.Schema.FieldType
import RecordSearch.Schema.Kind

/-!
The rules of comparison for each kind of field: which operations it has, how its values are
projected and which operands it takes.
-/

namespace RecordSearch

inductive Comparator where
  /-- Texts compare in the order of their characters, after case folding. -/
  | string (mode : CaseMode)
  /-- Operands are brought into the width of the field, except that fragments are looked for in
  its digits. -/
  | number (width : Width)
  | boolean
  /-- Instants compare as their texts in a format, so a coarse format compares coarsely. -/
  | date (format : DateFormat)
  /-- Members compare by their declared spelling. -/
  | enumerated (type : EnumType)

namespace Comparator

def kind : Comparator → Kind
  | string _ => .string
  | number _ => .number
  | boolean => .boolean
  | date _ => .date
  | enumerated _ => .enumerated

def supports : Comparator → Operation → Bool
  | boolean, o => o == .equal || o == .notEqual
  | enumerated _, o => o == .equal || o == .notEqual
  | _, _ => true

def projection : Comparator → Operation → Projection
  | string mode, _ => .text mode
  | number width, o => if o.isTextual then .numberText width else .number
  | boolean, _ => .boolean
  | date format, _ => .dateText format
  | enumerated _, _ => .member

/-- The scalar of an operand that is not null, if the field takes it. Text for a date has to be a
complete date in the format unless it is a fragment. -/
def operand? : Comparator → Operation → Value → Option Scalar
  | string mode, _, .text s => some (.text (mode.apply s))
  | number width, o, .number n =>
    if o.isTextual then some (.text (width.text n)) else (width.coerce? n).map .number
  | boolean, _, .boolean b => some (.boolean b)
  | date format, _, .instant t => some (.text (format.render t))
  | date format, o, .text s => if o.isTextual || format.accepts s then some (.text s) else none
  | enumerated type, _, .member enumName m =>
    if enumName = type.name then (type.member? m).map .member else none
  | enumerated type, _, .text s => (type.member? s).map .member
  | _, _, _ => none

end Comparator

end RecordSearch
