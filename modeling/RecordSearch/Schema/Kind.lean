/-!
The kinds of fields. The kind decides which operations a condition on the field may use and how
its operands are read.
-/

namespace RecordSearch

inductive Kind where
  | null
  | string
  | number
  | boolean
  | date
  | enumerated
deriving DecidableEq

def Kind.name : Kind → String
  | null => "Null"
  | string => "String"
  | number => "Number"
  | boolean => "Boolean"
  | date => "Date"
  | enumerated => "Enumerated"

end RecordSearch
