import RecordSearch.Text.Ascii
import RecordSearch.Text.Case
import RecordSearch.Text.Fragment

/-!
The operations of conditions, the connectives of groups and the modes of case folding, with the
codes and names under which they are exchanged. All operations but the ranges come down to a
positive comparison that may be negated.
-/

namespace RecordSearch

/-- A positive comparison of a field with one operand. -/
inductive Comparison where
  | equal
  | lessThan
  | lessThanOrEqual
  | greaterThan
  | greaterThanOrEqual
  | contains
  | startsWith
  | endsWith
deriving DecidableEq

namespace Comparison

/-- Comparisons that look for a fragment have a meaning on text alone. -/
def isTextual : Comparison → Bool
  | contains | startsWith | endsWith => true
  | _ => false

/-- Whether the order of field and operand satisfies the comparison. -/
def admits : Comparison → Ordering → Bool
  | equal, o => o == .eq
  | lessThan, o => o == .lt
  | lessThanOrEqual, o => o != .gt
  | greaterThan, o => o == .gt
  | greaterThanOrEqual, o => o != .lt
  | contains, _ => false
  | startsWith, _ => false
  | endsWith, _ => false

def holdsOnText (c : Comparison) (field operand : String) : Bool :=
  match c with
  | contains => Text.contains field operand
  | startsWith => Text.startsWith field operand
  | endsWith => Text.endsWith field operand
  | c => c.admits (compare field operand)

def symbol : Comparison → String
  | equal => "="
  | lessThan => "<"
  | lessThanOrEqual => "<="
  | greaterThan => ">"
  | greaterThanOrEqual => ">="
  | contains => "contains"
  | startsWith => "starts_with"
  | endsWith => "ends_with"

def all : List Comparison :=
  [equal, lessThan, lessThanOrEqual, greaterThan, greaterThanOrEqual, contains, startsWith,
   endsWith]

end Comparison

/-- How many operands an operation takes. -/
inductive Arity where
  | exactly (count : Nat)
  | atLeast (count : Nat)
deriving DecidableEq

namespace Arity

def accepts : Arity → Nat → Bool
  | exactly n, count => count == n
  | atLeast n, count => n ≤ count

def text : Arity → String
  | exactly n => "exactly " ++ Nat.repr n
  | atLeast n => "at least " ++ Nat.repr n

end Arity

inductive Operation where
  | equal
  | notEqual
  | lessThan
  | lessThanOrEqual
  | greaterThan
  | greaterThanOrEqual
  | contains
  | notContains
  | startsWith
  | notStartsWith
  | endsWith
  | notEndsWith
  | between
  | notBetween
deriving DecidableEq, Inhabited

namespace Operation

def all : List Operation :=
  [equal, notEqual, lessThan, lessThanOrEqual, greaterThan, greaterThanOrEqual, contains,
   notContains, startsWith, notStartsWith, endsWith, notEndsWith, between, notBetween]

def code : Operation → Int
  | equal => 0
  | notEqual => 1
  | lessThan => 2
  | lessThanOrEqual => 3
  | greaterThan => 4
  | greaterThanOrEqual => 5
  | contains => 6
  | notContains => 7
  | startsWith => 8
  | notStartsWith => 9
  | endsWith => 10
  | notEndsWith => 11
  | between => 12
  | notBetween => 13

def name : Operation → String
  | equal => "Equal"
  | notEqual => "NotEqual"
  | lessThan => "LessThan"
  | lessThanOrEqual => "LessThanOrEqual"
  | greaterThan => "GreaterThan"
  | greaterThanOrEqual => "GreaterThanOrEqual"
  | contains => "Contains"
  | notContains => "NotContains"
  | startsWith => "StartsWith"
  | notStartsWith => "NotStartsWith"
  | endsWith => "EndsWith"
  | notEndsWith => "NotEndsWith"
  | between => "Between"
  | notBetween => "NotBetween"

def ofCode? (n : Int) : Option Operation := all.find? (·.code == n)

def ofName? (s : String) : Option Operation := all.find? fun o => Ascii.same o.name s

theorem ofCode?_code (o : Operation) : ofCode? o.code = some o := by
  cases o <;> rfl

def arity : Operation → Arity
  | between | notBetween => .exactly 2
  | _ => .atLeast 1

def isNegated : Operation → Bool
  | notEqual | notContains | notStartsWith | notEndsWith | notBetween => true
  | _ => false

/-- The positive comparison behind an operation, and whether its result is negated. Ranges have
none. -/
def comparison? : Operation → Option (Comparison × Bool)
  | equal => some (.equal, false)
  | notEqual => some (.equal, true)
  | lessThan => some (.lessThan, false)
  | lessThanOrEqual => some (.lessThanOrEqual, false)
  | greaterThan => some (.greaterThan, false)
  | greaterThanOrEqual => some (.greaterThanOrEqual, false)
  | contains => some (.contains, false)
  | notContains => some (.contains, true)
  | startsWith => some (.startsWith, false)
  | notStartsWith => some (.startsWith, true)
  | endsWith => some (.endsWith, false)
  | notEndsWith => some (.endsWith, true)
  | between => none
  | notBetween => none

/-- Whether the operation looks for a fragment of text. -/
def isTextual (o : Operation) : Bool :=
  match o.comparison? with
  | some (c, _) => c.isTextual
  | none => false

end Operation

/-- How the children of a group combine. -/
inductive Connective where
  | and
  | or
deriving DecidableEq, Inhabited

namespace Connective

def all : List Connective := [and, or]

def code : Connective → Int
  | and => 0
  | or => 1

def name : Connective → String
  | and => "And"
  | or => "Or"

/-- The word between clauses. -/
def keyword : Connective → String
  | and => "AND"
  | or => "OR"

def ofCode? (n : Int) : Option Connective := all.find? (·.code == n)

def ofName? (s : String) : Option Connective := all.find? fun c => Ascii.same c.name s

theorem ofCode?_code (c : Connective) : ofCode? c.code = some c := by
  cases c <;> rfl

end Connective

/-- What happens to the case of both sides before texts are compared. -/
inductive CaseMode where
  | default
  | lower
  | upper
deriving DecidableEq, Inhabited

namespace CaseMode

def all : List CaseMode := [default, lower, upper]

def code : CaseMode → Int
  | default => 0
  | lower => 1
  | upper => 2

def name : CaseMode → String
  | default => "Default"
  | lower => "Lower"
  | upper => "Upper"

def ofCode? (n : Int) : Option CaseMode := all.find? (·.code == n)

def ofName? (s : String) : Option CaseMode := all.find? fun m => Ascii.same m.name s

theorem ofCode?_code (m : CaseMode) : ofCode? m.code = some m := by
  cases m <;> rfl

def apply : CaseMode → String → String
  | default, s => s
  | lower, s => Case.lower s
  | upper, s => Case.upper s

end CaseMode

end RecordSearch
