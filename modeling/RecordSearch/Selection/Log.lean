import RecordSearch.Selection.Filter

/-!
The messages of a run: one for each condition that is bound, one for the plan and one for the
selection. An error ends them, so the conditions from the first faulty one on have none.
-/

namespace RecordSearch

inductive Level where
  | trace
  | debug
  | info
deriving DecidableEq

def Level.name : Level → String
  | trace => "TRACE"
  | debug => "DEBUG"
  | info => "INFO"

structure Message where
  level : Level
  text : String
deriving DecidableEq

def Message.display (m : Message) : String := m.level.name ++ " " ++ m.text

namespace Message

def bound (c : Condition) (t : Target) (e : Expression) : Message :=
  ⟨.trace, "Bound " ++ c.operation.name ++ " with " ++ Nat.repr c.values.length ++
    " value(s) on " ++ t.name ++ " (" ++ t.kind.name ++ "): " ++ e.display⟩

def planned (conditions nodes : Nat) : Message :=
  ⟨.debug, "Planned search with " ++ Nat.repr conditions ++ " condition(s) into " ++
    Nat.repr nodes ++ " node(s)"⟩

def selected (matched scanned : Nat) : Message :=
  ⟨.debug, "Filter matched " ++ Nat.repr matched ++ " of " ++ Nat.repr scanned ++
    " scanned record(s)"⟩

end Message

/-- Nothing for a condition that does not bind. -/
def Condition.message? (c : Condition) (schema : Schema) (format : DateFormat) : Option Message :=
  match Target.find schema c.field, c.bind schema format with
  | .ok target, .ok e => some (.bound c target e)
  | _, _ => none

namespace Search

def boundMessages (s : Search) (schema : Schema) : List Message :=
  ((s.leaves.map (·.message? schema s.format)).takeWhile Option.isSome).filterMap id

def planMessages (s : Search) (schema : Schema) : List Message :=
  s.boundMessages schema ++
    match s.plan schema with
    | .ok e => [.planned s.leafCount e.size]
    | .error _ => []

def selectMessages {α : Type} (s : Search) (schema : Schema) (row : α → Row) (page : Option Page)
    (records : List α) : List Message :=
  s.planMessages schema ++
    match s.select schema row page records with
    | .ok selection => [.selected selection.matched.length selection.scanned]
    | .error _ => []

end Search

end RecordSearch
