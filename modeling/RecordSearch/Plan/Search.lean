import RecordSearch.Plan.Binding
import RecordSearch.Search.Tree

/-!
The expression of a whole search. Groups combine the expressions of their children; a group with
no condition below it is left out, and a search without any condition matches every row.
-/

namespace RecordSearch

def Connective.combine : Connective → List Expression → Expression
  | and, children => .all children
  | or, children => .any children

/-- Nothing for no children. -/
def Connective.combine? (c : Connective) : List Expression → Option Expression
  | [] => none
  | children => some (c.combine children)

namespace Node

mutual

/-- Nothing if the node has no condition. The first error from left to right stops it. -/
def plan (schema : Schema) (format : DateFormat) : Node → Except QueryError (Option Expression)
  | condition c => (c.bind schema format).map some
  | group connective children => (planChildren schema format children).map connective.combine?

def planChildren (schema : Schema) (format : DateFormat) :
    List Node → Except QueryError (List Expression)
  | [] => .ok []
  | child :: rest => do
    let first ← plan schema format child
    let others ← planChildren schema format rest
    return first.toList ++ others

end

end Node

namespace Search

/-- Whether the search says anything about a row, as an expression. -/
def constraint (s : Search) (schema : Schema) : Except QueryError (Option Expression) :=
  s.root.plan schema s.format

def plan (s : Search) (schema : Schema) : Except QueryError Expression :=
  (s.constraint schema).map fun e => e.getD (.literal true)

end Search

end RecordSearch
