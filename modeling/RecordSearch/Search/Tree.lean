import RecordSearch.Search.Condition

/-!
Searches: trees of conditions under groups with a connective. A search is built from an empty
group by adding children, and carries the date format of the conditions that name none.
-/

namespace RecordSearch

inductive Node where
  | condition (condition : Condition)
  | group (connective : Connective) (children : List Node)

namespace Node

mutual

/-- How many conditions there are at or below a node. -/
def leafCount : Node → Nat
  | condition _ => 1
  | group _ children => leafCounts children

def leafCounts : List Node → Nat
  | [] => 0
  | child :: rest => leafCount child + leafCounts rest

end

mutual

/-- The conditions from left to right. -/
def leaves : Node → List Condition
  | condition c => [c]
  | group _ children => leavesOf children

def leavesOf : List Node → List Condition
  | [] => []
  | child :: rest => leaves child ++ leavesOf rest

end

theorem forall_leaves_condition {P : Condition → Prop} {c : Condition} :
    (∀ d ∈ leaves (condition c), P d) ↔ P c := by
  simp only [leaves, List.mem_singleton, forall_eq]

theorem forall_leavesOf_cons {P : Condition → Prop} {child : Node} {rest : List Node} :
    (∀ c ∈ leavesOf (child :: rest), P c) ↔
      (∀ c ∈ leaves child, P c) ∧ ∀ c ∈ leavesOf rest, P c := by
  simp only [leavesOf, List.mem_append, or_imp, forall_and]

mutual

def same : Node → Node → Bool
  | condition a, condition b => a == b
  | group c xs, group d ys => c == d && sameChildren xs ys
  | _, _ => false

def sameChildren : List Node → List Node → Bool
  | [], [] => true
  | x :: xs, y :: ys => same x y && sameChildren xs ys
  | _, _ => false

end

instance : BEq Node := ⟨same⟩

end Node

structure Search where
  connective : Connective
  children : List Node
  format : DateFormat

namespace Search

/-- The search whose children all have to hold, so far without any. -/
def all : Search := ⟨.and, [], default⟩

/-- The search of whose children one has to hold, so far without any. -/
def any : Search := ⟨.or, [], default⟩

def add (s : Search) (child : Node) : Search := { s with children := s.children ++ [child] }

def addCondition (s : Search) (c : Condition) : Search := s.add (.condition c)

/-- The root without the date format. -/
def root (s : Search) : Node := .group s.connective s.children

/-- The group keeps its connective and loses its date format. -/
def addGroup (s group : Search) : Search := s.add group.root

def withFormat (s : Search) (format : DateFormat) : Search := { s with format := format }

def leafCount (s : Search) : Nat := s.root.leafCount

def leaves (s : Search) : List Condition := s.root.leaves

def isEmpty (s : Search) : Bool := s.children.isEmpty

instance : BEq Search where
  beq a b := a.root == b.root && a.format == b.format

end Search

end RecordSearch
