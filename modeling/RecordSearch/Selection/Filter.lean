import RecordSearch.Clause.Evaluation
import RecordSearch.Plan.Search
import RecordSearch.Selection.Page

/-!
Selecting the records that satisfy a search, in their order, all of them or one page. A page is
taken in a single pass that ends with its last item, so what lies behind is never looked at.
-/

namespace RecordSearch

/-- What a pass over records found, and how many it looked at. -/
structure Selection (α : Type) where
  matched : List α
  scanned : Nat

namespace Selection

variable {α : Type}

def all (accepts : α → Bool) (records : List α) : Selection α :=
  ⟨records.filter accepts, records.length⟩

/-- Passes over `skip` accepted records and takes up to `take` of those that follow. -/
def window (accepts : α → Bool) : (skip take : Nat) → List α → Selection α
  | _, 0, _ => ⟨[], 0⟩
  | _, _ + 1, [] => ⟨[], 0⟩
  | skip, take + 1, r :: rest =>
    if accepts r then
      match skip with
      | 0 =>
        let tail := window accepts 0 take rest
        ⟨r :: tail.matched, tail.scanned + 1⟩
      | skip + 1 =>
        let tail := window accepts skip (take + 1) rest
        ⟨tail.matched, tail.scanned + 1⟩
    else
      let tail := window accepts skip (take + 1) rest
      ⟨tail.matched, tail.scanned + 1⟩

def ofPage (accepts : α → Bool) (page : Option Page) (records : List α) : Selection α :=
  match page with
  | some page => window accepts page.offset page.limit records
  | none => all accepts records

end Selection

namespace Search

variable {α : Type}

/-- The search as a predicate on rows. -/
def compile (s : Search) (schema : Schema) : Except QueryError (Row → Bool) :=
  (s.plan schema).map Expression.predicate

def select (s : Search) (schema : Schema) (row : α → Row) (page : Option Page)
    (records : List α) : Except QueryError (Selection α) := do
  let accepts ← s.compile schema
  return Selection.ofPage (fun r => accepts (row r)) page records

/-- The records whose row satisfies the search. Records may be of any type that has a row. -/
def filter (s : Search) (schema : Schema) (row : α → Row) (records : List α) :
    Except QueryError (List α) :=
  (s.select schema row none records).map (·.matched)

def filterPage (s : Search) (schema : Schema) (row : α → Row) (page : Page) (records : List α) :
    Except QueryError (List α) :=
  (s.select schema row (some page) records).map (·.matched)

end Search

end RecordSearch
