import RecordSearch.Selection.Filter
import RecordSearch.Wire.Search

/-!
Records of a type whose shape is known: the schema goes with the type, so a search is all it
takes to filter them, as a tree or as text.
-/

namespace RecordSearch

class Entity (α : Type) where
  schema : Schema
  row : α → Row

namespace Entity

variable {α : Type} [Entity α]

def filter (s : Search) (records : List α) : Except QueryError (List α) :=
  s.filter (schema α) row records

def filterPage (s : Search) (page : Page) (records : List α) : Except QueryError (List α) :=
  s.filterPage (schema α) row page records

def filterText (text : String) (records : List α) : Except WireError (List α) := do
  (filter (← Search.ofText text) records).mapError .query

def filterTextPage (text : String) (page : Page) (records : List α) :
    Except WireError (List α) := do
  (filterPage (← Search.ofText text) page records).mapError .query

end Entity

end RecordSearch
