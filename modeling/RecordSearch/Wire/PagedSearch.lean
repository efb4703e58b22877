import RecordSearch.Json.Named
import RecordSearch.Selection.Page
import RecordSearch.Wire.Search

/-!
A search together with the number of a page, as an object of two fields or an array of the two.
The names of the fields count in their exact spelling, each of them once, and other fields may
stand beside them, of which only the form counts.
-/

namespace RecordSearch

structure PagedSearch where
  search : Search
  page : UInt64

namespace PagedSearch

/-- A page is written with digits alone. -/
def pageOfJson? : Json → Option UInt64
  | .number t => readUInt64? t
  | _ => none

/-- The value of a field that occurs once. -/
def single? (fields : List (String × Json)) (name : String) : Option Json :=
  match fields.filter fun f => f.1 == name with
  | [f] => some f.2
  | _ => none

def ofParts? (search page : Json) : Option PagedSearch := do
  return ⟨← (Search.ofJson search).toOption, ← pageOfJson? page⟩

def ofText? (s : String) : Option PagedSearch :=
  match Json.read? s with
  | some (.array [search, page]) => ofParts? search page
  | _ => do
    let fields ← Json.fieldsNamed? ["search", "page"] s
    ofParts? (← single? fields "search") (← single? fields "page")

def text (p : PagedSearch) : String :=
  "\x7b\"search\":" ++ p.search.text ++ ",\"page\":" ++ Digits.natText p.page.toNat ++ "\x7d"

end PagedSearch

end RecordSearch
