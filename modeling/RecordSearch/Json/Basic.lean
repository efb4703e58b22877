import RecordSearch.Text.Ascii

/-!
JSON values. A number is kept as its text, so no digit is lost, and the fields of an object stand
in the order of their names, each name once.
-/

namespace RecordSearch

inductive Json where
  | null
  | bool (value : Bool)
  | number (text : String)
  | string (value : String)
  | array (items : List Json)
  | object (fields : List (String × Json))

namespace Json

/-- Puts a field in its place in the order of names, over an earlier one of the same name. -/
def insertField (name : String) (value : Json) : List (String × Json) → List (String × Json)
  | [] => [(name, value)]
  | (k, v) :: rest =>
    if name < k then (name, value) :: (k, v) :: rest
    else if name = k then (name, value) :: rest
    else (k, v) :: insertField name value rest

/-- The last of several fields of one name counts. -/
def ofFields (fields : List (String × Json)) : Json :=
  object (fields.foldl (fun sorted (k, v) => insertField k v sorted) [])

def isNull : Json → Bool
  | null => true
  | _ => false

/-- The first field of a name in any case; a null there counts as no field. -/
def find? (fields : List (String × Json)) (name : String) : Option Json :=
  (fields.find? fun f => Ascii.same f.1 name).bind fun f => if f.2.isNull then none else some f.2

theorem find?_cons (k : String) (v : Json) (rest : List (String × Json)) (name : String) :
    find? ((k, v) :: rest) name =
      if Ascii.same k name then if v.isNull then none else some v else find? rest name := by
  rw [find?, List.find?_cons]
  cases Ascii.same k name <;> rfl

/-- Whether there is a field of the name in any case, even a null. -/
def has (fields : List (String × Json)) (name : String) : Bool :=
  fields.any fun f => Ascii.same f.1 name

end Json

end RecordSearch
