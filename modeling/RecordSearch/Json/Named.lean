import RecordSearch.Json.Reader

/-!
The fields of an object that are asked for by name. What stands under another name is passed over:
it has the form of a value, but it may nest to any depth and hold halves of surrogate pairs.
-/

namespace RecordSearch.Json

/-- The rest after a value. Every level of nesting takes some of the `fuel`, so that many levels
are as good as no limit. -/
def skipValue (fuel : Nat) (cs : List Char) : Option (List Char) :=
  (readValue (some '\ufffd') fuel fuel cs).map fun (_, rest) => rest

/-- The value after a name, kept when the name is one of `names`. -/
def readNamedValue (names : List String) (name : String) (fuel : Nat) (cs : List Char) :
    Option (List (String × Json) × List Char) :=
  if names.contains name then
    (readValue none (maxDepth - 1) fuel cs).map fun (value, rest) => ([(name, value)], rest)
  else (skipValue fuel cs).map fun rest => ([], rest)

/-- One field or more with commas between, up to the closing brace. -/
def readNamed (names : List String) : Nat → List Char → Option (List (String × Json) × List Char)
  | 0, _ => none
  | fuel + 1, cs => do
    let (name, rest) ← readString none fuel (skipBlanks cs)
    match skipBlanks rest with
    | ':' :: rest =>
      let (field, rest) ← readNamedValue names name fuel rest
      match skipBlanks rest with
      | ',' :: rest =>
        (readNamed names fuel rest).map fun (fields, rest) => (field ++ fields, rest)
      | '\x7d' :: rest => some (field, rest)
      | _ => none
    | _ => none

/-- The fields with one of `names` in the object that the text is, in the order in which they are
written. -/
def fieldsNamed? (names : List String) (s : String) : Option (List (String × Json)) := do
  let cs := s.toList
  match skipBlanks cs with
  | '\x7b' :: rest =>
    let (fields, rest) ← match skipBlanks rest with
      | '\x7d' :: rest => some ([], rest)
      | rest => readNamed names (fuelFor cs) rest
    if (skipBlanks rest).isEmpty then some fields else none
  | _ => none

end RecordSearch.Json
