import RecordSearch.Text.CaseTable

/-!
Full case conversion of text, the same in every locale. Upper case goes character by character.
Lower case does so too but for the capital sigma, which turns into the final form at the end of
a word: after a cased letter and before none, case-ignorable characters left out of account.
-/

namespace RecordSearch.Case

open CaseTable

def isCaseIgnorable (c : Char) : Bool := within caseIgnorable c.toNat

def isCased (c : Char) : Bool := within cased c.toNat

/-- Lower case of a character by itself. The capital I with a dot above keeps the dot. -/
def lowerChar (c : Char) : List Char :=
  if c.toNat < 128 then [c.toLower]
  else if c.toNat == 0x130 then ['i', Char.ofNat 0x307]
  else match shifted? toLower c.toNat with
    | some n => [Char.ofNat n]
    | none => [c]

def upperChar (c : Char) : List Char :=
  if c.toNat < 128 then [c.toUpper]
  else match toUpperSeveral.lookup c.toNat with
    | some ns => ns.map Char.ofNat
    | none => match shifted? toUpper c.toNat with
      | some n => [Char.ofNat n]
      | none => [c]

/-- The first character that is not case-ignorable is a cased letter. -/
def meetsCased (cs : List Char) : Bool :=
  match cs.dropWhile isCaseIgnorable with
  | c :: _ => isCased c
  | [] => false

/-- Lower case of what follows a context: `afterCased` says whether a cased letter stands before,
case-ignorable characters aside. -/
def lowerFrom (afterCased : Bool) : List Char → List Char
  | [] => []
  | c :: rest =>
    let here := if c == 'Σ' then [if afterCased && !meetsCased rest then 'ς' else 'σ']
      else lowerChar c
    here ++ lowerFrom (if isCaseIgnorable c then afterCased else isCased c) rest

def lower (s : String) : String := String.ofList (lowerFrom false s.toList)

def upper (s : String) : String := String.ofList (s.toList.flatMap upperChar)

end RecordSearch.Case
