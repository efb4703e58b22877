import RecordSearch.Selection.Page
import RecordSearch.Text.Fragment
import RecordSearch.Wire.Number

/-!
The options of the command. An option takes its value from the next argument or behind an equals
sign, short flags may share a hyphen, and no option may be given twice. Two of the options may
come from the environment instead. Left out are `-h`, `--help`, `-V` and `--version`, which print a
text about the command and do nothing else.
-/

namespace RecordSearch

inductive OptionName where
  | schema
  | records
  | page
  | pageSize
deriving DecidableEq

inductive Flag where
  | explain
  | debug
deriving DecidableEq

/-- The arguments, told apart. -/
structure Arguments where
  values : List (OptionName × String)
  flags : List Flag
  positional : List String

namespace Arguments

def empty : Arguments := ⟨[], [], []⟩

def value? (a : Arguments) (n : OptionName) : Option String := a.values.lookup n

/-- Nothing if the option has been given before. -/
def addValue? (a : Arguments) (n : OptionName) (v : String) : Option Arguments :=
  if (a.value? n).isSome then none else some { a with values := a.values ++ [(n, v)] }

def addFlag? (a : Arguments) (f : Flag) : Option Arguments :=
  if f ∈ a.flags then none else some { a with flags := a.flags ++ [f] }

def addPositional (a : Arguments) (s : String) : Arguments :=
  { a with positional := a.positional ++ [s] }

def longOption? (name : String) : Option OptionName :=
  match name with
  | "schema" => some .schema
  | "records" => some .records
  | "page" => some .page
  | "page-size" => some .pageSize
  | _ => none

def longFlag? (name : String) : Option Flag :=
  match name with
  | "explain" => some .explain
  | "debug" => some .debug
  | _ => none

def shortOption? (c : Char) : Option OptionName :=
  match c with
  | 's' => some .schema
  | 'r' => some .records
  | _ => none

/-- A lone hyphen is a value, but what goes on after one is an option. -/
def isValue (arg : String) : Bool := arg == "-" || !Text.startsWith arg "-"

/-- What one argument is, and whether it is an option that waits for its value. -/
inductive Step where
  | done (a : Arguments)
  | awaits (n : OptionName)

def readLong? (a : Arguments) (body : List Char) : Option Step :=
  let name := String.ofList (body.takeWhile (· != '='))
  match body.dropWhile (· != '=') with
  | [] =>
    match longOption? name with
    | some n => some (.awaits n)
    | none => ((longFlag? name).bind a.addFlag?).map .done
  | _ :: value => ((longOption? name).bind fun n => a.addValue? n (String.ofList value)).map .done

def readShort? (a : Arguments) : List Char → Option Step
  | [] => some (.done a)
  | c :: rest =>
    if c == 'd' then (a.addFlag? .debug).bind fun a => readShort? a rest
    else match shortOption? c, rest with
      | none, _ => none
      | some n, [] => some (.awaits n)
      | some n, '=' :: value => (a.addValue? n (String.ofList value)).map .done
      | some n, value => (a.addValue? n (String.ofList value)).map .done

/-- The option whose value comes next is `awaited`. Behind two hyphens all is positional. -/
def read? (a : Arguments) (awaited : Option OptionName) : List String → Option Arguments
  | [] => if awaited.isSome then none else some a
  | arg :: rest =>
    match awaited with
    | some n =>
      if isValue arg then (a.addValue? n arg).bind fun a => read? a none rest else none
    | none =>
      match arg.toList with
      | ['-', '-'] => some (rest.foldl addPositional a)
      | '-' :: '-' :: body => (readLong? a body).bind fun
        | .done a => read? a none rest
        | .awaits n => read? a (some n) rest
      | '-' :: c :: body => (readShort? a (c :: body)).bind fun
        | .done a => read? a none rest
        | .awaits n => read? a (some n) rest
      | _ => read? (a.addPositional arg) none rest

end Arguments

/-- What a run is asked to do. The search is a file, or a hyphen for standard input. -/
structure Options where
  search : String
  schema : String
  records : Option String
  page : Option Page
  explain : Bool
  debug : Bool

namespace Options

/-- An option, or else its variable in the environment; an empty path is an error. -/
def path? (a : Arguments) (env : String → Option String) (n : OptionName) (key : String) :
    Option (Option String) :=
  match (a.value? n).or (env key) with
  | some "" => none
  | path => some path

def count? (s : String) : Option UInt64 :=
  match s.toList with
  | '+' :: cs => readUInt64? (String.ofList cs)
  | _ => readUInt64? s

/-- The number of a page and its size need each other. -/
def page? (a : Arguments) : Option (Option Page) :=
  match a.value? .page, a.value? .pageSize with
  | some number, some size => do return some ⟨← count? number, ← count? size⟩
  | none, none => some none
  | _, _ => none

def ofArguments? (env : String → Option String) (args : List String) : Option Options := do
  let a ← Arguments.empty.read? none args
  let search ← match a.positional with
    | [] => some "-"
    | [search] => some search
    | _ => none
  let schema ← (← path? a env .schema "SEARCHQL_SCHEMA")
  let records ← path? a env .records "SEARCHQL_RECORDS"
  let page ← page? a
  return ⟨search, schema, records, page, decide (.explain ∈ a.flags), decide (.debug ∈ a.flags)⟩

end Options

end RecordSearch
