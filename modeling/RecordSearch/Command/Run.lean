import RecordSearch.Command.Options
import RecordSearch.Selection.Log
import RecordSearch.Wire.Record
import RecordSearch.Wire.Search

/-!
A run of the command: it reads a schema, a search and records, in this order, and prints the
records that the search selects, or explains the search. The first stage that fails ends the run,
and then nothing is printed.
-/

namespace RecordSearch

/-- A text, or the reason why there is none. -/
abbrev Source := Except String String

instance : Coe String Source := ⟨.ok⟩

/-- What a run can read: files and standard input. -/
structure Sources where
  file : String → Source
  stdin : Source

/-- The cause of a failure, from the outermost to the innermost. -/
abbrev Failure := List String

def Failure.display (f : Failure) : String := String.intercalate ": " f

structure Report where
  lines : List String
  log : List Message

namespace Command

def readSchema (src : Sources) (path : String) : Except Failure Schema :=
  (do Schema.ofText (← (src.file path).mapError .unreadable) : Except WireError Schema).mapError
    fun e => ("Failed to load schema " ++ path) :: e.chain

def readSearchText (src : Sources) (path : String) : Except Failure String :=
  if path = "-" then
    src.stdin.mapError fun reason => ["Failed to read search from stdin", reason]
  else (src.file path).mapError fun reason => ["Failed to read search file " ++ path, reason]

def readSearch (text : String) : Except Failure Search :=
  (Search.ofText text).mapError fun e => "Failed to parse search" :: e.chain

def readRecords (src : Sources) (s : Schema) (path : String) :
    Except Failure (List JsonRecord) := do
  let text ← (src.file path).mapError fun reason => ["Failed to read records " ++ path, reason]
  (JsonRecord.readAll s text).mapError fun e => "Failed to load records" :: e.chain

def explain (s : Search) (schema : Schema) : Except Failure Report :=
  match s.plan schema with
  | .ok e => .ok ⟨[e.display], s.planMessages schema⟩
  | .error e => .error ["Failed to plan search", e.message]

def select (s : Search) (schema : Schema) (page : Option Page) (records : List JsonRecord) :
    Except Failure Report :=
  match s.select schema JsonRecord.row page records with
  | .ok selection =>
    let summary := Nat.repr selection.matched.length ++ " of " ++ Nat.repr records.length ++
      " record(s) matched"
    .ok ⟨selection.matched.map fun r => r.raw.text,
      s.selectMessages schema JsonRecord.row page records ++ [⟨.info, summary⟩]⟩
  | .error e => .error ["Failed to compile search", e.message]

def run (o : Options) (src : Sources) : Except Failure Report := do
  let schema ← readSchema src o.schema
  let search ← readSearch (← readSearchText src o.search)
  if o.explain then explain search schema
  else
    let some path := o.records | throw ["--records is required unless --explain is given"]
    let records ← readRecords src schema path
    select search schema o.page records

/-- Success needs a line; a run without one says so by its exit code. -/
def exitCode : Except Failure Report → UInt8
  | .ok report => if report.lines.isEmpty then 1 else 0
  | .error _ => 2

/-- The messages that are shown: from the level info on, or from debug on. -/
def visibleLog (debug : Bool) (log : List Message) : List Message :=
  log.filter fun m => m.level == .info || (debug && m.level == .debug)

/-- All that a run leaves behind. -/
structure Outcome where
  exit : UInt8
  lines : List String
  error : Option String
  log : List Message

/-- Arguments that make no sense end the run before it reads anything. The flags that ask for help
or for the version are left out, with what they print, so they make no sense here either. -/
def outcome (env : String → Option String) (args : List String) (src : Sources) : Outcome :=
  match Options.ofArguments? env args with
  | none => ⟨2, [], some "usage", []⟩
  | some o =>
    let result := run o src
    match result with
    | .ok report => ⟨exitCode result, report.lines, none, visibleLog o.debug report.log⟩
    | .error failure => ⟨exitCode result, [], some failure.display, []⟩

end Command

end RecordSearch
