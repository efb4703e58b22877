import RecordSearch.Command.Run

/-!
The command itself: it reads the files that the options name, and prints what the run leaves
behind.
-/

namespace RecordSearch.Command

/-- What the system says of the errors that opening and reading a file can have. -/
def systemText? : Nat → Option String
  | 2 => some "No such file or directory"
  | 5 => some "Input/output error"
  | 12 => some "Cannot allocate memory"
  | 13 => some "Permission denied"
  | 20 => some "Not a directory"
  | 21 => some "Is a directory"
  | 23 => some "Too many open files in system"
  | 24 => some "Too many open files"
  | 36 => some "File name too long"
  | 40 => some "Too many levels of symbolic links"
  | _ => none

/-- Opening a file gives the number of an error with a minus, and a text of its own. -/
def systemReason (code : UInt32) (text : String) : String :=
  let number := if code.toNat < Nat.pow 2 31 then code.toNat else Nat.pow 2 32 - code.toNat
  (systemText? number).getD text ++ " (os error " ++ Nat.repr number ++ ")"

def reason : IO.Error → String
  | .noFileOrDirectory _ code text | .interrupted _ code text | .alreadyExists _ code text
  | .invalidArgument _ code text | .permissionDenied _ code text
  | .resourceExhausted _ code text | .inappropriateType _ code text | .noSuchThing _ code text
  | .otherError code text | .resourceBusy code text | .resourceVanished code text
  | .unsupportedOperation code text | .hardwareFault code text
  | .unsatisfiedConstraints code text | .illegalOperation code text
  | .protocolError code text | .timeExpired code text =>
    systemReason code text
  | .unexpectedEof => "unexpected end of file"
  | .userError text => text

/-- Bytes that are no text count as not read. -/
def readSource (read : IO ByteArray) : IO Source := do
  try
    match String.fromUTF8? (← read) with
    | some text => return .ok text
    | none => return .error "stream did not contain valid UTF-8"
  catch e =>
    return .error (reason e)

/-- Standard input is read only when the search comes from there. -/
def gather (o : Options) : IO Sources := do
  let fromInput := o.search == "-"
  let paths := o.schema :: o.records.toList ++ (if fromInput then [] else [o.search])
  let files ← paths.mapM fun path : String => do
    return (path, ← readSource (IO.FS.readBinFile path))
  let stdin ← if fromInput then readSource (do (← IO.getStdin).readBinToEnd) else pure ""
  return ⟨fun path => (files.lookup path).getD (.error ""), stdin⟩

def environment : IO (String → Option String) := do
  let schema ← IO.getEnv "SEARCHQL_SCHEMA"
  let records ← IO.getEnv "SEARCHQL_RECORDS"
  return fun name =>
    if name = "SEARCHQL_SCHEMA" then schema
    else if name = "SEARCHQL_RECORDS" then records
    else none

end RecordSearch.Command

open RecordSearch in
def main (args : List String) : IO UInt32 := do
  let env ← Command.environment
  let src ← match Options.ofArguments? env args with
    | some o => Command.gather o
    | none => pure ⟨fun _ => .error "", ""⟩
  let result := Command.outcome env args src
  for line in result.lines do
    IO.println line
  for message in result.log do
    IO.eprintln message.display
  if let some error := result.error then
    IO.eprintln ("error: " ++ error)
  return result.exit.toUInt32
