import StyleLang.CommandLine

/-!
# The program

Reads the input, does what the arguments ask for, and writes what comes of it.
-/

namespace StyleLang

/-- The number of an error, which some operations report as a negative one. -/
def errorNumber (code : UInt32) : Nat :=
  code.toInt32.toInt.natAbs

def fileErrorOf (error : IO.Error) : FileError :=
  match error with
  | .noFileOrDirectory .. => .missing
  | .permissionDenied .. => .denied
  | .inappropriateType _ code _ => if errorNumber code = 21 then .isDirectory else .notDirectory
  | .invalidArgument _ code _ =>
    if errorNumber code = 36 then .nameTooLong else .other error.toString
  | _ => .other error.toString

def readText (path : String) : IO (Except FileError String) := do
  try
    let bytes ← IO.FS.readBinFile path
    match String.fromUTF8? bytes with
    | some text => return .ok text
    | none => return .error .notText
  catch e => return .error (fileErrorOf e)

def writeText (path text : String) : IO (Except FileError Unit) := do
  try
    IO.FS.writeFile path text
    return .ok ()
  catch e => return .error (fileErrorOf e)

def Outcome.finish (outcome : Outcome) (start : Nat) : IO UInt32 := do
  let time := elapsedText ((← IO.monoNanosNow) - start)
  IO.print outcome.stdout
  IO.eprint (outcome.notices time)
  return outcome.code

end StyleLang

open StyleLang in
def main (args : List String) : IO UInt32 := do
  match Invocation.ofArgs? args with
  | none =>
    IO.eprintln Invocation.usage
    return 2
  | some invocation =>
    let source ← readText invocation.input
    let start ← IO.monoNanosNow
    match invocation.afterRead source with
    | .finish outcome => outcome.finish start
    | .write path text =>
      let written ← writeText path text
      (invocation.afterWrite path written).finish start
