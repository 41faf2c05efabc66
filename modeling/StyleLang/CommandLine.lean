import StyleLang.Compile
import StyleLang.Directory
import StyleLang.Report

/-!
# The command line

What a run of the program does. `Invocation.afterRead` takes what came of reading the input and
says how the run ends, or which file is still to be written; `Invocation.afterWrite` takes what
came of writing it. `Invocation.run` puts the two together on a directory, and
`Invocation.ofArgs?` reads the arguments.
-/

namespace StyleLang

/-- The tables of properties that can be asked for. -/
inductive PropertySet where
  | standard
  | colorOnly
deriving DecidableEq

namespace PropertySet

def table : PropertySet → PropertyTable
  | standard => .standard
  | colorOnly => .colorOnly

def ofName? : String → Option PropertySet
  | "default" => some standard
  | "color-only" => some colorOnly
  | _ => none

end PropertySet

/-- The last name in a path, or the path itself where it does not end in a name. -/
def fileName (path : String) : String :=
  match ((Path.names path).filter (· ≠ ".")).getLast? with
  | none | some ".." => path
  | some name => name

/-- What the program is asked to do. -/
structure Invocation where
  input : String
  /-- The file to write, where the standard output is not meant. -/
  output : Option String
  checkOnly : Bool
  properties : PropertySet
  evaluateOnErrors : Bool
deriving DecidableEq

/-- How a run ends. The notices go to the standard error and may name the time that has passed. -/
structure Outcome where
  code : UInt32
  stdout : String
  notices : String → String

inductive Next where
  | finish (outcome : Outcome)
  | write (path text : String)

/-- Shows one more diagnostic below those shown, which stay alone where it cannot be shown. -/
def Diagnostic.showBelow (source shown : String) (diagnostic : Diagnostic) : Except String String :=
  match diagnostic.display? source with
  | some text => .ok (shown ++ text ++ "\n")
  | none => .error shown

/-- What a list of diagnostics puts on the standard error: all of them and the closing line, or the
ones before the first that cannot be shown. -/
def report (diagnostics : List Diagnostic) (source : String) : Except String String := do
  let shown ← diagnostics.foldlM (Diagnostic.showBelow source) ""
  return shown ++ summary diagnostics ++ "\n"

namespace Outcome

def failure (text : String) : Outcome :=
  ⟨1, "", fun _ => text⟩

/-- A run that breaks off in the middle of a report. -/
def brokenOff (shown : String) : Outcome :=
  ⟨101, "", fun _ => shown ++ "Formatting argument out of range\n"⟩

def ofDiagnostics (diagnostics : List Diagnostic) (source : String) : Outcome :=
  match report diagnostics source with
  | .ok text => failure text
  | .error shown => brokenOff shown

end Outcome

namespace Invocation

def options (invocation : Invocation) : Options :=
  ⟨invocation.properties.table, invocation.evaluateOnErrors⟩

/-- The diagnostics that checking a source comes to. -/
def checkDiagnostics (invocation : Invocation) (source : String) : List Diagnostic :=
  match check invocation.options source (fileName invocation.input) with
  | .ok sheet => sheet.diagnostics
  | .error fault => [fault]

def afterCheck (invocation : Invocation) (source : String) : Outcome :=
  match invocation.checkDiagnostics source with
  | [] => ⟨0, "", fun time => fileName invocation.input ++ " is valid (" ++ time ++ ")\n"⟩
  | diagnostics => .ofDiagnostics diagnostics source

def afterCompile (invocation : Invocation) (source : String) : Next :=
  match compile invocation.options source (fileName invocation.input) with
  | .error diagnostics => .finish (.ofDiagnostics diagnostics source)
  | .ok css =>
    match invocation.output with
    | none => .finish ⟨0, css, fun _ => ""⟩
    | some path => .write path css

/-- Goes on from the text of the input, or from the reason why it cannot be read. -/
def afterRead (invocation : Invocation) : Except FileError String → Next
  | .error e =>
    .finish (.failure ("Failed to read " ++ invocation.input ++ ": " ++ e.message ++ "\n"))
  | .ok source =>
    if invocation.checkOnly then .finish (invocation.afterCheck source)
    else invocation.afterCompile source

/-- Goes on from writing a file at a path. -/
def afterWrite (invocation : Invocation) (path : String) : Except FileError Unit → Outcome
  | .error e => .failure ("Failed to write " ++ path ++ ": " ++ e.message ++ "\n")
  | .ok () =>
    ⟨0, "", fun time => "Compiled " ++ fileName invocation.input ++ " in " ++ time ++ "\n"⟩

/-- A run in a directory: how it ends, and what it leaves in the directory. -/
def run (invocation : Invocation) (directory : Directory) : Outcome × Directory :=
  match invocation.afterRead (directory.readText invocation.input) with
  | .finish outcome => (outcome, directory)
  | .write path text =>
    match directory.write path text.toUTF8 with
    | .ok after => (invocation.afterWrite path (.ok ()), after)
    | .error e => (invocation.afterWrite path (.error e), directory)

end Invocation

/-- What the arguments have given so far. Nothing may be given twice. -/
structure Arguments where
  input : Option String
  output : Option String
  properties : Option PropertySet
  checkOnly : Bool
  evaluateOnErrors : Bool
deriving DecidableEq

namespace Arguments

def empty : Arguments := ⟨none, none, none, false, false⟩

def setInput (given : Arguments) (path : String) : Option Arguments :=
  if given.input.isSome || path = "" then none else some { given with input := some path }

def setOutput (given : Arguments) (path : String) : Option Arguments :=
  if given.output.isSome || path = "" then none else some { given with output := some path }

def setProperties (given : Arguments) (name : String) : Option Arguments :=
  if given.properties.isSome then none
  else (PropertySet.ofName? name).map fun set => { given with properties := some set }

def setCheckOnly (given : Arguments) : Option Arguments :=
  if given.checkOnly then none else some { given with checkOnly := true }

def setEvaluateOnErrors (given : Arguments) : Option Arguments :=
  if given.evaluateOnErrors then none else some { given with evaluateOnErrors := true }

/-- Whether an argument names an option. A single dash does not. -/
def isOption (argument : String) : Bool :=
  argument.startsWith "-" && argument ≠ "-"

/-- The value that an argument holds behind the name of its option. -/
def inlineValue? (name argument : String) : Option String :=
  (Split.strip? name.toList argument.toList).map fun (_, value) => String.ofList value

/-- An argument that is complete in itself. -/
def setSingle (given : Arguments) (argument : String) : Option Arguments :=
  match inlineValue? "--output=" argument, inlineValue? "--properties=" argument with
  | some path, _ => given.setOutput path
  | none, some name => given.setProperties name
  | none, none =>
    if argument = "--check" then given.setCheckOnly
    else if argument = "--evaluate-on-errors" then given.setEvaluateOnErrors
    else if isOption argument then none
    else given.setInput argument

def read? (given : Arguments) : List String → Option Arguments
  | [] => some given
  | "--" :: paths => paths.foldlM setInput given
  | "--output" :: path :: args | "-o" :: path :: args =>
    if isOption path then none else (given.setOutput path).bind (read? · args)
  | "--properties" :: name :: args => (given.setProperties name).bind (read? · args)
  | argument :: args => (given.setSingle argument).bind (read? · args)

end Arguments

namespace Invocation

def usage : String :=
  "Usage: stylelang [--output <FILE>] [--check] [--properties <default|color-only>] "
    ++ "[--evaluate-on-errors] <FILE>"

def ofArgs? (args : List String) : Option Invocation := do
  let given ← Arguments.empty.read? args
  return ⟨← given.input, given.output, given.checkOnly, given.properties.getD .standard,
    given.evaluateOnErrors⟩

end Invocation

/-- A time in its largest unit that is not under one, with two places. -/
def elapsedText (nanoseconds : Nat) : String :=
  let (unit, name) :=
    if nanoseconds ≥ 1000000000 then (1000000000, "s")
    else if nanoseconds ≥ 1000000 then (1000000, "ms")
    else if nanoseconds ≥ 1000 then (1000, "µs")
    else (1, "ns")
  let hundredths := (nanoseconds * 100 + unit / 2) / unit
  let places := String.ofList (padLeft '0' 2 (Nat.toDigits 10 (hundredths % 100)))
  (hundredths / 100).repr ++ "." ++ places ++ name

end StyleLang
