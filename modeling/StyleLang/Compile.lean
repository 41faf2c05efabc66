import StyleLang.Css
import StyleLang.Evaluation
import StyleLang.Grammar.Document
import StyleLang.Token.Scan
import StyleLang.Typing

/-!
# From a source to its output

`check` reads a source and checks it; the faults it finds stay on the tree. `compile` goes on to
evaluate the tree and to write it. It stops after checking where there are faults, unless it is
told to go on, and then a single diagnostic says where evaluation came to grief.
-/

namespace StyleLang

structure Options where
  properties : PropertyTable
  /-- Whether a stylesheet with faults is evaluated all the same. -/
  evaluateOnErrors : Bool

/-- The stylesheet of a source as it stands. -/
def Stylesheet.ofSource (source file : String) : Except Diagnostic Stylesheet := do
  let tokens ← Token.scan source file
  ofTokens tokens file

/-- The stylesheet of a source with its faults noted, or what keeps it from being read. -/
def check (options : Options) (source file : String) : Except Diagnostic Stylesheet := do
  let sheet ← Stylesheet.ofSource source file
  return (sheet.check options.properties).1

/-- The output for a checked stylesheet. -/
def Stylesheet.emit (sheet : Stylesheet) : Except Diagnostic String := do
  let sheet ← sheet.evaluate
  sheet.css

/-- The output for a source, or every diagnostic on it. -/
def compile (options : Options) (source file : String) : Except (List Diagnostic) String :=
  match check options source file with
  | .error fault => .error [fault]
  | .ok sheet =>
    if sheet.hasDiagnostics && !options.evaluateOnErrors then .error sheet.diagnostics
    else sheet.emit.mapError ([·])

end StyleLang
