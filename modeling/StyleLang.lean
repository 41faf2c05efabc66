import StyleLang.Main
import StyleLang.Token.Reader
import StyleLang.Proofs.Block
import StyleLang.Proofs.Nodes
import StyleLang.Proofs.Lockstep
import StyleLang.Proofs.Pattern
import StyleLang.Proofs.Tiling
import StyleLang.Proofs.Derivation
import StyleLang.Proofs.Terminals
import StyleLang.Proofs.ParseSound
import StyleLang.Proofs.ParseComplete
import StyleLang.Proofs.Reading
import StyleLang.Proofs.Relabel
import StyleLang.Proofs.Grouping
import StyleLang.Proofs.Resolution
import StyleLang.Proofs.Verdicts
import StyleLang.Proofs.NormalForm
import StyleLang.Proofs.Source
import StyleLang.Proofs.Agreement
import StyleLang.Proofs.Layout
import StyleLang.Proofs.Weakening
import StyleLang.Proofs.Joining
import StyleLang.Proofs.Legible
import StyleLang.Proofs.Printing
import StyleLang.Proofs.FixedPoint
import StyleLang.Proofs.Preservation
import StyleLang.Proofs.Session
import StyleLang.Proofs.Lexemes
import StyleLang.Proofs.Allowance
import StyleLang.Proofs.Isolation
import StyleLang.Proofs.Lines
import StyleLang.Proofs.Pointing
import StyleLang.Proofs.Slices
import StyleLang.Proofs.Spans
import StyleLang.Proofs.Rereading
import StyleLang.Proofs.Precedence
import StyleLang.Proofs.Exactness
import StyleLang.Proofs.Roundtrip
import StyleLang.Proofs.Trivia
import StyleLang.Proofs.Lookahead
import StyleLang.Proofs.FirstEnd
import StyleLang.Proofs.FirstFault
import StyleLang.Proofs.Rechecking
import StyleLang.Proofs.Caret
import StyleLang.Proofs.Newlines
import StyleLang.Proofs.History
import StyleLang.Proofs.Progress
