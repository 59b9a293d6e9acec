import Lengua.Builtin
import Lengua.Command
import Lengua.Command.Disk
import Lengua.Command.Flag
import Lengua.Console.Decimal
import Lengua.Console.Decoder
import Lengua.Console.Document
import Lengua.Console.History
import Lengua.Console.LineEditor
import Lengua.Console.Moment
import Lengua.Eval
import Lengua.Eval.Meter
import Lengua.Main
import Lengua.Path
import Lengua.Proofs.Bounds
import Lengua.Proofs.Chain
import Lengua.Proofs.Character
import Lengua.Proofs.Concatenation
import Lengua.Proofs.Constituents
import Lengua.Proofs.Eval.Account
import Lengua.Proofs.Eval.Arithmetic
import Lengua.Proofs.Eval.Canonical
import Lengua.Proofs.Eval.Clean
import Lengua.Proofs.Eval.Depth
import Lengua.Proofs.Eval.Discipline
import Lengua.Proofs.Eval.Founded
import Lengua.Proofs.Eval.Frame
import Lengua.Proofs.Eval.Gas
import Lengua.Proofs.Eval.Layers
import Lengua.Proofs.Eval.Ledger
import Lengua.Proofs.Eval.Lexical
import Lengua.Proofs.Eval.Lockstep
import Lengua.Proofs.Eval.Moved
import Lengua.Proofs.Eval.Origin
import Lengua.Proofs.Eval.Outcome
import Lengua.Proofs.Eval.Parallel
import Lengua.Proofs.Eval.Purity
import Lengua.Proofs.Eval.Reached
import Lengua.Proofs.Eval.Recast
import Lengua.Proofs.Eval.Signal
import Lengua.Proofs.Eval.Simulation
import Lengua.Proofs.Eval.Store
import Lengua.Proofs.Eval.Tally
import Lengua.Proofs.Eval.Task
import Lengua.Proofs.Eval.Termination
import Lengua.Proofs.Eval.Threshold
import Lengua.Proofs.Eval.Tracking
import Lengua.Proofs.FrontEnd
import Lengua.Proofs.Grammar
import Lengua.Proofs.Joining
import Lengua.Proofs.Layout
import Lengua.Proofs.Lexing
import Lengua.Proofs.Lines
import Lengua.Proofs.Listing
import Lengua.Proofs.Lossless
import Lengua.Proofs.Numeral
import Lengua.Proofs.Reader.Attempt
import Lengua.Proofs.Reader.Completeness
import Lengua.Proofs.Reader.Effect
import Lengua.Proofs.Reader.Ending
import Lengua.Proofs.Reader.Made
import Lengua.Proofs.Reader.Order
import Lengua.Proofs.Reader.Pull
import Lengua.Proofs.Reader.Run
import Lengua.Proofs.Reader.Sequel
import Lengua.Proofs.Reader.Soundness
import Lengua.Proofs.Reader.Turn
import Lengua.Proofs.Recast
import Lengua.Proofs.Record
import Lengua.Proofs.Requests
import Lengua.Proofs.Respelling
import Lengua.Proofs.RoundTrip
import Lengua.Proofs.Scanner
import Lengua.Proofs.Session.Batch
import Lengua.Proofs.Session.Idle
import Lengua.Proofs.Session.Leaving
import Lengua.Proofs.Session.Line
import Lengua.Proofs.Token
import Lengua.Scope
import Lengua.Session
import Lengua.Session.Dialogue
import Lengua.Settings
import Lengua.Settings.Decode
import Lengua.Text
import Lengua.Text.Blank
import Lengua.Text.Category
import Lengua.Text.Integer
import Lengua.Text.Lines
import Lengua.Text.Quoted
import Lengua.Text.Unassigned
import Lengua.Text.Utf8
import Lengua.Token
import Lengua.Token.Scanner
import Lengua.Tree
import Lengua.Tree.Reader
import Lengua.Tree.Render
import Lengua.Tree.SyntaxError
import Lengua.Value
import Lengua.Value.Fault
import Lengua.Value.Operation
