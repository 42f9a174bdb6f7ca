import PageScript.Text.Letter
import PageScript.Text.Blank
import PageScript.Text.Line
import PageScript.Decimal.Place
import PageScript.Decimal.Numeral
import PageScript.Decimal.Layout
import PageScript.Bindings
import PageScript.NamedStacks
import PageScript.Token.Scanner
import PageScript.Token.Progress
import PageScript.Document.Reading
import PageScript.Host.Buffer
import PageScript.Host.Exchange
import PageScript.Page
import PageScript.Server
import PageScript.Settings
import PageScript.Main
import PageScript.Token.Stream
import PageScript.Proofs.Decimal.Digits
import PageScript.Proofs.Token.Reads
import PageScript.Proofs.Decimal.ReadBack
import PageScript.Proofs.Document.Grammar
import PageScript.Proofs.Document.Tags
import PageScript.Proofs.Token.Escape
import PageScript.Proofs.Document.Accepted
import PageScript.Proofs.Token.Written
import PageScript.Proofs.Document.RoundTrip
import PageScript.Proofs.Double.Closeness
import PageScript.Proofs.Token.Shape
import PageScript.Proofs.Document.Reconstruction
import PageScript.Proofs.Document.Levels
import PageScript.Proofs.Run.LexicalScoping
import PageScript.Proofs.Run.Limit
import PageScript.Proofs.Run.Unrolling
import PageScript.Proofs.Document.Concatenation
import PageScript.Proofs.Page.Concatenation
import PageScript.Proofs.Run.Agreement
import PageScript.Proofs.Run.Requests
import PageScript.Proofs.Run.StackDepth
import PageScript.Proofs.Run.StaticScope
import PageScript.Proofs.Run.ParamEvents
import PageScript.Proofs.Page.IntegerExpression
import PageScript.Proofs.Run.CountingLoop
import PageScript.Proofs.Host.Agreement
import PageScript.Proofs.Host.Sending
import PageScript.Proofs.Server.Sessions
import PageScript.Proofs.Document.Nesting
import PageScript.Proofs.Run.LoopLimits
import PageScript.Proofs.Token.Calls
import PageScript.Proofs.Token.Lookahead
import PageScript.Proofs.Document.Layout
import PageScript.Proofs.Token.Faults
import PageScript.Proofs.Decimal.Layout
import PageScript.Proofs.Decimal.Regex
import PageScript.Proofs.Decimal.Quoting
import PageScript.Proofs.Value.Arithmetic
import PageScript.Proofs.Value.Order
import PageScript.Proofs.Host.StoredNumbers
import PageScript.Proofs.Token.Numerals
import PageScript.Proofs.Run.Locality
import PageScript.Proofs.Host.HeaderLines
import PageScript.Proofs.Settings.Assignment
import PageScript.Proofs.Settings.Concatenation
import PageScript.Proofs.Settings.Written
import PageScript.Proofs.CommandLine.Spelling
import PageScript.Proofs.Token.Surroundings
import PageScript.Proofs.Document.Stepwise
import PageScript.Proofs.Document.DeadBranches
import PageScript.Proofs.Run.Room
import PageScript.Proofs.Host.FullSink
import PageScript.Proofs.Run.SeparateStacks
