import ShellWords.Main
import ShellWords.Session
import ShellWords.Proofs.RoundTrip
import ShellWords.Proofs.Segments
import ShellWords.Proofs.EscapePairs
import ShellWords.Proofs.Layout.Append
import ShellWords.Proofs.Separator
import ShellWords.Proofs.Unterminated
import ShellWords.Proofs.Session
import ShellWords.Proofs.Trace
import ShellWords.Proofs.Dollar
import ShellWords.Proofs.Classes
import ShellWords.Proofs.Command.Outcomes
import ShellWords.Proofs.Json
import ShellWords.Proofs.Command.Pipeline
import ShellWords.Proofs.Continuation
import ShellWords.Proofs.DoubleQuoted
import ShellWords.Proofs.AnsiC.Pairs
import ShellWords.Proofs.Layout.Contribution
import ShellWords.Proofs.Retention
import ShellWords.Proofs.Digits
import ShellWords.Proofs.Size
import ShellWords.Proofs.QuoteBlocks
import ShellWords.Proofs.Switches
import ShellWords.Proofs.Protection
import ShellWords.Proofs.Report.Rows
import ShellWords.Proofs.Report.Location
import ShellWords.Proofs.Report.Diagnostic
import ShellWords.Proofs.Report.Snippet
import ShellWords.Proofs.Report.Window
import ShellWords.Proofs.Command.Output
import ShellWords.Proofs.Buffer.Agreement
import ShellWords.Proofs.AnsiC.ByteDecoder
import ShellWords.Proofs.Toml
import ShellWords.Proofs.Config.Overlay
import ShellWords.Proofs.Config.Json
import ShellWords.Proofs.Config.Toml
import ShellWords.Proofs.Config.Documents
