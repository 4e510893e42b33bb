import AmountPad.Main
import AmountPad.Proofs.Pad.Value
import AmountPad.Toml.Printer
import AmountPad.Proofs.Calculation.Shape
import AmountPad.Binary64.Exact
import AmountPad.Proofs.Amount.Exactness
import AmountPad.Proofs.Amount.Canonical
import AmountPad.Proofs.Calculation.Unfinished
import AmountPad.Proofs.Pad.Replay
import AmountPad.Proofs.Pad.Confirm
import AmountPad.Proofs.Token.Segments
import AmountPad.Proofs.Token.Literal
import AmountPad.Proofs.Token.Cursor
import AmountPad.Proofs.Pad.History
import AmountPad.Proofs.Pad.Event
import AmountPad.Proofs.Session.Report
import AmountPad.Proofs.Session.Encoding
import AmountPad.Proofs.Session.Transcript
import AmountPad.Proofs.Session.Presentation
import AmountPad.Proofs.Expression.Grouping
import AmountPad.Proofs.Program.Forest
import AmountPad.Proofs.Entry.Repetition
import AmountPad.Proofs.Pad.Press
import AmountPad.Proofs.Entry.Respelling
import AmountPad.Proofs.Pad.Sign
import AmountPad.Proofs.Program.ReadingOrder
import AmountPad.Proofs.Settings.Overlay
