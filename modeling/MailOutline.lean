import MailOutline.Attribute.Address
import MailOutline.Attribute.Disposition
import MailOutline.Attribute.Params
import MailOutline.Calendar.Date
import MailOutline.Calendar.Layout
import MailOutline.Calendar.Rfc3339
import MailOutline.Calendar.Scan
import MailOutline.Calendar.Timestamp
import MailOutline.Envelope
import MailOutline.Field.Basic
import MailOutline.Field.Fault
import MailOutline.Field.Reader
import MailOutline.Field.Step
import MailOutline.Json.Part
import MailOutline.Json.Record
import MailOutline.Json.Value
import MailOutline.Main
import MailOutline.Outline
import MailOutline.Part.Basic
import MailOutline.Part.Decoder
import MailOutline.Part.Extension
import MailOutline.Part.Walk
import MailOutline.Text.Basic
import MailOutline.Text.Cut
import MailOutline.Text.CaseTable
import MailOutline.Text.Display
import MailOutline.Trace
import MailOutline.Proofs.Additions
import MailOutline.Proofs.Containment
import MailOutline.Proofs.Dates.Reading
import MailOutline.Proofs.Dates.Scanning
import MailOutline.Proofs.Decoding
import MailOutline.Proofs.Grammar.Basic
import MailOutline.Proofs.Grammar.Canonical
import MailOutline.Proofs.Grammar.Nesting
import MailOutline.Proofs.Grammar.Piece
import MailOutline.Proofs.Grammar.Reading
import MailOutline.Proofs.Grammar.Truncation
import MailOutline.Proofs.Lookup
import MailOutline.Proofs.Mime.Attributes
import MailOutline.Proofs.Mime.Entity
import MailOutline.Proofs.Mime.RoundTrip
import MailOutline.Proofs.Numbering
import MailOutline.Proofs.Pruning
import MailOutline.Proofs.Relocation
import MailOutline.Proofs.Specifier
import MailOutline.Proofs.Grammar.Calls
import MailOutline.Proofs.Grammar.Lookahead
import MailOutline.Proofs.Grammar.Messages
import MailOutline.Proofs.Grammar.Progress
import MailOutline.Proofs.Attachments
import MailOutline.Proofs.Consistency
import MailOutline.Proofs.Warnings
import MailOutline.Proofs.Losses
import MailOutline.Proofs.Dates.LetterCase
import MailOutline.Proofs.LetterCase
import MailOutline.Proofs.Dates.Standard
import MailOutline.Proofs.Json
import MailOutline.Proofs.Bounds.Checked
import MailOutline.Proofs.Bounds.Cursor
import MailOutline.Proofs.Bounds.Reader
import MailOutline.Proofs.Bounds.Attributes
import MailOutline.Proofs.Bounds.Structure
import MailOutline.Proofs.Bounds
import MailOutline.Proofs.Dates.Loose
import MailOutline.Proofs.Dates.Zones
import MailOutline.Proofs.Dates.Commentary
import MailOutline.Proofs.Dates.Years
import MailOutline.Proofs.Dates.Window
import MailOutline.Proofs.Tails
import MailOutline.Proofs.Dispositions
