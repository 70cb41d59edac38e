import CallScript.Text.CodeRange
import CallScript.Text.Blank
import CallScript.Text.Utf8
import CallScript.Text.Unprintable
import CallScript.Text.GraphemeExtend
import CallScript.Text.DefaultIgnorable
import CallScript.Text.Quoted
import CallScript.Bytes.Block
import CallScript.Bytes.Sink
import CallScript.Hex
import CallScript.Keccak
import CallScript.Address
import CallScript.Word
import CallScript.Word.Literal
import CallScript.Bytes.Decoder
import CallScript.Record
import CallScript.Selector
import CallScript.Script.Token
import CallScript.Script.Signature
import CallScript.Script.Cause
import CallScript.Script.Line
import CallScript.Script.Argument
import CallScript.Script.Labels
import CallScript.Script.Program
import CallScript.Script.Diagnostic
import CallScript.Files.Path
import CallScript.Files.Access
import CallScript.Files.Tree
import CallScript.Calendar
import CallScript.Log
import CallScript.Build
import CallScript.CommandLine
import CallScript.Main
import CallScript.ErrorDisplay.Template
import CallScript.ErrorDisplay.Declaration
import CallScript.ErrorDisplay.Implementation
import CallScript.ErrorDisplay.Code
import CallScript.Proofs.Bytes.BigEndian
import CallScript.Proofs.Bytes.Decoding
import CallScript.Proofs.Hexadecimal
import CallScript.Proofs.Literals
import CallScript.Proofs.RecordStream
import CallScript.Proofs.BrokenStreams
import CallScript.Proofs.Cursor
import CallScript.Proofs.Script.Spacing
import CallScript.Proofs.Script.Tokens
import CallScript.Proofs.Script.Grammar
import CallScript.Proofs.Script.Layout
import CallScript.Proofs.Script.Emission
import CallScript.Proofs.Script.Isolation
import CallScript.Proofs.Script.Rendering
import CallScript.Proofs.Script.Joining
import CallScript.Proofs.Script.LineEndings
import CallScript.Proofs.Script.LabelTable
import CallScript.Proofs.Script.Definitions
import CallScript.Proofs.Script.Labelling
import CallScript.Proofs.Word.Arithmetic
import CallScript.Proofs.Word.Numbers
import CallScript.Proofs.Word.ByteStrings
import CallScript.Proofs.Script.Arguments
import CallScript.Proofs.Script.Precedence
import CallScript.Proofs.Script.Positions
import CallScript.Proofs.Script.Carets
import CallScript.Proofs.Hashing
import CallScript.Proofs.Script.Selectors
import CallScript.Proofs.CommandLine
import CallScript.Proofs.Files.Components
import CallScript.Proofs.Calendar
import CallScript.Proofs.Addresses
import CallScript.Proofs.ErrorDisplay.Scanning
import CallScript.Proofs.ErrorDisplay.Renaming
import CallScript.Proofs.ErrorDisplay.Scopes
import CallScript.Proofs.Counting
