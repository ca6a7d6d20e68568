import Lox.Text.Quoted
import Lox.Text.Blank
import Lox.Text.Aligned
import Lox.Number.Shortest
import Lox.Token.Basic
import Lox.Segment
import Lox.Diagnostic.Rendering
import Lox.Source.Collection
import Lox.Scan.Event
import Lox.Trivia
import Lox.Expectation
import Lox.Session
import Lox.CommandLine.Program
import Lox.Main
import Lox.Proofs.FirstSegment
import Lox.Proofs.Grammar
import Lox.Proofs.LongestMatch
import Lox.Proofs.Segmentation
import Lox.Proofs.Visits
import Lox.Proofs.LineIndex
import Lox.Proofs.LineSplitting
import Lox.Proofs.LineNumbers
import Lox.Proofs.Readings
import Lox.Proofs.Cutting
import Lox.Proofs.Concatenation
import Lox.Proofs.Printing
import Lox.Proofs.Continuations
import Lox.Proofs.Stripping
import Lox.Proofs.Blocks
import Lox.Proofs.Listening
import Lox.Proofs.Streams
import Lox.Proofs.FileCommands
import Lox.Proofs.Encoding
import Lox.Proofs.InputLines
import Lox.Proofs.Prompt
import Lox.Proofs.LineByLine
import Lox.Proofs.Logging
import Lox.Proofs.LineEnds
import Lox.Proofs.Colours
import Lox.Proofs.ClosedColours
import Lox.Proofs.Entries
import Lox.Proofs.Flags
import Lox.Proofs.Listing
import Lox.Proofs.Unquoting
import Lox.Proofs.LogReading
import Lox.Proofs.LosslessLog
import Lox.Proofs.Comments
import Lox.Proofs.Histories
import Lox.Proofs.Rounding
import Lox.Proofs.NearestNumber
import Lox.Proofs.Numerals
import Lox.Proofs.NumberTexts
import Lox.Proofs.ByteOffsets
import Lox.Proofs.CursorLoops
import Lox.Proofs.CursorRuns
import Lox.Proofs.RowLines
