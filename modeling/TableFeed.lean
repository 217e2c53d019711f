import TableFeed.Index.ValueIndex
import TableFeed.Index.Written
import TableFeed.Main
import TableFeed.Proofs.Command.Lookahead
import TableFeed.Proofs.Command.Parsing
import TableFeed.Proofs.Command.Parts
import TableFeed.Proofs.Command.Readers
import TableFeed.Proofs.Command.Rendering
import TableFeed.Proofs.Command.RoundTrip
import TableFeed.Proofs.Command.Sentence
import TableFeed.Proofs.Command.Shown
import TableFeed.Proofs.Command.Stops
import TableFeed.Proofs.Command.Tokens
import TableFeed.Proofs.Command.Unfinished
import TableFeed.Proofs.Command.Verdict
import TableFeed.Proofs.Index.Books
import TableFeed.Proofs.Index.Listing
import TableFeed.Proofs.Index.Lists
import TableFeed.Proofs.Index.Peak
import TableFeed.Proofs.Index.Stale
import TableFeed.Proofs.Index.Tracks
import TableFeed.Proofs.Index.Wiring
import TableFeed.Proofs.Scan.Blanks
import TableFeed.Proofs.Scan.Course
import TableFeed.Proofs.Scan.Cutting
import TableFeed.Proofs.Scan.Delivery
import TableFeed.Proofs.Scan.Goals
import TableFeed.Proofs.Scan.Lexeme
import TableFeed.Proofs.Scan.Longest
import TableFeed.Proofs.Scan.Spells
import TableFeed.Proofs.Scan.Tiling
import TableFeed.Proofs.Scan.Words
import TableFeed.Proofs.Session.Appending
import TableFeed.Proofs.Session.Lines
import TableFeed.Proofs.Session.Padding
import TableFeed.Proofs.Text.Escapes
import TableFeed.Proofs.Text.Json
import TableFeed.Proofs.Index.Freeing
import TableFeed.Proofs.Scan.Strings
import TableFeed.Scan.Head
import TableFeed.Scan.HeadScan
import TableFeed.Proofs.Scan.HeadRun
