import TermLang.Alphabet
import TermLang.Binding
import TermLang.Console
import TermLang.Console.Command
import TermLang.Console.Completion
import TermLang.Console.Flag
import TermLang.Console.History
import TermLang.Console.Line
import TermLang.Console.Prompt
import TermLang.Dump
import TermLang.Fact
import TermLang.Fault
import TermLang.Fault.Snippet
import TermLang.FileTree
import TermLang.Form
import TermLang.Json
import TermLang.Json.Reader
import TermLang.Main
import TermLang.Number.Arithmetic
import TermLang.Number.Decimal
import TermLang.Number.Dyadic
import TermLang.Number.Layout
import TermLang.Number.Whole
import TermLang.Operator
import TermLang.Path
import TermLang.Proofs.Console.Formatting
import TermLang.Proofs.Console.Input
import TermLang.Proofs.Console.Running
import TermLang.Proofs.Fact.Agreement
import TermLang.Proofs.Fact.Alternatives
import TermLang.Proofs.Fact.Asking
import TermLang.Proofs.Number.Double
import TermLang.Proofs.Number.Nearest
import TermLang.Proofs.Number.Numeral
import TermLang.Proofs.Path.Place
import TermLang.Proofs.Reader.Blanks
import TermLang.Proofs.Reader.Brackets
import TermLang.Proofs.Reader.Completeness
import TermLang.Proofs.Reader.Fronts
import TermLang.Proofs.Reader.Grammar
import TermLang.Proofs.Reader.Guards
import TermLang.Proofs.Reader.Nesting
import TermLang.Proofs.Reader.Offence
import TermLang.Proofs.Reader.Position
import TermLang.Proofs.Reader.Program
import TermLang.Proofs.Reader.Sequence
import TermLang.Proofs.Reader.Soundness
import TermLang.Proofs.Reader.Spelling
import TermLang.Proofs.Reader.Stack
import TermLang.Proofs.Reduction.Agreement
import TermLang.Proofs.Reduction.Applied
import TermLang.Proofs.Reduction.Course
import TermLang.Proofs.Reduction.Data
import TermLang.Proofs.Reduction.Depth
import TermLang.Proofs.Reduction.Faults
import TermLang.Proofs.Reduction.InPlace
import TermLang.Proofs.Reduction.Inert
import TermLang.Proofs.Reduction.Language
import TermLang.Proofs.Reduction.Leaving
import TermLang.Proofs.Reduction.Moments
import TermLang.Proofs.Reduction.Origins
import TermLang.Proofs.Reduction.Run
import TermLang.Proofs.Reduction.Stopping
import TermLang.Proofs.Reduction.Terms
import TermLang.Proofs.Reduction.Watch
import TermLang.Proofs.Rule.Matching
import TermLang.Proofs.Server.Answers
import TermLang.Proofs.Server.Bounds
import TermLang.Proofs.Server.Change
import TermLang.Proofs.Server.Features
import TermLang.Proofs.Server.Framing
import TermLang.Proofs.Server.Layout
import TermLang.Proofs.Server.Lines
import TermLang.Proofs.Server.Order
import TermLang.Proofs.Server.Outline
import TermLang.Proofs.Server.Pairs
import TermLang.Proofs.Server.Positions
import TermLang.Proofs.Server.Reformat
import TermLang.Proofs.Server.Tokens
import TermLang.Proofs.Server.Underline
import TermLang.Proofs.Server.Upkeep
import TermLang.Proofs.Session.Depth
import TermLang.Proofs.Session.Growth
import TermLang.Proofs.Session.Language
import TermLang.Proofs.Session.Loading
import TermLang.Proofs.Session.Request
import TermLang.Proofs.Session.Residue
import TermLang.Proofs.Session.Return
import TermLang.Proofs.Session.Series
import TermLang.Proofs.Session.Snippets
import TermLang.Proofs.Term.Equality
import TermLang.Proofs.Term.Language
import TermLang.Proofs.Term.Parts
import TermLang.Proofs.Term.Quoting
import TermLang.Proofs.Term.RoundTrip
import TermLang.Proofs.Text.Encoding
import TermLang.Proofs.Text.Slice
import TermLang.Reader
import TermLang.Reader.Atom
import TermLang.Reader.Piece
import TermLang.Reduction
import TermLang.Rule
import TermLang.Scope
import TermLang.Server
import TermLang.Server.Change
import TermLang.Server.Diagnostic
import TermLang.Server.Document
import TermLang.Server.Frame
import TermLang.Server.Help
import TermLang.Server.Message
import TermLang.Server.Outline
import TermLang.Server.Position
import TermLang.Server.Request
import TermLang.Server.Symbol
import TermLang.Session
import TermLang.Term
import TermLang.Term.Written
import TermLang.Text.Blank
import TermLang.Text.Glyph
import TermLang.Text.Printable
import TermLang.Text.Quoted
import TermLang.Trace
