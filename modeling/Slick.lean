import Slick.Command.Console
import Slick.Draft
import Slick.Keywords
import Slick.Main
import Slick.Service.Server
import Slick.Session
import Slick.Tree.Steps
import Slick.Proofs.Grammar.Expressions
import Slick.Proofs.Parser.Steps
import Slick.Proofs.Grammar.Soundness
import Slick.Proofs.Grammar.Types
import Slick.Proofs.Grammar.ProgramSoundness
import Slick.Proofs.Grammar.Completeness
import Slick.Proofs.Grammar.ProgramCompleteness
import Slick.Proofs.Decimal.Negation
import Slick.Proofs.Expr.Places
import Slick.Proofs.Expr.Shape
import Slick.Proofs.Expr.Lexemes
import Slick.Proofs.Grammar.Rendering
import Slick.Proofs.Layout.Invariant
import Slick.Proofs.Program.Brackets
import Slick.Proofs.Grammar.Places
import Slick.Proofs.Token.Scanned
import Slick.Proofs.Grammar.Origin
import Slick.Proofs.Display.Shown
import Slick.Proofs.Program.Reading
import Slick.Proofs.Layout.Concatenation
import Slick.Proofs.Grammar.Concatenation
import Slick.Proofs.Program.Concatenation
import Slick.Proofs.Layout.Reindentation
import Slick.Proofs.Program.Reindentation
import Slick.Proofs.Decimal.Text
import Slick.Proofs.TypeExpr.Text
import Slick.Proofs.Display.Labels
import Slick.Proofs.Display.Injective
import Slick.Proofs.Program.Trees
import Slick.Proofs.Parser.Forward
import Slick.Proofs.Program.Forward
import Slick.Proofs.Program.Verdict
import Slick.Proofs.Command.Reports
import Slick.Proofs.Source.Surfaces
import Slick.Proofs.Session.Progress
import Slick.Proofs.Text.Literal
import Slick.Proofs.Token.Boundary
import Slick.Proofs.Line.Partition
import Slick.Proofs.Parser.Paths
import Slick.Proofs.Program.Paths
import Slick.Proofs.Layout.Paths
import Slick.Proofs.Line.Pieces
import Slick.Proofs.Expr.Pieces
import Slick.Proofs.Program.ErrorPlaces
import Slick.Proofs.Program.Printing
import Slick.Proofs.Program.Nodes
import Slick.Proofs.Display.Failures
import Slick.Proofs.Grammar.Spans
import Slick.Proofs.Program.Locations
import Slick.Proofs.Layout.Padding
import Slick.Proofs.Program.Padding
import Slick.Proofs.Program.NumberTexts
import Slick.Proofs.Token.TextLiterals
import Slick.Proofs.Decimal.Accuracy
import Slick.Proofs.Program.NegativeNumbers
import Slick.Proofs.Tree.Dump
import Slick.Proofs.Display.Legible
import Slick.Proofs.Program.Dumps
import Slick.Proofs.TypeExpr.Reading
import Slick.Proofs.Tree.Keys
import Slick.Proofs.Line.Respacing
import Slick.Proofs.Program.ReservedWords
import Slick.Proofs.Line.Spellings
import Slick.Proofs.Layout.Spellings
import Slick.Proofs.Expr.Operators
import Slick.Proofs.Grammar.Spellings
import Slick.Proofs.Display.Operators
import Slick.Proofs.Program.Spellings
