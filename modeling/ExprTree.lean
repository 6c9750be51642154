import ExprTree.Main
import ExprTree.Tree.Canonical
import ExprTree.Tree.Relabel
import ExprTree.Proofs.PartialTree
import ExprTree.Proofs.PartialTree.Read
import ExprTree.Proofs.PartialTree.Spine
import ExprTree.Proofs.Reading
import ExprTree.Proofs.Refusing
import ExprTree.Proofs.Lexemes
import ExprTree.Proofs.Lossless
import ExprTree.Proofs.Cutting
import ExprTree.Proofs.CharacterClasses
import ExprTree.Proofs.Acceptance
import ExprTree.Proofs.EarliestError
import ExprTree.Proofs.NestingBound
import ExprTree.Proofs.MaximalMunch
import ExprTree.Proofs.Relabelling
import ExprTree.Proofs.Slices
import ExprTree.Proofs.Subtrees
import ExprTree.Proofs.LongestPrefix
import ExprTree.Proofs.Unparsing
import ExprTree.Proofs.Correspondence
import ExprTree.Proofs.Spacing
import ExprTree.Proofs.Outlines
import ExprTree.Tree.OfJson
import ExprTree.Proofs.Documents
import ExprTree.Proofs.Cursors
import ExprTree.Proofs.Reuse
import ExprTree.Proofs.LineByLine
import ExprTree.Proofs.TextLines
import ExprTree.Proofs.Attribution
import ExprTree.Proofs.KindsDecide
import ExprTree.Tree.Context
import ExprTree.Proofs.Grouping
import ExprTree.Proofs.Fusing
import ExprTree.Proofs.DigitRuns
import ExprTree.Proofs.RefusalPlaces
import ExprTree.Proofs.TightSpans
import ExprTree.Proofs.TokenTables
import ExprTree.Proofs.Requests
import ExprTree.Proofs.LineEndings
import ExprTree.Proofs.CarriedHeight
