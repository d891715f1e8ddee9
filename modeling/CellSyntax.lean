import CellSyntax.Main
import CellSyntax.Session
import CellSyntax.Json.Edit
import CellSyntax.Proofs.Tree.Ownership
import CellSyntax.Proofs.Zip.Steps
import CellSyntax.Proofs.Zip.Conservation
import CellSyntax.Proofs.Zip.Partition
import CellSyntax.Proofs.Tree.Span
import CellSyntax.Proofs.Zip.Brackets
import CellSyntax.Proofs.Zip.Ranges
import CellSyntax.Proofs.Text.Places
import CellSyntax.Proofs.Trivia.Tiling
import CellSyntax.Proofs.Zip.FaithfulText
import CellSyntax.Proofs.Tree.DocumentOrder
import CellSyntax.Tree.Arena
import CellSyntax.Proofs.Edit.PositionMap
import CellSyntax.Proofs.Locate.Search
import CellSyntax.Proofs.Propagate.ClosedForm
import CellSyntax.Proofs.Propagate.FollowingOrder
import CellSyntax.Proofs.Repair.ExactRanges
import CellSyntax.Proofs.Repair.NewText
import CellSyntax.Proofs.Tree.Layout
import CellSyntax.Proofs.Tree.Links
import CellSyntax.Proofs.Zip.Allocation
import CellSyntax.Proofs.Session.Tickets
import CellSyntax.Proofs.Zip.AnchoredLeaves
import CellSyntax.Proofs.Zip.BracketOwners
import CellSyntax.Proofs.Session.EditedOrder
import CellSyntax.Proofs.Zip.Pruning
import CellSyntax.Proofs.Zip.LeadBounds
import CellSyntax.Proofs.Zip.Transparency
import CellSyntax.Proofs.Repair.EnclosingLines
import CellSyntax.Proofs.Repair.KeptStart
import CellSyntax.Propagate.Arena
import CellSyntax.Proofs.Propagate.KeptColumns
import CellSyntax.Proofs.Propagate.Rows
import CellSyntax.Proofs.Zip.Rearrangement
import CellSyntax.Proofs.Text.OrderIsomorphism
import CellSyntax.Proofs.Edit.CarriedPositions
import CellSyntax.Proofs.Zip.LineBase
import CellSyntax.Proofs.Zip.SettledBrackets
import CellSyntax.Proofs.Trivia.Uncovered
import CellSyntax.Proofs.Trivia.StartOrder
import CellSyntax.Proofs.Trivia.Coverings
import CellSyntax.Proofs.Session.OrderedRanges
import CellSyntax.Proofs.Edit.ReplacedText
import CellSyntax.Proofs.Config.BracketEntries
import CellSyntax.Proofs.Tree.TextSearch
import CellSyntax.Proofs.Zip.FlatTree
import CellSyntax.Proofs.Range.Spelling
import CellSyntax.Proofs.Json.RoundTrip
import CellSyntax.Proofs.Zip.CursorWindows
import CellSyntax.Proofs.Process.CopyingParser
