import FormulaSheet.Main
import FormulaSheet.Proofs.CommandLine.Resume
import FormulaSheet.Proofs.CommandLine.Saving
import FormulaSheet.Proofs.Content.Literal
import FormulaSheet.Proofs.Content.Reentry
import FormulaSheet.Proofs.Formula.Canonical
import FormulaSheet.Proofs.Formula.Completion
import FormulaSheet.Proofs.Formula.Renaming
import FormulaSheet.Proofs.Formula.Search
import FormulaSheet.Proofs.Formula.Spacing
import FormulaSheet.Proofs.Formula.Trace
import FormulaSheet.Proofs.Graph.DepthFirst
import FormulaSheet.Proofs.Graph.Topological
import FormulaSheet.Proofs.Sheet.Errors
import FormulaSheet.Proofs.Sheet.Footprint
import FormulaSheet.Proofs.Sheet.LetterCase
import FormulaSheet.Proofs.Sheet.Loading
import FormulaSheet.Proofs.Sheet.Rejection
import FormulaSheet.Proofs.Sheet.Undo
import FormulaSheet.Proofs.Sheet.Values
import FormulaSheet.Proofs.SheetFile.RoundTrip
import FormulaSheet.Proofs.SheetFile.Schema
