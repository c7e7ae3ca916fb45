import Sheetwork.Layers.Document
import Sheetwork.Lineage.Document
import Sheetwork.Main
import Sheetwork.Mapping.Document
import Sheetwork.Model.Solution
import Sheetwork.Plan.Compare
import Sheetwork.Proofs.Formula.Order
import Sheetwork.Proofs.Layers.Conditionals
import Sheetwork.Proofs.Layers.GroupRow
import Sheetwork.Proofs.Layers.Levels
import Sheetwork.Proofs.Lineage.Patterns
import Sheetwork.Proofs.Mapping.Coverage
import Sheetwork.Proofs.Mapping.StructuredInputs
import Sheetwork.Proofs.Model.Calculation
import Sheetwork.Proofs.Model.Eager
import Sheetwork.Proofs.Model.Errors
import Sheetwork.Proofs.Model.Names
import Sheetwork.Proofs.Model.Precedence
import Sheetwork.Proofs.Model.SheetNames
import Sheetwork.Proofs.Model.Unedited
import Sheetwork.Proofs.Plan.Annuity
import Sheetwork.Proofs.Plan.AssignedCells
import Sheetwork.Proofs.Plan.Groups
import Sheetwork.Proofs.Plan.Lookup
import Sheetwork.Proofs.Plan.NamedCells
import Sheetwork.Proofs.Plan.ReferencedCells
import Sheetwork.Proofs.Plan.RelativeForm
import Sheetwork.Proofs.Sampling.Budget
import Sheetwork.Proofs.Sampling.Rows
import Sheetwork.Proofs.Script.Names
import Sheetwork.Proofs.Vector.Workbooks
import Sheetwork.Proofs.Workbook.Components
import Sheetwork.Proofs.Workbook.Inputs
import Sheetwork.Sampling.Document
import Sheetwork.Sampling.Keyword
import Sheetwork.Sampling.Summary
import Sheetwork.Valuation.Program
import Sheetwork.Vector.Document
import Sheetwork.Workbook.SurveyRecord
import Sheetwork.Layers.Output
import Sheetwork.Proofs.Script.Criteria
import Sheetwork.Proofs.Formula.Conversion
import Sheetwork.Proofs.Script.Library
import Sheetwork.Layers.Format
