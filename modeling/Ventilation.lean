import Ventilation.Main
import Ventilation.Proofs.Number.Order
import Ventilation.Proofs.Number.Value
import Ventilation.Proofs.Number.Exact
import Ventilation.Proofs.Text.Names
import Ventilation.Proofs.Measure.SizeText
import Ventilation.Proofs.Catalog.Foremost
import Ventilation.Proofs.Catalog.Lookup
import Ventilation.Proofs.Catalog.Edge
import Ventilation.Proofs.Catalog.RowOrder
import Ventilation.Proofs.Pricing.Answer
import Ventilation.Proofs.Pricing.RoundedSize
import Ventilation.Proofs.Pricing.Rectangle
import Ventilation.Proofs.Pricing.Extrapolation
import Ventilation.Proofs.Quote.Line
import Ventilation.Proofs.Quote.Coverage
import Ventilation.Proofs.Formula.Grammar
import Ventilation.Proofs.Formula.Parsing
import Ventilation.Proofs.Formula.Numerals
import Ventilation.Proofs.Formula.Splitting
import Ventilation.Proofs.Formula.Language
import Ventilation.Proofs.Formula.Agreement
import Ventilation.Proofs.Formula.Occurrence
import Ventilation.Proofs.Formula.Failure
import Ventilation.Proofs.Text.Search
import Ventilation.Proofs.Formula.Pattern
import Ventilation.Proofs.Formula.Composition
import Ventilation.Proofs.Pricing.Dependence
import Ventilation.Proofs.Quote.Slot
import Ventilation.Proofs.Quote.RowOrder
import Ventilation.Proofs.Pricing.Routes
import Ventilation.Proofs.Quote.MissingTable
import Ventilation.Proofs.Pricing.SpecialColor
import Ventilation.Proofs.Quote.Amount
import Ventilation.Proofs.Pricing.WholePrice
import Ventilation.Proofs.Quote.Bounds
import Ventilation.Proofs.Number.Nonneg
import Ventilation.Proofs.Quote.Rounding
import Ventilation.Proofs.Quote.Figures
import Ventilation.Proofs.Number.Coincidence
import Ventilation.Proofs.Formula.Coincidence
import Ventilation.Proofs.Pricing.Coincidence
import Ventilation.Proofs.Quote.Turned
import Ventilation.Proofs.Pricing.Stages
import Ventilation.Proofs.Command.TypedSides
import Ventilation.Proofs.Formula.Exclusion
import Ventilation.Proofs.Formula.Balance
import Ventilation.Proofs.Formula.Ordinary
import Ventilation.Proofs.Formula.Written
import Ventilation.Proofs.Formula.Printing
import Ventilation.Proofs.Pricing.Registry
import Ventilation.Proofs.Pricing.Damper
import Ventilation.Proofs.Catalog.RoundUp
import Ventilation.Proofs.Pricing.FinalAmount
import Ventilation.Proofs.Quote.UnitPrice
import Ventilation.Proofs.Pricing.FormulaMarks
import Ventilation.Proofs.Pricing.Panels
import Ventilation.Proofs.Catalog.Closest
import Ventilation.Proofs.Catalog.Position
import Ventilation.Proofs.Quote.Discount
import Ventilation.Proofs.Text.Trim
import Ventilation.Proofs.Quote.FlagPair
import Ventilation.Proofs.Quote.Spelling
import Ventilation.Proofs.Quote.Renewal
import Ventilation.Proofs.Number.Arithmetic
import Ventilation.Proofs.Number.Range
import Ventilation.Proofs.Measure.SizeReading
import Ventilation.Proofs.Measure.LengthText
import Ventilation.Proofs.Quote.ShownSize
import Ventilation.Proofs.Pricing.FinishName
import Ventilation.Proofs.Formula.Cursor
import Ventilation.Proofs.Formula.Scanning
import Ventilation.Proofs.Formula.Descent
import Ventilation.Proofs.Formula.Nesting
import Ventilation.Proofs.Formula.Size
import Ventilation.Proofs.Number.NearestEven
import Ventilation.Proofs.Formula.Division
