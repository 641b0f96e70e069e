import Spreadsheet.Expr.Printer
import Spreadsheet.Main
import Spreadsheet.Proofs.Evaluation.Run
import Spreadsheet.Proofs.Evaluation.Unfolding
import Spreadsheet.Proofs.Evaluation.Frame
import Spreadsheet.Proofs.Evaluation.Composition
import Spreadsheet.Proofs.Evaluation.Caching
import Spreadsheet.Proofs.Evaluation.Sessions
import Spreadsheet.Proofs.Address
import Spreadsheet.Proofs.Address.Names
import Spreadsheet.Proofs.Text.Trim
import Spreadsheet.Proofs.Expr.Grammar
import Spreadsheet.Proofs.Expr.Parsing
import Spreadsheet.Proofs.Expr.Fragments
import Spreadsheet.Proofs.Expr.Arithmetic
import Spreadsheet.Proofs.Expr.Grouping
import Spreadsheet.Proofs.Expr.Rendering
import Spreadsheet.Proofs.Binary64
import Spreadsheet.Proofs.Csv
import Spreadsheet.Proofs.Csv.Quotes
import Spreadsheet.Proofs.Decimal
import Spreadsheet.Proofs.Except
import Spreadsheet.Proofs.Sheet.Block
import Spreadsheet.Proofs.Document
import Spreadsheet.Proofs.Sheet.Reload
import Spreadsheet.Proofs.Sheet.ReloadWhole
import Spreadsheet.Proofs.Sheet.Printing
import Spreadsheet.Proofs.Sheet.Policies
import Spreadsheet.Proofs.Sheet.History
import Spreadsheet.Proofs.Sheet.Unwritten
import Spreadsheet.Proofs.Sheet.Loading
import Spreadsheet.Proofs.Settings
import Spreadsheet.Proofs.CommandLine.Words
import Spreadsheet.Proofs.CommandLine.Settings
import Spreadsheet.Proofs.CommandLine.Phases
