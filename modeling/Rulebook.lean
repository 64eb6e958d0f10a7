import Rulebook.Formula.Reader
import Rulebook.Main
import Rulebook.Proofs.Comparison
import Rulebook.Proofs.Comparison.Texts
import Rulebook.Proofs.Compilation
import Rulebook.Proofs.DirectReading
import Rulebook.Proofs.DocumentEvaluation
import Rulebook.Proofs.DocumentGrammar
import Rulebook.Proofs.DocumentPlaces
import Rulebook.Proofs.DocumentRoundTrip
import Rulebook.Proofs.DocumentVerdicts
import Rulebook.Proofs.FormulaReading
import Rulebook.Proofs.Number.Radix
import Rulebook.Proofs.Parsing
import Rulebook.Proofs.Parsing.Bounds
import Rulebook.Proofs.Parsing.WrongTokens
import Rulebook.Proofs.RequiredFields
import Rulebook.Proofs.RuleText
import Rulebook.Proofs.Service.Concurrency
import Rulebook.Proofs.Service.Counts
import Rulebook.Proofs.Service.Origins
import Rulebook.Proofs.Service.RequestIds
import Rulebook.Proofs.Service.StoredRules
import Rulebook.Proofs.Service.Verdicts
import Rulebook.Proofs.Settings.Loading
import Rulebook.Proofs.StoreHistory
import Rulebook.Proofs.Token.Layout
import Rulebook.Proofs.Token.Lines
import Rulebook.Record.Reader
