import Abacus.Calculator
import Abacus.Decimal.Numeral
import Abacus.Decimal.Style
import Abacus.Main
import Abacus.Proofs.Calculator.Lifecycle
import Abacus.Proofs.Dispatch.Histories
import Abacus.Proofs.Function.Arities
import Abacus.Proofs.Function.Histories
import Abacus.Proofs.Grammar.Completeness
import Abacus.Proofs.Grammar.Entries
import Abacus.Proofs.Grammar.Grouping
import Abacus.Proofs.Grammar.NameOrder
import Abacus.Proofs.Grammar.Rejections
import Abacus.Proofs.Grammar.Safety
import Abacus.Proofs.Grammar.Trees
import Abacus.Proofs.Parsing.Assertions
import Abacus.Proofs.Parsing.Cuts
import Abacus.Proofs.Parsing.Discipline
import Abacus.Proofs.Parsing.Payloads
import Abacus.Proofs.Parsing.QuotedTexts
import Abacus.Proofs.Parsing.Regrouping
import Abacus.Proofs.Source.Excerpts
import Abacus.Proofs.Tree.Anomalies
import Abacus.Text.Alphanumeric
import Abacus.Text.Quoted
import Abacus.Tree.Listing
import Abacus.Trial.Suite
import Abacus.Value.Conversion
import Abacus.Value.Equality
import Abacus.Value.Shown
import Abacus.Proofs.Parsing.Words
import Abacus.Proofs.Tree.Skeletons
import Abacus.Proofs.Grammar.Operators
