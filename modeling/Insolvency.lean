import Insolvency.Json.Parser
import Insolvency.Json.Printer
import Insolvency.Stored.Rulebook
import Insolvency.World.Step
import Insolvency.Proofs.Decimal.Arithmetic
import Insolvency.Proofs.Bailin.Course
import Insolvency.Proofs.Episode.Flagged
import Insolvency.Proofs.Decimal.Sum
import Insolvency.Proofs.Ledger.Accounts
import Insolvency.Proofs.Bailin.WriteDown
import Insolvency.Proofs.Bailin.Stages
import Insolvency.Proofs.Bailin.Compensation
import Insolvency.Proofs.Bailin.Conservation
import Insolvency.Proofs.Bailin.Waterfall
import Insolvency.Proofs.Capital.RiskWeights
import Insolvency.Proofs.Capital.Assessment
import Insolvency.Proofs.Capital.Recapitalization
import Insolvency.Proofs.Ledger.Shares
import Insolvency.Proofs.Ledger.Creditors
import Insolvency.Proofs.Episode.SameShares
import Insolvency.Proofs.AssetThreshold.Course
import Insolvency.Proofs.Bailin.Books
import Insolvency.Proofs.Episode.DebtEquitySwap
import Insolvency.Proofs.Shares.Steps
import Insolvency.Proofs.Shares.Policies
import Insolvency.Proofs.Shares.Spawned
import Insolvency.Proofs.Shares.Split
import Insolvency.Proofs.Shares.Reissue
import Insolvency.Proofs.Episode.Validity
import Insolvency.Proofs.World.Validity
import Insolvency.Proofs.Shares.Record
import Insolvency.Proofs.SellOff.Proceeds
import Insolvency.Proofs.SellOff.WindingDown
import Insolvency.Proofs.Episode.DebtAccounting
import Insolvency.Proofs.Bailin.ProRata
import Insolvency.Proofs.Capital.Monotonicity
import Insolvency.Proofs.Episode.LifeCycle
import Insolvency.Proofs.Decimal.Range
import Insolvency.Proofs.AssetThreshold.CashInRange
import Insolvency.Proofs.AssetThreshold.SettlingInRange
import Insolvency.Proofs.AssetThreshold.Overflow
import Insolvency.Proofs.Episode.Overflow
import Insolvency.Proofs.Episode.Performance
import Insolvency.Proofs.Capital.Refusals
import Insolvency.Proofs.Shares.Holders
import Insolvency.Proofs.Episode.RemainingShortfall
import Insolvency.Proofs.Parallel
import Insolvency.Proofs.Ledger.Agreement
import Insolvency.Proofs.Episode.Agreement
import Insolvency.Proofs.Bailin.Agreement
import Insolvency.Proofs.AssetThreshold.Agreement
import Insolvency.Proofs.Episode.ZeroEntries
import Insolvency.Proofs.Episode.Isolation
import Insolvency.Proofs.Decimal.Grid
import Insolvency.Proofs.Episode.PublicMoney
import Insolvency.Proofs.Credit.EmergencyLoans
import Insolvency.Proofs.Episode.LeftAlone
import Insolvency.Proofs.Rulebook
import Insolvency.Proofs.Division
import Insolvency.Proofs.Deletion
import Insolvency.Proofs.Episode.SharePrice
import Insolvency.Proofs.World.Prices
import Insolvency.Proofs.Credit.Leverage
import Insolvency.Proofs.AssetThreshold.ProRata
import Insolvency.Proofs.Capital.Accuracy
import Insolvency.Proofs.Decimal.Growth
import Insolvency.Proofs.Shares.Moves
import Insolvency.Proofs.AssetThreshold.Redistribution
import Insolvency.Proofs.Party.Text
import Insolvency.Proofs.Decimal.Proportion
import Insolvency.Proofs.Ledger.Claim
import Insolvency.Proofs.Ledger.Functions
