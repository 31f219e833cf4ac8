import Parimutuel.Main
import Parimutuel.Pricing.Lemmas
import Parimutuel.Proofs.Command.Answer
import Parimutuel.Proofs.Feed.Grammar
import Parimutuel.Proofs.Planning.Affordable
import Parimutuel.Proofs.Planning.Bankroll
import Parimutuel.Proofs.Planning.Comparison
import Parimutuel.Proofs.Planning.Refusal
import Parimutuel.Proofs.Planning.Renumbered
import Parimutuel.Proofs.Planning.Screening
import Parimutuel.Proofs.Planning.Stopping
import Parimutuel.Proofs.Planning.Unstaked
import Parimutuel.Proofs.Pricing.Clamp
import Parimutuel.Proofs.Pricing.Derivative
import Parimutuel.Proofs.Pricing.Inverse
import Parimutuel.Proofs.Pricing.Rounding
import Parimutuel.Proofs.Search.Answer
import Parimutuel.Proofs.Search.Convergence
import Parimutuel.Proofs.Search.Optimal
import Parimutuel.Proofs.Snap.Greatest
import Parimutuel.Unchecked.Agreement.Appraisal
import Parimutuel.Unchecked.Agreement.Report
import Parimutuel.Unchecked.Agreement.Screen
import Parimutuel.Unchecked.Agreement.Search
import Parimutuel.Unchecked.Agreement.Snap
import Parimutuel.Unchecked.Fee
import Parimutuel.Unchecked.Level
import Parimutuel.Unchecked.Outline
import Parimutuel.Unchecked.Phase
