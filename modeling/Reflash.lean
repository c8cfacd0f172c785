import Reflash.Main
import Reflash.Shell.Script
import Reflash.Proofs.Ensures
import Reflash.Proofs.Flow
import Reflash.Proofs.Recovery
import Reflash.Proofs.Kill
import Reflash.Proofs.Replay
import Reflash.Proofs.Escape
import Reflash.Proofs.Closure
import Reflash.Proofs.Fallback
import Reflash.Proofs.Unattended
import Reflash.Proofs.Success
import Reflash.Proofs.Truthful
import Reflash.Proofs.Conduct
import Reflash.Proofs.Consent
import Reflash.Proofs.Expansion
import Reflash.Proofs.DryRun
import Reflash.Proofs.Inlining
import Reflash.Proofs.Expression
import Reflash.Proofs.Meaning
import Reflash.Proofs.Laws
import Reflash.Proofs.Stable
import Reflash.Proofs.History
import Reflash.Proofs.Exclusion
import Reflash.Proofs.Turns
import Reflash.Proofs.Hold
import Reflash.Proofs.HeldSteps
import Reflash.Proofs.Cancellation
import Reflash.Proofs.Acceptance
import Reflash.Proofs.Showing
import Reflash.Proofs.Unlocking
import Reflash.Proofs.StandIn
import Reflash.Proofs.GroupFiles
import Reflash.Proofs.ManualDownload
import Reflash.Proofs.Orders
import Reflash.Proofs.Phrases
import Reflash.Proofs.NormalForm
import Reflash.Proofs.Substeps
import Reflash.Proofs.Declining
import Reflash.Proofs.Waiting
import Reflash.Proofs.Dispatching
import Reflash.Proofs.UnknownTypes
import Reflash.Proofs.Payloads
import Reflash.Proofs.ImageRequests
import Reflash.Proofs.Assignments
import Reflash.Proofs.Answers
import Reflash.Proofs.Defaults
import Reflash.Proofs.CatalogNames
import Reflash.Proofs.CachePaths
import Reflash.Proofs.ProgressLines
