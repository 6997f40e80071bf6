import Ail.Coordinator.Commute
import Ail.Remote.Submission
import Ail.Verify.SolverSound
import Ail.Verify.Composition
import Ail.Verify.PolicyLaws
import Ail.Verify.Impact
import Ail.Verify.Acceptance
import Ail.Storage.Migration
import Ail.Storage.Assumptions
import Ail.Context.Budgets
import Ail.Runtime.Mediation
import Ail.Package.Namespace
import Ail.Package.Reproducibility
import Ail.Cli.MergeLaws
import Ail.Cli.Rollback
import Ail.Cli.History
import Ail.Cli.VerifiedApply
import Ail.Cli.ImmediateApply
import Ail.Cli.Gc
import Ail.Compiler.LowerScope
import Ail.Compiler.OptimizeSound
import Ail.Compiler.Params
import Ail.Compiler.ParserBoundaries
import Ail.Compiler.Propagation
import Ail.Cli.Invoke
import Ail.Cli.SourceFaithful
import Ail.Cli.SourceLoad
import Ail.Stdlib.Time
