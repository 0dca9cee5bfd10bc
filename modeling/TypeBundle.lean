import TypeBundle.Draft.Operation
import TypeBundle.Main
import TypeBundle.Number.Text
import TypeBundle.Proofs.Draft.Build
import TypeBundle.Proofs.Pass.Exact
import TypeBundle.Proofs.Pass.Expansion
import TypeBundle.Proofs.Pass.FailFast
import TypeBundle.Proofs.Pass.Faithful
import TypeBundle.Proofs.Pass.Opaque
import TypeBundle.Proofs.Pass.Partition
import TypeBundle.Proofs.Pass.Reread
import TypeBundle.Proofs.Snapshot.Formats
import TypeBundle.Samples
import TypeBundle.Proofs.Pass.MoreModules
import TypeBundle.Proofs.Walk.Repeats
import TypeBundle.Proofs.Pass.Again
import TypeBundle.Proofs.Bundle.Explore
import TypeBundle.Proofs.Bundle.Groups
import TypeBundle.Proofs.Draft.Effective
import TypeBundle.Proofs.Pass.LeftOut
import TypeBundle.Proofs.Pass.Occurrence
import TypeBundle.Proofs.Pass.Names
import TypeBundle.Proofs.Pass.NumberLiteral
import TypeBundle.Proofs.TypeExpr.Places
