import BazelRunfiles.Main
import BazelRunfiles.Manifest.Temporary
import BazelRunfiles.Proofs.Propagation
import BazelRunfiles.Proofs.Manifest.Field
import BazelRunfiles.Proofs.Manifest.Written
import BazelRunfiles.Proofs.Manifest.Line
import BazelRunfiles.Proofs.Manifest.RoundTrip
import BazelRunfiles.Proofs.Manifest.Lookup
import BazelRunfiles.Proofs.RepoMapping.Line
import BazelRunfiles.Proofs.RepoMapping.Lookup
import BazelRunfiles.Proofs.RepoMapping.Load
import BazelRunfiles.Proofs.LineEndings
import BazelRunfiles.Proofs.Reordered
import BazelRunfiles.Proofs.RepoMapping.Order
import BazelRunfiles.Proofs.Path.Absolute
import BazelRunfiles.Proofs.Path.Admissible
import BazelRunfiles.Proofs.Path.Enclosing
import BazelRunfiles.Proofs.Candidates
import BazelRunfiles.Proofs.SourceRepository
import BazelRunfiles.Proofs.Confinement
import BazelRunfiles.Proofs.Listing
import BazelRunfiles.Proofs.Descent
import BazelRunfiles.Proofs.RepositoryNames
import BazelRunfiles.Proofs.FileName
import BazelRunfiles.Proofs.Text.Lines
import BazelRunfiles.Proofs.Text.Utf8
import BazelRunfiles.Proofs.Text.Utf8.Fault
import BazelRunfiles.Proofs.Failures
import BazelRunfiles.Proofs.Selection
import BazelRunfiles.Proofs.TwoSearches
import BazelRunfiles.Proofs.ImpliedDirectory
import BazelRunfiles.Proofs.Command.Environment
import BazelRunfiles.Proofs.Command.Batch
