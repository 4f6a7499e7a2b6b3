import DataHolder.Excerpt.Report
import DataHolder.Listing
import DataHolder.Registry.Bound
import DataHolder.Synthesis.Run
import DataHolder.Proofs.Deferral
import DataHolder.Proofs.Edits
import DataHolder.Proofs.History
import DataHolder.Proofs.Names
import DataHolder.Proofs.Precedence
import DataHolder.Proofs.Survival
import DataHolder.Proofs.Atomicity
import DataHolder.Proofs.Dependencies
import DataHolder.Proofs.Progress
import DataHolder.Proofs.LateResolution
import DataHolder.Proofs.Independence
import DataHolder.Proofs.Comparisons
import DataHolder.Proofs.ConstructorOnly
import DataHolder.Proofs.Provenance
import DataHolder.Proofs.Lineage
import DataHolder.Proofs.RecordFormat
import DataHolder.Proofs.Recovery
import DataHolder.Proofs.Signature
import DataHolder.Proofs.ParameterOrder
import DataHolder.Proofs.Freezing
import DataHolder.Proofs.Requests
import DataHolder.Proofs.FrozenAncestors
import DataHolder.Proofs.Bounds
import DataHolder.Proofs.Registration
import DataHolder.Proofs.Declarations
import DataHolder.Proofs.GeneratedNames
import DataHolder.Proofs.TextBytes
import DataHolder.Proofs.Ranges
