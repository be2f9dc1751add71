import ViewCompiler.Sql.Equality
import ViewCompiler.Main
import ViewCompiler.Proofs.Views
import ViewCompiler.Proofs.Correctness
import ViewCompiler.Proofs.Authentication
import ViewCompiler.Proofs.Literals
import ViewCompiler.Proofs.Placeholders
import ViewCompiler.Proofs.Readability
import ViewCompiler.Proofs.Depth
import ViewCompiler.Proofs.Relations
import ViewCompiler.Proofs.Acceptance
import ViewCompiler.Proofs.Aliases
import ViewCompiler.Proofs.PublicColumns
import ViewCompiler.Proofs.Irrelevance
import ViewCompiler.Proofs.Mutations
import ViewCompiler.Proofs.Responses
import ViewCompiler.Proofs.Provenance
import ViewCompiler.Proofs.SideOrder
import ViewCompiler.Proofs.Filters
import ViewCompiler.Proofs.SchemaRoundTrip
import ViewCompiler.Proofs.RequestRoundTrip
import ViewCompiler.Proofs.Assignments
import ViewCompiler.Proofs.CostTrees
import ViewCompiler.Proofs.Inputs
import ViewCompiler.Proofs.Contexts
import ViewCompiler.Proofs.Inverses
import ViewCompiler.Proofs.Sorts
import ViewCompiler.Proofs.Conditions
