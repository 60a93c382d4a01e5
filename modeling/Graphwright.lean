import Graphwright.Document.Walk
import Graphwright.Main
import Graphwright.Schema.Surroundings
import Graphwright.Proofs.Response.Asks
import Graphwright.Proofs.Response.Shapes
import Graphwright.Proofs.Response.Cycle
import Graphwright.Proofs.Response.Inlining
import Graphwright.Proofs.Response.Joining
import Graphwright.Proofs.Response.Models
import Graphwright.Proofs.Response.Presence
import Graphwright.Proofs.Naming.Fresh
import Graphwright.Proofs.Response.Declared
import Graphwright.Proofs.Client.FirstUse
import Graphwright.Proofs.Client.Helpers
import Graphwright.Proofs.Module.Binding
import Graphwright.Proofs.Module.Combining
import Graphwright.Proofs.Module.Reached
import Graphwright.Proofs.Client.Documents
import Graphwright.Proofs.Together
import Graphwright.Proofs.Alone
import Graphwright.Proofs.Agreement
import Graphwright.Proofs.Anonymous
import Graphwright.Proofs.Module.References
import Graphwright.Proofs.Types.Mapped
import Graphwright.Proofs.Schema.References
import Graphwright.Proofs.Response.References
import Graphwright.Proofs.Known
import Graphwright.Proofs.Client.External
import Graphwright.Proofs.Resolver.Protocols
import Graphwright.Proofs.Schema.Mirror
import Graphwright.Proofs.Totality
import Graphwright.Proofs.Resolver.Package
import Graphwright.Proofs.Response.Regrouping
import Graphwright.Proofs.Module.Layout
import Graphwright.Proofs.CommandLine
import Graphwright.Proofs.Module.Execution
import Graphwright.Proofs.Optional
import Graphwright.Proofs.Naming.Identifiers
import Graphwright.Proofs.Resolver.Parameters
import Graphwright.Proofs.Schema.Shadows
import Graphwright.Proofs.Scopes
import Graphwright.Proofs.Naming.Conversion
import Graphwright.Proofs.Module.Documentation
import Graphwright.Proofs.Rebuilt
import Graphwright.Proofs.Given
import Graphwright.Proofs.Naming.Segments
import Graphwright.Proofs.Module.Widths
import Graphwright.Proofs.Resolver.Parents
import Graphwright.Proofs.Naming.FirstFree
import Graphwright.Proofs.Respelling
import Graphwright.Proofs.Document.Rewriting
import Graphwright.Proofs.Response.Remembered
