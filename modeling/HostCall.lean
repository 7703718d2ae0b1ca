import HostCall.Session
import HostCall.Script.Action
import HostCall.Proofs.Call.Parameters
import HostCall.Proofs.Call.Revision
import HostCall.Proofs.Component.Teardown
import HostCall.Proofs.Boundary.Guards
import HostCall.Proofs.Boundary.Containment
import HostCall.Proofs.Component.Closing
import HostCall.Proofs.Component.Reports
import HostCall.Proofs.Host.Declarations
import HostCall.Proofs.Host.Growth
import HostCall.Proofs.Types.Assignability
import HostCall.Proofs.Component.Copies
import HostCall.Proofs.Component.Permanence
import HostCall.Proofs.Component.Construction
import HostCall.Proofs.Text.Bytes
import HostCall.Proofs.Value.Scanning
import HostCall.Proofs.Component.Spelling
import HostCall.Proofs.Toml.Quoted
import HostCall.Proofs.Toml.Pairs
import HostCall.Proofs.Component.Stored
import HostCall.Host.Declaration
import HostCall.Proofs.Call.Resolution
import HostCall.Proofs.Host.Drafts
import HostCall.Proofs.Text.Order
import HostCall.Proofs.Types.Search
import HostCall.Proofs.Host.Registration
import HostCall.Proofs.Call.Gathering
import HostCall.Proofs.Value.Equality
import HostCall.Proofs.Value.Embedding
import HostCall.Proofs.Binding.Tables
import HostCall.Proofs.Graph.Outline
import HostCall.Proofs.Types.Signatures
import HostCall.Proofs.Component.Delivery
