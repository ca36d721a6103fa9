import GatewayDocs.Client.Gateway
import GatewayDocs.Client.Pages
import GatewayDocs.Main
import GatewayDocs.Publish
import GatewayDocs.Proofs.Graph
import GatewayDocs.Proofs.Chaining
import GatewayDocs.Proofs.Schedule
import GatewayDocs.Proofs.Response
import GatewayDocs.Proofs.Write
import GatewayDocs.Proofs.Acyclic
import GatewayDocs.Proofs.Links
import GatewayDocs.Proofs.Augment
import GatewayDocs.Proofs.Checked
import GatewayDocs.Proofs.Compile
import GatewayDocs.Proofs.Dependencies
import GatewayDocs.Proofs.Failure
import GatewayDocs.Proofs.Recompile
import GatewayDocs.Proofs.Reading
import GatewayDocs.Proofs.Kept
import GatewayDocs.Proofs.Definitions
import GatewayDocs.Proofs.Attempts
import GatewayDocs.Proofs.Fingerprint
import GatewayDocs.Proofs.Order
import GatewayDocs.Proofs.Protocol
import GatewayDocs.Proofs.Verdict
import GatewayDocs.Proofs.Names
import GatewayDocs.Proofs.Changes
import GatewayDocs.Proofs.Loading
import GatewayDocs.Proofs.Spared
import GatewayDocs.Proofs.Delivery
import GatewayDocs.Proofs.Resolution
import GatewayDocs.Proofs.Documented
import GatewayDocs.Proofs.Locations
import GatewayDocs.Proofs.Silence
import GatewayDocs.Proofs.NormalForm
import GatewayDocs.Proofs.Cursor
import GatewayDocs.Proofs.Rereading
