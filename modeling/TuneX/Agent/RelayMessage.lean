import TuneX.Agent.Snapshot
import TuneX.Framework.JsonSize

namespace TuneX.Agent

open Framework.Json

def Protocol.text : Protocol→String
  | .tcp => "tcp"
  | .udp => "udp"

def Phase.text : Phase→String
  | .prepared => "prepared"
  | .active => "active"
  | .draining => "draining"

def Role.text : Role→String
  | .direct => "direct"
  | .relayIngress => "relay-ingress"
  | .relayEgress => "relay-egress"
  | .multihopIngress => "multihop-ingress"
  | .multihopTransit => "multihop-transit"
  | .multihopEgress => "multihop-egress"

def DriverId.text : DriverId→String
  | .direct => "native.direct.v1"
  | .relay => "native.relay.v1"
  | .multihop => "native.multihop.v1"

def targetSize (t : Target) : Nat :=
  objectSize [("host",textSize t.host),("port",numberSize t.port)]

def resourceSize (r : Resource) : Nat :=
  objectSize [("address",textSize r.address),("port",numberSize r.port),
    ("protocol",textSize r.protocol.text)]

def bindingSize (b : Binding) : Nat :=
  objectSize [("scopeId",textSize b.scopeId),("forwardId",textSize b.forwardId),
    ("ingressNodeId",textSize b.ingressNodeId),("egressNodeId",textSize b.egressNodeId),
    ("ingressAssignmentId",textSize b.ingressAssignmentId),
    ("egressAssignmentId",textSize b.egressAssignmentId),("profileId",textSize b.profileId),
    ("forwardRevision",numberSize b.forwardRevision),
    ("deploymentGeneration",numberSize b.deploymentGeneration),
    ("ingressSessionEpoch",numberSize b.ingressSessionEpoch),
    ("egressSessionEpoch",numberSize b.egressSessionEpoch),
    ("ingressFence",numberSize b.ingressFence),("egressFence",numberSize b.egressFence),
    ("profileRevision",numberSize b.profileRevision),("profileDigest",textSize b.profileDigest)]

def profileSize (p : ProfileConfig) : Nat :=
  objectSize [("driver",textSize p.driver),("wireVersion",numberSize p.wireVersion),
    ("security",textSize p.security),
    ("protocols",listSize (p.protocols.map fun x => textSize x.text)),
    ("handshakeTimeoutSeconds",numberSize p.handshakeTimeoutSeconds),
    ("idleTimeoutSeconds",numberSize p.idleTimeoutSeconds),
    ("maxFrameBytes",numberSize p.maxFrameBytes),
    ("maxUdpDatagramBytes",numberSize p.maxUdpDatagramBytes),
    ("maxConnectionsPerNode",numberSize p.maxConnectionsPerNode)]

/-- An absent endpoint is left out of the object. -/
def endpointMember (key : String) (t : Option Target) : List (String×Nat) :=
  (t.map fun x => (key,targetSize x)).toList

def relayConfigSize (c : RelayConfig) : Nat :=
  objectSize ([("role",textSize c.role.text),("binding",bindingSize c.binding),
    ("profile",profileSize c.profile),
    ("peerFingerprints",listSize (c.peerFingerprints.map textSize))]++
    endpointMember "peerEndpoint" c.peerEndpoint++endpointMember "target" c.target++
    [("egressPolicyRevision",numberSize c.egressPolicyRevision),
    ("allowMetadataTargets",boolSize c.allowMetadataTargets),
    ("allowedDestinationCidrs",listSize (c.allowedDestinationCidrs.map textSize))])

def relayDriverSize (d : Driver) (c : RelayConfig) : Nat :=
  objectSize [("id",textSize d.id.text),("schemaVersion",numberSize d.schemaVersion),
    ("configDigest",textSize d.configDigest),("config",relayConfigSize c)]

/-- An assignment together with the Node and the session it is for. -/
def relaySize (node : String) (epoch : Nat) (a : Assignment) (c : RelayConfig) : Nat :=
  objectSize [("protocolVersion",numberSize 3),("nodeId",textSize node),
    ("sessionEpoch",numberSize epoch),("assignmentId",textSize a.assignmentId),
    ("forwardId",textSize a.forwardId),("forwardRevision",numberSize a.forwardRevision),
    ("deploymentGeneration",numberSize a.deploymentGeneration),
    ("bindingFence",numberSize a.bindingFence),("role",textSize a.role.text),
    ("protocol",textSize a.protocol.text),("phase",textSize a.phase.text),
    ("resource",resourceSize a.resource),("driver",relayDriverSize a.driver c),
    ("drainTimeoutSeconds",numberSize a.drainTimeoutSeconds)]

/-- The first message on a peer connection. -/
structure Open where
  wireVersion : Nat
  type : String
  action : String
  requestId : String
  binding : Binding
  deriving DecidableEq

def openSize (o : Open) : Nat :=
  objectSize [("wireVersion",numberSize o.wireVersion),("type",textSize o.type),
    ("action",textSize o.action),("requestId",textSize o.requestId),
    ("binding",bindingSize o.binding)]

end TuneX.Agent
