import TuneX.Control.Plan

namespace TuneX.Control

open Framework

/-- The Nodes an assignment talks to, with the credentials it pins for them. -/
def pinnedPeers (a : Assignment) : List (NodeId×Fingerprint) :=
  match a.config with
  | .direct _ _ => []
  | .relay peer fingerprints _ _ _ => fingerprints.map fun p => (peer,p)
  | .multihop path _ _ _ _ => path.map fun h => (h.nodeId,h.peerFingerprint)

def configPolicy : Config→EgressPolicy
  | .direct _ policy => policy
  | .relay _ _ _ policy _ => policy
  | .multihop _ _ _ policy _ => policy

def factsOf (facts : List ExecutionFacts) (n : NodeId) : Option ExecutionFacts :=
  facts.find? fun e => e.nodeId=n

/-- A pinned credential is still a current one of that Node for longer than the clock skew. -/
def pinHolds (now : Nat) (facts : List ExecutionFacts) (pin : NodeId×Fingerprint) : Bool :=
  (factsOf facts pin.1).any fun e =>
    e.peers.any fun p => p.fingerprint=pin.2 && now+maxClockSkewMillis<p.validUntil

def relayPeerPinsChanged (facts : List ExecutionFacts) (a : Assignment) : Bool :=
  match a.config with
  | .relay peer fingerprints _ _ _ =>
    !(factsOf facts peer).any fun e => fingerprints.isPerm (e.peers.map (·.fingerprint))
  | _ => true

def pinsChanged (now : Nat) (plan : Plan) (facts : List ExecutionFacts) : Bool :=
  plan.nodes.any fun node => node.assignments.any fun a =>
    if plan.path.isSome then !(pinnedPeers a).all (pinHolds now facts)
    else relayPeerPinsChanged facts a

/-- The plan's Node still has its pinned session, policy and, on a two-Node Relay, its peers. -/
def nodeUnchanged (now : Nat) (plan : Plan) (facts : List ExecutionFacts) (node : PlanNode) : Bool :=
  (factsOf facts node.nodeId).any fun e => e.sessionEpoch=node.sessionEpoch &&
    node.assignments.all fun a => e.facts.policy=configPolicy a.config &&
      (plan.path.isSome || (pinnedPeers a).all (pinHolds now facts))

namespace State

/-- A two-Node plan stores the revision of its only endpoint, a multi-hop plan one for each. -/
def endpointsUnchanged (s : State) (f : Forward) (plan : Plan) : Bool :=
  (if plan.path.isNone then f.spec.via.take 1 else f.spec.via).all fun n =>
    (s.world.endpoint n).any fun e =>
      (plan.endpointRevisions.find? fun r => plan.path.isNone || r.1=n).any fun r => r.2=e.revision

def authorized (s : State) (now : Nat) (row : ForwardRow) (f : Forward) (plan : Plan) : Bool :=
  match row.authorizer with
  | none => false
  | some actor =>
    s.canExecuteRelay now actor f && (plan.path.isNone || plan.path=some f.spec.path) &&
      now+2*maxClockSkewMillis<plan.authorizationUntil &&
      s.endpointsUnchanged f plan &&
      (s.facts now actor f).any fun facts =>
        (plan.path.isNone || !pinsChanged now plan facts) && plan.nodes.all (nodeUnchanged now plan facts)

def publishablePlan (s : State) (now : Nat) (f : ForwardId) (d : Deployment)
    (includeAccepted : Bool) : Bool :=
  match s.latest f,s.forwards.lookup f with
  | some op,some row =>
    !op.recoveryInvalidated && op.kind≠.revoke && op.live now includeAccepted && !row.deleting &&
      !row.recoverySuspended && row.spec.enabled && row.revision=d.targetRevision &&
      d.stage≠.withdrawn && s.authorized now row ⟨f,row.scopeId,row.revision,row.spec⟩ d.plan
  | _,_ => false

def touches (d : Deployment) (n : NodeId) : Bool :=
  d.ingressNodeId=n || d.egressNodeId=n || (d.plan.path.getD []).contains n

def relayActive (d : Deployment) (role : Role) : Bool :=
  d.stage=.ingressActive || d.stage=.active || (d.stage=.egressActive && role=.relayEgress)

def multihopActive (d : Deployment) (count index : Nat) : Bool :=
  d.stage=.active || (d.stage≠.preparing && count-d.activatedCount ≤ index)

/-- Only the next Node upstream of the prepared ones is admitted while preparing. -/
def admitted (d : Deployment) (count index : Nat) : Bool :=
  d.stage≠.preparing || count-min count (d.preparedCount+1) ≤ index

def withPhase (active : Bool) (a : Assignment) : Assignment :=
  { a with phase := if active then .active else .prepared }

/-- What one deployment contributes to the snapshot of a Node. -/
def deploymentAssignments (s : State) (now : Nat) (n : NodeId) (includeAccepted : Bool)
    (d : Deployment) (node : PlanNode) : List Assignment :=
  match d.plan.path with
  | none => node.assignments.map fun a => withPhase (relayActive d a.role) a
  | some path =>
    let count := path.length
    let index := path.idxOf n
    if includeAccepted || (s.sessionAuthoritySafe now n node.sessionEpoch && admitted d count index)
    then node.assignments.map (withPhase (multihopActive d count index))
    else []

/-- The latest deployments that reach a Node. -/
def deploymentsOn (s : State) (n : NodeId) : List (ForwardId×Deployment) :=
  (s.deployments.rows.filter fun r =>
    touches r.2 n && s.latestDeployment r.1.1=some (r.1.2,r.2)).map fun r => (r.1.1,r.2)

def deploymentOn (s : State) (now : Nat) (n : NodeId) (includeAccepted : Bool)
    (r : ForwardId×Deployment) : Except Error (List Assignment) :=
  if s.publishablePlan now r.1 r.2 includeAccepted then
    match r.2.plan.nodes.find? fun node => node.nodeId=n with
    | none => .error .missingRelayNode
    | some node => .ok (s.deploymentAssignments now n includeAccepted r.2 node)
  else .ok []

def relayAssignments (s : State) (now : Nat) (n : NodeId) (includeAccepted : Bool) :
    Except Error (List Assignment) :=
  ((s.deploymentsOn n).mapM (s.deploymentOn now n includeAccepted)).map List.flatten

def intentAllowed (s : State) (f : Forward) : Bool :=
  let facts := s.world.facts f.spec.nodeId
  facts.scopeId=f.scopeId && facts.allowedListenerAddresses.contains f.spec.address &&
    facts.allowedPorts.contains f.spec.port && facts.targetAllowed f.spec.target.host &&
    (s.nodes.lookup f.spec.nodeId).any fun row =>
      ([Capability.adp3,.nativeDirect]++f.spec.protocols.map Capability.transport).all row.capabilities.contains

def canExecuteDirect (s : State) (now : Nat) (actor : ActorId) (f : Forward) : Bool :=
  s.world.executing actor f.scopeId && s.world.granted f.spec.nodeId actor &&
    s.nodeAuthorized now f.spec.nodeId && s.intentAllowed f

def compileDirectOne (s : State) (f : Forward) (p : Protocol) : Except Error Assignment :=
  match s.slots.lookup (f.spec.slotKey p) with
  | none => .error .resourceConflict
  | some row =>
    if row.owner=some f.id ∧ 1 ≤ row.fence ∧ 1 ≤ row.generation then
      .ok ⟨⟨f.spec.nodeId,f.id,p,.direct⟩,f.id,f.revision,row.generation,row.fence,.direct,p,.active,
        ⟨f.spec.address,f.spec.port,p⟩,
        .direct f.spec.target (s.world.facts f.spec.nodeId).policy,drainTimeoutSeconds⟩
    else .error .resourceConflict

def compileDirect (s : State) (f : Forward) : Except Error (List Assignment) := do
  let policy := (s.world.facts f.spec.nodeId).policy
  reject (policy.revision=0 ∨ policy.cidrs=[]) .authorizationDenied
  f.spec.protocols.mapM (s.compileDirectOne f)

/-- The intent of a Forward row may be published from its slots now. -/
def directPublishable (s : State) (now : Nat) (includeAccepted : Bool) (f : Forward)
    (row : ForwardRow) : Bool :=
  (s.newestFor f.id f.revision).any (fun op =>
    !op.recoveryInvalidated && op.live now includeAccepted && op.kind≠.revoke) &&
    f.spec.enabled && row.authorizer.any fun actor => s.canExecuteDirect now actor f

def directOf (s : State) (now : Nat) (includeAccepted : Bool) (r : ForwardId×ForwardRow) :
    Except Error (List Assignment) :=
  let f : Forward := ⟨r.1,r.2.scopeId,r.2.revision,r.2.spec⟩
  if s.directPublishable now includeAccepted f r.2 then s.compileDirect f else .ok []

def directForwards (s : State) (n : NodeId) : List (ForwardId×ForwardRow) :=
  s.forwards.rows.filter fun r =>
    !r.2.deleting && !r.2.recoverySuspended && r.2.spec.nodeId=n && r.2.spec.via.isEmpty

/-- The complete set of a Node; two of its members share neither a name nor a socket. -/
def assignments (s : State) (now : Nat) (n : NodeId) (includeAccepted : Bool) :
    Except Error (List Assignment) := do
  let direct ← (s.directForwards n).mapM (s.directOf now includeAccepted)
  let relay ← s.relayAssignments now n includeAccepted
  let all := direct.flatten++relay
  reject (¬(all.map (·.assignmentId)).Nodup ∨
    ¬(all.map fun a => (a.forwardId,a.protocol,a.role)).Nodup ∨
    ¬(all.map (·.slotOn n)).Nodup) .resourceConflict
  pure all

end State

/-- An assignment on a socket that a tombstone has fenced off. -/
def resurrects (t : Tombstone) (a : Assignment) : Bool :=
  a.resource.protocol=t.physicalProtocol && a.resource.port=t.port && a.bindingFence≤t.bindingFence

def compileSnapshot (n : NodeId) (epoch generation issuedAt validUntil : Nat)
    (assignments : List Assignment) (tombstones : List Tombstone) : Except Error Snapshot := do
  reject (validUntil ≤ issuedAt ∨ issuedAt+leaseMillis<validUntil) .invalidConfig
  reject (maxAssignmentsPerNode<assignments.length) .resourceLimit
  reject (¬(tombstones.map fun t => (t.physicalProtocol,t.port,t.bindingFence)).Nodup ∨
    tombstones.any fun t => generation<t.retirementGeneration) .invalidConfig
  reject (tombstones.any fun t => assignments.any (resurrects t)) .fencingRejected
  pure ⟨n,epoch,generation,issuedAt,validUntil,assignments,tombstones⟩

namespace State

/-- The tombstones a Node would have if its latest snapshot were replaced. -/
def expectedTombstones (s : State) (n : NodeId) (assignments : List Assignment) : List Tombstone :=
  let stored := s.tombstones n maxCounter
  let old := ((s.latestSnapshot n).map (·.assignments)).getD []
  stored++(old.filter fun a =>
    !(assignments.any fun b => b.instanceOn n=a.instanceOn n) &&
      !stored.any fun t => t.assignmentId=a.assignmentId && t.bindingFence=a.bindingFence &&
        t.port=a.resource.port && t.protocol=a.protocol).map
    fun a => tombstone maxCounter ⟨a.forwardId,a,none,maxCounter,false⟩

def assertCapacity (s : State) (now : Nat) (n : NodeId) : Except Error Unit := do
  let assignments ← s.assignments now n true
  let epoch := ((s.nodes.lookup n).map (·.sessionEpoch)).getD maxCounter
  let _ ← compileSnapshot n epoch maxCounter now (now+leaseMillis) assignments
    (s.expectedTombstones n assignments)
  pure ()

/-- Every Node an intent or one of its deployments has used. -/
def nodeIDs (s : State) (f : Forward) : List NodeId :=
  f.spec.path++(s.deployments.rows.filter fun r => r.1.1=f.id).flatMap fun r =>
    r.2.plan.nodes.map (·.nodeId)

def assertExecutionCapacity (s : State) (now : Nat) (f : Forward) : Except Error Unit :=
  (s.nodeIDs f).forM (s.assertCapacity now)

/-- How long the current credentials behind the Relay assignments last. -/
def planBound (s : State) (now : Nat) (plan : Plan) : Option Nat := do
  let bounds ← plan.nodes.mapM fun node => do
    let peers ← s.relayCredentialFacts now node.nodeId false
    let pinned := ((plan.nodes.flatMap fun part => part.assignments.flatMap pinnedPeers).filter
      fun p => p.1=node.nodeId).map Prod.snd |>.dedup
    let credentials := peers.filter fun p => pinned.contains p.fingerprint
    if credentials.length=pinned.length then
      some ((credentials.map (·.validUntil)).foldl min (s.world.credentialUntil node.nodeId))
    else none
  some (bounds.foldl min plan.authorizationUntil)

def authorizationBound (s : State) (now : Nat) (assignments : List Assignment) :
    Except Error Nat :=
  let relayed := ((assignments.filter fun a => a.role≠.direct).map (·.forwardId)).dedup
  relayed.foldlM (fun bound f =>
    match s.latestDeployment f with
    | none => .error .missingRelayNode
    | some d => match s.planBound now d.2.plan with
      | none => .error .authorizationDenied
      | some b => .ok (min bound b)) maxCounter

/-- Assignments of a plan Node are in its current snapshot and reported there, in one phase. -/
def observedIn (node : PlanNode) (phase : Phase) (report : Report) (snapshot : Snapshot) : Bool :=
  node.assignments.all fun a =>
    (snapshot.assignments.any fun c => c.instanceOn node.nodeId=a.instanceOn node.nodeId &&
      c.config=a.config && c.phase=phase) &&
    report.observations.any fun o => o.instanceOn node.nodeId=a.instanceOn node.nodeId &&
      o.phase=some phase && o.condition=if phase=.prepared then .prepared else .ready

def observed (s : State) (now : Nat) (node : PlanNode) (phase : Phase) : Bool :=
  match s.nodes.lookup node.nodeId with
  | none => false
  | some row => match row.lastReport,row.receivedAt with
    | some report,some received =>
      row.sessionEpoch=node.sessionEpoch && now < received+observationFreshnessMillis &&
        report.sessionEpoch=node.sessionEpoch &&
        report.acceptedSnapshotGeneration=row.snapshotGeneration &&
        (s.snapshots.lookup (node.nodeId,row.snapshotGeneration)).any fun snapshot =>
          snapshot.sessionEpoch=node.sessionEpoch && now+maxClockSkewMillis<snapshot.validUntil &&
            observedIn node phase report snapshot
    | _,_ => false

end State

end TuneX.Control
