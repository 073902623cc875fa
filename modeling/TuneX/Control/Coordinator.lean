import TuneX.Control.Publication

namespace TuneX.Control

def ForwardRow.forward (r : ForwardRow) (f : ForwardId) : Forward := ⟨f,r.scopeId,r.revision,r.spec⟩

/-- A turn acts on a deployment only while its Operation runs, has succeeded or cleans up. -/
def Operation.advances (o : Operation) : Bool :=
  !o.recoveryInvalidated &&
    (o.status=.running || o.status=.succeeded || (o.status=.failed && o.cleanupPending))

def Plan.instances (p : Plan) : List Instance :=
  p.nodes.flatMap fun node => node.assignments.map fun a => a.instanceOn node.nodeId

def Plan.slots (p : Plan) : List SlotKey :=
  p.nodes.flatMap fun node => node.assignments.map fun a => a.slotOn node.nodeId

namespace State

def setDeployment (s : State) (f : ForwardId) (g : Nat) (d : Deployment) : State :=
  { s with deployments := s.deployments.insert (f,g) d }

def stillPublished (s : State) (now : Nat) (f : Forward) : Bool :=
  (s.nodeIDs f).any fun n => (s.latestSnapshot n).any fun p =>
    now<p.validUntil+maxClockSkewMillis && p.assignments.any fun a => a.forwardId=f.id

def settleRelay (s : State) (now : Nat) (row : ForwardRow) (op : Operation) (stopped : Bool) :
    State :=
  let finished := op.status=.running && now<op.executionDeadline &&
    (!stopped || row.deleting || !row.spec.enabled || op.kind=.revoke)
  let t := if finished then
      s.updateOperations (fun o => o.id=op.id && o.status=.running && now<o.executionDeadline)
        fun o => { o with status := .succeeded, cleanupPending := false, claim := none }
    else s
  if op.status=.succeeded || stopped then
    t.updateOperations (fun o => o.forwardId=op.forwardId &&
        (o.status=.succeeded || o.status=.failed || o.status=.superseded))
      fun o => { o with cleanupPending := false }
  else t

def completeRelay (s : State) (now : Nat) (f : Forward) (row : ForwardRow) (op : Operation)
    (d : Deployment) : State :=
  if s.unsafeRetirements f.id then s else
  if row.deleting || !row.spec.enabled || op.kind=.revoke || d.stage=.withdrawn then
    if s.stillPublished now f || s.unsafeLeases f.id then s else
      (if row.deleting then s.releaseForwardSlots f.id else s).settleRelay now row op true
  else if d.stage=.active && (d.plan.nodes.all fun node => s.observed now node .active) &&
      s.previousLeasesSafe now f.id d.plan.instances then
    (s.release f.id d.plan.slots.contains).settleRelay now row op false
  else s

def staleSession (s : State) (plan : Plan) : Bool :=
  plan.nodes.any fun node => (s.nodes.lookup node.nodeId).map (·.sessionEpoch)≠some node.sessionEpoch

def currentBound (facts : List ExecutionFacts) : Nat :=
  (facts.map fun e => (e.peers.map (·.validUntil)).foldl min e.credentialUntil).foldl min maxCounter

def renewedAuthority (now : Nat) (plan : Plan) (facts : List ExecutionFacts) : Bool :=
  plan.authorizationUntil≤now+renewalLeadMillis && plan.authorizationUntil<currentBound facts

/-- The actor under whom an outdated plan is replaced. -/
def refreshActor (s : State) (now : Nat) (f : Forward) (row : ForwardRow) (op : Operation)
    (plan : Plan) : Option ActorId :=
  if op.status≠.failed && !row.deleting && row.spec.enabled && op.kind≠.revoke &&
    !row.recoverySuspended && row.revision=plan.forwardRevision then
    row.authorizer.filter fun actor => s.canExecuteRelay now actor f &&
      (s.facts now actor f).any fun facts =>
        s.staleSession plan || pinsChanged now plan facts || renewedAuthority now plan facts
  else none

def refresh (s : State) (now : Nat) (actor : ActorId) (f : Forward) : Except Error State := do
  let t ← s.acceptPlan now actor f
  let u := t.accept now f .policy
  u.assertExecutionCapacity now f
  pure u

def nextRelayStage (s : State) (now : Nat) (d : Deployment) : Stage :=
  let seen (n : NodeId) (phase : Phase) : Bool :=
    (d.plan.nodes.find? fun node => node.nodeId=n).any fun node => s.observed now node phase
  match d.stage with
  | .preparing =>
    if seen d.ingressNodeId .prepared && seen d.egressNodeId .prepared then .egressActive
    else .preparing
  | .egressActive =>
    if seen d.egressNodeId .active && seen d.ingressNodeId .prepared then .ingressActive
    else .egressActive
  | .ingressActive =>
    if seen d.ingressNodeId .active && seen d.egressNodeId .active then .active else .ingressActive
  | stage => stage

/-- The cursors of a multi-hop deployment after one look at the reports. -/
def nextMultihop (s : State) (now : Nat) (d : Deployment) : Deployment :=
  let count := d.plan.nodes.length
  match d.stage with
  | .preparing =>
    if (d.plan.nodes.drop (count-d.preparedCount-1)).all fun node => s.observed now node .prepared then
      let prepared := d.preparedCount+1
      { d with
        preparedCount := prepared
        stage := if prepared=count then .egressActive else .preparing
        activatedCount := if prepared=count then 1 else 0 }
    else d
  | .egressActive =>
    if d.plan.nodes.zipIdx.all fun h =>
        s.observed now h.1 (if count-d.activatedCount≤h.2 then .active else .prepared) then
      if d.activatedCount<count then { d with activatedCount := d.activatedCount+1 }
      else { d with stage := .active }
    else d
  | _ => d

def nextDeployment (s : State) (now : Nat) (d : Deployment) : Deployment :=
  if d.plan.path.isSome then s.nextMultihop now d else { d with stage := s.nextRelayStage now d }

def progress (s : State) (now : Nat) (f : Forward) (row : ForwardRow) (op : Operation) (g : Nat)
    (d : Deployment) : State :=
  let next := s.nextDeployment now d
  let t := s.setDeployment f.id g next
  if next.stage=.active then t.completeRelay now f row op next else t

def withdraw (s : State) (now : Nat) (f : Forward) (row : ForwardRow) (op : Operation) (g : Nat)
    (d : Deployment) : State :=
  let next := { d with stage := .withdrawn }
  (s.setDeployment f.id g next).completeRelay now f row op next

def stopped (s : State) (now : Nat) (f : Forward) (row : ForwardRow) (op : Operation) (plan : Plan) :
    Bool :=
  row.deleting || !row.spec.enabled || op.kind=.revoke || op.status=.failed ||
    row.recoverySuspended || !s.authorized now row f plan

def advanceDeployment (s : State) (now : Nat) (f : Forward) (row : ForwardRow) (op : Operation)
    (g : Nat) (d : Deployment) : Except Error State :=
  if row.spec.via.isEmpty then .ok (s.setDeployment f.id g { d with stage := .withdrawn }) else
  match s.refreshActor now f row op d.plan with
  | some actor => s.refresh now actor f
  | none =>
    if s.stopped now f row op d.plan then .ok (s.withdraw now f row op g d)
    else .ok (s.progress now f row op g d)

def advance (s : State) (now : Nat) (f : ForwardId) : Except Error State :=
  match s.latestDeployment f,s.latest f with
  | some (g,d),some op =>
    match s.forwards.lookup f with
    | none => .error .notFound
    | some row =>
      if op.advances then s.advanceDeployment now (row.forward f) row op g d else .ok s
  | _,_ => .ok s

/-- The Forwards that have or had a deployment over a Node. -/
def relayedOver (s : State) (n : NodeId) : List ForwardId :=
  ((s.deployments.rows.filter fun r => touches r.2 n).map fun r => r.1.1).dedup

def advanceForNode (s : State) (now : Nat) (n : NodeId) : Except Error State :=
  (s.relayedOver n).foldlM (fun t f => t.advance now f) s

/-- The failure belongs to the deployment that is in force. -/
def errorApplies (f : Forward) (row : ForwardRow) (op : Operation) (d : Deployment)
    (snapshot : Snapshot) (a : Assignment) : Bool :=
  d.plan.path.isSome && d.stage≠.withdrawn &&
    (d.plan.nodes.find? fun node =>
        node.nodeId=snapshot.nodeId && node.sessionEpoch=snapshot.sessionEpoch).any (fun node =>
      node.assignments.any fun b =>
        b.instanceOn snapshot.nodeId=a.instanceOn snapshot.nodeId && b.config=a.config) &&
    !op.recoveryInvalidated && op.targetRevision=d.targetRevision && op.kind≠.revoke &&
    (op.status=.running || op.status=.succeeded) && !row.deleting && !row.recoverySuspended &&
    row.spec.enabled && f.revision=d.plan.forwardRevision

def failDeployment (s : State) (now : Nat) (f : Forward) (op : Operation) (g : Nat)
    (d : Deployment) : State :=
  -- A deployment that already succeeded keeps its Operation; the failure is a new one.
  let t := if op.status=.succeeded then s.accept now f .policy else s
  let id := if op.status=.succeeded then s.operations.length else op.id
  (t.updateOperations (fun o => o.id=id) fun o =>
    { o with status := .failed, cleanupPending := true, claim := none }).setDeployment f.id g
    { d with stage := .withdrawn }

def executionError (s : State) (now : Nat) (snapshot : Snapshot) (a : Assignment)
    (o : Observation) : State :=
  match s.latestDeployment a.forwardId,s.latest a.forwardId,s.forwards.lookup a.forwardId with
  | some (g,d),some op,some row =>
    if o.condition=.error && multihopRole a.role &&
      o.instanceOn snapshot.nodeId=a.instanceOn snapshot.nodeId && !o.retryable &&
      errorApplies (row.forward a.forwardId) row op d snapshot a then
      s.failDeployment now (row.forward a.forwardId) op g d
    else s
  | _,_,_ => s

end State

end TuneX.Control
