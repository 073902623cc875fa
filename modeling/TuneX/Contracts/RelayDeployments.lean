import TuneX.Contracts.RelayPlan
import TuneX.Framework.Closure
import TuneX.Framework.Run

namespace TuneX.Contracts

open Agent Framework

inductive Stage
  | preparing
  | egressActive
  | ingressActive
  | active
  | withdrawn
  deriving DecidableEq, Repr

/-- A row of `relay_deployments`. -/
structure Deployment where
  forwardId : String
  generation : Nat
  targetRevision : Nat
  ingressNodeId : String
  egressNodeId : String
  stage : Stage
  body : PreparedPlan
  pathNodes : Option (List String)
  preparedCount : Nat
  activatedCount : Nat

/-- The multi-hop plan as it is stored. -/
def Plan.prepared (digest : PreparedPlan→String) (p : Plan) : PreparedPlan :=
  let plan : PreparedPlan := {
    path := some p.path
    endpointRevisions := some p.endpointRevisions
    forwardId := p.forwardId
    forwardRevision := p.forwardRevision
    deploymentGeneration := p.deploymentGeneration
    endpointRevision := 0
    authorizationUntil := p.authorizationUntil
    nodes := p.nodes
    planDigest := "" }
  {plan with planDigest := digest plan}

/-- What the coordinator reads while it accepts a plan: the facts of a Node for the actor, the
locked Profile, the endpoint of a Node, the owner of a TCP port if the port has a row, the ledger
that reserves resources, and its policy and clock. -/
structure Surroundings where
  facts : String→Except String NodeFacts
  profile : String→Nat→Except String ResolvedProfile
  endpoint : String→Except String ResolvedEndpoint
  owner : String→Nat→Option (Option String)
  reserveRelay : List RelayResource→Nat→Except String (List Reserved)
  multihopEnabled : Bool
  drainTimeoutSeconds : Nat
  now : Nat

section Coordinator

variable (lib : Library) (assignmentId : String→String→Protocol→Role→String)
  (digest : PreparedPlan→String)

/-- `plan` of the coordinator: the stored body, if it belongs to its row. -/
def Deployment.plan (record : Deployment) : Except String PreparedPlan := do
  reject (digest record.body.body≠record.body.planDigest ∨ record.body.forwardId≠record.forwardId ∨
    record.body.forwardRevision≠record.targetRevision ∨
    record.body.deploymentGeneration≠record.generation)
    "INTEGRITY_FAILURE: Relay plan integrity differs"
  return record.body

def newer (best : Option Deployment) (r : Deployment) : Option Deployment :=
  match best with
  | none => some r
  | some b => if b.generation<r.generation then some r else some b

/-- The row of a Forward with the highest generation. -/
def latest (rows : List Deployment) (forwardId : String) : Option Deployment :=
  (rows.filter (·.forwardId=forwardId)).foldl newer none

/-- `nodeIDs`, which the coordinator locks before it accepts a plan. -/
def nodeIDs (rows : List Deployment) (f : Forward) : Except String (List String) := do
  let plans ← (rows.filter (·.forwardId=f.id)).mapM (Deployment.plan digest)
  return ((f.ingressNodeId::f.via)++plans.flatMap fun p => p.nodes.map PlanNode.nodeId).dedup
    |>.insertionSort (·≤·)

def executionFacts (e : Surroundings) (f : Forward) : Except String (List NodeFacts) := do
  reject (f.via=[] ∨ f.transport.isNone ∨ 1<f.via.length ∧ !e.multihopEnabled)
    "UNSUPPORTED_CAPABILITY: Multi-hop execution is disabled or a locked Profile is missing"
  ((f.ingressNodeId::f.via).insertionSort (·≤·)).mapM e.facts

def lockedProfile (e : Surroundings) (f : Forward) : Except String ResolvedProfile :=
  match f.transport with
  | some (profileId,revision) => e.profile profileId revision
  | none => .error "TypeError"

/-- The first port of an endpoint that is not in use here and has no other owner. The port of the
previous plan is tried first. -/
def choosePort (e : Surroundings) (f : Forward) (endpoint : ResolvedEndpoint)
    (preferred : Option Nat) (used : List Nat) : Option Nat :=
  let ports := endpoint.config.allowedTcpPorts
  ((preferred.toList.filter fun p => p≠0 ∧ p∈ports)++ports).eraseDups.find? fun port =>
    port∉used ∧ (e.owner endpoint.nodeId port).all fun owner => owner.all (·==f.id)

/-- The ports of all protocols in turn. -/
def choosePorts (e : Surroundings) (f : Forward) (endpoint : ResolvedEndpoint)
    (preferred : Protocol→Option Nat) (conflict : String) :
    List Nat→List Protocol→Except String (List (Protocol×Nat))
  | _,[] => .ok []
  | used,p::l =>
    match choosePort e f endpoint (preferred p) used with
    | none => .error conflict
    | some port => do
      reject (port=0) conflict
      let rest ← choosePorts e f endpoint preferred conflict (port::used) l
      return (p,port)::rest

/-- The port a previous plan gave to a protocol on a Node. -/
def previousPort (old : Option PreparedPlan) (nodeId : String) (egressOnly : Bool) (p : Protocol) :
    Option Nat := do
  let plan ← old
  let node ← plan.nodes.find? (·.nodeId=nodeId)
  let a ← node.assignments.find? fun a => a.protocol=p ∧ (egressOnly→a.role=.relayEgress)
  return a.resource.port

/-- `multihopInput` before the reservations are made. -/
def multihopInput (e : Surroundings) (f : Forward) (old : Option PreparedPlan) :
    Except String PlanInput := do
  let nodes ← executionFacts e f
  let profile ← lockedProfile e f
  let parts ← (f.via.insertionSort (·≤·)).mapM fun id => do
    let endpoint ← e.endpoint id
    let ports ← choosePorts e f endpoint (previousPort old id false)
      "PORT_RESERVED: No exclusive multi-hop TLS resource is available" [] f.protocols
    return (endpoint,ports.map fun x => (id,x))
  return ⟨f,nodes,profile,parts.map Prod.fst,parts.flatMap Prod.snd,[],e.drainTimeoutSeconds,
    some e.now⟩

def acceptMultihop (e : Surroundings) (f : Forward) (old : Option PreparedPlan) (generation : Nat) :
    Except String Deployment := do
  let input ← multihopInput e f old
  let resources ← compileMultihopResources lib (planner assignmentId) input
  let reservations ← e.reserveRelay resources generation
  let plan ← compileMultihopPlan lib (planner assignmentId) {input with reservations}
  return ⟨f.id,generation,f.revision,plan.path.headD "",plan.path.getLastD "",.preparing,
    plan.prepared digest,some plan.path,0,0⟩

def acceptRelay (e : Surroundings) (f : Forward) (old : Option PreparedPlan) (generation : Nat) :
    Except String Deployment := do
  let nodes ← executionFacts e f
  let profile ← lockedProfile e f
  let endpoint ← e.endpoint (f.via.headD "")
  let ports ← choosePorts e f endpoint (previousPort old endpoint.nodeId true)
    "PORT_RESERVED: No authorized exclusive internal TLS port is available" [] f.protocols
  let resources ← compileRelayResources lib (planner assignmentId) f nodes profile endpoint
    fun p => (ports.lookup p).getD 0
  let reservations ← e.reserveRelay resources generation
  let plan ← compileRelayPlan lib (planner assignmentId) digest
    ⟨f,true,nodes,profile,endpoint,reservations,some e.now,e.drainTimeoutSeconds⟩
  return ⟨f.id,generation,f.revision,f.ingressNodeId,f.via.headD "",.preparing,plan,none,0,0⟩

def previousPlan : Option Deployment→Except String (Option PreparedPlan)
  | none => .ok none
  | some r => (r.plan digest).map some

/-- `acceptPlan`: the row it inserts. The Forward is planned as an enabled one. -/
def acceptPlan (e : Surroundings) (rows : List Deployment) (f : Forward) :
    Except String Deployment := do
  let _ ← nodeIDs digest rows f
  let previous := latest rows f.id
  let generation := max f.revision ((previous.map Deployment.generation).getD 0+1)
  reject (maxCounter<generation) "RESOURCE_LIMIT: Relay generation exhausted"
  let old ← previousPlan digest previous
  if 1<f.via.length then acceptMultihop lib assignmentId digest e f old generation
  else acceptRelay lib assignmentId digest e f old generation

structure Status where
  generation : Nat
  forwardRevision : Nat
  stage : Stage
  preparedCount : Option Nat
  activatedCount : Option Nat
  activationOrder : List String
  authorizationUntil : Nat
  deriving DecidableEq

/-- The part of `status` that describes the deployment itself. -/
def status (rows : List Deployment) (forwardId : String) : Except String (Option Status) :=
  match latest rows forwardId with
  | none => .ok none
  | some record => do
    let plan ← record.plan digest
    return some ⟨plan.deploymentGeneration,plan.forwardRevision,record.stage,
      plan.path.map fun _ => record.preparedCount,plan.path.map fun _ => record.activatedCount,
      plan.nodes.reverse.map PlanNode.nodeId,plan.authorizationUntil⟩

/-- `activationOrder` of the path topology: the last Node of the path first. -/
def activationOrder (f : Forward) : Except String (List String) := do
  let nodes ← compilePathTopology (planner assignmentId) f
  return nodes.reverse.map PathNode.nodeId

end Coordinator

section Order

variable {lib : Library} {assignmentId : String→String→Protocol→Role→String}
  {digest : PreparedPlan→String} {e : Surroundings} {rows : List Deployment} {f : Forward}
  {nodes : List PathNode} {old : Option PreparedPlan} {generation : Nat} {row : Deployment}

theorem compilePathTopology_names (h : compilePathTopology (planner assignmentId) f=.ok nodes) :
    nodes.map PathNode.nodeId=f.ingressNodeId::f.via := by
  unfold compilePathTopology at h
  split at h
  · simp at h
  · next g hg =>
    have hparsed := parseForward_some hg
    simp only [do_ok] at h
    obtain ⟨-,-,rfl⟩ := h
    rw [hparsed.ingress,hparsed.via]
    apply List.ext_getElem?
    intro k
    rw [List.getElem?_map,List.getElem?_mapIdx,Option.map_map]
    simp [Function.comp_def]

theorem activationOrder_ok (h : compilePathTopology (planner assignmentId) f=.ok nodes) :
    activationOrder assignmentId f=.ok (f.ingressNodeId::f.via).reverse := by
  simp only [activationOrder,do_ok]
  exact ⟨nodes,h,by rw [List.map_reverse,compilePathTopology_names h]⟩

theorem compilePathTopology_two {g : Forward} (h : parseForward f=some g) {y : String}
    (hvia : g.via=[y]) : ∃nodes, compilePathTopology (planner assignmentId) f=.ok nodes := by
  have hdistinct := (parseForward_some h).distinct
  rw [hvia] at hdistinct
  unfold compilePathTopology
  simp only [show (planner assignmentId).parseForward f=some g from h,hvia,do_ok]
  exact ⟨_,by simp,by simpa using hdistinct,rfl⟩

theorem acceptRelay_order (h : acceptRelay lib assignmentId digest e f old generation=.ok row) :
    row.forwardId=f.id ∧ row.body.forwardRevision=f.revision ∧ ∃egress, f.via=[egress] ∧
      activationOrder assignmentId f=.ok [egress,f.ingressNodeId] ∧
      (row.body.nodes.reverse.map PlanNode.nodeId=[egress,f.ingressNodeId] ↔
        f.ingressNodeId<egress) := by
  simp only [acceptRelay,do_ok] at h
  obtain ⟨nodes,-,profile,-,endpoint,-,ports,-,resources,-,reservations,-,plan,hplan,rfl⟩ := h
  obtain ⟨g,now,ingress,egress,resources',rs,pairs,hc,-⟩ := compileRelayPlan_ok hplan
  have hparsed := parseForward_some hc.parsed
  have hfirst : f.ingressNodeId=ingress.nodeId := hparsed.ingress.symm.trans hc.first
  have hsecond : f.via=[egress.nodeId] := hparsed.via.symm.trans hc.second
  have hpath : ∃path, compilePathTopology (planner assignmentId) f=.ok path :=
    compilePathTopology_two hc.parsed hc.second
  obtain ⟨path,hpath⟩ := hpath
  have horder := activationOrder_ok hpath
  refine ⟨rfl,hc.revision.trans hparsed.revision,egress.nodeId,hsecond,?_,?_⟩
  · rw [horder,hsecond]
    rfl
  · rw [hc.planned,hfirst]
    by_cases hle : ingress.nodeId≤egress.nodeId
    · have hlt : ingress.nodeId<egress.nodeId := lt_of_le_of_ne hle hc.distinct
      simp [List.insertionSort,planNodeOf,hle,hlt]
    · have hlt : ¬ingress.nodeId<egress.nodeId := fun hlt => hle hlt.le
      simp [List.insertionSort,planNodeOf,hle,hlt,hc.distinct]

theorem compileMultihopPlan_revision {P : Planner} {i : PlanInput} {plan : Plan}
    (h : compileMultihopPlan lib P i=.ok plan) : plan.forwardRevision=i.forward.revision := by
  simp only [compileMultihopPlan,bind_ok] at h
  obtain ⟨resources,-,nodes,-,-,-,h⟩ := h
  split at h
  · simp at h
  · simp only [do_ok] at h
    obtain ⟨-,peers,-,parts,-,rfl⟩ := h
    rfl

theorem acceptMultihop_order (h : acceptMultihop lib assignmentId digest e f old generation=.ok row) :
    row.forwardId=f.id ∧ row.body.forwardRevision=f.revision ∧
      activationOrder assignmentId f=.ok (row.body.nodes.reverse.map PlanNode.nodeId) := by
  simp only [acceptMultihop,do_ok] at h
  obtain ⟨input,hinput,resources,-,reservations,-,plan,hplan,rfl⟩ := h
  have hforward : input.forward=f := by
    simp only [multihopInput,do_ok] at hinput
    obtain ⟨nodes,-,profile,-,parts,-,rfl⟩ := hinput
    rfl
  obtain ⟨resources',pins,nodes,parts,hnodes,hparts,hlist⟩ := compileMultihopPlan_ok hplan
  have hrevision := compileMultihopPlan_revision hplan
  have hids : plan.nodes.map PlanNode.nodeId=nodes.map PathNode.nodeId := by
    rw [hlist,List.map_map]
    rfl
  simp only [hforward] at hnodes hrevision
  refine ⟨rfl,hrevision,?_⟩
  rw [activationOrder_ok hnodes,← compilePathTopology_names hnodes,← hids,List.map_reverse]
  rfl

theorem acceptPlan_order (h : acceptPlan lib assignmentId digest e rows f=.ok row) :
    row.forwardId=f.id ∧ row.body.forwardRevision=f.revision ∧ ∃order,
      activationOrder assignmentId f=.ok order ∧
      (row.body.nodes.reverse.map PlanNode.nodeId=order ↔
        1<f.via.length ∨ ∃egress, f.via=[egress] ∧ f.ingressNodeId<egress) := by
  simp only [acceptPlan,do_ok] at h
  obtain ⟨-,-,-,old,-,h⟩ := h
  split_ifs at h with hlong
  · obtain ⟨hid,hrevision,horder⟩ := acceptMultihop_order h
    exact ⟨hid,hrevision,_,horder,by simp [hlong]⟩
  · obtain ⟨hid,hrevision,egress,hvia,horder,hiff⟩ := acceptRelay_order h
    refine ⟨hid,hrevision,_,horder,?_⟩
    rw [hiff,hvia]
    simp

end Order

/-- What is written to the table: an accepted plan, the progress of one row, or the quarantine
after a recovery. -/
inductive TableEvent
  | accept (e : Surroundings) (f : Forward)
  | progress (forwardId : String) (generation : Nat) (stage : Stage) (prepared activated : Nat)
  | quarantine

section History

variable (lib : Library) (assignmentId : String→String→Protocol→Role→String)
  (digest : PreparedPlan→String)

def TableStep (rows : List Deployment) : TableEvent→List Deployment→Prop
  | .accept e f,next =>
    ∃row, acceptPlan lib assignmentId digest e rows f=.ok row ∧ next=rows++[row]
  | .progress forwardId generation stage prepared activated,next =>
    next=rows.map fun r => if r.forwardId=forwardId ∧ r.generation=generation then
      {r with stage,preparedCount := prepared,activatedCount := activated} else r
  | .quarantine,next => next=rows.map fun r => {r with stage := .withdrawn}

variable {lib assignmentId digest}

/-- A row was stored by an earlier call of `acceptPlan`; only its progress has changed since. -/
def StoredBy (lib : Library) (assignmentId : String→String→Protocol→Role→String)
    (digest : PreparedPlan→String) (events : List TableEvent) (r : Deployment) : Prop :=
  ∃e before f row, TableEvent.accept e f∈events ∧
    acceptPlan lib assignmentId digest e before f=.ok row ∧ r.forwardId=row.forwardId ∧
    r.body=row.body

variable {events : List TableEvent} {r : Deployment} {rows : List Deployment}

theorem StoredBy.mono (ev : TableEvent) (h : StoredBy lib assignmentId digest events r) :
    StoredBy lib assignmentId digest (events++[ev]) r := by
  obtain ⟨e,before,f,row,hmem,hrest⟩ := h
  exact ⟨e,before,f,row,List.mem_append_left _ hmem,hrest⟩

theorem rows_stored (h : Run (TableStep lib assignmentId digest) [] events rows) :
    ∀r∈rows, StoredBy lib assignmentId digest events r := by
  apply Run.history (fun events rows => ∀r∈rows, StoredBy lib assignmentId digest events r) _ h
    (by simp)
  intro events rows ev next _ hstep ih
  cases ev with
  | accept e f =>
    obtain ⟨row,hrow,rfl⟩ := hstep
    intro r hr
    rcases List.mem_append.mp hr with hr|hr
    · exact (ih r hr).mono _
    · rw [List.mem_singleton.mp hr]
      exact ⟨e,rows,f,row,by simp,hrow,rfl,rfl⟩
  | progress forwardId generation stage prepared activated =>
    rw [show next=_ from hstep]
    intro r hr
    obtain ⟨x,hx,rfl⟩ := List.mem_map.mp hr
    have hold := (ih x hx).mono (.progress forwardId generation stage prepared activated)
    split_ifs
    · exact hold
    · exact hold
  | quarantine =>
    rw [show next=_ from hstep]
    intro r hr
    obtain ⟨x,hx,rfl⟩ := List.mem_map.mp hr
    exact (ih x hx).mono _

theorem newer_mem {l : List Deployment} {best : Option Deployment} (h : l.foldl newer best=some r) :
    best=some r ∨ r∈l := by
  induction l generalizing best with
  | nil => exact .inl h
  | cons x l ih =>
    rw [List.mem_cons]
    rcases ih h with hx|hr
    · cases best with
      | none => exact .inr (.inl (Option.some.inj hx).symm)
      | some b =>
        simp only [newer] at hx
        split_ifs at hx
        · exact .inr (.inl (Option.some.inj hx).symm)
        · exact .inl hx
    · exact .inr (.inr hr)

theorem latest_mem {forwardId : String} (h : latest rows forwardId=some r) :
    r∈rows ∧ r.forwardId=forwardId := by
  rcases newer_mem h with hr|hr
  · cases hr
  · simpa using hr

/-- In every history the reported order is the downstream-first order of the path exactly when the
path has more than two Nodes or its ingress is named before its egress. -/
theorem reported_order_iff (lib : Library) (assignmentId : String→String→Protocol→Role→String)
    (digest : PreparedPlan→String) (events : List TableEvent) (rows : List Deployment)
    (hrun : Run (TableStep lib assignmentId digest) [] events rows) (forwardId : String)
    (st : Status) (hst : status digest rows forwardId=.ok (some st)) :
    ∃e before f row, TableEvent.accept e f∈events ∧
      acceptPlan lib assignmentId digest e before f=.ok row ∧ f.id=forwardId ∧
      f.revision=st.forwardRevision ∧ (latest rows forwardId).map Deployment.body=some row.body ∧
      ∃order, activationOrder assignmentId f=.ok order ∧
        (st.activationOrder=order ↔
          1<f.via.length ∨ ∃egress, f.via=[egress] ∧ f.ingressNodeId<egress) := by
  unfold status at hst
  split at hst
  · simp at hst
  · next record hlatest =>
    simp only [do_ok,Option.some.injEq] at hst
    obtain ⟨plan,hplan,rfl⟩ := hst
    simp only [Deployment.plan,do_ok] at hplan
    obtain ⟨-,rfl⟩ := hplan
    obtain ⟨hmem,hid⟩ := latest_mem hlatest
    obtain ⟨e,before,f,row,hevent,hrow,hrid,hbody⟩ := rows_stored hrun record hmem
    obtain ⟨hfid,hrevision,order,horder,hiff⟩ := acceptPlan_order hrow
    refine ⟨e,before,f,row,hevent,hrow,?_,?_,?_,order,horder,?_⟩
    · rw [← hfid,← hrid,hid]
    · rw [hbody,hrevision]
    · rw [hlatest,Option.map_some,hbody]
    · rw [hbody]
      exact hiff

end History

namespace RelaySample

/-- Two Nodes, of which the second listens for the first. -/
def surroundings : Surroundings where
  facts name := .ok (facts name (if name = "n1" then 'a' else 'b'))
  profile _ _ := .ok input.profile
  endpoint name := .ok ⟨name,1,⟨"hop.example","10.0.0.2",[9100,9200]⟩⟩
  owner _ _ := none
  reserveRelay resources generation := .ok (resources.map fun r => ⟨r,"f1",1,generation⟩)
  multihopEnabled := false
  drainTimeoutSeconds := 30
  now := 0

def forward (ingress egress : String) : Forward :=
  ⟨"f1","s1",1,[.tcp],ingress,⟨"10.0.0.1",9000⟩,[egress],some ("p1",1),⟨"db.example",5432⟩⟩

def accepted (ingress egress : String) : Except String Deployment :=
  acceptPlan Sample.library assignmentId (fun _ => Sample.hash) surroundings [] (forward ingress egress)

/-- The order that `status` reports once the plan of a Forward over these Nodes is stored. -/
def reported (ingress egress : String) : Option (List String) :=
  (accepted ingress egress).toOption.bind fun row =>
    (status (fun _ => Sample.hash) [row] "f1").toOption.bind fun st => st.map Status.activationOrder

theorem reported_stored {ingress egress : String} {order : List String}
    (h : reported ingress egress=some order) :
    ∃rows st, Run (TableStep Sample.library assignmentId fun _ => Sample.hash) []
        [.accept surroundings (forward ingress egress)] rows ∧
      status (fun _ => Sample.hash) rows "f1"=.ok (some st) ∧ st.activationOrder=order := by
  unfold reported accepted at h
  obtain ⟨row,hrow,h⟩ := Option.bind_eq_some_iff.mp h
  obtain ⟨found,hfound,h⟩ := Option.bind_eq_some_iff.mp h
  obtain ⟨st,hst,horder⟩ := Option.map_eq_some_iff.mp h
  rw [toOption_ok] at hrow hfound
  exact ⟨[row],st,Run.single ⟨row,hrow,rfl⟩,hst ▸ hfound,horder⟩

end RelaySample

open RelaySample in
/-- The order of a Forward from `n1` to `n2` is reported as it is. -/
theorem reported_order_forward :
    ∃rows st, Run (TableStep Sample.library assignmentId fun _ => Sample.hash) []
        [.accept surroundings (forward "n1" "n2")] rows ∧
      status (fun _ => Sample.hash) rows "f1"=.ok (some st) ∧ st.activationOrder=["n2","n1"] ∧
      ∃e before f row, TableEvent.accept e f∈[TableEvent.accept surroundings (forward "n1" "n2")] ∧
        acceptPlan Sample.library assignmentId (fun _ => Sample.hash) e before f=.ok row ∧
        f.id="f1" ∧ f.revision=st.forwardRevision ∧
        (latest rows "f1").map Deployment.body=some row.body ∧
        ∃order, activationOrder assignmentId f=.ok order ∧
          (st.activationOrder=order ↔
            1<f.via.length ∨ ∃egress, f.via=[egress] ∧ f.ingressNodeId<egress) := by
  obtain ⟨rows,st,hrun,hst,horder⟩ := reported_stored (show reported "n1" "n2"=some ["n2","n1"] by
    decide +kernel)
  exact ⟨rows,st,hrun,hst,horder,reported_order_iff _ _ _ _ rows hrun "f1" st hst⟩

open RelaySample in
/-- A Forward from `n2` to `n1` is reported with its ingress first. -/
theorem reported_order_reversed :
    ∃rows st, Run (TableStep Sample.library assignmentId fun _ => Sample.hash) []
        [.accept surroundings (forward "n2" "n1")] rows ∧
      status (fun _ => Sample.hash) rows "f1"=.ok (some st) ∧ st.activationOrder=["n2","n1"] ∧
      activationOrder assignmentId (forward "n2" "n1")=.ok ["n1","n2"] := by
  obtain ⟨rows,st,hrun,hst,horder⟩ := reported_stored (show reported "n2" "n1"=some ["n2","n1"] by
    decide +kernel)
  have htopology : (activationOrder assignmentId (forward "n2" "n1")).toOption=some ["n1","n2"] := by
    decide +kernel
  exact ⟨rows,st,hrun,hst,horder,(toOption_ok _ _).mp htopology⟩

/-- A row of `runtime_nodes`, as far as its lock reads it. -/
structure RuntimeNode where
  nodeId : String
  sessionEpoch : Nat
  deriving DecidableEq, Repr

section Locks

variable (digest : PreparedPlan→String)

/-- The Nodes of every deployment. -/
def deploymentLinks (rows : List Deployment) : Except String (List (List String)) :=
  rows.mapM fun record => do
    let plan ← record.plan digest
    return plan.nodes.map PlanNode.nodeId

/-- `relatedNodeIDs`, with a bound on the passes of its loop. -/
def relatedNodeIDs (rows : List Deployment) (nodeId : String) (passes : Nat) :
    Except String (Option (List String)) := do
  let links ← deploymentLinks digest rows
  return (Closure.close links passes [nodeId]).map (·.insertionSort (·≤·))

/-- The locks that were taken, and the row of the Node itself. -/
def lockRow (nodes : List RuntimeNode) (nodeId : String)
    (state : List String×Option RuntimeNode) (id : String) : List String×Option RuntimeNode :=
  (state.1++[id],if id=nodeId then nodes.find? (·.nodeId=id) else state.2)

/-- `locked` of the controller: the locks in the order they are taken, and its answer. -/
def locked (relay : Bool) (rows : List Deployment) (nodes : List RuntimeNode) (nodeId : String)
    (epoch : Option Nat) (passes : Nat) :
    Except String (Option (List String×Except String RuntimeNode)) := do
  let related ← if relay then relatedNodeIDs digest rows nodeId passes else .ok (some [nodeId])
  return related.map fun related =>
    let state := related.foldl (lockRow nodes nodeId) ([],none)
    (state.1,match state.2 with
      | none => .error "SESSION_SUPERSEDED: Current Node session required"
      | some row =>
        if epoch.any fun e => !counterOk e || row.sessionEpoch != e then
          .error "SESSION_SUPERSEDED: Current Node session required"
        else .ok row)

variable {digest} {rows : List Deployment}

theorem deploymentLinks_intact (h : ∀r∈rows, ∃plan, r.plan digest=.ok plan) :
    deploymentLinks digest rows=.ok (rows.map fun r => r.body.nodes.map PlanNode.nodeId) := by
  induction rows with
  | nil => rfl
  | cons r rows ih =>
    obtain ⟨plan,hplan⟩ := h r List.mem_cons_self
    have hbody : plan=r.body := by
      simp only [Deployment.plan,do_ok] at hplan
      exact hplan.2.symm
    have hrest := ih fun x hx => h x (List.mem_cons_of_mem _ hx)
    unfold deploymentLinks at hrest ⊢
    simp only [List.mapM_cons,hplan,hrest,do_ok]
    exact ⟨_,⟨plan,rfl,rfl⟩,_,rfl,by rw [List.map_cons,hbody]⟩

theorem lockRow_locks (nodes : List RuntimeNode) (nodeId : String) (l : List String)
    (state : List String×Option RuntimeNode) :
    (l.foldl (lockRow nodes nodeId) state).1=state.1++l := by
  induction l generalizing state with
  | nil => simp
  | cons id l ih =>
    rw [List.foldl_cons,ih]
    simp [lockRow]

theorem sorted_unique {l m : List String} (hl : l.Pairwise (·<·)) (hm : m.Pairwise (·<·))
    (h : ∀x, x∈l ↔ x∈m) : l=m := by
  have hnodup {k : List String} (hk : k.Pairwise (·<·)) : k.Nodup := hk.imp fun h => h.ne
  apply List.Perm.eq_of_pairwise (fun a b _ _ hab hba => absurd hab hba.asymm) hl hm
  exact (List.perm_ext_iff_of_nodup (hnodup hl) (hnodup hm)).mpr h

theorem relatedNodeIDs_joined (h : ∀r∈rows, ∃plan, r.plan digest=.ok plan)
    {links : List (List String)} (hlinks : links=rows.map fun r => r.body.nodes.map PlanNode.nodeId)
    (nodeId : String) {passes : Nat} (hp : links.flatten.length<passes) :
    ∃related, relatedNodeIDs digest rows nodeId passes=.ok (some related) ∧
      related.Pairwise (·<·) ∧ ∀x, x∈related ↔ Closure.Joined links nodeId x := by
  obtain ⟨result,hresult,hnodup,hmem⟩ := Closure.close_spec (a := nodeId) hp
  have hperm := List.perm_insertionSort (·≤·) result
  refine ⟨result.insertionSort (·≤·),?_,?_,?_⟩
  · simp only [relatedNodeIDs,deploymentLinks_intact h,← hlinks,do_ok]
    exact ⟨links,rfl,by rw [hresult]; rfl⟩
  · have hle := List.pairwise_insertionSort (·≤·) result
    have hne : (result.insertionSort (·≤·)).Nodup := hperm.nodup_iff.mpr hnodup
    exact (hle.and hne).imp fun hab => lt_of_le_of_ne hab.1 hab.2
  · intro x
    rw [hperm.mem_iff,hmem]

end Locks

/-- The Nodes locked with a Node are its connected component, in one order for all its Nodes. -/
theorem node_locks_components (digest : PreparedPlan→String) (rows : List Deployment)
    (hintact : ∀r∈rows, ∃plan, r.plan digest=.ok plan) (links : List (List String))
    (hlinks : links=rows.map fun r => r.body.nodes.map PlanNode.nodeId) :
    ∃related : String→List String,
      (∀nodeId passes, links.flatten.length<passes→
        relatedNodeIDs digest rows nodeId passes=.ok (some (related nodeId)) ∧
        ∀nodes epoch, ∃answer, locked digest true rows nodes nodeId epoch passes=
          .ok (some (related nodeId,answer))) ∧
      (∀nodeId, (related nodeId).Pairwise (·<·) ∧
        ∀x, x∈related nodeId ↔ Closure.Joined links nodeId x) ∧
      (∀a b, Closure.Joined links a b → related a=related b) ∧
      ∀a b, ¬Closure.Joined links a b→(related a).Disjoint (related b) := by
  have hall (nodeId : String) := relatedNodeIDs_joined hintact hlinks nodeId
    (Nat.lt_succ_self links.flatten.length)
  choose related hrelated using hall
  have hsame {nodeId : String} {passes : Nat} (hp : links.flatten.length<passes) :
      relatedNodeIDs digest rows nodeId passes=.ok (some (related nodeId)) := by
    obtain ⟨other,hother,hsorted,hmem⟩ := relatedNodeIDs_joined hintact hlinks nodeId hp
    rw [hother,sorted_unique hsorted (hrelated nodeId).2.1 fun x =>
      (hmem x).trans ((hrelated nodeId).2.2 x).symm]
  refine ⟨related,?_,fun nodeId => (hrelated nodeId).2,?_,?_⟩
  · intro nodeId passes hp
    refine ⟨hsame hp,fun nodes epoch => ?_⟩
    simp only [locked,if_true,hsame hp,do_ok]
    exact ⟨_,_,rfl,by rw [Option.map_some,lockRow_locks]; rfl⟩
  · intro a b hab
    apply sorted_unique (hrelated a).2.1 (hrelated b).2.1
    intro x
    rw [(hrelated a).2.2,(hrelated b).2.2]
    exact ⟨(Closure.joined_symm hab).trans,hab.trans⟩
  · intro a b hab x ha hb
    rw [(hrelated a).2.2] at ha
    rw [(hrelated b).2.2] at hb
    exact hab (ha.trans (Closure.joined_symm hb))

namespace RelaySample

def row (forwardId : String) (nodes : List String) : Deployment :=
  ⟨forwardId,1,1,nodes.headD "",nodes.getLastD "",.active,⟨none,none,forwardId,1,1,1,1000,
    nodes.map fun n => ⟨n,1,[]⟩,Sample.hash⟩,none,0,0⟩

theorem row_intact (forwardId : String) (nodes : List String) :
    ∃plan, (row forwardId nodes).plan (fun _ => Sample.hash)=.ok plan := by
  simp only [Deployment.plan,do_ok]
  exact ⟨_,by simp [row],rfl⟩

end RelaySample

open RelaySample in
/-- Two chained deployments and one apart. -/
theorem node_locks_chain :
    relatedNodeIDs (fun _ => Sample.hash)
        [row "f1" ["n4","n2"],row "f2" ["n2","n1"],row "f3" ["n3","n5"]] "n4" 8=
      .ok (some ["n1","n2","n4"]) ∧
    ∃related : String→List String,
      (∀nodeId passes, [["n4","n2"],["n2","n1"],["n3","n5"]].flatten.length<passes→
        relatedNodeIDs (fun _ => Sample.hash)
            [row "f1" ["n4","n2"],row "f2" ["n2","n1"],row "f3" ["n3","n5"]] nodeId passes=
          .ok (some (related nodeId)) ∧
        ∀nodes epoch, ∃answer, locked (fun _ => Sample.hash) true
            [row "f1" ["n4","n2"],row "f2" ["n2","n1"],row "f3" ["n3","n5"]] nodes nodeId epoch
            passes=.ok (some (related nodeId,answer))) ∧
      (∀nodeId, (related nodeId).Pairwise (·<·) ∧ ∀x, x∈related nodeId ↔
        Closure.Joined [["n4","n2"],["n2","n1"],["n3","n5"]] nodeId x) ∧
      (∀a b, Closure.Joined [["n4","n2"],["n2","n1"],["n3","n5"]] a b → related a=related b) ∧
      ∀a b, ¬Closure.Joined [["n4","n2"],["n2","n1"],["n3","n5"]] a b→
        (related a).Disjoint (related b) := by
  refine ⟨?_,node_locks_components _ _ ?_ _ rfl⟩
  · have hrun : (relatedNodeIDs (fun _ => Sample.hash)
        [row "f1" ["n4","n2"],row "f2" ["n2","n1"],row "f3" ["n3","n5"]] "n4" 8).toOption=
        some (some ["n1","n2","n4"]) := by
      decide +kernel
    exact (toOption_ok _ _).mp hrun
  · intro r hr
    simp only [mem_list] at hr
    rcases hr with rfl|rfl|rfl <;> exact row_intact _ _

end TuneX.Contracts
