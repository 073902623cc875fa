import TuneX.Agent.Validate
import TuneX.Framework.Fencing
import TuneX.Framework.Run

namespace TuneX.Agent

open Framework Framework.Json

/-- The Transit intent: the fields its assignment is bound to, and the rest of its text. -/
structure TransitIntent where
  nodeId : String
  sessionEpoch : Nat
  assignmentId : String
  forwardId : String
  forwardRevision : Nat
  deploymentGeneration : Nat
  bindingFence : Nat
  protocol : Protocol
  listenAddress : String
  listenPort : Nat
  issuedAt : String
  authorizationUntil : String
  rest : String
  deriving DecidableEq, Repr

structure TransitAssignment where
  protocolVersion : Nat
  extensionVersion : Nat
  nodeId : String
  sessionEpoch : Nat
  assignmentId : String
  forwardId : String
  forwardRevision : Nat
  deploymentGeneration : Nat
  bindingFence : Nat
  protocol : Protocol
  phase : Phase
  resource : Resource
  schemaVersion : Nat
  configDigest : String
  intent : TransitIntent
  drainTimeoutSeconds : Nat
  deriving DecidableEq, Repr

structure TransitTombstone where
  assignmentId : String
  forwardId : String
  protocol : Protocol
  physicalProtocol : Protocol
  port : Nat
  bindingFence : Nat
  retirementGeneration : Nat
  deriving DecidableEq, Repr

structure TransitSnapshot where
  protocolVersion : Nat
  extensionVersion : Nat
  kind : String
  requiredCapabilities : List String
  nodeId : String
  sessionEpoch : Nat
  snapshotGeneration : Nat
  complete : Bool
  issuedAt : String
  validUntil : String
  snapshotDigest : String
  assignments : List TransitAssignment
  tombstones : List TransitTombstone
  deriving DecidableEq, Repr

structure TransitJournal where
  protocolVersion : Nat
  extensionVersion : Nat
  nodeId : String
  generation : Nat
  digest : String
  /-- The retained snapshot; `none` is the JSON null of a new journal. -/
  snapshot : Option TransitSnapshot
  fences : Counters Slot
  retired : Counters Slot
  deriving DecidableEq

/-- What the Transit packages call: the intent contract, the hashes and RFC 3339 parsing.
Every hash is rendered as `sha256:` and 64 lowercase hex digits. -/
structure TransitLibrary extends Library where
  parseIntent : TransitIntent→Except String Unit
  /-- The bytes of the canonical text of an intent. -/
  intentSize : TransitIntent→Nat
  intentDigest : TransitIntent→String
  snapshotDigest : TransitSnapshot→String
  journalDigest : TransitJournal→String
  journalDigest_format : ∀j, digestOk (journalDigest j)
  parseTime : String→Option Int

def TransitAssignment.slot (a : TransitAssignment) : Slot := ⟨.tcp,a.resource.port⟩

def TransitTombstone.slot (t : TransitTombstone) : Slot := ⟨.tcp,t.port⟩

def transitAssignmentOk (lib : Library) (a : TransitAssignment) : Bool :=
  a.protocolVersion==3 && a.extensionVersion==1 && idOk a.nodeId && counterOk a.sessionEpoch &&
  idOk a.assignmentId && idOk a.forwardId && counterOk a.forwardRevision &&
  counterOk a.deploymentGeneration && counterOk a.bindingFence && resourceOk lib a.resource &&
  a.resource.protocol==.tcp && a.schemaVersion==1 && digestOk a.configDigest &&
  decide (a.drainTimeoutSeconds≤300)

def transitTombstoneOk (t : TransitTombstone) : Bool :=
  idOk t.assignmentId && idOk t.forwardId && t.physicalProtocol==.tcp && portOk t.port &&
  counterOk t.bindingFence && counterOk t.retirementGeneration

def transitSnapshotOk (lib : Library) (s : TransitSnapshot) : Bool :=
  s.protocolVersion==3 && s.extensionVersion==1 && s.kind == "transit-snapshot" &&
  s.requiredCapabilities==["adp.multihop.1","transit.wire.1","native.transit.v1"] &&
  idOk s.nodeId && counterOk s.sessionEpoch && counterOk s.snapshotGeneration && s.complete &&
  timeOk lib s.issuedAt && timeOk lib s.validUntil && digestOk s.snapshotDigest &&
  decide (s.assignments.length≤256) && decide (s.tombstones.length≤65536) &&
  s.assignments.all (transitAssignmentOk lib) && s.tombstones.all transitTombstoneOk

/-- The bytes of the canonical text of an assignment. -/
def transitAssignmentSize (lib : TransitLibrary) (a : TransitAssignment) : Nat :=
  objectSize [("protocolVersion",numberSize a.protocolVersion),
    ("extensionVersion",numberSize a.extensionVersion),("nodeId",textSize a.nodeId),
    ("sessionEpoch",numberSize a.sessionEpoch),("assignmentId",textSize a.assignmentId),
    ("forwardId",textSize a.forwardId),("forwardRevision",numberSize a.forwardRevision),
    ("deploymentGeneration",numberSize a.deploymentGeneration),
    ("bindingFence",numberSize a.bindingFence),("role",textSize "relay-transit"),
    ("protocol",textSize a.protocol.text),("phase",textSize a.phase.text),
    ("resource",resourceSize a.resource),
    ("driver",objectSize [("id",textSize "native.transit.v1"),
      ("schemaVersion",numberSize a.schemaVersion),("configDigest",textSize a.configDigest),
      ("config",objectSize [("intent",lib.intentSize a.intent)])]),
    ("drainTimeoutSeconds",numberSize a.drainTimeoutSeconds)]

def maxTransitBytes : Nat := 16384

/-- `ParseAssignment` of the Transit package. -/
def parseTransitAssignment (lib : TransitLibrary) (a : TransitAssignment) : Except String Unit :=
  if maxTransitBytes<transitAssignmentSize lib a then
    .error "RESOURCE_LIMIT: JSON body too large"
  else match lib.parseIntent a.intent with
  | .error e => .error e
  | .ok _ =>
    let i := a.intent
    if lib.intentDigest i≠a.configDigest then
      .error "INTEGRITY_FAILURE: Transit driver config digest differs"
    else if a.nodeId≠i.nodeId ∨ a.sessionEpoch≠i.sessionEpoch ∨ a.assignmentId≠i.assignmentId ∨
        a.forwardId≠i.forwardId ∨ a.forwardRevision≠i.forwardRevision ∨
        a.deploymentGeneration≠i.deploymentGeneration ∨ a.bindingFence≠i.bindingFence ∨
        a.protocol≠i.protocol then
      .error "AUTHORIZATION_DENIED: Transit Assignment/Intent binding differs"
    else if !lib.canonicalAddress a.resource.address ∨ a.resource.protocol≠.tcp ∨
        a.resource.address≠i.listenAddress ∨ a.resource.port≠i.listenPort then
      .error "RESOURCE_CONFLICT: Transit physical TLS listener differs"
    else .ok ()

def parseTransitAssignments (lib : TransitLibrary) (s : TransitSnapshot) (start finish : Int) :
    String→List (String×Protocol)→List Slot→List TransitAssignment→Except String Unit
  | _,_,_,[] => .ok ()
  | previous,logical,physical,a::l =>
    match parseTransitAssignment lib a with
    | .error e => .error e
    | .ok _ =>
      match lib.parseTime a.intent.issuedAt,lib.parseTime a.intent.authorizationUntil with
      | some issued,some until_ =>
        if a.nodeId≠s.nodeId ∨ a.sessionEpoch≠s.sessionEpoch ∨ start < issued ∨ until_<finish then
          .error "AUTHORIZATION_DENIED: Transit Snapshot Node/Session/lease differs"
        else if ¬previous<a.assignmentId ∨ (a.forwardId,a.protocol)∈logical ∨ a.slot∈physical then
          .error "RESOURCE_CONFLICT: Duplicate, unsorted or overlapping Transit resource"
        else
          parseTransitAssignments lib s start finish a.assignmentId
            ((a.forwardId,a.protocol)::logical) (a.slot::physical) l
      | _,_ => .error "INVALID_CONFIG: Transit timestamp"

def transitTombstoneBefore (a b : TransitTombstone) : Bool :=
  if a.physicalProtocol≠b.physicalProtocol then
    decide (a.physicalProtocol.text<b.physicalProtocol.text)
  else if a.port≠b.port then decide (a.port<b.port)
  else if a.retirementGeneration≠b.retirementGeneration then
    decide (a.retirementGeneration<b.retirementGeneration)
  else decide (a.assignmentId<b.assignmentId)

def parseTransitTombstones (s : TransitSnapshot) :
    List (Slot×Nat)→Option TransitTombstone→List TransitTombstone→Except String Unit
  | _,_,[] => .ok ()
  | retired,prior,t::l =>
    if (t.slot,t.bindingFence)∈retired ∨ s.snapshotGeneration<t.retirementGeneration ∨
        prior.any (fun p => !transitTombstoneBefore p t) then
      .error "INVALID_CONFIG: Transit retirement order or high-water differs"
    else if s.assignments.any (fun a => a.resource.port==t.port &&
        decide (a.bindingFence≤t.bindingFence)) then
      .error "FENCING_REJECTED: Transit retirement fence resurrected"
    else parseTransitTombstones s ((t.slot,t.bindingFence)::retired) (some t) l

/-- `ParseSnapshot` of the Transit package. -/
def parseTransitSnapshot (lib : TransitLibrary) (s : TransitSnapshot) : Except String Unit :=
  if !transitSnapshotOk lib.toLibrary s then
    .error "INVALID_CONFIG: Transit ADP/3 Snapshot rejected"
  else if lib.snapshotDigest {s with snapshotDigest := ""}≠s.snapshotDigest then
    .error "INTEGRITY_FAILURE: Transit Snapshot digest differs"
  else
    match lib.parseTime s.issuedAt,lib.parseTime s.validUntil with
    | some start,some finish =>
      if ¬start<finish then .error "INVALID_CONFIG: Transit Snapshot time range"
      else
        match parseTransitAssignments lib s start finish "" [] [] s.assignments with
        | .error e => .error e
        | .ok _ => parseTransitTombstones s [] none s.tombstones
    | _,_ => .error "INVALID_CONFIG: Transit timestamp"

namespace TransitJournal

/-- `InitializeTransitJournal`, for a Node name the writer accepts. -/
def initial (node : String) : TransitJournal := ⟨3,1,node,0,"",none,∅,∅⟩

/-- The slot pattern admits five digits, so this reader alone does not bound the port. -/
def entryOk (k : Slot) (n : Nat) : Bool :=
  k.protocol==.tcp && decide (1≤k.port) && decide (k.port≤99999) && counterOk n

/-- The retained snapshot agrees with the record that holds it. -/
def loadRetained (lib : TransitLibrary) (j : TransitJournal) (s : TransitSnapshot) :
    Except String Unit := do
  (parseTransitSnapshot lib s).mapError
    fun _ => "INTEGRITY_FAILURE: Corrupt retained Transit Snapshot"
  reject (s.nodeId≠j.nodeId ∨ s.snapshotGeneration≠j.generation ∨ s.snapshotDigest≠j.digest)
    "INTEGRITY_FAILURE: Retained Transit identity/generation differs"
  reject (s.assignments.any fun a => decide (j.fences.read a.slot<a.bindingFence) ||
      decide (a.bindingFence≤j.retired.read a.slot))
    "INTEGRITY_FAILURE: Retained Transit Fence inconsistent"

/-- A journal without history holds nothing; any other one holds a snapshot. -/
def loadHistory (lib : TransitLibrary) (j : TransitJournal) : Except String Unit :=
  if j.generation=0 then
    reject (j.digest≠"" ∨ j.snapshot≠none ∨ j.fences.pairs≠[] ∨ j.retired.pairs≠[])
      "INTEGRITY_FAILURE: Invalid empty Transit journal"
  else
    match j.snapshot with
    | none => .error "INTEGRITY_FAILURE: Corrupt retained Transit Snapshot"
    | some s => loadRetained lib j s

/-- The semantic checks of `LoadTransitJournal` on a decoded record. -/
def load (lib : TransitLibrary) (node : String) (j : TransitJournal) :
    Except String TransitJournal := do
  reject (j.protocolVersion≠3 ∨ j.extensionVersion≠1 ∨ j.nodeId≠node ∨ maxCounter<j.generation)
    "INTEGRITY_FAILURE: Transit journal envelope mismatch"
  reject (!(j.fences.pairs++j.retired.pairs).all fun e => entryOk e.1 e.2)
    "INTEGRITY_FAILURE: Invalid Transit physical fence"
  loadHistory lib j
  pure j

/-- The prior-assignment loop of `AcceptTransitSnapshot`: an execution identity is
compared whatever slot the two assignments are on. -/
def verdict (old : List TransitAssignment) (a : TransitAssignment) : Option String :=
  old.findSome? fun prior =>
    if prior.resource.slot=a.resource.slot ∧ a.bindingFence=prior.bindingFence ∧
        (prior.assignmentId≠a.assignmentId ∨ prior.deploymentGeneration≠a.deploymentGeneration ∨
          prior.forwardId≠a.forwardId) then
      some "FENCING_REJECTED: Transit port ownership changed without advancing Fence"
    else if prior.assignmentId=a.assignmentId ∧
        prior.deploymentGeneration=a.deploymentGeneration ∧ prior.bindingFence=a.bindingFence ∧
        (prior.configDigest≠a.configDigest ∨ prior.resource≠a.resource ∨ prior.protocol≠a.protocol ∨
          prior.phase=.active ∧ a.phase=.prepared ∨ prior.phase=.draining ∧ a.phase≠.draining) then
      some "INTEGRITY_FAILURE: Transit execution binding/phase changed without new Fence"
    else none

/-- The assignments of the retained snapshot, none before the first acceptance. -/
def priorAssignments (j : TransitJournal) : List TransitAssignment :=
  if 0<j.generation then (j.snapshot.map TransitSnapshot.assignments).getD [] else []

/-- The record that follows `current` once the assignments of a snapshot are admitted. -/
def succeed (current : TransitJournal) (s : TransitSnapshot) (fences : Counters Slot) :
    TransitJournal :=
  {current with
    fences := fences
    retired := (current.retired.raiseAll (FenceTable.absent fences
      (FenceTable.grantsOf TransitAssignment.slot TransitAssignment.bindingFence
        s.assignments))).raiseAll (s.tombstones.map fun t => (t.slot,t.bindingFence))
    generation := s.snapshotGeneration
    digest := s.snapshotDigest
    snapshot := some s}

/-- `AcceptTransitSnapshot`: the durable file and the caller's record go in; the file
afterwards and the returned record come out. -/
def accept (lib : TransitLibrary) (file current : TransitJournal) (s : TransitSnapshot) :
    Except String (TransitJournal×TransitJournal) := do
  let durable ← load lib current.nodeId file
  reject (current.protocolVersion≠3 ∨ current.extensionVersion≠1 ∨
      durable.generation≠current.generation ∨ durable.digest≠current.digest ∨
      ¬durable.fences.same current.fences ∨ ¬durable.retired.same current.retired)
    "INTEGRITY_FAILURE: Stale Transit journal writer"
  parseTransitSnapshot lib s
  reject (s.nodeId≠current.nodeId ∨ s.snapshotGeneration<current.generation ∨
      s.snapshotGeneration=current.generation ∧ s.snapshotDigest≠current.digest)
    "FENCING_REJECTED: Transit journal generation/Node changed"
  if s.snapshotGeneration=current.generation then pure (file,current)
  else do
    let fences ← FenceTable.admitAll TransitAssignment.slot TransitAssignment.bindingFence
      "FENCING_REJECTED: Stale Transit physical owner" (verdict current.priorAssignments)
      current.retired current.fences s.assignments
    pure (succeed current s fences,succeed current s fences)

/-- A journal file of the Transit writer: initialised for a Node, then only accepted into. -/
def Written (lib : TransitLibrary) (node : String) (j : TransitJournal) : Prop :=
  ∃l : List (TransitJournal×TransitSnapshot),
    Run (fun j e j' => ∃r, accept lib j e.1 e.2=.ok (j',r)) (initial node) l j

/-- Entries the Runtime journal can take over: a real TCP port and a nonzero counter. -/
def Importable (k : Slot) (n : Nat) : Prop :=
  k.protocol=.tcp ∧ 1≤k.port ∧ k.port≤65535 ∧ 1≤n ∧ n ≤ maxCounter

variable {lib : TransitLibrary}

theorem load_eq {node : String} {j d : TransitJournal} (h : load lib node j=.ok d) : d=j := by
  unfold load at h
  simp only [do_ok] at h
  exact h.2.2.2.symm

theorem parse_importable {s : TransitSnapshot}
    (h : parseTransitSnapshot lib s=.ok ()) :
    (∀a∈s.assignments, Importable a.slot a.bindingFence) ∧
      ∀t∈s.tombstones, Importable t.slot t.bindingFence := by
  have hok : transitSnapshotOk lib.toLibrary s := by
    unfold parseTransitSnapshot at h
    split_ifs at h with hc
    simpa using hc
  simp only [transitSnapshotOk,schema_ok] at hok
  obtain ⟨⟨-,ha⟩,ht⟩ := hok
  refine ⟨?_,?_⟩
  · intro a hm
    have hb := ha a hm
    simp only [transitAssignmentOk,resourceOk,portOk,counterOk,bool_ok] at hb
    exact ⟨rfl,by tauto⟩
  · intro t hm
    have hb := ht t hm
    simp only [transitTombstoneOk,portOk,counterOk,bool_ok] at hb
    exact ⟨rfl,by tauto⟩

theorem accept_importable {file current file' r : TransitJournal}
    {s : TransitSnapshot} (h : accept lib file current s=.ok (file',r))
    (hf : file.fences.Every Importable) (hr : file.retired.Every Importable) :
    file'.fences.Every Importable ∧ file'.retired.Every Importable := by
  unfold accept at h
  simp only [do_ok,not_or,not_not] at h
  obtain ⟨durable,hload,hstale,hparse,-,h⟩ := h
  obtain rfl := load_eq hload
  obtain ⟨-,-,-,-,hsf,hsr⟩ := hstale
  obtain ⟨ha,ht⟩ := parse_importable hparse
  split_ifs at h
  · obtain ⟨rfl,-⟩ := Prod.mk.inj (Except.ok.inj h)
    exact ⟨hf,hr⟩
  · simp only [do_ok] at h
    obtain ⟨fences,hadm,hnext⟩ := h
    obtain ⟨rfl,-⟩ := Prod.mk.inj hnext
    have hcf := Counters.same_every (Counters.same_symm hsf) hf
    have hcr := Counters.same_every (Counters.same_symm hsr) hr
    have hfences := FenceTable.admitAll_every _ _ _ hcf ha hadm
    refine ⟨hfences,FenceTable.retired_every hfences hcr ?_⟩
    intro e he
    obtain ⟨t,hm,rfl⟩ := List.mem_map.mp he
    exact ht t hm

theorem written_importable {node : String} {j : TransitJournal}
    (h : Written lib node j) : j.fences.Every Importable ∧ j.retired.Every Importable := by
  obtain ⟨l,hl⟩ := h
  apply hl.invariant (fun j => j.fences.Every Importable ∧ j.retired.Every Importable)
  · rintro a e b ⟨r,hstep⟩ ⟨hf,hr⟩
    exact accept_importable hstep hf hr
  · exact ⟨Counters.every_empty,Counters.every_empty⟩

end TransitJournal

end TuneX.Agent
