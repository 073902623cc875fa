import TuneX.Agent.Guard
import TuneX.Framework.Fencing
import TuneX.Control.Controller

namespace TuneX.Runtime

open Framework Control
open Agent.Authorization (Sample Fault Guard Ticket)

/-- Nanoseconds of an instant that Control writes in milliseconds since 1970. -/
def instant (ms : Nat) : Int := (62135596800000+ms)*1000000

/-- A driver error, classified for the report. -/
structure Failure where
  code : Nat
  retryable : Bool
  deriving DecidableEq, Repr

structure Running where
  assignment : Assignment
  ticket : Ticket
  deriving DecidableEq, Repr

structure Draining where
  assignment : Assignment
  ticket : Ticket
  started : Int
  deadline : Int
  deriving DecidableEq, Repr

/-- The in-memory journal; the stored snapshot stands for its digest too. -/
structure Journal where
  nodeId : NodeId
  generation : Nat
  snapshot : Option Snapshot
  fences : Counters SlotKey
  retired : Counters SlotKey

-- Tables are compared by their rows, so that the comparison can be evaluated.
instance : DecidableEq Journal := fun a b =>
  decidable_of_iff (a.nodeId=b.nodeId ∧ a.generation=b.generation ∧ a.snapshot=b.snapshot ∧
    a.fences.entries=b.fences.entries ∧ a.retired.entries=b.retired.entries) (by
      cases a
      cases b
      simp [AList.ext_iff])

def Journal.initial (n : NodeId) : Journal := ⟨n,0,none,∅,∅⟩

/-- What the process meets at each of its calls, by the number of calls before it. -/
structure Host where
  reading : Nat→Option Sample
  now : Nat→Int
  cancelled : Nat→Bool
  /-- The assignment has a driver here, and the Relay identity it may need. -/
  resolves : Nat→Assignment→Bool
  checks : Nat→Bool
  stores : Nat→Bool
  replaceFails : Nat→Option Failure
  startFails : Nat→Option Failure
  phaseFails : Nat→Option Failure
  remaining : Nat→Nat

inductive PollError
  | leaseExpired
  | superseded
  | historyChanged
  | refused (fault : Fault)
  | restartRequired
  | unresolved
  | configurationChanged
  | phaseRegressed
  | fencingRejected
  | notStored
  | endedBeforeExecution
  | alreadyEnded
  | endedBeforeBind
  | sequenceExhausted
  deriving DecidableEq

structure ReportAck where
  nodeId : NodeId
  bootId : Nat
  sessionEpoch : Nat
  reportSequence : Nat
  deriving DecidableEq, Repr

/-- A process after its Hello. -/
structure Runner where
  nodeId : NodeId
  bootId : Nat
  sessionEpoch : Nat
  journal : Journal
  sequence : Nat
  pending : Option Report
  instances : Table SlotKey Running
  drains : Table Instance Draining
  observations : List Observation
  deadline : Int
  guard : Guard
  ticket : Option Ticket
  ticks : Nat
  ended : Bool

def sameInstance (old a : Assignment) : Bool :=
  old.assignmentId=a.assignmentId && old.deploymentGeneration=a.deploymentGeneration &&
    old.bindingFence=a.bindingFence

/-- A stored instance may keep its configuration only, and never returns to an earlier phase. -/
def compareStored (a old : Assignment) : Option PollError :=
  if sameInstance old a && (old.config≠a.config || old.resource≠a.resource || old.protocol≠a.protocol)
  then some .configurationChanged
  else if sameInstance old a && ((old.phase=.draining && a.phase≠.draining) ||
    (old.phase=.active && a.phase=.prepared)) then some .phaseRegressed
  else none

def Journal.stored (j : Journal) : List Assignment := (j.snapshot.map (·.assignments)).getD []

def admitOne (h : Host) (tick : Nat) (j : Journal) (fences : Counters SlotKey) (a : Assignment) :
    Except PollError (Counters SlotKey) := do
  reject (¬h.resolves tick a) .unresolved
  match j.stored.findSome? (compareStored a) with
  | some e => .error e
  | none =>
    let k := a.slotOn j.nodeId
    reject (a.bindingFence<fences.read k ∨ a.bindingFence≤j.retired.read k) .fencingRejected
    pure (fences.writeAll [(k,a.bindingFence)])

/-- The journal after a snapshot: its sockets at their fences, all others retired. -/
def Journal.succeed (j : Journal) (s : Snapshot) (fences : Counters SlotKey) : Journal :=
  { j with
    generation := s.snapshotGeneration
    snapshot := some s
    fences := fences
    retired := (j.retired.raiseAll (FenceTable.absent fences
      (s.assignments.map fun a => (a.slotOn j.nodeId,a.bindingFence)))).raiseAll
      (s.tombstones.map fun t => (⟨j.nodeId,t.physicalProtocol,t.port⟩,t.bindingFence)) }

def Journal.take (h : Host) (tick : Nat) (j : Journal) (s : Snapshot) : Except PollError Journal := do
  let fences ← s.assignments.foldlM (admitOne h tick j) j.fences
  pure (j.succeed s fences)

def skew : Int := 5000000000
def maximum : Int := 300000000000

namespace Runner

/-- The process after a Hello whose server time is within the policy. -/
def opened (h : Host) (n : NodeId) (boot epoch : Nat) (j : Journal) (credentialUntil : Int)
    (serverTime : Nat) : Option Runner :=
  match Agent.Authorization.new (h.reading 0) skew maximum credentialUntil with
  | .error _ => none
  | .ok guard =>
    match guard.validateServerTime (h.reading 1) (instant serverTime) with
    | (_,.error _) => none
    | (guard,.ok ()) => some ⟨n,boot,epoch,j,0,none,∅,∅,[],0,guard,none,2,false⟩

def allow (h : Host) (r : Runner) (ticket : Option Ticket) : Runner×Bool :=
  let a := r.guard.allow (h.reading r.ticks) ticket
  ({ r with guard := a.1, ticks := r.ticks+1 },a.2=.ok ())

/-- The context is open and the ticket holds. -/
def proceeds (h : Host) (r : Runner) (ticket : Ticket) : Runner×Bool :=
  let a := r.allow h (some ticket)
  (a.1,!h.cancelled r.ticks && a.2)

/-- The ticket a snapshot is executed under: a new one for a new generation. -/
def authorize (h : Host) (r : Runner) (s : Snapshot) : Runner×Except PollError Ticket :=
  if r.journal.generation<s.snapshotGeneration then
    let a := r.guard.accept (h.reading r.ticks) (instant s.issuedAt) (instant s.validUntil)
    ({ r with guard := a.1, ticks := r.ticks+1 },a.2.mapError .refused)
  else (r,match r.ticket with
    | none => .error .restartRequired
    | some ticket => .ok ticket)

def drainDeadline (now cutoff until_ : Int) : Int :=
  let deadline := if cutoff≠0 ∧ cutoff<until_ then cutoff else until_
  if deadline<now then now else deadline

def beginDrain (h : Host) (r : Runner) (x : Running) (now cutoff : Int) : Runner :=
  let key := x.assignment.instanceOn r.nodeId
  if (r.drains.lookup key).isSome then r else
    let d := r.guard.drain (h.reading r.ticks) x.ticket
      (x.assignment.drainTimeoutSeconds*1000000000)
    { r with
      guard := d.1
      ticks := r.ticks+1
      drains := r.drains.insert key
        ⟨x.assignment,d.2,now,drainDeadline now cutoff d.2.wallUntil⟩ }

def condition : Phase → Condition
  | .prepared => .prepared
  | .draining => .draining
  | .active => .ready

def observe (a : Assignment) : Option Failure→Observation
  | none => ⟨a.assignmentId,a.deploymentGeneration,a.bindingFence,some a.phase,condition a.phase,none,
      false⟩
  | some e => ⟨a.assignmentId,a.deploymentGeneration,a.bindingFence,some a.phase,.error,some e.code,
      e.retryable⟩

def run (r : Runner) (a : Assignment) (ticket : Ticket) : Runner :=
  { r with instances := r.instances.insert (a.slotOn r.nodeId) ⟨a,ticket⟩ }

def note (r : Runner) (a : Assignment) (failure : Option Failure) : Runner :=
  { r with observations := r.observations++[observe a failure] }

def vacate (r : Runner) (k : SlotKey) : Runner := { r with instances := r.instances.erase k }

def step (r : Runner) : Runner := { r with ticks := r.ticks+1 }

/-- Start an assignment on a free socket. -/
def start (h : Host) (r : Runner) (a : Assignment) (ticket : Ticket) : Runner :=
  match h.startFails r.ticks with
  | some e => r.step.note a (some e)
  | none => (r.step.run a ticket).note a none

def bindOne (h : Host) (now cutoff : Int) (ticket : Ticket) (r : Runner) (a : Assignment) : Runner :=
  let k := a.slotOn r.nodeId
  match r.instances.lookup k with
  | none => r.start h a ticket
  | some x =>
    if x.assignment.config≠a.config ∨ x.assignment.deploymentGeneration≠a.deploymentGeneration ∨
        x.assignment.bindingFence≠a.bindingFence then
      match h.replaceFails r.ticks with
      | none => ((r.step.beginDrain h x now cutoff).run a ticket).note a none
      | some _ => ((r.step.beginDrain h x now cutoff).vacate k).start h a ticket
    else (r.step.run a ticket).note a (h.phaseFails r.ticks)

def bind (h : Host) (now cutoff : Int) (ticket : Ticket) : Runner→List Assignment→Runner×Bool
  | r,[] => (r,true)
  | r,a::l =>
    let p := r.proceeds h ticket
    if p.2 && h.checks p.1.ticks then bind h now cutoff ticket (bindOne h now cutoff ticket p.1 a) l
    else (p.1,false)

/-- Drain what the snapshot no longer names. -/
def drainAbsent (h : Host) (now cutoff : Int) (s : Snapshot) (r : Runner) : Runner :=
  r.instances.rows.foldl (fun r e =>
    if s.assignments.any fun a => a.slotOn r.nodeId=e.1 then r
    else (r.beginDrain h e.2 now cutoff).vacate e.1) r

def drainReport (h : Host) (r : Runner) (d : Draining) : Runner×Drain :=
  let count := h.remaining r.ticks
  let a := r.allow h (some d.ticket)
  let removed : Bool := count=0 || !a.2
  (a.1,⟨d.assignment.assignmentId,d.assignment.deploymentGeneration,d.assignment.bindingFence,d.started,
    d.deadline,if removed then 0 else count,if removed then .removed else .draining⟩)

def drainReports (h : Host) : Runner→List Draining→Runner×List Drain
  | r,[] => (r,[])
  | r,d::l =>
    let a := r.drainReport h d
    let b := drainReports h a.1 l
    (b.1,a.2::b.2)

def conclude (h : Host) (now : Int) (r : Runner) : Runner :=
  let r := { r with sequence := r.sequence+1 }
  let d := r.drainReports h (r.drains.rows.map Prod.snd)
  { d.1 with pending := some ⟨r.nodeId,r.bootId,r.sessionEpoch,r.sequence,now,r.journal.generation,
      r.observations,d.2⟩ }

/-- The runner that adopts the ticket of a new snapshot. -/
def adopting (r : Runner) (ticket : Ticket) (changed : Bool) : Runner :=
  if changed then { r with ticket := some ticket, deadline := ticket.wallUntil } else r

/-- A poll from the adoption of its ticket on; drains end at the deadline before it. -/
def execute (h : Host) (now : Int) (r : Runner) (s : Snapshot) (ticket : Ticket) (changed : Bool) :
    Runner×Option PollError :=
  let p := (r.adopting ticket changed).allow h (some ticket)
  if !p.2 then (p.1,some .alreadyEnded) else
  let b := bind h now r.deadline ticket { p.1 with observations := [] } s.assignments
  if !b.2 then (b.1,some .endedBeforeBind) else
  let d := drainAbsent h now r.deadline s b.1
  if maxCounter≤d.sequence then (d,some .sequenceExhausted) else (d.conclude h now,none)

/-- A poll once the ticket of its snapshot is known. -/
def adopt (h : Host) (now : Int) (r : Runner) (s : Snapshot) (ticket : Ticket) :
    Runner×Option PollError :=
  let changed : Bool := r.journal.generation<s.snapshotGeneration
  match r.journal.take h r.ticks s with
  | .error e => (r,some e)
  | .ok next =>
    if changed && !h.stores r.ticks then (r,some .notStored) else
    let p := { r with journal := next }.proceeds h ticket
    if !p.2 then (p.1,some .endedBeforeExecution) else p.1.execute h now s ticket changed

/-- A poll from the arrival of a snapshot on; the ticket was checked when it began. -/
def receive (h : Host) (r : Runner) (s : Snapshot) : Runner×Option PollError :=
  let p := if r.ticket.isSome then r.allow h r.ticket else (r,true)
  if !p.2 then (p.1,some .leaseExpired) else
  let r := p.1
  if s.nodeId≠r.nodeId ∨ s.sessionEpoch≠r.sessionEpoch then (r,some .superseded) else
  if s.snapshotGeneration < r.journal.generation ∨
      (s.snapshotGeneration=r.journal.generation ∧ r.journal.snapshot≠some s) then
    (r,some .historyChanged) else
  match r.authorize h s with
  | (r,.error e) => (r,some e)
  | (r',.ok ticket) => r'.adopt h (h.now r.ticks) s ticket

def acknowledge (r : Runner) (ack : ReportAck) : Runner :=
  match r.pending with
  | none => r
  | some sent =>
    if ack=⟨r.nodeId,r.bootId,r.sessionEpoch,r.sequence⟩ then
      { r with
        pending := none
        drains := sent.drains.foldl (fun t d =>
          if d.condition=.removed then t.erase (d.instanceOn r.nodeId) else t) r.drains }
    else r

/-- The end of the process: everything is closed. -/
def stop (r : Runner) : Runner := { r with instances := ∅, drains := ∅, ended := true }

/-- One tick of the guard loop. -/
def watch (h : Host) (r : Runner) : Runner :=
  let c := r.guard.check (h.reading r.ticks)
  let r := { r with guard := c.1, ticks := r.ticks+1 }
  if c.2≠.ok () then r.stop else
  if r.ticket.isSome then
    let a := r.allow h r.ticket
    if a.2 then a.1 else a.1.stop
  else r

end Runner

end TuneX.Runtime
