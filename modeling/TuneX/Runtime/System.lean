import TuneX.Control.Sessions
import TuneX.Runtime.Runner

namespace TuneX.Runtime

open Framework Control

/-- An Agent process; its boot identity names it and is never used again. -/
structure Process where
  nodeId : NodeId
  capabilities : List Capability
  loaded : Journal
  runner : Option Runner

structure Greeting where
  nodeId : NodeId
  bootId : Nat
  sessionEpoch : Nat
  serverTime : Nat
  deriving DecidableEq, Repr

/-- Control, the Agent processes and everything ever written or sent. What was sent may arrive
late, more than once, in any order or never. -/
structure System where
  control : State
  processes : Table Nat Process
  stored : List Journal
  greetings : List Greeting
  offers : List Snapshot
  wire : List Report
  acks : List ReportAck

def System.initial (w : World) : System := ⟨State.initial w,∅,[],[],[],[],[]⟩

/-- Only the Agents say Hello and report. -/
def fromAgent : Event→Bool
  | .hello _ _ _ _ => true
  | .report _ _ => true
  | _ => false

inductive SystemEvent
  | control (e : Nat×Event)
  | start (boot : Nat) (p : Process)
  | hello (boot now : Nat)
  | greet (boot : Nat) (g : Greeting) (credentialUntil : Int)
  | fetch (boot now : Nat) (credential : Option Nat)
  | poll (boot : Nat) (s : Snapshot)
  | send (boot : Nat)
  | deliver (now : Nat) (r : Report)
  | acknowledge (boot : Nat) (a : ReportAck)
  | watch (boot : Nat)
  | crash (boot : Nat)

namespace System

def runnerOf (σ : System) (boot : Nat) : Option Runner := (σ.processes.lookup boot).bind (·.runner)

def setRunner (σ : System) (boot : Nat) (p : Process) (r : Runner) : System :=
  { σ with processes := σ.processes.insert boot { p with runner := some r } }

def ackOf (r : Report) : ReportAck := ⟨r.nodeId,r.bootId,r.sessionEpoch,r.reportSequence⟩

variable (hosts : Nat→Host)

inductive Step (σ : System) : SystemEvent→System→Prop
  | control {e : Nat×Event} {t : State} (he : fromAgent e.2=false) (h : Control.Step σ.control e t) :
      Step σ (.control e) { σ with control := t }
  | start {boot : Nat} {p : Process} (hb : σ.processes.lookup boot=none) (hr : p.runner=none)
      (hn : p.loaded.nodeId=p.nodeId)
      (hj : p.loaded∈σ.stored ∨ p.loaded=Journal.initial p.nodeId) :
      Step σ (.start boot p) { σ with processes := σ.processes.insert boot p }
  | hello {boot now epoch : Nat} {p : Process} {t : State} (hp : σ.processes.lookup boot=some p)
      (h : σ.control.helloCall now p.nodeId boot p.capabilities p.loaded.generation=.ok (t,epoch)) :
      Step σ (.hello boot now) { σ with
        control := t
        greetings := ⟨p.nodeId,boot,epoch,now⟩::σ.greetings }
  | greet {boot : Nat} {g : Greeting} {credentialUntil : Int} {p : Process} {r : Runner}
      (hp : σ.processes.lookup boot=some p) (hr : p.runner=none) (hg : g∈σ.greetings)
      (hb : g.bootId=boot) (hn : g.nodeId=p.nodeId)
      (h : Runner.opened (hosts boot) p.nodeId boot g.sessionEpoch p.loaded credentialUntil
        g.serverTime=some r) : Step σ (.greet boot g credentialUntil) (σ.setRunner boot p r)
  | fetch {boot now : Nat} {credential : Option Nat} {r : Runner} {t : State} {s : Snapshot}
      (hr : σ.runnerOf boot=some r)
      (h : σ.control.snapshotCall now r.nodeId r.sessionEpoch credential=.ok (t,s)) :
      Step σ (.fetch boot now credential) { σ with control := t, offers := s::σ.offers }
  | poll {boot : Nat} {s : Snapshot} {p : Process} {r : Runner} (hp : σ.processes.lookup boot=some p)
      (hr : p.runner=some r) (he : r.ended=false) (hpending : r.pending=none) (hs : s∈σ.offers) :
      Step σ (.poll boot s) { σ.setRunner boot p (r.receive (hosts boot) s).1 with
        stored := (r.receive (hosts boot) s).1.journal::σ.stored }
  | send {boot : Nat} {r : Runner} {report : Report} (hr : σ.runnerOf boot=some r)
      (he : r.ended=false) (hp : r.pending=some report) :
      Step σ (.send boot) { σ with wire := report::σ.wire }
  | deliver {now : Nat} {r : Report} {t : State} {d : Bool} (hw : r∈σ.wire)
      (h : σ.control.reportCall now r.nodeId r.sessionEpoch r=.ok (t,d)) :
      Step σ (.deliver now r) { σ with control := t, acks := ackOf r::σ.acks }
  | acknowledge {boot : Nat} {a : ReportAck} {p : Process} {r : Runner}
      (hp : σ.processes.lookup boot=some p) (hr : p.runner=some r) (he : r.ended=false)
      (ha : a∈σ.acks) : Step σ (.acknowledge boot a) (σ.setRunner boot p (r.acknowledge a))
  | watch {boot : Nat} {p : Process} {r : Runner} (hp : σ.processes.lookup boot=some p)
      (hr : p.runner=some r) (he : r.ended=false) :
      Step σ (.watch boot) (σ.setRunner boot p (r.watch (hosts boot)))
  | crash {boot : Nat} {p : Process} {r : Runner} (hp : σ.processes.lookup boot=some p)
      (hr : p.runner=some r) : Step σ (.crash boot) (σ.setRunner boot p r.stop)

/-- The step as a function. -/
def perform (σ : System) : SystemEvent→Option System
  | .control e =>
    if fromAgent e.2 then none else (Control.perform σ.control e).map fun t => { σ with control := t }
  | .start boot p =>
    if (σ.processes.lookup boot).isNone && p.runner.isNone && p.loaded.nodeId=p.nodeId &&
      (σ.stored.contains p.loaded || p.loaded=Journal.initial p.nodeId) then
      some { σ with processes := σ.processes.insert boot p }
    else none
  | .hello boot now => do
    let p ← σ.processes.lookup boot
    let a ← (σ.control.helloCall now p.nodeId boot p.capabilities p.loaded.generation).toOption
    some { σ with control := a.1, greetings := ⟨p.nodeId,boot,a.2,now⟩::σ.greetings }
  | .greet boot g credentialUntil => do
    let p ← σ.processes.lookup boot
    if p.runner.isNone && σ.greetings.contains g && g.bootId=boot && g.nodeId=p.nodeId then do
      let r ← Runner.opened (hosts boot) p.nodeId boot g.sessionEpoch p.loaded credentialUntil
        g.serverTime
      some (σ.setRunner boot p r)
    else none
  | .fetch boot now credential => do
    let r ← σ.runnerOf boot
    let a ← (σ.control.snapshotCall now r.nodeId r.sessionEpoch credential).toOption
    some { σ with control := a.1, offers := a.2::σ.offers }
  | .poll boot s => do
    let p ← σ.processes.lookup boot
    let r ← p.runner
    if !r.ended && r.pending.isNone && σ.offers.contains s then
      some { σ.setRunner boot p (r.receive (hosts boot) s).1 with
        stored := (r.receive (hosts boot) s).1.journal::σ.stored }
    else none
  | .send boot => do
    let r ← σ.runnerOf boot
    if r.ended then none else do
      let report ← r.pending
      some { σ with wire := report::σ.wire }
  | .deliver now r =>
    if σ.wire.contains r then do
      let a ← (σ.control.reportCall now r.nodeId r.sessionEpoch r).toOption
      some { σ with control := a.1, acks := ackOf r::σ.acks }
    else none
  | .acknowledge boot a => do
    let p ← σ.processes.lookup boot
    let r ← p.runner
    if !r.ended && σ.acks.contains a then some (σ.setRunner boot p (r.acknowledge a)) else none
  | .watch boot => do
    let p ← σ.processes.lookup boot
    let r ← p.runner
    if r.ended then none else some (σ.setRunner boot p (r.watch (hosts boot)))
  | .crash boot => do
    let p ← σ.processes.lookup boot
    let r ← p.runner
    some (σ.setRunner boot p r.stop)

variable {hosts} {σ τ : System} {e : SystemEvent}

theorem perform_some (h : perform hosts σ e=some τ) : Step hosts σ e τ := by
  cases e
  all_goals
    simp only [perform,do_some,Option.ite_none_left_eq_some,Option.ite_none_right_eq_some,
      Bool.not_eq_true,Bool.not_eq_true',bool_ok,Bool.or_eq_true,Option.isNone_iff_eq_none,
      List.contains_iff_mem,toOption_ok] at h
  case control e =>
    obtain ⟨he,t,ht,rfl⟩ := h
    exact .control he (Control.perform_some ht)
  case start boot p =>
    obtain ⟨⟨⟨⟨hb,hr⟩,hn⟩,hj⟩,rfl⟩ := h
    exact .start hb hr hn hj
  case hello boot now =>
    obtain ⟨p,hp,⟨t,epoch⟩,ha,rfl⟩ := h
    exact .hello hp ha
  case greet boot g credentialUntil =>
    obtain ⟨p,hp,⟨⟨⟨hr,hg⟩,hb⟩,hn⟩,r,ha,rfl⟩ := h
    exact .greet hp hr hg hb hn ha
  case fetch boot now credential =>
    obtain ⟨r,hr,⟨t,s⟩,ha,rfl⟩ := h
    exact .fetch hr ha
  case poll boot s =>
    obtain ⟨p,hp,r,hr,⟨⟨he,hpending⟩,hs⟩,rfl⟩ := h
    exact .poll hp hr he hpending hs
  case send boot =>
    obtain ⟨r,hr,he,report,hp,rfl⟩ := h
    exact .send hr he hp
  case deliver now r =>
    obtain ⟨hw,⟨t,d⟩,ha,rfl⟩ := h
    exact .deliver hw ha
  case acknowledge boot a =>
    obtain ⟨p,hp,r,hr,⟨he,ha⟩,rfl⟩ := h
    exact .acknowledge hp hr he ha
  case watch boot =>
    obtain ⟨p,hp,r,hr,he,rfl⟩ := h
    exact .watch hp hr he
  case crash boot =>
    obtain ⟨p,hp,r,hr,rfl⟩ := h
    exact .crash hp hr

def performs (hosts : Nat→Host) (σ : System) (l : List SystemEvent) : Option System :=
  l.foldlM (perform hosts) σ

theorem run_performs {l : List SystemEvent} (h : performs hosts σ l=some τ) :
    Run (Step hosts) σ l τ :=
  .of_foldlM (fun _ _ _ => perform_some) h

end System

end TuneX.Runtime
