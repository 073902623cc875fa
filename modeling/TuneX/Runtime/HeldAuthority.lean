import TuneX.Control.HandOver
import TuneX.Control.Tombstones
import TuneX.Runtime.ReportDelivery

namespace TuneX.Runtime.System

open Framework Control

variable {hosts : Nat→Host} {σ : System} {l : List SystemEvent} {w : World} {j k : Journal}
  {p q : Snapshot}

/-- Control inside a run of the system has made a run of its own. -/
theorem run_control (h : Run (Step hosts) (initial w) l σ) :
    ∃m, Run Control.Step (State.initial w) m σ.control := by
  have hall : σ.Wired ∧ ∃m, Run Control.Step (State.initial w) m σ.control := by
    refine h.invariant (fun σ => σ.Wired ∧ ∃m, Run Control.Step (State.initial w) m σ.control) ?_
      ⟨.initial w,[],.refl⟩
    rintro a e b hab ⟨ha,m,hm⟩
    obtain ⟨m',hm',-⟩ := hab.control_run ha.kernel
    exact ⟨hab.wired ha,_,hm.trans hm'⟩
  exact hall.2

theorem Wired.published (hw : σ.Wired) (hj : σ.Holds j) (hp : j.snapshot=some p) :
    p.nodeId=j.nodeId ∧ σ.control.snapshots.lookup (j.nodeId,j.generation)=some p := by
  obtain ⟨hn,hg,hp⟩ := (hw.held hj).published p hp
  rw [hn,hg] at hp
  exact ⟨hn,hp⟩

/-- After the first poll of `drainingRun` the disk and the process hold the same snapshot. -/
theorem polled_holds : ∃σ j k, Run (Step fun _ => leaseHost) (initial openWorld) (drainingRun.take 8) σ ∧
    σ.Holds j ∧ σ.Holds k ∧ j.nodeId=0 ∧ k.nodeId=0 ∧ j.snapshot=some runningSnapshot ∧
    k.snapshot=some runningSnapshot := by
  have hrun : ((performs (fun _ => leaseHost) (initial openWorld) (drainingRun.take 8)).bind fun σ =>
      (σ.processes.lookup 1).bind fun x => x.runner.bind fun r => σ.stored.head?.map fun j =>
        (j.nodeId,r.journal.nodeId,j.snapshot,r.journal.snapshot))=
      some (0,0,some runningSnapshot,some runningSnapshot) := by
    decide +kernel
  simp only [do_some] at hrun
  obtain ⟨σ,hσ,x,hx,r,hr,j,hj,hrest⟩ := hrun
  exact ⟨σ,j,r.journal,run_performs hσ,.inl (List.mem_of_head? hj),.inr ⟨1,x,hx,.inr ⟨r,hr,rfl⟩⟩,hrest⟩

/-- Whatever a Node may execute is in the ledger of Control, for at least as long. -/
theorem held_authority_leased (h : Run (Step hosts) (initial w) l σ) (hj : σ.Holds j)
    (hp : j.snapshot=some p) : ∀a∈p.assignments, ∃x,
      σ.control.leases.lookup ⟨a.instanceOn j.nodeId,p.sessionEpoch⟩=some x ∧
      p.validUntil≤x.validUntil := by
  intro a ha
  obtain ⟨m,hm⟩ := run_control h
  obtain ⟨hn,hp⟩ := (run_wired h).published hj hp
  rw [← hn]
  exact run_onLedger hm _ p hp a ha

theorem held_authority_leased_polled : ∃σ j x,
    Run (Step fun _ => leaseHost) (initial openWorld) (drainingRun.take 8) σ ∧ σ.Holds j ∧
    j.snapshot=some runningSnapshot ∧
    σ.control.leases.lookup ⟨tcpAssignment.instanceOn j.nodeId,1⟩=some x ∧ 300003≤x.validUntil := by
  obtain ⟨σ,j,-,h,hj,-,-,-,hp,-⟩ := polled_holds
  obtain ⟨x,hx⟩ := held_authority_leased h hj hp tcpAssignment (List.mem_singleton_self _)
  exact ⟨σ,j,x,h,hj,hp,hx⟩

/-- Journals of one Node and generation have one snapshot, and a slot and a fence stand for one
instance in all journals. -/
theorem held_journals_agree (h : Run (Step hosts) (initial w) l σ) (hj : σ.Holds j)
    (hk : σ.Holds k) (hp : j.snapshot=some p) (hq : k.snapshot=some q) :
    (j.nodeId=k.nodeId→j.generation=k.generation→p=q) ∧
    ∀a∈p.assignments, ∀b∈q.assignments, a.slotOn j.nodeId=b.slotOn k.nodeId→
      a.bindingFence=b.bindingFence→a.instanceOn j.nodeId=b.instanceOn k.nodeId := by
  obtain ⟨m,hm⟩ := run_control h
  obtain ⟨hpn,hp⟩ := (run_wired h).published hj hp
  obtain ⟨hqn,hq⟩ := (run_wired h).published hk hq
  refine ⟨?_,?_⟩
  · intro hn hg
    rw [hn,hg,hq] at hp
    exact (Option.some.inj hp).symm
  · intro a ha b hb hslot hfence
    have hka : Known _ _ _ := .published hp ha
    have hkb : Known _ _ _ := .published hq hb
    rw [hpn,hslot] at hka
    rw [hqn] at hkb
    exact (run_retirements hm).fenced.single _ _ _ hka hkb hfence

theorem held_journals_agree_polled : ∃σ j k,
    Run (Step fun _ => leaseHost) (initial openWorld) (drainingRun.take 8) σ ∧ σ.Holds j ∧ σ.Holds k ∧
    tcpAssignment.instanceOn j.nodeId=tcpAssignment.instanceOn k.nodeId := by
  obtain ⟨σ,j,k,h,hj,hk,hjn,hkn,hp,hq⟩ := polled_holds
  have ha : tcpAssignment∈runningSnapshot.assignments := List.mem_singleton_self _
  refine ⟨σ,j,k,h,hj,hk,(held_journals_agree h hj hk hp hq).2 _ ha _ ha ?_ rfl⟩
  rw [hjn,hkn]

end TuneX.Runtime.System
