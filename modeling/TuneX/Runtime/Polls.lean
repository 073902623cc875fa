import TuneX.Runtime.Runner

namespace TuneX.Runtime

open Framework Control
open Agent.Authorization (Sample Fault Guard Ticket)

namespace Runner

variable {h : Host} {r r' : Runner} {s : Snapshot} {now cutoff : Int} {ticket : Ticket}

/-- Only the guard and the number of calls have moved. -/
def Kept (r r' : Runner) : Prop := r'={ r with guard := r'.guard, ticks := r'.ticks }

/-- Only the guard, the calls, the instances, the drains and the observations have moved; drains
have only been added. -/
structure Worked (r r' : Runner) : Prop where
  same : r'={ r with
    guard := r'.guard
    ticks := r'.ticks
    instances := r'.instances
    drains := r'.drains
    observations := r'.observations }
  drains : ∀k d, r.drains.lookup k=some d → r'.drains.lookup k=some d
  named : ∀k d, r'.drains.lookup k=some d→
    r.drains.lookup k=some d ∨ k=d.assignment.instanceOn r.nodeId

theorem Kept.refl (r : Runner) : Kept r r := rfl

theorem Kept.trans {a b c : Runner} (h : Kept a b) (k : Kept b c) : Kept a c := by
  unfold Kept at h k ⊢
  rw [k,h]

theorem Worked.of (hs : r'={ r with
      guard := r'.guard
      ticks := r'.ticks
      instances := r'.instances
      observations := r'.observations }) : Worked r r' := by
  have hd : r'.drains=r.drains := by rw [hs]
  refine ⟨?_,fun k d h => hd ▸ h,fun k d h => .inl (hd ▸ h)⟩
  rw [hd]
  exact hs

theorem Worked.refl (r : Runner) : Worked r r := .of rfl

theorem Worked.trans {a b c : Runner} (h : Worked a b) (k : Worked b c) : Worked a c := by
  have hn : b.nodeId=a.nodeId := by rw [h.same]
  refine ⟨?_,fun x d hx => k.drains x d (h.drains x d hx),fun x d hx => ?_⟩
  · rw [k.same,h.same]
  · obtain hx | hx := k.named x d hx
    · exact h.named x d hx
    · exact .inr (hn ▸ hx)

theorem Kept.worked (h : Kept r r') : Worked r r' := by
  unfold Kept at h
  apply Worked.of
  rw [h]

theorem allow_kept (h : Host) (r : Runner) (ticket : Option Ticket) : Kept r (r.allow h ticket).1 := rfl

theorem proceeds_kept (h : Host) (r : Runner) (ticket : Ticket) : Kept r (r.proceeds h ticket).1 := rfl

theorem authorize_kept (h : Host) (r : Runner) (s : Snapshot) : Kept r (r.authorize h s).1 := by
  unfold authorize
  split_ifs
  · rfl
  · rfl

theorem beginDrain_worked (h : Host) (r : Runner) (x : Running) (now cutoff : Int) :
    Worked r (r.beginDrain h x now cutoff) := by
  unfold beginDrain
  dsimp only
  split_ifs with hold
  · exact .refl r
  · refine ⟨rfl,fun k d hk => ?_,fun k d hk => ?_⟩
    · refine Table.lookup_insert_some.mpr (.inr ⟨?_,hk⟩)
      rintro rfl
      rw [hk] at hold
      exact hold rfl
    · obtain ⟨rfl,rfl⟩ | ⟨-,hk⟩ := Table.lookup_insert_some.mp hk
      · exact .inr rfl
      · exact .inl hk

theorem start_worked (h : Host) (r : Runner) (a : Assignment) (ticket : Ticket) :
    Worked r (r.start h a ticket) := by
  unfold start
  cases h.startFails r.ticks with
  | none | some e => exact .of rfl

theorem bindOne_worked (h : Host) (now cutoff : Int) (ticket : Ticket) (r : Runner) (a : Assignment) :
    Worked r (bindOne h now cutoff ticket r a) := by
  unfold bindOne
  dsimp only
  cases r.instances.lookup (a.slotOn r.nodeId) with
  | none => exact start_worked h r a ticket
  | some x =>
    dsimp only
    split_ifs
    · have hdrain : Worked r (r.step.beginDrain h x now cutoff) :=
        (Worked.of rfl : Worked r r.step).trans (beginDrain_worked h r.step x now cutoff)
      cases h.replaceFails r.ticks with
      | none => exact hdrain.trans (.of rfl)
      | some e => exact (hdrain.trans (.of rfl)).trans (start_worked h _ a ticket)
    · exact .of rfl

theorem bind_worked (h : Host) (now cutoff : Int) (ticket : Ticket) (l : List Assignment) (r : Runner) :
    Worked r (bind h now cutoff ticket r l).1 := by
  induction l generalizing r with
  | nil => exact .refl r
  | cons a l ih =>
    have hp : Worked r (r.proceeds h ticket).1 := (proceeds_kept h r ticket).worked
    unfold bind
    dsimp only
    split_ifs
    · exact (hp.trans (bindOne_worked h now cutoff ticket _ a)).trans (ih _)
    · exact hp

theorem drainAbsent_worked (h : Host) (now cutoff : Int) (s : Snapshot) (r : Runner) :
    Worked r (drainAbsent h now cutoff s r) := by
  unfold drainAbsent
  refine List.foldlRecOn _ _ (b := r) (motive := fun r' => Worked r r') (Worked.refl r) ?_
  intro b hb e _
  split_ifs
  · exact hb
  · exact hb.trans ((beginDrain_worked h b e.2 now cutoff).trans (.of rfl))

theorem drainReports_kept (h : Host) (l : List Draining) (r : Runner) :
    Kept r (drainReports h r l).1 := by
  induction l generalizing r with
  | nil => rfl
  | cons d l ih =>
    have hd : Kept r (r.drainReport h d).1 := rfl
    exact hd.trans (ih _)

/-- The ticket with which a poll goes on: of this snapshot when it is new, of the session else. -/
structure Authorized (r : Runner) (s : Snapshot) (ticket : Ticket) : Prop where
  node : s.nodeId=r.nodeId
  epoch : s.sessionEpoch=r.sessionEpoch
  newer : r.journal.generation ≤ s.snapshotGeneration
  same : r.journal.generation=s.snapshotGeneration → r.journal.snapshot=some s ∧ r.ticket=some ticket

/-- A poll that stored or confirmed its snapshot. -/
structure Adopted (h : Host) (r : Runner) (s : Snapshot) (ticket : Ticket) (next : Journal) : Prop where
  authorized : Authorized r s ticket
  journal : ∃k, r.journal.take h k s=.ok next

/-- A poll that has stored its snapshot and finds its authorization ended. -/
def Lapsed (h : Host) (r : Runner) (s : Snapshot) : Prop :=
  (r.receive h s).2=some .endedBeforeExecution

inductive Received (h : Host) (r : Runner) (s : Snapshot) (r' : Runner) : Option PollError→Prop
  | stopped {e : PollError} (hk : Kept r r') (he : e≠.restartRequired) (he' : e≠.endedBeforeExecution) :
      Received h r s r' (some e)
  | restart (hk : Kept r r') (hn : s.nodeId=r.nodeId) (he : s.sessionEpoch=r.sessionEpoch)
      (hj : r.journal.snapshot=some s) (ht : r.ticket=none) : Received h r s r' (some .restartRequired)
  | ended {ticket : Ticket} {next : Journal} (ha : Adopted h r s ticket next)
      (hk : Kept { r with journal := next } r') : Received h r s r' (some .endedBeforeExecution)
  | executed {ticket : Ticket} {next : Journal} {e : Option PollError} {k : Nat} {b : Runner}
      (ha : Adopted h r s ticket next) (hk : Kept { r with journal := next } b)
      (he : b.execute h (h.now k) s ticket (r.journal.generation<s.snapshotGeneration)=(r',e))
      (hne : e≠some .restartRequired) (hne' : e≠some .endedBeforeExecution) : Received h r s r' e

theorem execute_error (h : Host) (now : Int) (r : Runner) (s : Snapshot) (ticket : Ticket) (c : Bool) :
    (r.execute h now s ticket c).2≠some .restartRequired ∧
      (r.execute h now s ticket c).2≠some .endedBeforeExecution := by
  unfold execute
  dsimp only
  split_ifs <;> simp

theorem authorize_ok (hn : s.nodeId=r.nodeId) (he : s.sessionEpoch=r.sessionEpoch)
    (hle : ¬s.snapshotGeneration < r.journal.generation)
    (hsame : s.snapshotGeneration=r.journal.generation → r.journal.snapshot=some s)
    (h' : r.authorize h s=(r',.ok ticket)) : Authorized r s ticket := by
  unfold authorize at h'
  split_ifs at h' with hlt
  · exact ⟨hn,he,hlt.le,fun heq => absurd heq hlt.ne⟩
  · have heq : r.journal.generation=s.snapshotGeneration := by omega
    refine ⟨hn,he,heq.le,fun _ => ⟨hsame heq.symm,?_⟩⟩
    cases ht : r.ticket with
    | none =>
      rw [ht] at h'
      cases h'
    | some t =>
      rw [ht] at h'
      cases h'
      rfl

theorem Authorized.congr (hk : Kept r r') (ha : Authorized r' s ticket) :
    Authorized r s ticket := by
  obtain ⟨h1,h2,h3,h4⟩ := ha
  unfold Kept at hk
  rw [hk] at h1 h2 h3 h4
  exact ⟨h1,h2,h3,h4⟩

variable {e : PollError}

theorem compareStored_error {a old : Assignment} (h' : compareStored a old=some e) :
    e=.configurationChanged ∨ e=.phaseRegressed := by
  unfold compareStored at h'
  split_ifs at h'
  · cases h'
    exact .inl rfl
  · cases h'
    exact .inr rfl

/-- The refusals of a snapshot before it is stored. -/
def Refusal (e : PollError) : Prop :=
  e=.unresolved ∨ e=.configurationChanged ∨ e=.phaseRegressed ∨ e=.fencingRejected

theorem admitOne_error {k : Nat} {j : Journal} {c : Counters SlotKey} {a : Assignment}
    (h' : admitOne h k j c a=.error e) : Refusal e := by
  simp only [admitOne,bind_error,reject_error,reject_ok,exists_unit] at h'
  obtain ⟨-,rfl⟩ | ⟨-,h'⟩ := h'
  · exact .inl rfl
  cases hf : j.stored.findSome? (compareStored a) with
  | some e' =>
    simp only [hf,Except.error.injEq] at h'
    obtain ⟨old,-,hold⟩ := List.exists_of_findSome?_eq_some hf
    have hcases := compareStored_error hold
    rw [h'] at hcases
    exact .inr (hcases.imp id .inl)
  | none =>
    simp only [hf,bind_error,reject_error,reject_ok,exists_unit] at h'
    obtain ⟨-,rfl⟩ | ⟨-,h'⟩ := h'
    · exact .inr (.inr (.inr rfl))
    · cases h'

theorem admit_error {k : Nat} {j : Journal} (h' : j.take h k s=.error e) : Refusal e := by
  simp only [Journal.take,bind_error] at h'
  obtain hf | ⟨c,-,hc⟩ := h'
  · obtain ⟨c,a,ha⟩ := foldlM_error hf
    exact admitOne_error ha
  · cases hc

theorem Refusal.stopped (he : Refusal e) (hk : Kept r r') : Received h r s r' (some e) := by
  refine .stopped hk ?_ ?_
  · rintro rfl
    simp [Refusal] at he
  · rintro rfl
    simp [Refusal] at he

theorem adopt_received {b : Runner} {k : Nat} (hk : Kept r b) (ha : Authorized r s ticket) :
    Received h r s (b.adopt h (h.now k) s ticket).1 (b.adopt h (h.now k) s ticket).2 := by
  have hj : b.journal=r.journal := by
    unfold Kept at hk
    rw [hk]
  unfold adopt
  dsimp only
  rw [hj]
  cases hadm : r.journal.take h b.ticks s with
  | error e => exact (admit_error hadm).stopped hk
  | ok next =>
    have hadopted : Adopted h r s ticket next := ⟨ha,b.ticks,hadm⟩
    have hnext : Kept { r with journal := next } { b with journal := next } := by
      unfold Kept at hk ⊢
      rw [hk]
    have hp := hnext.trans (proceeds_kept h { b with journal := next } ticket)
    dsimp only
    split_ifs with hstore hproceeds
    · exact .stopped hk (by simp) (by simp)
    · exact .ended hadopted hp
    · have herr := execute_error h (h.now k) ({ b with journal := next }.proceeds h ticket).1 s ticket
        (r.journal.generation<s.snapshotGeneration)
      exact .executed hadopted hp rfl herr.1 herr.2

theorem authorize_error {e : PollError} (h' : r.authorize h s=(r',.error e)) :
    (∃fault, e=.refused fault) ∨ (e=.restartRequired ∧
      s.snapshotGeneration≤r.journal.generation ∧ r.ticket=none) := by
  unfold authorize at h'
  split_ifs at h' with hlt
  · cases ha : (r.guard.accept (h.reading r.ticks) (instant s.issuedAt) (instant s.validUntil)).2 with
    | ok => simp [ha,Except.mapError] at h'
    | error fault =>
      simp only [ha,Except.mapError,Prod.mk.injEq,Except.error.injEq] at h'
      exact .inl ⟨fault,h'.2.symm⟩
  · cases ht : r.ticket with
    | some => simp [ht] at h'
    | none =>
      simp only [ht,Prod.mk.injEq,Except.error.injEq] at h'
      exact .inr ⟨h'.2.symm,by omega,rfl⟩

theorem receive_received (h : Host) (r : Runner) (s : Snapshot) :
    Received h r s (r.receive h s).1 (r.receive h s).2 := by
  unfold receive
  generalize hq : (if r.ticket.isSome then r.allow h r.ticket else (r,true))=q
  have hk : Kept r q.1 := by
    rw [← hq]
    split_ifs
    · exact allow_kept h r _
    · exact .refl r
  have hfields : q.1.nodeId=r.nodeId ∧ q.1.sessionEpoch=r.sessionEpoch ∧ q.1.journal=r.journal ∧
      q.1.ticket=r.ticket := by
    unfold Kept at hk
    rw [hk]
    exact ⟨rfl,rfl,rfl,rfl⟩
  obtain ⟨hqn,hqe,hqj,hqt⟩ := hfields
  dsimp only
  split_ifs with hallow hident hhist
  · exact .stopped hk (by simp) (by simp)
  · exact .stopped hk (by simp) (by simp)
  · exact .stopped hk (by simp) (by simp)
  · simp only [not_or,not_not,not_and] at hident hhist
    cases hauth : q.1.authorize h s with
    | mk b res =>
      have hb : Kept r b := by
        have := authorize_kept h q.1 s
        rw [hauth] at this
        exact hk.trans this
      cases res with
      | ok ticket =>
        have ha := authorize_ok hident.1 hident.2 hhist.1 hhist.2 hauth
        exact adopt_received hb (ha.congr hk)
      | error e =>
        obtain ⟨fault,rfl⟩ | ⟨rfl,hle,hnone⟩ := authorize_error hauth
        · exact .stopped hb (by simp) (by simp)
        · have hstored := hhist.2 (by omega)
          rw [hqj] at hstored
          exact .restart hb (hident.1.trans hqn) (hident.2.trans hqe) hstored (hqt ▸ hnone)

/-- The identity of the process and its journal. -/
structure Stays (r r' : Runner) : Prop where
  node : r'.nodeId=r.nodeId
  boot : r'.bootId=r.bootId
  epoch : r'.sessionEpoch=r.sessionEpoch
  journal : r'.journal=r.journal

theorem Stays.trans {a b c : Runner} (h : Stays a b) (k : Stays b c) : Stays a c :=
  ⟨k.node.trans h.node,k.boot.trans h.boot,k.epoch.trans h.epoch,k.journal.trans h.journal⟩

theorem Worked.stays (h : Worked r r') : Stays r r' ∧ r'.ticket=r.ticket ∧ r'.sequence=r.sequence ∧
    r'.pending=r.pending ∧ r'.deadline=r.deadline := by
  rw [h.same]
  exact ⟨⟨rfl,rfl,rfl,rfl⟩,rfl,rfl,rfl,rfl⟩

theorem execute_cases (h : Host) (now : Int) (r : Runner) (s : Snapshot) (ticket : Ticket) (c : Bool) :
    (Worked (r.adopting ticket c) (r.execute h now s ticket c).1 ∧
      (r.execute h now s ticket c).2≠none) ∨
    ∃b, Worked (r.adopting ticket c) b ∧ b.sequence < maxCounter ∧
      r.execute h now s ticket c=(b.conclude h now,none) := by
  unfold execute
  dsimp only
  generalize hp : (r.adopting ticket c).allow h (some ticket)=p
  have hallow : Worked (r.adopting ticket c) p.1 := by
    rw [← hp]
    exact (allow_kept h _ _).worked
  have hreset : Worked p.1 { p.1 with observations := [] } := .of rfl
  have hbind := (hallow.trans hreset).trans
    (bind_worked h now r.deadline ticket s.assignments { p.1 with observations := [] })
  have hdrain := hbind.trans (drainAbsent_worked h now r.deadline s _)
  split_ifs with h1 h2 h3
  · exact .inl ⟨hallow,by simp⟩
  · exact .inl ⟨hbind,by simp⟩
  · exact .inl ⟨hdrain,by simp⟩
  · exact .inr ⟨_,hdrain,not_le.mp h3,rfl⟩

theorem adopting_stays (r : Runner) (ticket : Ticket) (c : Bool) : Stays r (r.adopting ticket c) := by
  unfold adopting
  split_ifs <;> exact ⟨rfl,rfl,rfl,rfl⟩

theorem conclude_stays (h : Host) (now : Int) (r : Runner) : Stays r (r.conclude h now) ∧
    (r.conclude h now).ticket=r.ticket := by
  have hk := drainReports_kept h (r.drains.rows.map Prod.snd) { r with sequence := r.sequence+1 }
  unfold Kept at hk
  unfold conclude
  dsimp only
  rw [hk]
  exact ⟨⟨rfl,rfl,rfl,rfl⟩,rfl⟩

theorem execute_stays (h : Host) (now : Int) (r : Runner) (s : Snapshot) (ticket : Ticket) (c : Bool) :
    Stays r (r.execute h now s ticket c).1 ∧
      (r.execute h now s ticket c).1.ticket=(r.adopting ticket c).ticket := by
  have ha := adopting_stays r ticket c
  obtain ⟨hw,-⟩ | ⟨b,hw,-,he⟩ := execute_cases h now r s ticket c
  · obtain ⟨hs,ht,-⟩ := hw.stays
    exact ⟨ha.trans hs,ht⟩
  · obtain ⟨hs,ht,-⟩ := hw.stays
    obtain ⟨hc,hct⟩ := conclude_stays h now b
    rw [he]
    exact ⟨(ha.trans hs).trans hc,hct.trans ht⟩

theorem acknowledge_stays (r : Runner) (a : ReportAck) :
    Stays r (r.acknowledge a) ∧ (r.acknowledge a).ticket=r.ticket := by
  unfold acknowledge
  cases r.pending with
  | none => exact ⟨⟨rfl,rfl,rfl,rfl⟩,rfl⟩
  | some sent =>
    dsimp only
    split_ifs <;> exact ⟨⟨rfl,rfl,rfl,rfl⟩,rfl⟩

theorem watch_stays (h : Host) (r : Runner) :
    Stays r (r.watch h) ∧ (r.watch h).ticket=r.ticket := by
  unfold watch
  dsimp only
  split_ifs <;> exact ⟨⟨rfl,rfl,rfl,rfl⟩,rfl⟩

end Runner

end TuneX.Runtime
