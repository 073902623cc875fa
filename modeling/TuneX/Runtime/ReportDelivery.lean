import TuneX.Runtime.SessionFencing
import TuneX.Control.Reservations

namespace TuneX.Runtime

open Framework Control

/-- The key under which Control stores a report. -/
def reportKey (r : Report) : NodeId×Nat×Nat := (r.nodeId,r.sessionEpoch,r.reportSequence)

namespace Runner

variable {h : Host} {r r' : Runner} {s : Snapshot}

/-- The report is the last one that the process built. -/
structure Labelled (r : Runner) (report : Report) : Prop where
  node : report.nodeId=r.nodeId
  boot : report.bootId=r.bootId
  epoch : report.sessionEpoch=r.sessionEpoch
  sequence : report.reportSequence=r.sequence

/-- A move of the process: it keeps its report or builds the next one. -/
structure Posts (r r' : Runner) : Prop where
  node : r'.nodeId=r.nodeId
  boot : r'.bootId=r.bootId
  epoch : r'.sessionEpoch=r.sessionEpoch
  report : (r'.sequence=r.sequence ∧ ∀cur, r'.pending=some cur → r.pending=some cur) ∨
    (r.sequence < r'.sequence ∧ ∀cur, r'.pending=some cur→Labelled r' cur)
  named : ∀k d, r'.drains.lookup k=some d→
    r.drains.lookup k=some d ∨ k=d.assignment.instanceOn r.nodeId

theorem Worked.posts (hw : Worked r r') : Posts r r' := by
  obtain ⟨hs,-,hq,hp,-⟩ := hw.stays
  refine ⟨hs.node,hs.boot,hs.epoch,.inl ⟨hq,fun cur hcur => ?_⟩,hw.named⟩
  rw [← hp]
  exact hcur

theorem conclude_posts (h : Host) (now : Int) (r : Runner) : Posts r (r.conclude h now) ∧
    (r.conclude h now).drains=r.drains := by
  have hk := drainReports_kept h (r.drains.rows.map Prod.snd) { r with sequence := r.sequence+1 }
  unfold Kept at hk
  unfold conclude
  dsimp only
  rw [hk]
  refine ⟨⟨rfl,rfl,rfl,.inr ⟨Nat.lt_succ_self _,fun cur hcur => ?_⟩,fun k d hd => .inl hd⟩,rfl⟩
  cases hcur
  exact ⟨rfl,rfl,rfl,rfl⟩

theorem Posts.trans_worked {a b c : Runner} (hw : Worked a b) (hp : Posts b c) : Posts a c := by
  obtain ⟨hs,-,hq,hpend,-⟩ := hw.stays
  refine ⟨hp.node.trans hs.node,hp.boot.trans hs.boot,hp.epoch.trans hs.epoch,?_,fun k d hd => ?_⟩
  · rw [← hq,← hpend]
    exact hp.report
  · obtain hd | hd := hp.named k d hd
    · exact hw.named k d hd
    · rw [hs.node] at hd
      exact .inr hd

theorem Posts.after {a b : Runner} (h : Posts b r') (hn : b.nodeId=a.nodeId) (hb : b.bootId=a.bootId)
    (he : b.sessionEpoch=a.sessionEpoch) (hq : b.sequence=a.sequence) (hp : b.pending=a.pending)
    (hd : b.drains=a.drains) : Posts a r' := by
  refine ⟨h.node.trans hn,h.boot.trans hb,h.epoch.trans he,?_,?_⟩
  · rw [← hq,← hp]
    exact h.report
  · rw [← hd,← hn]
    exact h.named

theorem execute_posts (h : Host) (now : Int) (r : Runner) (s : Snapshot) (ticket : Agent.Authorization.Ticket)
    (c : Bool) : Posts r (r.execute h now s ticket c).1 ∧
      ∀k d, r.drains.lookup k=some d→(r.execute h now s ticket c).1.drains.lookup k=some d := by
  have ha := adopting_stays r ticket c
  have hsame : (r.adopting ticket c).sequence=r.sequence ∧ (r.adopting ticket c).pending=r.pending ∧
      (r.adopting ticket c).drains=r.drains := by
    unfold adopting
    split_ifs <;> exact ⟨rfl,rfl,rfl⟩
  obtain ⟨hq,hp,hd⟩ := hsame
  obtain ⟨hw,-⟩ | ⟨b,hw,-,he⟩ := execute_cases h now r s ticket c
  · refine ⟨hw.posts.after ha.node ha.boot ha.epoch hq hp hd,fun k d hk => ?_⟩
    exact hw.drains k d (hd ▸ hk)
  · obtain ⟨hc,hcd⟩ := conclude_posts h now b
    rw [he]
    refine ⟨(Posts.trans_worked hw hc).after ha.node ha.boot ha.epoch hq hp hd,fun k d hk => ?_⟩
    rw [hcd]
    exact hw.drains k d (hd ▸ hk)

theorem receive_posts (h : Host) (r : Runner) (s : Snapshot) : Posts r (r.receive h s).1 ∧
    ∀k d, r.drains.lookup k=some d→(r.receive h s).1.drains.lookup k=some d := by
  have hreceived := receive_received h r s
  generalize (r.receive h s).1=r' at hreceived ⊢
  generalize (r.receive h s).2=err at hreceived
  cases hreceived with
  | stopped hk | restart hk => exact ⟨hk.worked.posts,hk.worked.drains⟩
  | ended ha hk => exact ⟨hk.worked.posts.after rfl rfl rfl rfl rfl rfl,hk.worked.drains⟩
  | @executed ticket next _ k b ha hk he =>
    obtain ⟨hp,hd⟩ := execute_posts h (h.now k) b s ticket (r.journal.generation<s.snapshotGeneration)
    rw [he] at hp hd
    refine ⟨(Posts.trans_worked hk.worked hp).after rfl rfl rfl rfl rfl rfl,fun x d hx => ?_⟩
    exact hd x d (hk.worked.drains x d hx)

theorem stop_posts (r : Runner) : Posts r r.stop := by
  refine ⟨rfl,rfl,rfl,.inl ⟨rfl,fun _ h => h⟩,fun k d hd => ?_⟩
  simp [stop] at hd

theorem watch_posts (h : Host) (r : Runner) : Posts r (r.watch h) ∧
    ((r.watch h).drains=r.drains ∨ (r.watch h).ended=true) := by
  have hk : Kept r { r with
      guard := (r.guard.check (h.reading r.ticks)).1
      ticks := r.ticks+1 } := rfl
  have hstop : ∀{b : Runner}, Kept r b→Posts r b.stop := fun hb =>
    Posts.trans_worked hb.worked (stop_posts _)
  unfold watch
  dsimp only
  split_ifs
  · exact ⟨hstop hk,.inr rfl⟩
  · exact ⟨(hk.trans (allow_kept h _ _)).worked.posts,.inl rfl⟩
  · exact ⟨hstop (hk.trans (allow_kept h _ _)),.inr rfl⟩
  · exact ⟨hk.worked.posts,.inl rfl⟩

/-- The drains after those that a report calls removed are deleted. -/
def forget (n : NodeId) (drains : Table Instance Draining) (l : List Drain) : Table Instance Draining :=
  l.foldl (fun t d => if d.condition=.removed then t.erase (d.instanceOn n) else t) drains

variable {n : NodeId} {l : List Drain} {t : Table Instance Draining} {k : Instance} {d : Draining}

theorem forget_lookup : (forget n t l).lookup k=some d→t.lookup k=some d := by
  induction l generalizing t with
  | nil => exact id
  | cons x l ih =>
    intro hk
    have hx : (if x.condition=.removed then t.erase (x.instanceOn n) else t).lookup k=some d := ih hk
    split_ifs at hx
    · exact (Table.lookup_erase_some.mp hx).2
    · exact hx

theorem forget_removed (hk : t.lookup k=some d) :
    (forget n t l).lookup k=some d ∨ ∃x∈l, x.condition=.removed ∧ x.instanceOn n=k := by
  induction l generalizing t with
  | nil => exact .inl hk
  | cons x l ih =>
    have hnext : (forget n (if x.condition=.removed then t.erase (x.instanceOn n) else t) l).lookup k=
        some d→(forget n t (x::l)).lookup k=some d := id
    by_cases hkey : x.condition=.removed ∧ x.instanceOn n=k
    · exact .inr ⟨x,List.mem_cons_self,hkey⟩
    have hkept : (if x.condition=.removed then t.erase (x.instanceOn n) else t).lookup k=some d := by
      split_ifs with hx
      · exact Table.lookup_erase_some.mpr ⟨fun he => hkey ⟨hx,he.symm⟩,hk⟩
      · exact hk
    obtain hl | ⟨y,hy,hrest⟩ := ih hkept
    · exact .inl (hnext hl)
    · exact .inr ⟨y,List.mem_cons_of_mem _ hy,hrest⟩

theorem acknowledge_posts (r : Runner) (a : ReportAck) : Posts r (r.acknowledge a) ∧
    ∀k d, r.drains.lookup k=some d→(r.acknowledge a).drains.lookup k=some d ∨
      ∃sent, r.pending=some sent ∧ a=⟨r.nodeId,r.bootId,r.sessionEpoch,r.sequence⟩ ∧
        ∃x∈sent.drains, x.condition=.removed ∧ x.instanceOn r.nodeId=k := by
  have hcases : r.acknowledge a=r ∨ ∃sent, r.pending=some sent ∧
      a=⟨r.nodeId,r.bootId,r.sessionEpoch,r.sequence⟩ ∧ r.acknowledge a=
        { r with pending := none, drains := forget r.nodeId r.drains sent.drains } := by
    unfold acknowledge
    cases r.pending with
    | none => exact .inl rfl
    | some sent =>
      dsimp only
      split_ifs with ha
      · exact .inr ⟨sent,rfl,ha,rfl⟩
      · exact .inl rfl
  obtain hsame | ⟨sent,hp,ha,hack⟩ := hcases
  · rw [hsame]
    exact ⟨(Worked.refl r).posts,fun k d hk => .inl hk⟩
  · rw [hack]
    refine ⟨⟨rfl,rfl,rfl,.inl ⟨rfl,?_⟩,fun k d hd => .inl (forget_lookup hd)⟩,fun k d hk => ?_⟩
    · intro cur hcur
      cases hcur
    · obtain hkept | hgone := forget_removed (n := r.nodeId) (l := sent.drains) hk
      · exact .inl hkept
      · exact .inr ⟨sent,hp,ha,hgone⟩

end Runner

namespace System

variable {hosts : Nat→Host} {σ τ : System} {e : SystemEvent} {l : List SystemEvent} {w : World}

/-- A report on the wire is the pending one or an earlier one of its process. -/
def Sent (r : Runner) (report : Report) : Prop :=
  report.nodeId=r.nodeId ∧ report.sessionEpoch=r.sessionEpoch ∧ report.reportSequence ≤ r.sequence ∧
    ∀cur, r.pending=some cur → report.reportSequence=r.sequence→cur=report

structure Posted (σ : System) : Prop where
  pending : ∀b p r report, σ.processes.lookup b=some p→p.runner=some r → r.pending=some report→
    Runner.Labelled r report
  wire : ∀report∈σ.wire, ∃p r, σ.processes.lookup report.bootId=some p ∧ p.runner=some r ∧
    Sent r report
  acked : ∀a∈σ.acks, ∃report∈σ.wire, ackOf report=a ∧
    σ.control.reports.lookup (reportKey report)=some report
  drain : ∀b p r k d, σ.processes.lookup b=some p→p.runner=some r → r.drains.lookup k=some d→
    k=d.assignment.instanceOn r.nodeId

theorem Posted.initial (w : World) : (System.initial w).Posted := by
  refine ⟨?_,?_,?_,?_⟩
  all_goals simp [System.initial]

variable {boot now : Nat} {p : Process} {r : Report} {stored : List Journal}

theorem Posted.insert (h : σ.Posted)
    (hpending : ∀r report, p.runner=some r → r.pending=some report→Runner.Labelled r report)
    (hwire : ∀report∈σ.wire, report.bootId=boot→∃r, p.runner=some r ∧ Sent r report)
    (hdrain : ∀r k d, p.runner=some r → r.drains.lookup k=some d→
      k=d.assignment.instanceOn r.nodeId) :
    ({ σ with processes := σ.processes.insert boot p, stored := stored } : System).Posted := by
  refine ⟨?_,?_,h.acked,?_⟩
  · intro b q r report hq hr hrep
    obtain ⟨rfl,rfl⟩ | ⟨-,hq⟩ := Table.lookup_insert_some.mp hq
    · exact hpending r report hr hrep
    · exact h.pending b q r report hq hr hrep
  · intro report hrep
    by_cases hb : report.bootId=boot
    · obtain ⟨r,hr,hs⟩ := hwire report hrep hb
      exact ⟨p,r,Table.lookup_insert_some.mpr (.inl ⟨hb,rfl⟩),hr,hs⟩
    · obtain ⟨q,r,hq,hr,hs⟩ := h.wire report hrep
      exact ⟨q,r,Table.lookup_insert_some.mpr (.inr ⟨hb,hq⟩),hr,hs⟩
  · intro b q r k d hq hr hd
    obtain ⟨rfl,rfl⟩ | ⟨-,hq⟩ := Table.lookup_insert_some.mp hq
    · exact hdrain r k d hr hd
    · exact h.drain b q r k d hq hr hd

theorem Posted.process (h : σ.Posted) {r r' : Runner} (hp : σ.processes.lookup boot=some p)
    (hr : p.runner=some r) (hm : Runner.Posts r r') :
    ({ σ.setRunner boot p r' with stored := stored } : System).Posted := by
  refine h.insert ?_ ?_ ?_
  · intro x report hx hrep
    cases hx
    obtain ⟨hq,hcur⟩ | ⟨-,hnew⟩ := hm.report
    · have hold := h.pending boot p r report hp hr (hcur report hrep)
      exact ⟨hold.node.trans hm.node.symm,hold.boot.trans hm.boot.symm,
        hold.epoch.trans hm.epoch.symm,hold.sequence.trans hq.symm⟩
    · exact hnew report hrep
  · rintro report hrep rfl
    obtain ⟨q,x,hq,hx,hn,he,hs,hcur⟩ := h.wire report hrep
    rw [hp] at hq
    cases hq
    rw [hr] at hx
    cases hx
    refine ⟨r',rfl,hn.trans hm.node.symm,he.trans hm.epoch.symm,?_,?_⟩
    · obtain ⟨hq,-⟩ | ⟨hq,-⟩ := hm.report
      · omega
      · omega
    · intro cur hc' hseq
      obtain ⟨hq,hkeep⟩ | ⟨hq,-⟩ := hm.report
      · exact hcur cur (hkeep cur hc') (hseq.trans hq)
      · omega
  · intro x k d hx hd
    cases hx
    obtain hd | hd := hm.named k d hd
    · rw [hm.node]
      exact h.drain boot p r k d hp hr hd
    · rw [hm.node]
      exact hd

theorem Posted.control (h : σ.Posted) (hl : Later σ.control τ.control) (hp : τ.processes=σ.processes)
    (hw : τ.wire=σ.wire)
    (ha : ∀a∈τ.acks, a∈σ.acks ∨ ∃report∈σ.wire, ackOf report=a ∧
      τ.control.reports.lookup (reportKey report)=some report) : τ.Posted := by
  refine ⟨?_,?_,?_,?_⟩
  · rw [hp]
    exact h.pending
  · rw [hw,hp]
    exact h.wire
  · intro a hmem
    rw [hw]
    obtain hold | hnew := ha a hmem
    · obtain ⟨report,hrep,hack,hstored⟩ := h.acked a hold
      exact ⟨report,hrep,hack,hl.reports _ _ hstored⟩
    · exact hnew
  · rw [hp]
    exact h.drain

theorem reportCall_reports {c t : State} {d : Bool} (hk : Kernel c)
    (h : c.reportCall now r.nodeId r.sessionEpoch r=.ok (t,d)) :
    (c.reports.lookup (reportKey r)=some r ∧ t=c.atTime now) ∨
    (c.reports.lookup (reportKey r)=none ∧ t.reports=c.reports.insert (reportKey r) r ∧
      ∀q x, c.reports.lookup (r.nodeId,r.sessionEpoch,q)=some x→q < r.reportSequence) := by
  obtain ⟨-,-,hepoch,-,⟨-,ht,hold⟩ | ⟨-,hnone,u,⟨hT⟩,-,hserved⟩⟩ :=
    reportCall_ok hk.catalog.deployed.specs h
  · exact .inl ⟨hold,ht⟩
  · refine .inr ⟨hnone,hserved.reports.trans hT.reports,fun q x hx => ?_⟩
    have hrow : c.nodes.lookup r.nodeId=some hT.row := hT.row_eq
    obtain ⟨-,-,-,-,row,hrow',hle⟩ := hk.sessions.report _ _ _ x hx
    rw [hrow] at hrow'
    cases hrow'
    have hcur := hle hT.epoch_eq
    have hnewer := hT.newer
    omega

theorem Step.posted (h : Step hosts σ e τ) (hw : σ.Wired) (hs : σ.Posted) : τ.Posted := by
  have hlater := h.later hw.kernel
  cases h with
  | control | hello | fetch => exact hs.control hlater rfl rfl fun a ha => .inl ha
  | @deliver now r t d hwire hcall =>
    refine hs.control hlater rfl rfl fun a ha => ?_
    obtain rfl | ha := List.mem_cons.mp ha
    · refine .inr ⟨r,hwire,rfl,?_⟩
      obtain ⟨hold,ht⟩ | ⟨-,ht,-⟩ := reportCall_reports hw.kernel hcall
      · have hsame : t.reports=σ.control.reports := by rw [ht]; rfl
        exact hsame ▸ hold
      · rw [ht]
        exact AList.lookup_insert _
    · exact .inl ha
  | @start boot p hb hr =>
    refine hs.insert ?_ ?_ ?_
    · intro r report hx
      rw [hr] at hx
      cases hx
    · rintro report hrep rfl
      obtain ⟨q,x,hq,-⟩ := hs.wire report hrep
      rw [hb] at hq
      cases hq
    · intro r k d hx
      rw [hr] at hx
      cases hx
  | @greet boot g credentialUntil p r hp hr hg hb hn hopen =>
    have hfresh : r.pending=none ∧ r.drains=∅ := by
      unfold Runner.opened at hopen
      split at hopen
      · cases hopen
      · split at hopen
        · cases hopen
        · cases hopen
          exact ⟨rfl,rfl⟩
    refine hs.insert ?_ ?_ ?_
    · intro x report hx hrep
      cases hx
      rw [hfresh.1] at hrep
      cases hrep
    · rintro report hrep hboot
      obtain ⟨q,x,hq,hx,-⟩ := hs.wire report hrep
      rw [hboot,hp] at hq
      cases hq
      rw [hr] at hx
      cases hx
    · intro x k d hx hd
      cases hx
      rw [hfresh.2] at hd
      cases hd
  | poll hp hr => exact hs.process hp hr (Runner.receive_posts _ _ _).1
  | @send boot r report hr he hpend =>
    refine ⟨hs.pending,?_,?_,hs.drain⟩
    · intro x hx
      obtain rfl | hx := List.mem_cons.mp hx
      · obtain ⟨p,hp,hpr⟩ := Option.bind_eq_some_iff.mp hr
        have hlabel := hs.pending boot p r x hp hpr hpend
        have hboot : x.bootId=boot := hlabel.boot.trans (hw.live boot p r hp hpr).named
        rw [hboot]
        refine ⟨p,r,hp,hpr,hlabel.node,hlabel.epoch,hlabel.sequence.le,fun cur hcur _ => ?_⟩
        rw [hpend] at hcur
        exact (Option.some.inj hcur).symm
      · exact hs.wire x hx
    · intro a ha
      obtain ⟨x,hx,hrest⟩ := hs.acked a ha
      exact ⟨x,List.mem_cons_of_mem _ hx,hrest⟩
  | acknowledge hp hr => exact hs.process hp hr (Runner.acknowledge_posts _ _).1
  | watch hp hr => exact hs.process hp hr (Runner.watch_posts _ _).1
  | crash hp hr => exact hs.process hp hr (Runner.stop_posts _)

theorem run_posted (h : Run (Step hosts) (initial w) l σ) : σ.Wired ∧ σ.Posted :=
  h.invariant (fun σ => σ.Wired ∧ σ.Posted)
    (fun _ _ _ hab ha => ⟨hab.wired ha.1,hab.posted ha.1 ha.2⟩) ⟨.initial w,.initial w⟩

theorem run_delivered (h : Run (Step hosts) (initial w) l σ) (hr : .deliver now r∈l) :
    σ.control.reports.lookup (reportKey r)=some r := by
  refine h.history (fun l σ => ∀now r, .deliver now r∈l→σ.control.reports.lookup (reportKey r)=some r)
    ?_ ?_ now r hr
  · intro l σ e τ hrun hstep ih now r hmem
    have hw := run_wired hrun
    have hlater := hstep.later hw.kernel
    obtain hold | hnew := List.mem_append.mp hmem
    · exact hlater.reports _ _ (ih now r hold)
    · obtain rfl := List.mem_singleton.mp hnew
      cases hstep with
      | @deliver _ _ t d hwire hcall =>
        obtain ⟨hstored,-⟩ | ⟨-,ht,-⟩ := reportCall_reports hw.kernel hcall
        · exact hlater.reports _ _ hstored
        · have ht' : t.reports.lookup (reportKey r)=some r := by
            rw [ht]
            exact AList.lookup_insert _
          exact ht'
  · intro now r hmem
    cases hmem

theorem reportCall_duplicate {c : State} (hk : Kernel c)
    (hstored : c.reports.lookup (reportKey r)=some r) (hcur : c.sessionOf r.nodeId=r.sessionEpoch)
    (hauth : c.nodeAuthorized now r.nodeId) :
    c.reportCall now r.nodeId r.sessionEpoch r=.ok (c.atTime now,true) := by
  obtain ⟨-,-,-,hboot,-⟩ := hk.sessions.report _ _ _ r hstored
  obtain ⟨hpos,row,hrow,-,hrowBoot⟩ := hk.sessions.boot _ _ _ hboot
  rw [sessionOf_eq hrow] at hcur
  have hrow' : (c.atTime now).nodes.lookup r.nodeId=some row := hrow
  have hauth' : (c.atTime now).nodeAuthorized now r.nodeId := hauth
  have hkey : (c.atTime now).reports.lookup (r.nodeId,row.sessionEpoch,r.reportSequence)=some r := by
    rw [hcur]
    exact hstored
  have hreport : (c.atTime now).report now r.nodeId r=.ok (c.atTime now) := by
    simp only [State.report,hrow',hkey,do_ok,not_or,not_not]
    exact ⟨⟨trivial,hcur.symm⟩,hauth',hrowBoot hcur.symm,trivial,trivial⟩
  have hlocked : c.locked r.nodeId r.sessionEpoch=.ok row := by
    rw [locked_ok]
    exact ⟨hrow,by omega,hcur⟩
  have hsome : (c.reports.lookup (r.nodeId,r.sessionEpoch,r.reportSequence)).isSome=true := by
    have hk' : c.reports.lookup (r.nodeId,r.sessionEpoch,r.reportSequence)=some r := hstored
    rw [hk']
    rfl
  simp only [State.reportCall,do_ok,not_or,not_not]
  exact ⟨⟨trivial,trivial⟩,row,hlocked,_,hreport,by rw [if_pos hsome]; rfl⟩

/-- Reports and drains at one step of the system after any run. -/
structure ReportsApplied (l : List SystemEvent) (σ : System) (e : SystemEvent) (τ : System) : Prop where
  /-- A key that was delivered before carries the same body and changes nothing. -/
  once : ∀now r now' r', e=.deliver now r → .deliver now' r'∈l → reportKey r'=reportKey r→
    r'=r ∧ τ.control=σ.control.atTime now
  /-- A report that is applied is stored and has the highest sequence of its session so far. -/
  applied : ∀now r, e=.deliver now r→τ.control=σ.control.atTime now ∨
    (τ.control.reports=σ.control.reports.insert (reportKey r) r ∧ ∀now' r', .deliver now' r'∈l→
      r'.nodeId=r.nodeId → r'.sessionEpoch=r.sessionEpoch → r'.reportSequence < r.reportSequence)
  refused : ∀now n epoch r stored y, σ.control.reports.lookup (n,epoch,r.reportSequence)=some stored→
    r≠stored→σ.control.reportCall now n epoch r≠.ok y
  duplicate : ∀now r, σ.control.reports.lookup (reportKey r)=some r→
    σ.control.sessionOf r.nodeId=r.sessionEpoch→σ.control.nodeAuthorized now r.nodeId→
    σ.control.reportCall now r.nodeId r.sessionEpoch r=.ok (σ.control.atTime now,true)
  /-- A drain goes with the process, or after a stored report of its session called it removed. -/
  forgotten : ∀boot p r k d, σ.processes.lookup boot=some p→p.runner=some r → r.drains.lookup k=some d→
    k=d.assignment.instanceOn r.nodeId ∧
    ∃p' r', τ.processes.lookup boot=some p' ∧ p'.runner=some r' ∧
      (r'.drains.lookup k=some d ∨ r'.ended=true ∨ ∃report x,
        σ.control.reports.lookup (r.nodeId,r.sessionEpoch,report.reportSequence)=some report ∧
        report.bootId=boot ∧ x∈report.drains ∧ x.condition=.removed ∧ x.instanceOn r.nodeId=k)

theorem Step.forgotten (h : Step hosts σ e τ) (hw : σ.Wired) (hs : σ.Posted) {r : Runner}
    {k : Instance} {d : Draining} (hp : σ.processes.lookup boot=some p) (hr : p.runner=some r)
    (hk : r.drains.lookup k=some d) : ∃p' r', τ.processes.lookup boot=some p' ∧ p'.runner=some r' ∧
      (r'.drains.lookup k=some d ∨ r'.ended=true ∨ ∃report x,
        σ.control.reports.lookup (r.nodeId,r.sessionEpoch,report.reportSequence)=some report ∧
        report.bootId=boot ∧ x∈report.drains ∧ x.condition=.removed ∧ x.instanceOn r.nodeId=k) := by
  -- Most steps leave the process alone, or replace another one.
  have hother : ∀{b : Nat} {q : Process}, b≠boot→τ.processes=σ.processes.insert b q→
      τ.processes.lookup boot=some p := by
    intro b q hb hτ
    rw [hτ]
    exact (AList.lookup_insert_ne hb.symm).trans hp
  have hset : ∀{P : Runner→Prop} {b : Nat} {q : Process} {x x' : Runner},
      σ.processes.lookup b=some q→q.runner=some x→τ.processes=(σ.setRunner b q x').processes→P r→
      (b=boot→x=r→P x')→
      ∃p' r', τ.processes.lookup boot=some p' ∧ p'.runner=some r' ∧ P r' := by
    intro P b q x x' hq hx hτ hsame hmoved
    by_cases hb : b=boot
    · rw [hb,hp] at hq
      cases hq
      rw [hτ,hb]
      exact ⟨_,x',AList.lookup_insert _,rfl,hmoved hb (Option.some.inj (hx.symm.trans hr))⟩
    · exact ⟨p,r,hother hb hτ,hr,hsame⟩
  cases h with
  | control | hello | fetch | send | deliver => exact ⟨p,r,hp,hr,.inl hk⟩
  | @start b q hb =>
    refine ⟨p,r,hother (b := b) ?_ rfl,hr,.inl hk⟩
    rintro rfl
    rw [hb] at hp
    cases hp
  | @greet b g credentialUntil q x hq hx =>
    refine ⟨p,r,hother (b := b) ?_ rfl,hr,.inl hk⟩
    rintro rfl
    rw [hq] at hp
    cases hp
    rw [hx] at hr
    cases hr
  | poll hq hx =>
    refine hset hq hx rfl (.inl hk) ?_
    rintro rfl rfl
    exact .inl ((Runner.receive_posts _ _ _).2 k d hk)
  | @acknowledge b a q x hq hx he ha =>
    refine hset hq hx rfl (.inl hk) ?_
    rintro rfl rfl
    obtain hkept | ⟨sent,hsent,hack,y,hy,hrem,hkey⟩ := (Runner.acknowledge_posts x a).2 k d hk
    · exact .inl hkept
    · -- The acknowledged report is on the wire under the pending sequence, so it is the pending one.
      obtain ⟨report,hwire,hof,hstored⟩ := hs.acked a ha
      rw [hack] at hof
      obtain ⟨hn,hboot,hepoch,hseq⟩ := ReportAck.mk.inj hof
      have hlive := hw.live b q x hq hx
      obtain ⟨q',r',hq',hr',-,-,-,hcur⟩ := hs.wire report hwire
      rw [hboot,hlive.named,hq] at hq'
      cases hq'
      rw [hx] at hr'
      cases hr'
      obtain rfl := hcur sent hsent hseq
      refine .inr (.inr ⟨sent,y,?_,hboot.trans hlive.named,hy,hrem,hkey⟩)
      rw [← hn,← hepoch]
      exact hstored
  | @watch b q x hq hx =>
    refine hset hq hx rfl (.inl hk) ?_
    rintro rfl rfl
    obtain hkeep | hend := (Runner.watch_posts (hosts b) x).2
    · exact .inl (hkeep ▸ hk)
    · exact .inr (.inl hend)
  | crash hq hx => exact hset hq hx rfl (.inl hk) fun _ _ => .inr (.inl rfl)

theorem reports_applied (h : Run (Step hosts) (initial w) l σ) (hs : Step hosts σ e τ) :
    ReportsApplied l σ e τ := by
  obtain ⟨hw,hp⟩ := run_posted h
  have hdeliver : ∀now r, e=.deliver now r→
      (σ.control.reports.lookup (reportKey r)=some r ∧ τ.control=σ.control.atTime now) ∨
      (σ.control.reports.lookup (reportKey r)=none ∧
        τ.control.reports=σ.control.reports.insert (reportKey r) r ∧
        ∀q x, σ.control.reports.lookup (r.nodeId,r.sessionEpoch,q)=some x→q < r.reportSequence) := by
    rintro now r rfl
    cases hs with
    | deliver hwire hcall => exact reportCall_reports hw.kernel hcall
  refine ⟨?_,?_,?_,?_,?_⟩
  · intro now r now' r' he hmem hkey
    have hstored := run_delivered h hmem
    rw [hkey] at hstored
    obtain ⟨hsame,hτ⟩ | ⟨hnone,-⟩ := hdeliver now r he
    · rw [hsame] at hstored
      exact ⟨(Option.some.inj hstored).symm,hτ⟩
    · rw [hnone] at hstored
      cases hstored
  · intro now r he
    obtain ⟨-,hτ⟩ | ⟨-,hτ,hnewer⟩ := hdeliver now r he
    · exact .inl hτ
    · refine .inr ⟨hτ,fun now' r' hmem hn hep => ?_⟩
      have hstored := run_delivered h hmem
      unfold reportKey at hstored
      rw [hn,hep] at hstored
      exact hnewer _ r' hstored
  · rintro now n epoch r stored ⟨t,d⟩ hstored hne hcall
    obtain ⟨-,-,-,-,⟨-,-,hold⟩ | ⟨-,hnone,-⟩⟩ := reportCall_ok hw.kernel.catalog.deployed.specs hcall
    · rw [hstored] at hold
      exact hne (Option.some.inj hold).symm
    · rw [hstored] at hnone
      cases hnone
  · intro now r hstored hcur hauth
    exact reportCall_duplicate hw.kernel hstored hcur hauth
  · intro boot p r k d hb hr hk
    exact ⟨hp.drain boot p r k d hb hr hk,hs.forgotten hw hp hb hr hk⟩

/-- A Node that loses Control while a Forward drains: its lease ends and the process clears up. -/
def leaseHost : Host where
  reading := fun k => some (if k<13 then ⟨instant 1000,0⟩ else ⟨instant 301003,300003000000⟩)
  now := fun _ => instant 1000
  cancelled := fun _ => false
  resolves := fun _ _ => true
  checks := fun _ => true
  stores := fun _ => true
  replaceFails := fun _ => none
  startFails := fun _ => none
  phaseFails := fun _ => none
  remaining := fun _ => 3

def tcpAssignment : Assignment :=
  ⟨⟨0,1,.tcp,.direct⟩,1,1,1,1,.direct,.tcp,.active,⟨0,100,.tcp⟩,.direct ⟨9,80⟩ ⟨1,[1],false⟩,30⟩

def runningSnapshot : Snapshot := ⟨0,1,1,3,300003,[tcpAssignment],[]⟩

def idleSnapshot : Snapshot :=
  ⟨0,1,2,1003,301003,[],[⟨⟨0,1,.tcp,.direct⟩,1,.direct,.tcp,.tcp,100,1,2⟩]⟩

def readyReport : Report :=
  ⟨0,1,1,1,instant 1000,1,[⟨⟨0,1,.tcp,.direct⟩,1,1,some .active,.ready,none,false⟩],[]⟩

/-- A direct Forward runs and is disabled; its three connections drain. -/
def drainingRun : List SystemEvent :=
  [.control (0,.provision 0),.start 1 freshProcess,.hello 1 0,.greet 1 ⟨0,1,1,0⟩ (instant 900000000),
    .control (1,.create 7 0 1 (directSpec 100)),.control (2,.claim 0 1),.fetch 1 3 none,
    .poll 1 runningSnapshot,.send 1,.deliver 1000 readyReport,.acknowledge 1 ⟨0,1,1,1⟩,
    .control (1001,.update 7 1 1 { directSpec 100 with enabled := false }),.control (1002,.claim 1 1),
    .fetch 1 1003 none,.poll 1 idleSnapshot]

def drains (σ : System) (k : Instance) : Bool :=
  (σ.runnerOf 1).any fun r => (r.drains.lookup k).isSome

def neverRemoved (σ : System) : Bool := σ.control.reports.rows.all fun e => decide (e.2.drains=[])

/-- No report that Control has stored names the drain, and still it is gone. -/
theorem drain_forgotten : ∃σ τ, Run (Step fun _ => leaseHost) (initial openWorld) drainingRun σ ∧
    Step (fun _ => leaseHost) σ (.watch 1) τ ∧ σ.drains (tcpAssignment.instanceOn 0) ∧
    ¬τ.drains (tcpAssignment.instanceOn 0) ∧ σ.neverRemoved := by
  have hrun : ((performs (fun _ => leaseHost) (initial openWorld) drainingRun).bind fun σ =>
      (perform (fun _ => leaseHost) σ (.watch 1)).map fun τ =>
        (σ.drains (tcpAssignment.instanceOn 0),τ.drains (tcpAssignment.instanceOn 0),
          σ.neverRemoved))=some (true,false,true) := by
    decide +kernel
  simp only [do_some] at hrun
  obtain ⟨σ,hσ,τ,hτ,hbefore,hafter,hnever⟩ := hrun
  exact ⟨σ,τ,run_performs hσ,perform_some hτ,hbefore,by simp [hafter],hnever⟩

/-- The first report arrives once more while its Forward drains. -/
theorem reports_applied_draining : ∃σ τ,
    Run (Step fun _ => leaseHost) (initial openWorld) drainingRun σ ∧
    Step (fun _ => leaseHost) σ (.deliver 1004 readyReport) τ ∧
    ReportsApplied drainingRun σ (.deliver 1004 readyReport) τ := by
  have hrun : ((performs (fun _ => leaseHost) (initial openWorld) drainingRun).bind fun σ =>
      (perform (fun _ => leaseHost) σ (.deliver 1004 readyReport)).map fun _ => true)=some true := by
    decide +kernel
  simp only [do_some] at hrun
  obtain ⟨σ,hσ,τ,hτ,-⟩ := hrun
  have hl := run_performs hσ
  have hs := perform_some hτ
  exact ⟨σ,τ,hl,hs,reports_applied hl hs⟩

end System

end TuneX.Runtime
