import TuneX.Runtime.System
import TuneX.Runtime.Polls
import TuneX.Control.Withdrawal

namespace TuneX.Runtime

open Framework Control

namespace System

variable {hosts : Nat→Host} {σ τ : System} {e : SystemEvent} {l : List SystemEvent} {w : World}

theorem Step.control_run (hs : Kernel σ.control) (h : Step hosts σ e τ) :
    ∃m, Run Control.Step σ.control m τ.control ∧ (Closed m ∨ ∃boot now p, e=.hello boot now ∧
      σ.processes.lookup boot=some p ∧
      m=[(now,.hello p.nodeId boot p.capabilities p.loaded.generation)]) := by
  have hnone : Run Control.Step σ.control [] σ.control := .refl
  have hclosed : Closed [] := by
    intro e he
    cases he
  cases h with
  | @control e t he hstep =>
    refine ⟨[e],.single hstep,.inl ?_⟩
    intro e' he' n b c g hev
    obtain rfl := List.mem_singleton.mp he'
    rw [hev] at he
    cases he
  | @hello boot now epoch p t hp hcall =>
    exact ⟨_,.single (helloCall_ok hcall).1,.inr ⟨boot,now,p,rfl,hp,rfl⟩⟩
  | fetch hr hcall =>
    obtain ⟨m,hm,hcl⟩ := (snapshotCall_ok hs.catalog hcall).1.closed
    exact ⟨m,hm,.inl hcl⟩
  | deliver hw hcall =>
    obtain ⟨m,hm,hcl⟩ := reportCall_run hs.catalog.deployed.specs hcall
    exact ⟨m,hm,.inl hcl⟩
  | start | greet | poll | send | acknowledge | watch | crash => exact ⟨[],hnone,.inl hclosed⟩

theorem Step.later (hs : Kernel σ.control) (h : Step hosts σ e τ) : Later σ.control τ.control := by
  obtain ⟨m,hm,-⟩ := h.control_run hs
  exact (hs.run hm).2

/-- The snapshot of a journal is one that Control has published. -/
structure Backed (c : State) (j : Journal) : Prop where
  empty : j.snapshot=none→j.generation=0
  published : ∀q, j.snapshot=some q→q.nodeId=j.nodeId ∧ q.snapshotGeneration=j.generation ∧
    c.snapshots.lookup (q.nodeId,q.snapshotGeneration)=some q

/-- A process in its session. -/
structure Live (c : State) (boot : Nat) (p : Process) (r : Runner) : Prop where
  named : r.bootId=boot
  node : r.nodeId=p.nodeId
  journal : r.journal.nodeId=r.nodeId
  session : c.boots.lookup (r.nodeId,boot)=some r.sessionEpoch
  backed : Backed c r.journal

structure Wired (σ : System) : Prop where
  kernel : Kernel σ.control
  booted : ∀n b e, σ.control.boots.lookup (n,b)=some e→∃p, σ.processes.lookup b=some p ∧ p.nodeId=n
  greeting : ∀g∈σ.greetings, σ.control.boots.lookup (g.nodeId,g.bootId)=some g.sessionEpoch
  offer : ∀p∈σ.offers, σ.control.snapshots.lookup (p.nodeId,p.snapshotGeneration)=some p
  stored : ∀j∈σ.stored, Backed σ.control j
  loaded : ∀b p, σ.processes.lookup b=some p→Backed σ.control p.loaded ∧ p.loaded.nodeId=p.nodeId ∧
    ∀e q, σ.control.boots.lookup (p.nodeId,b)=some e→p.loaded.snapshot=some q→q.sessionEpoch<e
  live : ∀b p r, σ.processes.lookup b=some p→p.runner=some r→Live σ.control b p r

variable {c c' : State} {p p' : Process} {r r' : Runner} {n : NodeId} {now lastStored : Nat}
  {capabilities : List Capability}

theorem Backed.later {j : Journal} (h : Backed c j) (hl : Later c c') : Backed c' j := by
  refine ⟨h.empty,fun q hq => ?_⟩
  obtain ⟨hn,hg,hp⟩ := h.published q hq
  exact ⟨hn,hg,hl.snapshots _ _ hp⟩

variable {boot : Nat}

theorem Live.later (h : Live c boot p r) (hl : Later c c') : Live c' boot p r :=
  ⟨h.named,h.node,h.journal,hl.boots _ _ h.session,h.backed.later hl⟩

theorem Wired.control (hw : σ.Wired) (hk : Kernel c) (hl : Later σ.control c)
    (hb : c.boots=σ.control.boots) (hp : τ.processes=σ.processes) (hs : τ.stored=σ.stored)
    (hg : τ.greetings=σ.greetings) (hc : τ.control=c)
    (ho : ∀p∈τ.offers, p∈σ.offers ∨ c.snapshots.lookup (p.nodeId,p.snapshotGeneration)=some p) :
    τ.Wired := by
  refine ⟨hc ▸ hk,?_,?_,?_,?_,?_,?_⟩
  · rw [hc,hb,hp]
    exact hw.booted
  · rw [hc,hb,hg]
    exact hw.greeting
  · intro p hmem
    rw [hc]
    obtain hold | hnew := ho p hmem
    · exact hl.snapshots _ _ (hw.offer p hold)
    · exact hnew
  · rw [hs,hc]
    exact fun j hj => (hw.stored j hj).later hl
  · rw [hp,hc,hb]
    intro b p hb'
    obtain ⟨h1,h2,h3⟩ := hw.loaded b p hb'
    exact ⟨h1.later hl,h2,h3⟩
  · rw [hp,hc]
    exact fun b p r hb' hr => (hw.live b p r hb' hr).later hl

/-- One process is new or has changed; a process never changes its Node. -/
theorem Wired.process (hw : σ.Wired) (hτ : τ.processes=σ.processes.insert boot p')
    (hp : ∀p, σ.processes.lookup boot=some p→p'.nodeId=p.nodeId)
    (hload : Backed σ.control p'.loaded ∧ p'.loaded.nodeId=p'.nodeId ∧
      ∀e q, σ.control.boots.lookup (p'.nodeId,boot)=some e→p'.loaded.snapshot=some q→
        q.sessionEpoch<e)
    (hlive : ∀r, p'.runner=some r→Live σ.control boot p' r)
    (hc : τ.control=σ.control) (hg : τ.greetings=σ.greetings) (ho : τ.offers=σ.offers)
    (hs : ∀j∈τ.stored, j∈σ.stored ∨ Backed σ.control j) : τ.Wired := by
  refine ⟨hc ▸ hw.kernel,?_,?_,?_,?_,?_,?_⟩
  · rw [hc,hτ]
    intro n b e hb
    obtain ⟨q,hq,hqn⟩ := hw.booted n b e hb
    rw [Table.lookup_insert_eq]
    split_ifs with hbb
    · exact ⟨p',rfl,(hp q (hbb ▸ hq)).trans hqn⟩
    · exact ⟨q,hq,hqn⟩
  · rw [hc,hg]
    exact hw.greeting
  · rw [hc,ho]
    exact hw.offer
  · rw [hc]
    intro j hj
    obtain hold | hnew := hs j hj
    · exact hw.stored j hold
    · exact hnew
  · rw [hc,hτ]
    intro b q hq
    obtain ⟨rfl,rfl⟩ | ⟨-,hq⟩ := Table.lookup_insert_some.mp hq
    · exact hload
    · exact hw.loaded b q hq
  · rw [hc,hτ]
    intro b q r hq hr
    obtain ⟨rfl,rfl⟩ | ⟨-,hq⟩ := Table.lookup_insert_some.mp hq
    · exact hlive r hr
    · exact hw.live b q r hq hr

variable {s : Snapshot}

theorem admit_fields {h : Host} {k : Nat} {j next : Journal}
    (ha : j.take h k s=.ok next) : next.nodeId=j.nodeId ∧ next.generation=s.snapshotGeneration ∧
      next.snapshot=some s := by
  simp only [Journal.take,do_ok] at ha
  obtain ⟨c,-,rfl⟩ := ha
  exact ⟨rfl,rfl,rfl⟩

theorem Live.keep (h : Live c boot p r) (hp : p'.nodeId=p.nodeId) (hb : r'.bootId=r.bootId)
    (hn : r'.nodeId=r.nodeId) (he : r'.sessionEpoch=r.sessionEpoch)
    (hj : r'.journal.nodeId=r.journal.nodeId) (hback : Backed c r'.journal) :
    Live c boot p' r' := by
  refine ⟨hb.trans h.named,?_,?_,?_,hback⟩
  · rw [hn,hp,h.node]
  · rw [hj,hn,h.journal]
  · rw [hn,he]
    exact h.session

theorem receive_journal (h : Host) (r : Runner) (s : Snapshot) :
    let r' := (r.receive h s).1
    (r'.bootId=r.bootId ∧ r'.nodeId=r.nodeId ∧ r'.sessionEpoch=r.sessionEpoch) ∧
    (r'.journal=r.journal ∨ (s.nodeId=r.nodeId ∧ s.sessionEpoch=r.sessionEpoch ∧
      r'.journal.nodeId=r.journal.nodeId ∧ r'.journal.generation=s.snapshotGeneration ∧
      r'.journal.snapshot=some s)) := by
  dsimp only
  have hreceived := Runner.receive_received h r s
  generalize (r.receive h s).1=r' at hreceived ⊢
  generalize (r.receive h s).2=err at hreceived
  have hadopted : ∀{ticket next}, Runner.Adopted h r s ticket next→
      (s.nodeId=r.nodeId ∧ s.sessionEpoch=r.sessionEpoch ∧ next.nodeId=r.journal.nodeId ∧
        next.generation=s.snapshotGeneration ∧ next.snapshot=some s) := by
    intro ticket next ha
    obtain ⟨k,hk⟩ := ha.journal
    obtain ⟨h1,h2,h3⟩ := admit_fields hk
    exact ⟨ha.authorized.node,ha.authorized.epoch,h1,h2,h3⟩
  cases hreceived with
  | stopped hk | restart hk =>
    obtain ⟨hs,-⟩ := hk.worked.stays
    exact ⟨⟨hs.boot,hs.node,hs.epoch⟩,.inl hs.journal⟩
  | ended ha hk =>
    obtain ⟨hs,-⟩ := hk.worked.stays
    refine ⟨⟨hs.boot,hs.node,hs.epoch⟩,.inr ?_⟩
    rw [hs.journal]
    exact hadopted ha
  | @executed ticket next _ k b ha hk he =>
    obtain ⟨hs,-⟩ := hk.worked.stays
    have hx := (Runner.execute_stays h (h.now k) b s ticket
      (r.journal.generation<s.snapshotGeneration)).1
    rw [he] at hx
    have hall := hs.trans hx
    refine ⟨⟨hall.boot,hall.node,hall.epoch⟩,.inr ?_⟩
    rw [hall.journal]
    exact hadopted ha

theorem Wired.initial (w : World) : (System.initial w).Wired := by
  refine ⟨.initial w,?_,?_,?_,?_,?_,?_⟩
  all_goals simp [System.initial,State.initial]

theorem Backed.initial (c : State) (n : NodeId) : Backed c (Journal.initial n) := by
  refine ⟨fun _ => rfl,fun q hq => ?_⟩
  cases hq

/-- A step of Control without a Hello. -/
theorem Wired.closed {m : List (Nat×Event)} (hw : σ.Wired)
    (hm : Run Control.Step σ.control m τ.control) (hcl : Closed m) (hp : τ.processes=σ.processes)
    (hs : τ.stored=σ.stored) (hg : τ.greetings=σ.greetings) (ho : ∀p∈τ.offers, p∈σ.offers ∨
      τ.control.snapshots.lookup (p.nodeId,p.snapshotGeneration)=some p) : τ.Wired := by
  obtain ⟨hk,hl⟩ := hw.kernel.run hm
  exact hw.control hk hl (hw.kernel.steady hm hcl).boots hp hs hg rfl ho

/-- A process that is not known yet has no session. -/
theorem Wired.start (hw : σ.Wired) (hb : σ.processes.lookup boot=none) (hr : p.runner=none)
    (hn : p.loaded.nodeId=p.nodeId) (hback : Backed σ.control p.loaded) :
    ({ σ with processes := σ.processes.insert boot p } : System).Wired := by
  have hunknown : ∀n e, σ.control.boots.lookup (n,boot)≠some e := by
    intro n e he
    obtain ⟨q,hq,-⟩ := hw.booted n boot e he
    rw [hb] at hq
    cases hq
  refine hw.process rfl ?_ ⟨hback,hn,fun e q he => absurd he (hunknown _ _)⟩ ?_ rfl rfl rfl
    fun j hj => .inl hj
  · intro q hq
    rw [hb] at hq
    cases hq
  · intro r hpr
    rw [hr] at hpr
    cases hpr

theorem hello_effect {t : State}
    (h : Run Control.Step c [(now,.hello n boot capabilities lastStored)] t) :
    t.snapshots=c.snapshots ∧ ((t.boots=c.boots ∧ t.nodes=c.nodes) ∨
      ∃row row', c.nodes.lookup n=some row ∧ c.boots.lookup (n,boot)=none ∧
        t.boots=c.boots.insert (n,boot) (row.sessionEpoch+1) ∧ t.nodes=c.nodes.insert n row' ∧
        row'.sessionEpoch=row.sessionEpoch+1) := by
  have hcall : ({ c with clock := now } : State).hello now n boot capabilities lastStored=.ok t := by
    obtain ⟨u,hu,hrest⟩ := h.cons_inv
    rw [hrest.nil_inv]
    exact hu
  obtain ⟨rfl,-⟩ | ⟨row,hrow,hb,-,rfl⟩ := State.hello_ok hcall
  · exact ⟨rfl,.inl ⟨rfl,rfl⟩⟩
  · exact ⟨rfl,.inr ⟨row,_,hrow,hb,rfl,rfl,rfl⟩⟩

/-- A boot that was not there before is the one that says Hello. -/
theorem hello_boots {t : State} {x : Nat} {b : Nat} {m : NodeId}
    (h : Control.Step c (now,.hello n boot capabilities lastStored) t)
    (hx : t.boots.lookup (m,b)=some x) : c.boots.lookup (m,b)=some x ∨
      (m=n ∧ b=boot ∧ ∃row, c.nodes.lookup n=some row ∧ x=row.sessionEpoch+1) := by
  obtain ⟨-,⟨hb,-⟩ | ⟨row,-,hrow,-,hb,-⟩⟩ := hello_effect (.single h)
  · exact .inl (hb ▸ hx)
  · rw [hb,Table.lookup_insert_eq] at hx
    split_ifs at hx with hkey
    · cases hkey
      cases hx
      exact .inr ⟨rfl,rfl,row,hrow,rfl⟩
    · exact .inl hx

theorem Wired.hello {t : State} {epoch : Nat} (hw : σ.Wired) (hp : σ.processes.lookup boot=some p)
    (h : σ.control.helloCall now p.nodeId boot p.capabilities p.loaded.generation=.ok (t,epoch)) :
    ({ σ with control := t, greetings := ⟨p.nodeId,boot,epoch,now⟩::σ.greetings } :
      System).Wired := by
  obtain ⟨hcs,hboot,-⟩ := helloCall_ok h
  obtain ⟨hk,hl⟩ := hw.kernel.step hcs
  refine ⟨hk,?_,?_,?_,?_,?_,?_⟩
  · intro n b x hx
    obtain hx | ⟨rfl,rfl,-⟩ := hello_boots hcs hx
    · exact hw.booted n b x hx
    · exact ⟨p,hp,rfl⟩
  · intro g hg
    obtain rfl | hg := List.mem_cons.mp hg
    · exact hboot
    · exact hl.boots _ _ (hw.greeting g hg)
  · exact fun q hq => hl.snapshots _ _ (hw.offer q hq)
  · exact fun j hj => (hw.stored j hj).later hl
  · intro b q hq
    obtain ⟨h1,h2,h3⟩ := hw.loaded b q hq
    refine ⟨h1.later hl,h2,fun x y hx hy => ?_⟩
    obtain hx | ⟨hn,-,row,hrow,rfl⟩ := hello_boots hcs hx
    · exact h3 x y hx hy
    · obtain ⟨hyn,-,hpub⟩ := h1.published y hy
      obtain ⟨-,-,-,row',hrow',-,hle⟩ := hw.kernel.catalog.key _ _ y hpub
      rw [hyn,h2,hn,hrow] at hrow'
      cases hrow'
      omega
  · exact fun b q r hq hr => (hw.live b q r hq hr).later hl

theorem opened_fields {h : Host} {epoch : Nat} {j : Journal} {until_ : Int} {serverTime : Nat}
    (ho : Runner.opened h n boot epoch j until_ serverTime=some r) :
    r.bootId=boot ∧ r.nodeId=n ∧ r.sessionEpoch=epoch ∧ r.journal=j := by
  unfold Runner.opened at ho
  split at ho
  · cases ho
  · split at ho
    · cases ho
    · cases ho
      exact ⟨rfl,rfl,rfl,rfl⟩

theorem Wired.setRunner (hw : σ.Wired) (hp : σ.processes.lookup boot=some p)
    (hlive : Live σ.control boot { p with runner := some r' } r') {l : List Journal}
    (hl : ∀j∈l, j∈σ.stored ∨ Backed σ.control j) :
    ({ σ.setRunner boot p r' with stored := l } : System).Wired := by
  refine hw.process rfl ?_ (hw.loaded boot p hp) ?_ rfl rfl rfl hl
  · intro q hq
    rw [hp] at hq
    cases hq
    rfl
  · intro r hr
    cases hr
    exact hlive

theorem Wired.greet {g : Greeting} {until_ : Int} (hw : σ.Wired)
    (hp : σ.processes.lookup boot=some p) (hg : g∈σ.greetings) (hb : g.bootId=boot)
    (hn : g.nodeId=p.nodeId) (ho : Runner.opened (hosts boot) p.nodeId boot g.sessionEpoch p.loaded
      until_ g.serverTime=some r) : (σ.setRunner boot p r).Wired := by
  obtain ⟨hback,hnode,-⟩ := hw.loaded boot p hp
  obtain ⟨h1,h2,h3,h4⟩ := opened_fields ho
  refine hw.setRunner hp ⟨h1,h2,?_,?_,?_⟩ fun j hj => .inl hj
  · rw [h4,h2,hnode]
  · rw [h2,h3,← hn,← hb]
    exact hw.greeting g hg
  · rw [h4]
    exact hback

theorem Wired.poll (hw : σ.Wired) (hp : σ.processes.lookup boot=some p) (hr : p.runner=some r)
    (hs : s∈σ.offers) : ({ σ.setRunner boot p (r.receive (hosts boot) s).1 with
      stored := (r.receive (hosts boot) s).1.journal::σ.stored } : System).Wired := by
  have hlive := hw.live boot p r hp hr
  obtain ⟨⟨hb,hn,hep⟩,hj⟩ := receive_journal (hosts boot) r s
  have hnode : (r.receive (hosts boot) s).1.journal.nodeId=r.journal.nodeId := by
    obtain hj | ⟨-,-,hj,-⟩ := hj
    · rw [hj]
    · exact hj
  have hback : Backed σ.control (r.receive (hosts boot) s).1.journal := by
    obtain hj | ⟨hsn,-,hjn,hjg,hjs⟩ := hj
    · rw [hj]
      exact hlive.backed
    · refine ⟨fun hnone => ?_,fun q hq => ?_⟩
      · rw [hjs] at hnone
        cases hnone
      · rw [hjs] at hq
        cases hq
        refine ⟨?_,hjg.symm,hw.offer s hs⟩
        rw [hjn,hsn,hlive.journal]
  refine hw.setRunner hp (hlive.keep rfl hb hn hep hnode hback) fun j hj => ?_
  obtain rfl | hj := List.mem_cons.mp hj
  · exact .inr hback
  · exact .inl hj

/-- A runner that keeps its session and its journal. -/
theorem Wired.stays (hw : σ.Wired) (hp : σ.processes.lookup boot=some p) (hr : p.runner=some r)
    (hs : Runner.Stays r r') : (σ.setRunner boot p r').Wired := by
  have hlive := hw.live boot p r hp hr
  refine hw.setRunner hp (hlive.keep rfl hs.boot hs.node hs.epoch ?_ ?_) fun j hj => .inl hj
  · rw [hs.journal]
  · exact hs.journal ▸ hlive.backed

theorem Step.wired (h : Step hosts σ e τ) (hw : σ.Wired) : τ.Wired := by
  obtain ⟨m,hm,hrun⟩ := h.control_run hw.kernel
  cases h with
  | control | deliver =>
    obtain hcl | ⟨boot,now,p,hev,-⟩ := hrun
    · exact hw.closed hm hcl rfl rfl rfl fun p hp => .inl hp
    · cases hev
  | fetch hr hcall =>
    obtain hcl | ⟨boot,now,p,hev,-⟩ := hrun
    · obtain ⟨-,hpub,hnode,-⟩ := snapshotCall_ok hw.kernel.catalog hcall
      refine hw.closed hm hcl rfl rfl rfl fun p hp => ?_
      obtain rfl | hp := List.mem_cons.mp hp
      · right
        rw [hnode]
        exact hpub
      · exact .inl hp
    · cases hev
  | start hb hr hn hj =>
    refine hw.start hb hr hn ?_
    obtain hj | hj := hj
    · exact hw.stored _ hj
    · rw [hj]
      exact .initial _ _
  | hello hp hcall => exact hw.hello hp hcall
  | greet hp hr hg hb hn hopen => exact hw.greet hp hg hb hn hopen
  | poll hp hr he hpending hs => exact hw.poll hp hr hs
  | send => exact ⟨hw.kernel,hw.booted,hw.greeting,hw.offer,hw.stored,hw.loaded,hw.live⟩
  | acknowledge hp hr => exact hw.stays hp hr (Runner.acknowledge_stays _ _).1
  | watch hp hr => exact hw.stays hp hr (Runner.watch_stays _ _).1
  | crash hp hr => exact hw.stays hp hr ⟨rfl,rfl,rfl,rfl⟩

theorem run_wired (h : Run (Step hosts) (initial w) l σ) : σ.Wired :=
  h.invariant Wired (fun _ _ _ hab ha => hab.wired ha) (Wired.initial w)

/-- A journal on the disk of a Node or in one of its processes. -/
def Holds (σ : System) (j : Journal) : Prop := j∈σ.stored ∨ ∃b x, σ.processes.lookup b=some x ∧
  (j=x.loaded ∨ ∃r, x.runner=some r ∧ j=r.journal)

theorem Wired.held {j : Journal} (hw : σ.Wired) (hj : σ.Holds j) : Backed σ.control j := by
  obtain hj | ⟨b,x,hx,rfl | ⟨r,hr,rfl⟩⟩ := hj
  · exact hw.stored j hj
  · exact (hw.loaded b x hx).1
  · exact (hw.live b x r hx hr).backed

/-- An earlier poll of this process stored the snapshot and found its authorization ended before
execution. -/
def Lapses (hosts : Nat→Host) (w : World) (l : List SystemEvent) (boot : Nat) (s : Snapshot) : Prop :=
  ∃l₁ l₂ ρ r, l=l₁++.poll boot s::l₂ ∧ Run (Step hosts) (initial w) l₁ ρ ∧
    ρ.runnerOf boot=some r ∧ Runner.Lapsed (hosts boot) r s

theorem Lapses.snoc (e : SystemEvent) (h : Lapses hosts w l boot s) :
    Lapses hosts w (l++[e]) boot s := by
  obtain ⟨l₁,l₂,ρ,r,rfl,hrest⟩ := h
  exact ⟨l₁,l₂++[e],ρ,r,by simp,hrest⟩

/-- A process without a ticket has stored nothing of its session, unless a poll lapsed. -/
def Unticketed (hosts : Nat→Host) (w : World) (l : List SystemEvent) (boot : Nat) (r : Runner) : Prop :=
  r.ticket=none→(∀q, r.journal.snapshot=some q→q.sessionEpoch < r.sessionEpoch) ∨
    ∃q, r.journal.snapshot=some q ∧ Lapses hosts w l boot q

theorem Unticketed.keep (e : SystemEvent) (h : Unticketed hosts w l boot r)
    (hs : Runner.Stays r r' ∧ r'.ticket=r.ticket) : Unticketed hosts w (l++[e]) boot r' := by
  obtain ⟨hs,ht⟩ := hs
  intro hnone
  rw [hs.journal,hs.epoch]
  obtain hold | ⟨q,hq,hl⟩ := h (ht.symm.trans hnone)
  · exact .inl hold
  · exact .inr ⟨q,hq,hl.snoc e⟩

theorem runnerOf_eq (hp : σ.processes.lookup boot=some p) (hr : p.runner=some r) :
    σ.runnerOf boot=some r := by
  unfold runnerOf
  rw [hp]
  exact hr

theorem unticketed_poll (hrun : Run (Step hosts) (initial w) l σ)
    (hp : σ.processes.lookup boot=some p) (hr : p.runner=some r) (h : Unticketed hosts w l boot r) :
    Unticketed hosts w (l++[.poll boot s]) boot (r.receive (hosts boot) s).1 := by
  have hlapsed : Runner.Lapsed (hosts boot) r s→Lapses hosts w (l++[.poll boot s]) boot s :=
    fun hl => ⟨l,[],σ,r,rfl,hrun,runnerOf_eq hp hr,hl⟩
  unfold Runner.Lapsed at hlapsed
  have hreceived := Runner.receive_received (hosts boot) r s
  generalize (r.receive (hosts boot) s).1=r' at hreceived ⊢
  generalize (r.receive (hosts boot) s).2=err at hreceived hlapsed
  cases hreceived with
  | stopped hk | restart hk =>
    obtain ⟨hs,ht,-⟩ := hk.worked.stays
    exact h.keep _ ⟨hs,ht⟩
  | @ended ticket next ha hk =>
    obtain ⟨k,hadm⟩ := ha.journal
    obtain ⟨hs,-⟩ := hk.worked.stays
    intro _
    refine .inr ⟨s,?_,hlapsed rfl⟩
    rw [hs.journal]
    exact (admit_fields hadm).2.2
  | @executed ticket next _ k b ha hk he =>
    obtain ⟨hs,ht,-⟩ := hk.worked.stays
    have hx := (Runner.execute_stays (hosts boot) ((hosts boot).now k) b s ticket
      (r.journal.generation<s.snapshotGeneration)).2
    rw [he] at hx
    intro hnone
    change r'.ticket=_ at hx
    rw [hnone] at hx
    unfold Runner.adopting at hx
    split_ifs at hx with hlt
    have heq : r.journal.generation=s.snapshotGeneration := by
      have hle := ha.authorized.newer
      simp only [decide_eq_true_eq] at hlt
      omega
    have hsome : r.ticket=some ticket := (ha.authorized.same heq).2
    have hbt : b.ticket=r.ticket := ht
    rw [← hx,hsome] at hbt
    cases hbt

theorem run_unticketed (h : Run (Step hosts) (initial w) l σ) : ∀boot p r,
    σ.processes.lookup boot=some p→p.runner=some r→Unticketed hosts w l boot r := by
  refine h.history (fun l σ => ∀boot p r, σ.processes.lookup boot=some p→p.runner=some r→
    Unticketed hosts w l boot r) ?_ ?_
  · intro l σ e τ hrun hstep ih
    have hw := run_wired hrun
    have hkeep : ∀boot p r, σ.processes.lookup boot=some p→p.runner=some r→
        Unticketed hosts w (l++[e]) boot r :=
      fun boot p r hp hr => (ih boot p r hp hr).keep e ⟨⟨rfl,rfl,rfl,rfl⟩,rfl⟩
    -- A step that moves one process: the others keep what they have.
    have hone : ∀{boot p r'}, Unticketed hosts w (l++[e]) boot r'→∀b q r,
        (σ.setRunner boot p r').processes.lookup b=some q→q.runner=some r→
          Unticketed hosts w (l++[e]) b r := by
      intro boot p r' hnew b q r hq hr
      obtain ⟨rfl,rfl⟩ | ⟨-,hq⟩ := Table.lookup_insert_some.mp hq
      · cases hr
        exact hnew
      · exact hkeep b q r hq hr
    cases hstep with
    | control | hello | fetch | send | deliver => exact hkeep
    | @start boot p hb hr =>
      intro b q r hq hqr
      obtain ⟨rfl,rfl⟩ | ⟨-,hq⟩ := Table.lookup_insert_some.mp hq
      · rw [hr] at hqr
        cases hqr
      · exact hkeep b q r hq hqr
    | @greet boot g credentialUntil p r hp hr hg hb hn hopen =>
      obtain ⟨-,-,hless⟩ := hw.loaded boot p hp
      obtain ⟨-,-,hepoch,hjournal⟩ := opened_fields hopen
      refine hone fun _ => .inl fun q hq => ?_
      rw [hjournal] at hq
      refine hless r.sessionEpoch q ?_ hq
      rw [hepoch,← hn,← hb]
      exact hw.greeting g hg
    | poll hp hr => exact hone (unticketed_poll hrun hp hr (ih _ _ _ hp hr))
    | acknowledge hp hr => exact hone ((ih _ _ _ hp hr).keep _ (Runner.acknowledge_stays _ _))
    | watch hp hr => exact hone ((ih _ _ _ hp hr).keep _ (Runner.watch_stays _ _))
    | crash hp hr => exact hone ((ih _ _ _ hp hr).keep _ ⟨⟨rfl,rfl,rfl,rfl⟩,rfl⟩)
  · intro boot p r hp
    simp [initial] at hp

theorem restart_lapsed (h : Run (Step hosts) (initial w) l σ) (hr : σ.runnerOf boot=some r)
    (hrestart : (r.receive (hosts boot) s).2=some .restartRequired) : Lapses hosts w l boot s := by
  obtain ⟨p,hp,hpr⟩ := Option.bind_eq_some_iff.mp hr
  have hun := run_unticketed h boot p r hp hpr
  have hreceived := Runner.receive_received (hosts boot) r s
  rw [hrestart] at hreceived
  generalize (r.receive (hosts boot) s).1=r' at hreceived
  cases hreceived with
  | stopped _ hne | executed _ _ _ hne => exact absurd rfl hne
  | restart hk hn he hj ht =>
    obtain hold | ⟨q,hq,hl⟩ := hun ht
    · exact absurd (hold s hj) (by omega)
    · rw [hj] at hq
      cases hq
      exact hl

theorem helloCapabilities_perm {c d : List Capability} (h : c.Perm d)
    (hc : State.helloCapabilities c=.ok ()) : State.helloCapabilities d=.ok () := by
  simp only [State.helloCapabilities,do_ok,h.mem_iff] at hc ⊢
  exact hc

theorem helloCall_replay {row : RuntimeNode} (hs : Sessions c) (hrow : c.nodes.lookup n=some row)
    (hboot : row.bootId=some boot) (hperm : row.capabilities.isPerm capabilities)
    (hauth : c.nodeAuthorized now n) (hlast : lastStored ≤ row.snapshotGeneration) :
    c.helloCall now n boot capabilities lastStored=.ok (c.atTime now,row.sessionEpoch) := by
  obtain ⟨hb,hc⟩ := hs.current n row boot hrow hboot
  have hrow' : (c.atTime now).nodes.lookup n=some row := hrow
  have hb' : (c.atTime now).boots.lookup (n,boot)=some row.sessionEpoch := hb
  have hauth' : (c.atTime now).nodeAuthorized now n := hauth
  have hello : (c.atTime now).hello now n boot capabilities lastStored=.ok (c.atTime now) := by
    simp only [State.hello,do_ok]
    refine ⟨helloCapabilities_perm (List.isPerm_iff.mp hperm) hc,?_⟩
    simp only [hrow',hb',do_ok]
    exact ⟨fun h => h hauth',by omega,by simp [hboot],fun h => h hperm,trivial⟩
  simp only [State.helloCall,do_ok]
  exact ⟨_,hello,by rw [sessionOf_eq hrow']⟩

theorem superseded_refused {x : Nat} (hs : Kernel c) (hb : c.boots.lookup (n,boot)=some x)
    (hx : x≠c.sessionOf n) :
    (∀now capabilities lastStored y, c.helloCall now n boot capabilities lastStored≠.ok y) ∧
    (∀now credential y, c.snapshotCall now n x credential≠.ok y) ∧
    ∀now epoch r y, r.bootId=boot→c.reportCall now n epoch r≠.ok y := by
  refine ⟨?_,?_,?_⟩
  · rintro now capabilities lastStored ⟨t,epoch⟩ h
    simp only [State.helloCall,do_ok] at h
    obtain ⟨u,hu,-⟩ := h
    obtain ⟨row,hrow,hboot,-⟩ := hello_boot hu
    obtain ⟨rfl,-⟩ | ⟨r,-,hnew,-⟩ := State.hello_ok hu
    · have hb' : (c.atTime now).boots.lookup (n,boot)=some x := hb
      rw [hb'] at hboot
      have hrow' : c.nodes.lookup n=some row := hrow
      exact hx ((Option.some.inj hboot).trans (sessionOf_eq hrow').symm)
    · have hb' : (c.atTime now).boots.lookup (n,boot)=some x := hb
      rw [hnew] at hb'
      cases hb'
  · rintro now credential ⟨t,p⟩ h
    exact hx (snapshotCall_ok hs.catalog h).2.2.2.2.1.symm
  · rintro now epoch r ⟨t,d⟩ rfl h
    obtain ⟨-,-,hepoch,-,hcase⟩ := reportCall_ok hs.catalog.deployed.specs h
    have hsame : c.boots.lookup (n,r.bootId)=some epoch→False := by
      intro hbe
      rw [hb] at hbe
      exact hx ((Option.some.inj hbe).trans hepoch.symm)
    obtain ⟨-,-,hprior⟩ | ⟨-,-,u,⟨hT⟩,-⟩ := hcase
    · exact hsame (hs.sessions.report n epoch _ r hprior).2.2.2.1
    · have hrow : c.nodes.lookup n=some hT.row := hT.row_eq
      have hcur := (hs.sessions.current n hT.row r.bootId hrow hT.boot_eq).1
      rw [← sessionOf_eq hrow,hepoch] at hcur
      exact hsame hcur

/-- Everything the sessions of a Node promise, at one step of the system after any run. -/
structure SessionsFenced (hosts : Nat→Host) (w : World) (l : List SystemEvent) (σ : System)
    (e : SystemEvent) (τ : System) : Prop where
  /-- A session rises by one with the Hello of a new boot and never otherwise. -/
  raised : ∀n row, σ.control.nodes.lookup n=some row→∃row', τ.control.nodes.lookup n=some row' ∧
    (row'.sessionEpoch=row.sessionEpoch ∨ (row'.sessionEpoch=row.sessionEpoch+1 ∧
      ∃boot now p, e=.hello boot now ∧ σ.processes.lookup boot=some p ∧ p.nodeId=n ∧
        σ.control.boots.lookup (n,boot)=none))
  opened : ∀n boot x, σ.control.boots.lookup (n,boot)=none→τ.control.boots.lookup (n,boot)=some x→
    x=σ.control.sessionOf n+1 ∧ τ.control.sessionOf n=x
  /-- A superseded boot stays superseded and is refused everything. -/
  superseded : ∀n boot x, σ.control.boots.lookup (n,boot)=some x→x≠σ.control.sessionOf n→
    (τ.control.boots.lookup (n,boot)=some x ∧ x≠τ.control.sessionOf n) ∧
    (∀now capabilities lastStored y,
      σ.control.helloCall now n boot capabilities lastStored≠.ok y) ∧
    (∀now credential y, σ.control.snapshotCall now n x credential≠.ok y) ∧
    ∀now epoch r y, r.bootId=boot→σ.control.reportCall now n epoch r≠.ok y
  replayed : ∀n row boot now capabilities lastStored, σ.control.nodes.lookup n=some row→
    row.bootId=some boot → row.capabilities.isPerm capabilities→σ.control.nodeAuthorized now n→
    lastStored ≤ row.snapshotGeneration→
    σ.control.helloCall now n boot capabilities lastStored=
      .ok (σ.control.atTime now,row.sessionEpoch)
  /-- A new snapshot carries the session in force, above everything stored by any process. -/
  published : ∀k p, τ.control.snapshots.lookup k=some p→σ.control.snapshots.lookup k=some p ∨
    (p.sessionEpoch=τ.control.sessionOf p.nodeId ∧
      (∀k' q, σ.control.snapshots.lookup k'=some q→q.nodeId=p.nodeId→
        q.snapshotGeneration<p.snapshotGeneration) ∧
      ∀j, (j∈σ.stored ∨ ∃b q, σ.processes.lookup b=some q ∧
        (j=q.loaded ∨ ∃r, q.runner=some r ∧ j=r.journal))→j.nodeId=p.nodeId→
        j.generation<p.snapshotGeneration)
  /-- A process asks for a new generation only after it let its own snapshot lapse. -/
  restarted : ∀boot s r, e=.poll boot s→σ.runnerOf boot=some r→
    (r.receive (hosts boot) s).2=some .restartRequired→Lapses hosts w l boot s

theorem Step.raised (hw : σ.Wired) (h : Step hosts σ e τ) :
    (∀n row, σ.control.nodes.lookup n=some row→∃row', τ.control.nodes.lookup n=some row' ∧
      (row'.sessionEpoch=row.sessionEpoch ∨ (row'.sessionEpoch=row.sessionEpoch+1 ∧
        ∃boot now p, e=.hello boot now ∧ σ.processes.lookup boot=some p ∧ p.nodeId=n ∧
          σ.control.boots.lookup (n,boot)=none))) ∧
    ∀n boot x, σ.control.boots.lookup (n,boot)=none→τ.control.boots.lookup (n,boot)=some x→
      x=σ.control.sessionOf n+1 ∧ τ.control.sessionOf n=x := by
  obtain ⟨m,hm,hcl | ⟨boot,now,p,rfl,hp,rfl⟩⟩ := h.control_run hw.kernel
  · have hst := hw.kernel.steady hm hcl
    constructor
    · intro n row hrow
      obtain ⟨row',hrow',he,-⟩ := hst.session n row hrow
      exact ⟨row',hrow',.inl he⟩
    · intro n boot x hnone hx
      rw [hst.boots,hnone] at hx
      cases hx
  · obtain ⟨-,⟨hb,hn⟩ | ⟨row₀,row₁,hrow₀,hnone₀,hb,hn,he⟩⟩ := hello_effect hm
    · constructor
      · intro n row hrow
        exact ⟨row,hn ▸ hrow,.inl rfl⟩
      · intro n b x hnone hx
        rw [hb,hnone] at hx
        cases hx
    · constructor
      · intro n row hrow
        rw [hn,Table.lookup_insert_eq]
        split_ifs with hk
        · subst hk
          rw [hrow₀] at hrow
          cases hrow
          exact ⟨row₁,rfl,.inr ⟨he,boot,now,p,rfl,hp,rfl,hnone₀⟩⟩
        · exact ⟨row,hrow,.inl rfl⟩
      · intro n b x hnone hx
        rw [hb,Table.lookup_insert_eq] at hx
        split_ifs at hx with hk
        · cases hk
          cases hx
          have hrow₁ : τ.control.nodes.lookup p.nodeId=some row₁ := by
            rw [hn]
            exact AList.lookup_insert _
          rw [sessionOf_eq hrow₀,sessionOf_eq hrow₁]
          exact ⟨rfl,he⟩
        · rw [hnone] at hx
          cases hx

theorem Step.published (hw : σ.Wired) (h : Step hosts σ e τ) :
    ∀k p, τ.control.snapshots.lookup k=some p→σ.control.snapshots.lookup k=some p ∨
      (p.sessionEpoch=τ.control.sessionOf p.nodeId ∧ ∀k' q, σ.control.snapshots.lookup k'=some q→
        q.nodeId=p.nodeId→q.snapshotGeneration<p.snapshotGeneration) := by
  obtain ⟨m,hm,hcl | ⟨boot,now,p,rfl,hp,rfl⟩⟩ := h.control_run hw.kernel
  · exact (hw.kernel.steady hm hcl).fresh
  · intro k q hq
    rw [(hello_effect hm).1] at hq
    exact .inl hq

theorem session_fencing (h : Run (Step hosts) (initial w) l σ) (hs : Step hosts σ e τ) :
    SessionsFenced hosts w l σ e τ := by
  have hw := run_wired h
  have hwτ := hs.wired hw
  have hlater := hs.later hw.kernel
  obtain ⟨hraised,hopened⟩ := hs.raised hw
  refine ⟨hraised,hopened,?_,?_,?_,?_⟩
  · intro n boot x hb hx
    refine ⟨⟨hlater.boots _ _ hb,?_⟩,superseded_refused hw.kernel hb hx⟩
    obtain ⟨-,row,hrow,hle,-⟩ := hw.kernel.sessions.boot n boot x hb
    obtain ⟨row',hrow',hepoch⟩ := hraised n row hrow
    rw [sessionOf_eq hrow] at hx
    rw [sessionOf_eq hrow']
    obtain he | ⟨he,-⟩ := hepoch
    · omega
    · omega
  · intro n row boot now capabilities lastStored hrow hboot hperm hauth hlast
    exact helloCall_replay hw.kernel.sessions hrow hboot hperm hauth hlast
  · intro k p hp
    obtain hold | ⟨hepoch,hgen⟩ := hs.published hw k p hp
    · exact .inl hold
    · refine .inr ⟨hepoch,hgen,?_⟩
      intro j hj hjn
      have hback := hw.held hj
      cases hsnap : j.snapshot with
      | none =>
        obtain ⟨m,g⟩ := k
        obtain ⟨-,hg,hpos,-⟩ := hwτ.kernel.catalog.key m g p hp
        have hzero := hback.empty hsnap
        omega
      | some q =>
        obtain ⟨hqn,hqg,hq⟩ := hback.published q hsnap
        rw [← hqg]
        exact hgen _ q hq (hqn.trans hjn)
  · rintro boot s r rfl hr hrestart
    exact restart_lapsed h hr hrestart

/-- The Node's clock is four seconds ahead of Control's, and it polls every second. -/
def lateHost : Host where
  reading := fun k => some (
    if k<2 then ⟨instant 4000,0⟩
    else if k=2 then ⟨instant 294900,290900000000⟩
    else ⟨instant 295000,291000000000⟩)
  now := fun _ => instant 294900
  cancelled := fun _ => false
  resolves := fun _ _ => true
  checks := fun _ => true
  stores := fun _ => true
  replaceFails := fun _ => none
  startFails := fun _ => none
  phaseFails := fun _ => none
  remaining := fun _ => 0

def freshProcess : Process := ⟨0,fullCapabilities,Journal.initial 0,none⟩

/-- The first snapshot of the second session; its reply at time 0 is lost. -/
def firstSnapshot : Snapshot := ⟨0,2,1,0,300000,[],[]⟩

def waitingRun : List SystemEvent :=
  [.control (0,.provision 0),.start 1 freshProcess,.hello 1 0,.start 2 freshProcess,.hello 2 0,
    .greet 2 ⟨0,2,2,0⟩ (instant 900000000),.fetch 2 0 none,
    .control (289000,.create 7 0 1 ⟨true,[.tcp],0,0,100,⟨9,80⟩,[],none⟩),.fetch 2 290500 none]

/-- The queued command lets Control repeat the snapshot after its acceptance lapsed. -/
def lapsingRun : List SystemEvent := waitingRun++[.poll 2 firstSnapshot,.fetch 2 291900 none]

def restartRefused (σ : System) : Bool :=
  (σ.offers.head?=some firstSnapshot) && (σ.runnerOf 2).any fun r =>
    (r.receive lateHost firstSnapshot).2=some .restartRequired

/-- Process 2 stores its snapshot, lapses, and is then refused the same snapshot. -/
theorem restart_refused : ∃σ τ r, Run (Step fun _ => lateHost) (initial openWorld) lapsingRun σ ∧
    Step (fun _ => lateHost) σ (.poll 2 firstSnapshot) τ ∧ σ.runnerOf 2=some r ∧
    (r.receive lateHost firstSnapshot).2=some .restartRequired := by
  have hrun : ((performs (fun _ => lateHost) (initial openWorld) lapsingRun).bind fun σ =>
      (perform (fun _ => lateHost) σ (.poll 2 firstSnapshot)).map fun _ => restartRefused σ)=
        some true := by
    decide +kernel
  simp only [do_some] at hrun
  obtain ⟨σ,hσ,τ,hτ,hrefused⟩ := hrun
  simp only [restartRefused,bool_ok,Option.any_eq_true] at hrefused
  obtain ⟨-,r,hr,hrestart⟩ := hrefused
  exact ⟨σ,τ,r,run_performs hσ,perform_some hτ,hr,hrestart⟩

/-- The same run before the poll: nothing lapsed, so nothing is refused. -/
theorem session_fencing_waiting : ∃σ τ, Run (Step fun _ => lateHost) (initial openWorld) waitingRun σ ∧
    Step (fun _ => lateHost) σ (.poll 2 firstSnapshot) τ ∧
    SessionsFenced (fun _ => lateHost) openWorld waitingRun σ (.poll 2 firstSnapshot) τ := by
  have hrun : ((performs (fun _ => lateHost) (initial openWorld) waitingRun).bind fun σ =>
      (perform (fun _ => lateHost) σ (.poll 2 firstSnapshot)).map fun _ => true)=some true := by
    decide +kernel
  simp only [do_some] at hrun
  obtain ⟨σ,hσ,τ,hτ,-⟩ := hrun
  have hl := run_performs hσ
  have hs := perform_some hτ
  exact ⟨σ,τ,hl,hs,session_fencing hl hs⟩

end System

end TuneX.Runtime
