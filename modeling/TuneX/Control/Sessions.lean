import TuneX.Control.Published

namespace TuneX.Control

open Framework

variable {s t u : State} {now : Nat} {n : NodeId} {e : Event}

inductive SessionChange (s : State) (now : Nat) (e : Event) (t : State) : Prop
  | same (hn : t.nodes=s.nodes) (hb : t.boots=s.boots) (hr : t.reports=s.reports)
  | provision {n : NodeId} (he : e=.provision n) (hnew : s.nodes.lookup n=none)
      (hn : t.nodes=s.nodes.insert n ⟨0,none,0,0,none,none,[]⟩) (hb : t.boots=s.boots)
      (hr : t.reports=s.reports)
  | hello {n : NodeId} {boot lastStored : Nat} {c : List Capability} {row : RuntimeNode}
      (he : e=.hello n boot c lastStored) (hrow : s.nodes.lookup n=some row)
      (hnew : s.boots.lookup (n,boot)=none) (hc : State.helloCapabilities c=.ok ())
      (hn : t.nodes=s.nodes.insert n (row.booted boot c))
      (hb : t.boots=s.boots.insert (n,boot) (row.sessionEpoch+1)) (hr : t.reports=s.reports)
  | issue {n : NodeId} {row : RuntimeNode} (hrow : s.nodes.lookup n=some row)
      (hn : t.nodes=s.nodes.insert n { row with snapshotGeneration := row.snapshotGeneration+1 })
      (hb : t.boots=s.boots) (hr : t.reports=s.reports)
  | report {n : NodeId} {r : Report} (he : e=.report n r) (h : State.Taken s now n r t)
      (hb : t.boots=s.boots)
  | quarantine (he : e=.quarantine)
      (hn : t.nodes=s.nodes.alter fun _ r => { r with lastReport := none, receivedAt := none })
      (hb : t.boots=s.boots) (hr : t.reports=s.reports)

theorem Acts.sessions (h : Acts s now e t) : SessionChange s now e t := by
  cases h with
  | idle | administer | expire => exact .same rfl rfl rfl
  | provision hn => exact .provision rfl hn rfl rfl rfl
  | hello hn hb hc => exact .hello rfl hn hb hc rfl rfl rfl
  | command c =>
    rw [c.frame]
    exact .same rfl rfl rfl
  | claim h =>
    rw [State.claim_frame h]
    exact .same rfl rfl rfl
  | turn _ _ _ _ h =>
    rw [State.turn_frame h]
    exact .same rfl rfl rfl
  | issue hrow _ i => exact .issue hrow i.nodes (by rw [i.frame]) (by rw [i.frame])
  | complete =>
    rw [State.complete_frame]
    exact .same rfl rfl rfl
  | report h => exact .report rfl h (by rw [h.frame])
  | quarantine =>
    refine .quarantine rfl ?_ ?_ ?_
    all_goals rw [quarantineRecovery_frame]

theorem Acts.clock (h : Acts s now e t) : t.clock=s.clock := by
  cases h with
  | idle | administer | provision | hello | expire => rfl
  | command c => rw [c.frame]
  | claim h => rw [State.claim_frame h]
  | turn _ _ _ _ h => rw [State.turn_frame h]
  | issue _ _ i => rw [i.frame]
  | complete => rw [State.complete_frame]
  | report h => rw [h.frame]
  | quarantine => rw [quarantineRecovery_frame]

/-- Each boot of a Node has its own session; only the boot in force has the current one. Reports are
kept under their own session and sequence, which stay below the Node's. -/
structure Sessions (s : State) : Prop where
  boot : ∀n b e, s.boots.lookup (n,b)=some e→1≤e ∧ ∃row, s.nodes.lookup n=some row ∧
    e ≤ row.sessionEpoch ∧ (e=row.sessionEpoch → row.bootId=some b)
  distinct : ∀n b c e, s.boots.lookup (n,b)=some e→s.boots.lookup (n,c)=some e→b=c
  current : ∀n row b, s.nodes.lookup n=some row → row.bootId=some b→
    s.boots.lookup (n,b)=some row.sessionEpoch ∧ State.helloCapabilities row.capabilities=.ok ()
  report : ∀n e q r, s.reports.lookup (n,e,q)=some r → r.nodeId=n ∧ r.sessionEpoch=e ∧
    r.reportSequence=q ∧ s.boots.lookup (n,r.bootId)=some e ∧
    ∃row, s.nodes.lookup n=some row ∧ (e=row.sessionEpoch→q ≤ row.lastReportSequence)

theorem Sessions.initial (w : World) : Sessions (State.initial w) := by
  refine ⟨?_,?_,?_,?_⟩
  all_goals simp [State.initial]

/-- A row whose session is as it was, and whose report sequence has not fallen. -/
structure SameSession (row row' : RuntimeNode) : Prop where
  epoch : row'.sessionEpoch=row.sessionEpoch
  boot : row'.bootId=row.bootId
  capabilities : row'.capabilities=row.capabilities
  sequence : row.lastReportSequence ≤ row'.lastReportSequence

theorem Sessions.keep (hs : Sessions s) (hb : t.boots=s.boots)
    (hn : ∀n row, s.nodes.lookup n=some row→∃row', t.nodes.lookup n=some row' ∧ SameSession row row')
    (hnew : ∀n row', t.nodes.lookup n=some row' → row'.bootId≠none→
      ∃row, s.nodes.lookup n=some row ∧ SameSession row row')
    (hr : ∀n e q r, t.reports.lookup (n,e,q)=some r→s.reports.lookup (n,e,q)=some r ∨
      (r.nodeId=n ∧ r.sessionEpoch=e ∧ r.reportSequence=q ∧ s.boots.lookup (n,r.bootId)=some e ∧
        ∃row, t.nodes.lookup n=some row ∧ (e=row.sessionEpoch→q ≤ row.lastReportSequence))) :
    Sessions t := by
  refine ⟨?_,?_,?_,?_⟩
  · intro n b e he
    rw [hb] at he
    obtain ⟨hpos,row,hrow,hle,hcur⟩ := hs.boot n b e he
    obtain ⟨row',hrow',hsame⟩ := hn n row hrow
    rw [← hsame.epoch] at hle hcur
    rw [← hsame.boot] at hcur
    exact ⟨hpos,row',hrow',hle,hcur⟩
  · rw [hb]
    exact hs.distinct
  · intro n row' b hrow' hboot
    obtain ⟨row,hrow,hsame⟩ := hnew n row' hrow' (by simp [hboot])
    rw [hb,hsame.epoch,hsame.capabilities]
    exact hs.current n row b hrow (hsame.boot.symm.trans hboot)
  · intro n e q r hq
    rw [hb]
    obtain hold | hfresh := hr n e q r hq
    · obtain ⟨h1,h2,h3,h4,row,hrow,hle⟩ := hs.report n e q r hold
      obtain ⟨row',hrow',hsame⟩ := hn n row hrow
      refine ⟨h1,h2,h3,h4,row',hrow',fun he => ?_⟩
      exact (hle (he.trans hsame.epoch)).trans hsame.sequence
    · exact hfresh

theorem SameSession.refl (row : RuntimeNode) : SameSession row row := ⟨rfl,rfl,rfl,le_rfl⟩

variable {row row' : RuntimeNode} {boot lastStored : Nat} {credential : Option Nat}
  {c : List Capability} {r : Report} {d : Bool} {l : List (Nat×Event)}

theorem insert_sameSession {m : NodeId} (hrow : s.nodes.lookup m=some row)
    (ht : t.nodes=s.nodes.insert m row') (hsame : SameSession row row') :
    (∀n r, s.nodes.lookup n=some r→∃r', t.nodes.lookup n=some r' ∧ SameSession r r') ∧
    ∀n r', t.nodes.lookup n=some r'→∃r, s.nodes.lookup n=some r ∧ SameSession r r' := by
  constructor
  · intro n r hr
    rw [ht,Table.lookup_insert_eq]
    split_ifs with he
    · subst he
      rw [hrow] at hr
      cases hr
      exact ⟨row',rfl,hsame⟩
    · exact ⟨r,hr,.refl r⟩
  · intro n r' hr'
    rw [ht,Table.lookup_insert_eq] at hr'
    split_ifs at hr' with he
    · subst he
      cases hr'
      exact ⟨row,hrow,hsame⟩
    · exact ⟨r',hr',.refl r'⟩

theorem Sessions.hello (hs : Sessions s) (hrow : s.nodes.lookup n=some row)
    (hnew : s.boots.lookup (n,boot)=none) (he : row'.sessionEpoch=row.sessionEpoch+1)
    (hboot : row'.bootId=some boot) (hc : State.helloCapabilities row'.capabilities=.ok ())
    (hn : t.nodes=s.nodes.insert n row') (hb : t.boots=s.boots.insert (n,boot) (row.sessionEpoch+1))
    (hr : t.reports=s.reports) : Sessions t := by
  have hbelow : ∀b e, s.boots.lookup (n,b)=some e→e < row.sessionEpoch+1 := by
    intro b e hbe
    obtain ⟨-,r,hr',hle,-⟩ := hs.boot n b e hbe
    rw [hrow] at hr'
    cases hr'
    omega
  refine ⟨?_,?_,?_,?_⟩
  · intro m b e hbe
    rw [hb,Table.lookup_insert_eq] at hbe
    rw [hn,Table.lookup_insert_eq]
    split_ifs at hbe with hk
    · cases hk
      cases hbe
      rw [if_pos rfl]
      exact ⟨Nat.succ_pos _,row',rfl,he.ge,fun _ => hboot⟩
    · obtain ⟨hpos,r,hr',hle,hcur⟩ := hs.boot m b e hbe
      split_ifs with hm
      · subst hm
        have hlt := hbelow b e hbe
        exact ⟨hpos,row',rfl,by omega,fun h => absurd h (by omega)⟩
      · exact ⟨hpos,r,hr',hle,hcur⟩
  · intro m b c e hbe hce
    rw [hb,Table.lookup_insert_eq] at hbe hce
    split_ifs at hbe hce with h1 h2 h3
    · cases h1
      cases h2
      rfl
    · cases h1
      cases hbe
      exact absurd (hbelow c _ hce) (lt_irrefl _)
    · cases h3
      cases hce
      exact absurd (hbelow b _ hbe) (lt_irrefl _)
    · exact hs.distinct m b c e hbe hce
  · intro m r b hr' hrb
    rw [hn,Table.lookup_insert_eq] at hr'
    rw [hb,Table.lookup_insert_eq]
    split_ifs at hr' with hm
    · subst hm
      cases hr'
      rw [hboot] at hrb
      cases hrb
      rw [if_pos rfl,he]
      exact ⟨rfl,hc⟩
    · rw [if_neg fun hk => hm (Prod.mk.inj hk).1]
      exact hs.current m r b hr' hrb
  · intro m e q r hq
    rw [hr] at hq
    obtain ⟨h1,h2,h3,h4,r',hr',hle⟩ := hs.report m e q r hq
    have hold : (m,r.bootId)≠(n,boot) := by
      intro hk
      rw [hk,hnew] at h4
      cases h4
    rw [hb,hn,Table.lookup_insert_eq,Table.lookup_insert_eq,if_neg hold]
    refine ⟨h1,h2,h3,h4,?_⟩
    split_ifs with hm
    · subst hm
      have hlt := hbelow _ _ h4
      exact ⟨row',rfl,fun h => absurd h (by omega)⟩
    · exact ⟨r',hr',hle⟩

/-- A change that opens no session keeps every row in its session. -/
theorem SessionChange.kept (h : SessionChange s now e t) (hb : t.boots=s.boots) :
    (∀n row, s.nodes.lookup n=some row→∃row', t.nodes.lookup n=some row' ∧ SameSession row row') ∧
    ∀n row', t.nodes.lookup n=some row' → row'.bootId≠none→
      ∃row, s.nodes.lookup n=some row ∧ SameSession row row' := by
  cases h with
  | same hn =>
    rw [hn]
    exact ⟨fun _ row hrow => ⟨row,hrow,.refl row⟩,fun _ row hrow _ => ⟨row,hrow,.refl row⟩⟩
  | @provision m _ hnew hn =>
    constructor
    · intro k row hrow
      have hne : k≠m := by
        intro hk
        rw [hk,hnew] at hrow
        cases hrow
      rw [hn,Table.lookup_insert_eq,if_neg hne]
      exact ⟨row,hrow,.refl row⟩
    · intro k row hrow hboot
      rw [hn,Table.lookup_insert_eq] at hrow
      split_ifs at hrow with hk
      · cases hrow
        exact absurd rfl hboot
      · exact ⟨row,hrow,.refl row⟩
  | hello _ _ hnew _ _ hb' =>
    rw [← hb,hb',AList.lookup_insert] at hnew
    cases hnew
  | issue hrow hn =>
    have hsame := insert_sameSession hrow hn ⟨rfl,rfl,rfl,le_rfl⟩
    exact ⟨hsame.1,fun k r hr' _ => hsame.2 k r hr'⟩
  | report _ hT =>
    obtain ⟨row,hrow,hn⟩ := hT.nodes
    have hnewer := hT.newer
    rw [Option.some.inj (hT.row_eq.symm.trans hrow)] at hnewer
    have hsame := insert_sameSession hrow hn ⟨rfl,rfl,rfl,hnewer.le⟩
    exact ⟨hsame.1,fun k r hr' _ => hsame.2 k r hr'⟩
  | quarantine _ hn =>
    constructor
    · intro m row hrow
      rw [hn,Table.lookup_alter,hrow]
      exact ⟨_,rfl,rfl,rfl,rfl,le_rfl⟩
    · intro m row' hrow' _
      rw [hn,Table.lookup_alter_some] at hrow'
      obtain ⟨row,hrow,rfl⟩ := hrow'
      exact ⟨row,hrow,rfl,rfl,rfl,le_rfl⟩

theorem Sessions.acts (hs : Sessions s) (h : Acts s now e t) : Sessions t := by
  cases h.sessions with
  | hello _ hrow hnew hc hn hb hr => exact hs.hello hrow hnew rfl rfl hc hn hb hr
  | @report m r _ hT hb =>
    obtain ⟨hkeep,hback⟩ := h.sessions.kept hb
    obtain ⟨row,hrow,hn⟩ := hT.nodes
    refine hs.keep hb hkeep hback ?_
    intro k e q r' hq
    rw [hT.reports,Table.lookup_insert_eq] at hq
    split_ifs at hq with hk
    · cases hk
      cases hq
      refine .inr ⟨hT.node_eq,rfl,rfl,?_,?_⟩
      · rw [hT.epoch_eq]
        exact (hs.current m _ _ hT.row_eq hT.boot_eq).1
      · rw [hn,Table.lookup_insert_eq,if_pos rfl]
        exact ⟨_,rfl,fun _ => le_rfl⟩
    · exact .inl hq
  | same _ hb hr | provision _ _ _ hb hr | issue _ _ hb hr | quarantine _ _ hb hr =>
    obtain ⟨hkeep,hback⟩ := h.sessions.kept hb
    exact hs.keep hb hkeep hback fun _ _ _ _ hq => .inl (hr ▸ hq)

namespace State

def atTime (s : State) (now : Nat) : State := { s with clock := now }

def sessionOf (s : State) (n : NodeId) : Nat := ((s.nodes.lookup n).map (·.sessionEpoch)).getD 0

/-- A Hello and the session it is answered with. -/
def helloCall (s : State) (now : Nat) (n : NodeId) (boot : Nat) (capabilities : List Capability)
    (lastStored : Nat) : Except Error (State×Nat) := do
  let t ← (s.atTime now).hello now n boot capabilities lastStored
  pure (t,t.sessionOf n)

/-- Only the current session of a Node is served. -/
def locked (s : State) (n : NodeId) (epoch : Nat) : Except Error RuntimeNode :=
  match s.nodes.lookup n with
  | none => .error .sessionSuperseded
  | some row => do
    reject (epoch=0 ∨ row.sessionEpoch≠epoch) .sessionSuperseded
    pure row

/-- The snapshot in force after a publication. -/
def published (s : State) (n : NodeId) : Except Error Snapshot :=
  match (s.nodes.lookup n).bind fun row => s.snapshots.lookup (n,row.snapshotGeneration) with
  | none => .error .sessionSuperseded
  | some p => .ok p

def snapshotCall (s : State) (now : Nat) (n : NodeId) (epoch : Nat) (credential : Option Nat) :
    Except Error (State×Snapshot) := do
  let _ ← s.locked n epoch
  let t ← (s.atTime now).publish now n none credential
  let p ← t.published n
  pure (t.complete now n none,p)

/-- A report; a sequence that is known already is acknowledged as a duplicate. -/
def reportCall (s : State) (now : Nat) (n : NodeId) (epoch : Nat) (r : Report) :
    Except Error (State×Bool) := do
  reject (r.nodeId≠n ∨ r.sessionEpoch≠epoch) .authorizationDenied
  let _ ← s.locked n epoch
  let t ← (s.atTime now).report now n r
  if (s.reports.lookup (n,epoch,r.reportSequence)).isSome then pure (s.atTime now,true) else do
    let u ← t.advanceForNode now n
    pure (u,false)

end State

theorem apply_step (h : apply s now e=.ok t) (hc : s.clock=now) : Step s (now,e) t := by
  have hs : { s with clock := now }=s := by
    cases s
    cases hc
    rfl
  change apply { s with clock := now } now e=_
  rw [hs]
  exact h

/-- The events of a transaction that serves a Node in its session. -/
inductive Event.Serves : Event→Prop
  | advance (f : ForwardId) : Serves (.advance f)
  | issue (n : NodeId) (awaiting : Bool) (claim : Option (Nat×Claim)) (credential : Option Nat) :
      Serves (.issue n awaiting claim credential)
  | complete (n : NodeId) : Serves (.complete n)

/-- A run of one transaction: all its events serve a Node at one time. -/
def Served (now : Nat) (s t : State) : Prop :=
  ∃l, Run Step s l t ∧ ∀e∈l, e.1=now ∧ Event.Serves e.2

theorem Served.refl (now : Nat) (s : State) : Served now s s := ⟨[],.refl,by simp⟩

theorem Served.trans (h : Served now s t) (k : Served now t u) : Served now s u := by
  obtain ⟨l,hl,hle⟩ := h
  obtain ⟨m,hm,hme⟩ := k
  refine ⟨l++m,hl.trans hm,?_⟩
  intro e he
  obtain he | he := List.mem_append.mp he
  · exact hle e he
  · exact hme e he

theorem Served.single (hc : s.clock=now) (he : Event.Serves e) (h : apply s now e=.ok t) :
    Served now s t := by
  refine ⟨[(now,e)],.single (apply_step h hc),?_⟩
  intro e' he'
  obtain rfl := List.mem_singleton.mp he'
  exact ⟨rfl,he⟩

/-- What a transaction has reached: valid specs at the time of the transaction. -/
structure Ready (now : Nat) (s : State) : Prop where
  specs : s.ValidSpecs
  clock : s.clock=now

theorem Ready.apply (hr : Ready now s) (h : Control.apply s now e=.ok t) : Ready now t := by
  have hacts := apply_acts hr.specs h
  exact ⟨hacts.validSpecs hr.specs,hacts.clock.trans hr.clock⟩

theorem advanceForNode_served (hr : Ready now s) (h : s.advanceForNode now n=.ok t) :
    Served now s t ∧ Ready now t := by
  refine foldlM_ok (fun u => Served now s u ∧ Ready now u) ?_ ⟨.refl now s,hr⟩ h
  rintro b f c - ⟨hb,hrb⟩ hc
  have happ : apply b now (.advance f)=.ok c := hc
  exact ⟨hb.trans (.single hrb.clock (.advance f) happ),hrb.apply happ⟩

theorem publish_served {claim : Option (Nat×Claim)} (hr : Ready now s)
    (h : s.publish now n claim credential=.ok t) : Served now s t ∧ Ready now t ∧
      ∃u awaiting, Served now s u ∧ Ready now u ∧ u.issue now n awaiting claim credential=.ok t := by
  simp only [State.publish,bind_ok] at h
  obtain ⟨u,hu,ht⟩ := h
  obtain ⟨hsu,hru⟩ := advanceForNode_served hr hu
  have happ : apply u now (.issue n (s.awaitingClaim n) claim credential)=.ok t := ht
  exact ⟨hsu.trans (.single hru.clock (.issue _ _ _ _) happ),hru.apply happ,u,_,hsu,hru,ht⟩

theorem Ready.atTime (hv : s.ValidSpecs) (now : Nat) : Ready now (s.atTime now) := ⟨hv,rfl⟩

/-- A served run keeps every session, every boot and every report. -/
structure Attached (s t : State) : Prop where
  reports : t.reports=s.reports
  keeps : ∀n row, s.nodes.lookup n=some row→∃row', t.nodes.lookup n=some row' ∧
    row'.sessionEpoch=row.sessionEpoch

theorem Attached.refl (s : State) : Attached s s :=
  ⟨rfl,fun _ row hrow => ⟨row,hrow,rfl⟩⟩

theorem Attached.trans (h : Attached s t) (k : Attached t u) : Attached s u := by
  refine ⟨k.reports.trans h.reports,fun n row hrow => ?_⟩
  obtain ⟨r1,h1,e1⟩ := h.keeps n row hrow
  obtain ⟨r2,h2,e2⟩ := k.keeps n r1 h1
  exact ⟨r2,h2,e2.trans e1⟩

theorem Acts.attached (he : Event.Serves e) (h : Acts s now e t) : Attached s t := by
  cases h.sessions with
  | same hn _ hr => exact ⟨hr,fun _ row hrow => ⟨row,hn ▸ hrow,rfl⟩⟩
  | provision hev | hello hev | report hev | quarantine hev =>
    subst hev
    cases he
  | issue hrow hn _ hr =>
    refine ⟨hr,fun n row hlookup => ?_⟩
    have hsame := insert_sameSession hrow hn ⟨rfl,rfl,rfl,le_rfl⟩
    obtain ⟨row',hrow',hsession⟩ := hsame.1 n row hlookup
    exact ⟨row',hrow',hsession.epoch⟩

theorem Served.attached (hv : s.ValidSpecs) (h : Served now s t) : Attached s t ∧ t.ValidSpecs := by
  obtain ⟨l,hl,hserves⟩ := h
  induction hl with
  | refl => exact ⟨.refl s,hv⟩
  | @snoc l a b e _ hstep ih =>
    obtain ⟨ha,hva⟩ := ih fun e' he' => hserves e' (List.mem_append_left _ he')
    have hacts := step_acts hva hstep
    have hatt := hacts.attached (hserves e (by simp)).2
    exact ⟨ha.trans ⟨hatt.reports,hatt.keeps⟩,hacts.validSpecs hva⟩

variable {epoch : Nat}

theorem locked_ok :
    s.locked n epoch=.ok row ↔ s.nodes.lookup n=some row ∧ epoch≠0 ∧ row.sessionEpoch=epoch := by
  unfold State.locked
  cases hrow : s.nodes.lookup n with
  | none => simp
  | some r =>
    simp only [do_ok,not_or,not_not,Option.some.injEq]
    constructor
    · rintro ⟨⟨h1,h2⟩,rfl⟩
      exact ⟨rfl,h1,h2⟩
    · rintro ⟨rfl,h1,h2⟩
      exact ⟨⟨h1,h2⟩,rfl⟩

theorem hello_boot (h : s.hello now n boot c lastStored=.ok t) : ∃row, t.nodes.lookup n=some row ∧
      t.boots.lookup (n,boot)=some row.sessionEpoch ∧ row.bootId=some boot := by
  obtain ⟨rfl,hrow⟩ | ⟨row,-,-,-,rfl⟩ := State.hello_ok h
  · exact hrow
  · refine ⟨_,AList.lookup_insert _,?_,rfl⟩
    exact AList.lookup_insert _

theorem sessionOf_eq (h : s.nodes.lookup n=some row) : s.sessionOf n=row.sessionEpoch := by
  unfold State.sessionOf
  rw [h]
  rfl

theorem helloCall_ok (h : s.helloCall now n boot c lastStored=.ok (t,epoch)) :
    Step s (now,.hello n boot c lastStored) t ∧ t.boots.lookup (n,boot)=some epoch ∧
      epoch=t.sessionOf n := by
  simp only [State.helloCall,do_ok,Prod.mk.injEq] at h
  obtain ⟨u,hu,rfl,rfl⟩ := h
  obtain ⟨row,hrow,hboot,-⟩ := hello_boot hu
  refine ⟨hu,?_,rfl⟩
  rw [sessionOf_eq hrow]
  exact hboot

theorem snapshotCall_ok {p : Snapshot} (hs : Catalog s)
    (h : s.snapshotCall now n epoch credential=.ok (t,p)) :
    Served now (s.atTime now) t ∧ t.snapshots.lookup (n,p.snapshotGeneration)=some p ∧ p.nodeId=n ∧
      p.sessionEpoch=epoch ∧ s.sessionOf n=epoch ∧ epoch≠0 := by
  simp only [State.snapshotCall,do_ok,Prod.mk.injEq] at h
  obtain ⟨row,hlocked,v,hv,q,hq,rfl,rfl⟩ := h
  obtain ⟨hrow,hpos,hepoch⟩ := locked_ok.mp hlocked
  have hready : Ready now (s.atTime now) := .atTime hs.deployed.specs now
  obtain ⟨hserved,hreadyv,u,awaiting,hsu,hru,hissue⟩ := publish_served hready hv
  obtain ⟨hatt,-⟩ := hsu.attached hready.specs
  obtain ⟨rowu,hrowu,heu⟩ := hatt.keeps n row hrow
  have hcat : Catalog v := by
    obtain ⟨l,hl,-⟩ := hserved
    exact hl.invariant Catalog (fun _ _ _ hab ha => ha.step hab) (hs.clock now)
  -- The snapshot in force carries the session, whether it was there before or is new.
  have hpublished : ∃row', v.nodes.lookup n=some row' ∧
      v.snapshots.lookup (n,row'.snapshotGeneration)=some q := by
    unfold State.published at hq
    cases hb : (v.nodes.lookup n).bind fun row => v.snapshots.lookup (n,row.snapshotGeneration) with
    | none => simp [hb] at hq
    | some q' =>
      simp only [hb,Except.ok.injEq] at hq
      subst hq
      exact Option.bind_eq_some_iff.mp hb
  obtain ⟨row',hrow',hq'⟩ := hpublished
  have hqe : q.sessionEpoch=rowu.sessionEpoch := by
    obtain ⟨rfl,r,p,hr,hp,he⟩ | ⟨r,next,hr,-,⟨i⟩⟩ := State.issue_ok hissue
    · rw [hr] at hrowu hrow'
      cases hrowu
      cases hrow'
      rw [hp] at hq'
      cases hq'
      exact he
    · rw [hr] at hrowu
      cases hrowu
      rw [i.nodes,Table.lookup_insert_eq,if_pos rfl] at hrow'
      cases hrow'
      rw [i.snapshots,Table.lookup_insert_eq,if_pos rfl] at hq'
      cases hq'
      exact i.snapshot_fields.2.1
  obtain ⟨hnode,hgen,-⟩ := hcat.key n _ q hq'
  have hcomplete : Served now v (v.complete now n none) :=
    .single hreadyv.clock (.complete n) rfl
  refine ⟨hserved.trans hcomplete,?_,hnode,hqe.trans (heu.trans hepoch),?_,hpos⟩
  · rw [State.complete_frame,hgen]
    exact hq'
  · rw [sessionOf_eq hrow,hepoch]

theorem reportCall_ok (hv : s.ValidSpecs) (h : s.reportCall now n epoch r=.ok (t,d)) :
    r.nodeId=n ∧ r.sessionEpoch=epoch ∧
      s.sessionOf n=epoch ∧ epoch≠0 ∧
      ((d=true ∧ t=s.atTime now ∧ s.reports.lookup (n,epoch,r.reportSequence)=some r) ∨
        (d=false ∧ s.reports.lookup (n,epoch,r.reportSequence)=none ∧
          ∃u, Nonempty (State.Taken (s.atTime now) now n r u) ∧ Served now u t ∧ Attached u t)) := by
  simp only [State.reportCall,do_ok,not_or,not_not] at h
  obtain ⟨⟨hn,he⟩,row,hlocked,u,hu,h⟩ := h
  obtain ⟨hrow,hpos,hepoch⟩ := locked_ok.mp hlocked
  refine ⟨hn,he,(sessionOf_eq hrow).trans hepoch,hpos,?_⟩
  have hready : Ready now (s.atTime now) := .atTime hv now
  have happ : apply (s.atTime now) now (.report n r)=.ok u := hu
  have hrow' : (s.atTime now).nodes.lookup n=some row := hrow
  unfold State.report at hu
  simp only [hrow',do_ok,not_or,not_not] at hu
  obtain ⟨⟨-,her⟩,-,hboot,hu⟩ := hu
  have hkey : (s.atTime now).reports.lookup (n,row.sessionEpoch,r.reportSequence)=
      s.reports.lookup (n,epoch,r.reportSequence) := by rw [hepoch]; rfl
  rw [hkey] at hu
  cases hp : s.reports.lookup (n,epoch,r.reportSequence) with
  | some prior =>
    simp only [hp,Option.isSome_some,if_true,do_ok,Prod.mk.injEq,not_not] at h hu
    obtain ⟨rfl,rfl⟩ := h
    exact .inl ⟨rfl,rfl,congrArg some hu.1⟩
  | none =>
    simp only [hp,Option.isSome_none,Bool.false_eq_true,if_false,do_ok,Prod.mk.injEq] at h hu
    obtain ⟨v,hv',rfl,rfl⟩ := h
    have htaken := State.takeReport_ok hrow' her hn hboot (hkey.trans hp) hu
    have hru : Ready now u := hready.apply happ
    have hserved := (advanceForNode_served hru hv').1
    exact .inr ⟨rfl,rfl,u,htaken,hserved,(hserved.attached hru.specs).1⟩

/-- What later states of Control keep of earlier ones. -/
structure Later (s t : State) : Prop where
  boots : ∀k e, s.boots.lookup k=some e→t.boots.lookup k=some e
  snapshots : ∀k p, s.snapshots.lookup k=some p→t.snapshots.lookup k=some p
  reports : ∀k r, s.reports.lookup k=some r→t.reports.lookup k=some r

theorem Later.refl (s : State) : Later s s := ⟨fun _ _ h => h,fun _ _ h => h,fun _ _ h => h⟩

theorem Later.trans (h : Later s t) (k : Later t u) : Later s u :=
  ⟨fun x e hx => k.boots x e (h.boots x e hx),fun x p hx => k.snapshots x p (h.snapshots x p hx),
    fun x r hx => k.reports x r (h.reports x r hx)⟩

theorem Acts.later (hs : Catalog s) (h : Acts s now e t) : Later s t := by
  constructor
  · intro k x hk
    cases h.sessions with
    | hello _ _ hnew _ _ hb =>
      rw [hb,Table.lookup_insert_eq,if_neg]
      · exact hk
      · rintro rfl
        rw [hnew] at hk
        cases hk
    | same _ hb | provision _ _ _ hb | issue _ _ hb | report _ _ hb | quarantine _ _ hb =>
      exact hb ▸ hk
  · intro k p hk
    obtain ⟨hsame,-⟩ | ⟨n,row,next,hrow,-,⟨i⟩⟩ := h.issued
    · exact hsame ▸ hk
    · rw [i.snapshots,Table.lookup_insert_eq,if_neg]
      · exact hk
      · rintro rfl
        exact absurd (hs.fresh hrow hk) (lt_irrefl _)
  · intro k r hk
    cases h.sessions with
    | report _ hT =>
      rw [hT.reports,Table.lookup_insert_eq,if_neg]
      · exact hk
      · rintro rfl
        rw [hT.epoch_eq,hT.unused] at hk
        cases hk
    | same _ _ hr | provision _ _ _ _ hr | hello _ _ _ _ _ _ hr | issue _ _ _ hr
    | quarantine _ _ _ hr => exact hr ▸ hk

/-- The invariants that every state of a run has. -/
structure Kernel (s : State) : Prop where
  catalog : Catalog s
  sessions : Sessions s

theorem Kernel.initial (w : World) : Kernel (State.initial w) := ⟨.initial w,.initial w⟩

theorem Kernel.atTime (hs : Kernel s) (now : Nat) : Kernel (s.atTime now) := by
  have hss := hs.sessions
  exact ⟨hs.catalog.clock now,⟨hss.boot,hss.distinct,hss.current,hss.report⟩⟩

theorem Kernel.step {e : Nat×Event} (hs : Kernel s) (h : Step s e t) : Kernel t ∧ Later s t := by
  have hacts := step_acts hs.catalog.deployed.specs h
  have hat : Kernel (s.atTime e.1) := hs.atTime e.1
  have hlater : Later (s.atTime e.1) t := hacts.later hat.catalog
  exact ⟨⟨hs.catalog.step h,hat.sessions.acts hacts⟩,hlater.boots,hlater.snapshots,hlater.reports⟩

theorem Kernel.run (hs : Kernel s) (h : Run Step s l t) : Kernel t ∧ Later s t := by
  induction h with
  | refl => exact ⟨hs,.refl s⟩
  | snoc _ hstep ih =>
    obtain ⟨hk,hl⟩ := ih.1.step hstep
    exact ⟨hk,ih.2.trans hl⟩

/-- No event of the list opens a session. -/
def Closed (l : List (Nat×Event)) : Prop := ∀e∈l, ∀n b c g, e.2≠.hello n b c g

/-- Without a Hello every session stays, and new snapshots carry the session of their Node. -/
structure Steady (s t : State) : Prop where
  boots : t.boots=s.boots
  session : ∀n row, s.nodes.lookup n=some row→∃row', t.nodes.lookup n=some row' ∧
    row'.sessionEpoch=row.sessionEpoch ∧ row'.bootId=row.bootId
  fresh : ∀k p, t.snapshots.lookup k=some p→s.snapshots.lookup k=some p ∨
    (p.sessionEpoch=t.sessionOf p.nodeId ∧ ∀k' q, s.snapshots.lookup k'=some q→q.nodeId=p.nodeId→
      q.snapshotGeneration<p.snapshotGeneration)

theorem Acts.steady (hs : Kernel s) (he : ∀n b c g, e≠.hello n b c g) (h : Acts s now e t) :
    Steady s t := by
  have hboots : t.boots=s.boots := by
    cases h.sessions with
    | hello hev => exact absurd hev (he _ _ _ _)
    | same _ hb | provision _ _ _ hb | issue _ _ hb | report _ _ hb | quarantine _ _ hb => exact hb
  refine ⟨hboots,?_,?_⟩
  · intro n row hrow
    obtain ⟨row',hrow',hsame⟩ := (h.sessions.kept hboots).1 n row hrow
    exact ⟨row',hrow',hsame.epoch,hsame.boot⟩
  · intro k p hp
    obtain ⟨hsame,-⟩ | ⟨n,row,next,hrow,-,⟨i⟩⟩ := h.issued
    · exact .inl (hsame ▸ hp)
    · rw [i.snapshots,Table.lookup_insert_eq] at hp
      split_ifs at hp with hk
      · cases hp
        obtain ⟨hnode,hepoch,hgen,-⟩ := i.snapshot_fields
        have hrow' : t.nodes.lookup n=some { row with snapshotGeneration := row.snapshotGeneration+1 } := by
          rw [i.nodes]
          exact AList.lookup_insert _
        refine .inr ⟨?_,?_⟩
        · rw [hnode,hepoch,sessionOf_eq hrow']
        · rintro ⟨m,g⟩ q hq hqn
          obtain ⟨hm,hg,-⟩ := hs.catalog.key m g q hq
          rw [hnode,hm] at hqn
          subst hqn
          rw [hgen,hg]
          exact hs.catalog.fresh hrow hq
      · exact .inl hp

theorem Steady.trans (ht : Kernel t) (hl : Later s t) (h : Steady s t)
    (k : Steady t u) : Steady s u := by
  refine ⟨k.boots.trans h.boots,?_,?_⟩
  · intro n row hrow
    obtain ⟨r1,h1,a1,b1⟩ := h.session n row hrow
    obtain ⟨r2,h2,a2,b2⟩ := k.session n r1 h1
    exact ⟨r2,h2,a2.trans a1,b2.trans b1⟩
  · intro x p hp
    obtain hp | ⟨he,hg⟩ := k.fresh x p hp
    · obtain hp' | ⟨he,hg⟩ := h.fresh x p hp
      · exact .inl hp'
      · obtain ⟨m,g⟩ := x
        obtain ⟨hm,-,-,row,hrow,-⟩ := ht.catalog.key m g p hp
        obtain ⟨row',hrow',hepoch,-⟩ := k.session m row hrow
        refine .inr ⟨?_,hg⟩
        rw [he,hm,sessionOf_eq hrow,sessionOf_eq hrow',hepoch]
    · exact .inr ⟨he,fun y q hq => hg y q (hl.snapshots y q hq)⟩

theorem Steady.refl (s : State) : Steady s s :=
  ⟨rfl,fun _ row hrow => ⟨row,hrow,rfl,rfl⟩,fun _ _ hp => .inl hp⟩

theorem Kernel.steady (hs : Kernel s) (h : Run Step s l t) (hc : Closed l) : Steady s t := by
  induction h with
  | refl => exact .refl s
  | @snoc l a b e hrun hstep ih =>
    have hprior : Closed l := fun x hx => hc x (List.mem_append_left _ hx)
    obtain ⟨ha,hla⟩ := hs.run hrun
    have hacts := step_acts ha.catalog.deployed.specs hstep
    have hst := hacts.steady (ha.atTime e.1) (hc e (by simp))
    exact (ih hprior).trans ha hla ⟨hst.boots,hst.session,hst.fresh⟩

theorem Event.Serves.not_hello (h : Event.Serves e) : ∀n b c g, e≠.hello n b c g := by
  rintro n b c g rfl
  cases h

theorem atTime_step (s : State) (now : Nat) : Step s (now,.administer s.world) (s.atTime now) := rfl

theorem Served.closed (h : Served now (s.atTime now) t) :
    ∃l, Run Step s l t ∧ Closed l := by
  obtain ⟨l,hl,hserves⟩ := h
  refine ⟨_,.cons (atTime_step _ _) hl,?_⟩
  intro e he
  obtain rfl | he := List.mem_cons.mp he
  · intro n b c g hev
    cases hev
  · exact (hserves e he).2.not_hello

theorem reportCall_run (hv : s.ValidSpecs)
    (h : s.reportCall now n epoch r=.ok (t,d)) : ∃l, Run Step s l t ∧ Closed l := by
  have hcall := h
  simp only [State.reportCall,do_ok,not_or,not_not] at h
  obtain ⟨-,-,-,u,hu,h⟩ := h
  have hready : Ready now (s.atTime now) := .atTime hv now
  have happ : apply (s.atTime now) now (.report n r)=.ok u := hu
  split_ifs at h with hp
  · simp only [pure_ok,Prod.mk.injEq] at h
    obtain ⟨rfl,-⟩ := h
    refine ⟨_,.single (atTime_step _ _),?_⟩
    intro e he
    obtain rfl := List.mem_singleton.mp he
    intro n b c g hev
    cases hev
  · simp only [do_ok,Prod.mk.injEq] at h
    obtain ⟨v,hv',rfl,-⟩ := h
    have hru : Ready now u := hready.apply happ
    obtain ⟨l,hl,hserves⟩ := (advanceForNode_served hru hv').1
    refine ⟨_,.cons (atTime_step _ _) (.cons (apply_step happ rfl) hl),?_⟩
    intro e he n b c g hev
    simp only [List.mem_cons] at he
    obtain rfl | rfl | he := he
    · cases hev
    · cases hev
    · exact (hserves e he).2.not_hello n b c g hev

end TuneX.Control
