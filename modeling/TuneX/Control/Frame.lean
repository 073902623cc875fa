import TuneX.Control.Commands

namespace TuneX.Control

open Framework

namespace State

variable {s t u : State} {f next current : Forward} {now g : Nat} {n : NodeId}

variable {p : Protocol} {b : State×List Reserved} {resources : List RelayResource} {op : Operation}
  {d : Deployment} {epoch validUntil operation : Nat} {claim : Option (Nat×Claim)} {stops : Prop}
  {e : Event} {kind : Kind} {scope : ScopeId} {allowed denied : Bool}

theorem reserveSlot_ok : reserveSlot f s p=.ok t ↔
    (s.slot (f.spec.slotKey p)).owner=none ∧ (s.slot (f.spec.slotKey p)).fence < maxCounter ∧
      s.take f.id (f.spec.slotKey p) 1=t := by
  simp only [reserveSlot,do_ok,not_not,not_le,ge_iff_le,ne_eq]

theorem transitionSlot_ok {l : List Nat} : transitionSlot next l s p=.ok t ↔
    ((s.slot (next.spec.slotKey p)).owner=none ∨
      (s.slot (next.spec.slotKey p)).owner=some next.id) ∧
      (s.slot (next.spec.slotKey p)).fence < maxCounter ∧
      nextGeneration next.revision (s.slot (next.spec.slotKey p)).generation l ≤ maxCounter ∧
      s.take next.id (next.spec.slotKey p)
        (nextGeneration next.revision (s.slot (next.spec.slotKey p)).generation l)=t := by
  simp only [transitionSlot,do_ok,not_and_or,not_not,not_le,not_lt,gt_iff_lt,ge_iff_le]

theorem reserve_frame (h : s.reserve f=.ok t) : t={ s with slots := t.slots } := by
  simp only [reserve,do_ok] at h
  obtain ⟨u,hu,-,rfl⟩ := h
  refine foldlM_ok (fun u => u={ s with slots := u.slots }) ?_ rfl hu
  intro b p c _ hb hc
  rw [← (reserveSlot_ok.mp hc).2.2,hb]
  rfl

theorem transition_frame (h : s.transition current next=.ok t) : t={ s with slots := t.slots } := by
  refine foldlM_ok (fun u => u={ s with slots := u.slots }) ?_ rfl h
  intro b p c _ hb hc
  rw [← (transitionSlot_ok.mp hc).2.2.2,hb]
  rfl

theorem reserveRelaySlot_ok {acc : State×List Reserved} {r : RelayResource} :
    reserveRelaySlot f g acc r=.ok b ↔
    ((acc.1.slot r.key).owner=none ∨ (acc.1.slot r.key).owner=some f.id) ∧
      (acc.1.slot r.key).fence < maxCounter ∧
      (acc.1.take f.id r.key g,acc.2++[⟨r,(acc.1.slot r.key).fence+1⟩])=b := by
  simp only [reserveRelaySlot,do_ok,not_and_or,not_not,not_le,ge_iff_le]

theorem reserveRelay_ok : s.reserveRelay f resources g=.ok b ↔ g ≤ maxCounter ∧
      resources.foldlM (reserveRelaySlot f g) (s,[])=.ok b ∧
      ¬(resources.any fun r => b.1.owned r.nodeId>maxAssignmentsPerNode) := by
  simp only [reserveRelay,do_ok,not_lt,gt_iff_lt]
  constructor
  · rintro ⟨hg,c,hc,hn,rfl⟩
    exact ⟨hg,hc,hn⟩
  · rintro ⟨hg,hc,hn⟩
    exact ⟨hg,b,hc,hn,rfl⟩

theorem reserveRelay_frame (h : s.reserveRelay f resources g=.ok b) :
    b.1={ s with slots := b.1.slots } := by
  refine foldlM_ok (fun b : State×List Reserved => b.1={ s with slots := b.1.slots }) ?_ rfl
    (reserveRelay_ok.mp h).2.1
  intro b r c _ hb hc
  rw [← (reserveRelaySlot_ok.mp hc).2.2]
  change b.1.take f.id r.key g=_
  rw [hb]
  rfl

structure Accepted (s : State) (now : Nat) (actor : ActorId) (f : Forward) (t : State) where
  generation : Nat
  input : PlanInput
  resources : List RelayResource
  reserved : State×List Reserved
  plan : Plan
  generation_eq : generation=max f.revision (((s.latestDeployment f.id).map Prod.fst).getD 0+1)
  input_eq : s.planInput now actor f ((s.latestDeployment f.id).map (·.2.plan)) (some f.id)=some input
  resources_eq : compilePathResources f input=some resources
  reserved_eq : s.reserveRelay f resources generation=.ok reserved
  plan_eq : compilePlan now f generation input reserved.2=some plan
  result : t={ reserved.1 with
    deployments := reserved.1.deployments.insert (f.id,generation) (newDeployment f plan) }

variable {actor : ActorId}

theorem acceptPlan_ok (h : s.acceptPlan now actor f=.ok t) :
    Nonempty (Accepted s now actor f t) := by
  simp only [acceptPlan,do_ok] at h
  obtain ⟨-,h⟩ := h
  cases hi : s.planInput now actor f ((s.latestDeployment f.id).map (·.2.plan)) (some f.id) with
  | none => simp [hi] at h
  | some input =>
    cases hr : compilePathResources f input with
    | none => simp [hi,hr] at h
    | some resources =>
      simp only [hi,hr,bind_ok] at h
      obtain ⟨b,hb,h⟩ := h
      cases hp : compilePlan now f (max f.revision (((s.latestDeployment f.id).map Prod.fst).getD 0+1))
          input b.2 with
      | none => simp [hp] at h
      | some plan =>
        simp only [hp,pure_ok] at h
        exact ⟨⟨_,input,resources,b,plan,rfl,hi,hr,hb,hp,h.symm⟩⟩

theorem acceptPlan_frame (h : s.acceptPlan now actor f=.ok t) :
    t={ s with slots := t.slots, deployments := t.deployments } := by
  obtain ⟨a⟩ := acceptPlan_ok h
  rw [a.result,reserveRelay_frame a.reserved_eq]

theorem accept_frame (kind : Kind) :
    s.accept now f kind={ s with operations := (s.accept now f kind).operations } := rfl

theorem completeOperation_frame (o : Option (Report×Snapshot)) (op : Operation) :
    completeOperation now n o s op={ s with
      slots := (completeOperation now n o s op).slots
      operations := (completeOperation now n o s op).operations } := by
  unfold completeOperation
  cases s.forwards.lookup op.forwardId with
  | none => rfl
  | some row =>
    dsimp only
    split_ifs
    · rfl
    · rfl
    · rfl
    · rfl
    · cases o with
      | none => rfl
      | some o =>
        dsimp only
        split_ifs <;> rfl

theorem complete_frame (o : Option (Report×Snapshot)) :
    s.complete now n o={ s with
      slots := (s.complete now n o).slots
      operations := (s.complete now n o).operations
      retirements := (s.settleRetirements now n).retirements } := by
  unfold complete
  refine List.foldlRecOn _ (completeOperation now n o)
    (motive := fun t => t={ s with
      slots := t.slots
      operations := t.operations
      retirements := (s.settleRetirements now n).retirements }) (b := s.settleRetirements now n) rfl ?_
  intro b hb op _
  rw [completeOperation_frame,hb]

theorem settleRelay_frame (row : ForwardRow) (op : Operation) (b : Bool) :
    s.settleRelay now row op b={ s with operations := (s.settleRelay now row op b).operations } := by
  unfold settleRelay
  dsimp only
  split_ifs <;> rfl

theorem completeRelay_frame (row : ForwardRow) (op : Operation) (d : Deployment) :
    s.completeRelay now f row op d={ s with
      slots := (s.completeRelay now f row op d).slots
      operations := (s.completeRelay now f row op d).operations } := by
  unfold completeRelay
  split_ifs
  · rfl
  · rfl
  · rw [settleRelay_frame]
    rfl
  · rw [settleRelay_frame]
  · rw [settleRelay_frame]
    rfl
  · rfl

/-- What the turn of the deployment in force does. -/
inductive Turn (s : State) (now : Nat) (f : Forward) (row : ForwardRow) (op : Operation) (g : Nat)
    (d : Deployment) : State→Prop
  | direct (hv : row.spec.via=[]) :
      Turn s now f row op g d (s.setDeployment f.id g { d with stage := .withdrawn })
  | refresh {actor : ActorId} {t : State} (hv : row.spec.via≠[])
      (ha : s.refreshActor now f row op d.plan=some actor) (ht : s.refresh now actor f=.ok t) :
      Turn s now f row op g d t
  | withdraw (hv : row.spec.via≠[]) (ha : s.refreshActor now f row op d.plan=none)
      (hs : s.stopped now f row op d.plan) : Turn s now f row op g d (s.withdraw now f row op g d)
  | progress (hv : row.spec.via≠[]) (ha : s.refreshActor now f row op d.plan=none)
      (hs : ¬s.stopped now f row op d.plan) : Turn s now f row op g d (s.progress now f row op g d)

variable {row : ForwardRow}

theorem advanceDeployment_ok (h : s.advanceDeployment now f row op g d=.ok t) :
    Turn s now f row op g d t := by
  unfold advanceDeployment at h
  by_cases hv : row.spec.via.isEmpty
  · rw [if_pos hv] at h
    cases h
    exact .direct (List.isEmpty_iff.mp hv)
  · rw [if_neg hv] at h
    have hne : row.spec.via≠[] := fun he => hv (List.isEmpty_iff.mpr he)
    cases ha : s.refreshActor now f row op d.plan with
    | some actor =>
      rw [ha] at h
      exact .refresh hne ha h
    | none =>
      rw [ha] at h
      dsimp only at h
      by_cases hs : s.stopped now f row op d.plan
      · rw [if_pos hs] at h
        cases h
        exact .withdraw hne ha hs
      · rw [if_neg hs] at h
        cases h
        exact .progress hne ha hs

variable {id : ForwardId}

theorem advance_ok (h : s.advance now id=.ok t) :
    t=s ∨ ∃g d op row, s.latestDeployment id=some (g,d) ∧ s.latest id=some op ∧
      s.forwards.lookup id=some row ∧ op.advances ∧ Turn s now (row.forward id) row op g d t := by
  unfold advance at h
  cases hd : s.latestDeployment id with
  | none =>
    simp only [hd] at h
    cases h
    exact .inl rfl
  | some gd =>
    cases ho : s.latest id with
    | none =>
      simp only [hd,ho] at h
      cases h
      exact .inl rfl
    | some op =>
      simp only [hd,ho] at h
      cases hr : s.forwards.lookup id with
      | none => simp [hr] at h
      | some row =>
        simp only [hr] at h
        by_cases ha : op.advances
        · rw [if_pos ha] at h
          exact .inr ⟨gd.1,gd.2,op,row,rfl,rfl,rfl,ha,advanceDeployment_ok h⟩
        · rw [if_neg ha] at h
          cases h
          exact .inl rfl

theorem refresh_ok (h : s.refresh now actor f=.ok t) :
    ∃u, s.acceptPlan now actor f=.ok u ∧ t=u.accept now f .policy := by
  simp only [refresh,do_ok] at h
  obtain ⟨u,hu,-,rfl⟩ := h
  exact ⟨u,hu,rfl⟩

theorem turn_frame (h : Turn s now f row op g d t) : t={ s with
      slots := t.slots, operations := t.operations, deployments := t.deployments } := by
  cases h with
  | direct => rfl
  | refresh _ _ ht =>
    obtain ⟨u,hu,rfl⟩ := refresh_ok ht
    rw [accept_frame,acceptPlan_frame hu]
  | withdraw =>
    unfold State.withdraw
    dsimp only
    rw [completeRelay_frame]
    rfl
  | progress =>
    unfold State.progress
    dsimp only
    split_ifs
    · rw [completeRelay_frame]
      rfl
    · rfl

theorem advance_frame (h : s.advance now id=.ok t) : t={ s with
    slots := t.slots, operations := t.operations, deployments := t.deployments } := by
  cases advance_ok h with
  | inl he => rw [he]
  | inr ht =>
    obtain ⟨g,d,op,row,-,-,-,-,hturn⟩ := ht
    exact turn_frame hturn

theorem executionError_cases (s : State) (now : Nat) (p : Snapshot) (a : Assignment) (o : Observation) :
    s.executionError now p a o=s ∨ ∃g d op row, s.latestDeployment a.forwardId=some (g,d) ∧
      s.latest a.forwardId=some op ∧ s.forwards.lookup a.forwardId=some row ∧
      errorApplies (row.forward a.forwardId) row op d p a ∧
      s.executionError now p a o=s.failDeployment now (row.forward a.forwardId) op g d := by
  unfold executionError
  cases hd : s.latestDeployment a.forwardId with
  | none => exact .inl rfl
  | some gd =>
    cases ho : s.latest a.forwardId with
    | none => exact .inl rfl
    | some op =>
      cases hr : s.forwards.lookup a.forwardId with
      | none => exact .inl rfl
      | some row =>
        dsimp only
        split_ifs with hc
        · simp only [Bool.and_eq_true] at hc
          exact .inr ⟨gd.1,gd.2,op,row,rfl,rfl,rfl,hc.2,rfl⟩
        · exact .inl rfl

theorem failDeployment_frame (op : Operation) (d : Deployment) :
    s.failDeployment now f op g d={ s with
      operations := (s.failDeployment now f op g d).operations
      deployments := s.deployments.insert (f.id,g) { d with stage := .withdrawn } } := by
  unfold failDeployment
  dsimp only
  split_ifs <;> rfl

theorem executionError_frame (p : Snapshot) (a : Assignment) (o : Observation) :
    s.executionError now p a o={ s with
      operations := (s.executionError now p a o).operations
      deployments := (s.executionError now p a o).deployments } := by
  cases executionError_cases s now p a o with
  | inl he => rw [he]
  | inr ht =>
    obtain ⟨g,d,op,row,-,-,-,-,he⟩ := ht
    rw [he,failDeployment_frame]

theorem reportError_cases (s : State) (now : Nat) (p : Snapshot) (r : Report) (a : Assignment) :
    (∃ops, reportError now p r s a={ s with operations := ops }) ∨
      ∃o, reportError now p r s a=s.executionError now p a o := by
  unfold reportError
  cases r.observations.find? fun o => o.assignmentId=a.assignmentId with
  | none => exact .inl ⟨s.operations,rfl⟩
  | some o =>
    dsimp only
    split_ifs
    · exact .inl ⟨s.operations,rfl⟩
    · exact .inr ⟨o,rfl⟩
    · exact .inl ⟨s.operations,rfl⟩
    · exact .inl ⟨_,rfl⟩

theorem reportErrors_frame (p : Snapshot) (r : Report) (l : List Assignment) :
    l.foldl (reportError now p r) s={ s with
      operations := (l.foldl (reportError now p r) s).operations
      deployments := (l.foldl (reportError now p r) s).deployments } := by
  refine List.foldlRecOn _ (reportError now p r) (b := s)
    (motive := fun t => t={ s with operations := t.operations, deployments := t.deployments }) rfl ?_
  intro b hb a _
  cases reportError_cases b now p r a with
  | inl h =>
    obtain ⟨ops,h⟩ := h
    rw [h,hb]
  | inr h =>
    obtain ⟨o,h⟩ := h
    rw [h,executionError_frame,hb]

theorem observeDrain_ok {accepted : Nat} {d : Drain} (h : observeDrain n epoch accepted s d=.ok t) :
    ∃r, s.retirements.lookup (d.instanceOn n)=some r ∧ r.retirementGeneration≤accepted ∧
      ((t=s) ∨ (d.condition=.removed ∧ d.remainingConnections=0 ∧
        t={ s with retirements :=
          s.retirements.insert (d.instanceOn n) { r with removedEpoch := some epoch } })) := by
  unfold observeDrain at h
  cases hr : s.retirements.lookup (d.instanceOn n) with
  | none => simp [hr] at h
  | some r =>
    simp only [hr,do_ok,not_lt] at h
    obtain ⟨ha,-,rfl⟩ := h
    refine ⟨r,rfl,ha,?_⟩
    split_ifs with hc
    · exact .inr ⟨hc.1,hc.2,rfl⟩
    · exact .inl rfl

variable {r : Report}

theorem observeDrains_frame (h : s.observeDrains n epoch r=.ok t) :
    t={ s with retirements := t.retirements } := by
  refine foldlM_ok (fun u => u={ s with retirements := u.retirements }) ?_ rfl h
  intro b d c _ hb hc
  obtain ⟨r,-,-,he | ⟨-,-,he⟩⟩ := observeDrain_ok hc
  · rw [he,← hb]
  · rw [he,hb]

/-- The parts of a report that is taken: drains, the stored report, errors, completion. -/
structure Taken (s : State) (now : Nat) (n : NodeId) (r : Report) (t : State) where
  row : RuntimeNode
  drained : State
  failed : State
  row_eq : s.nodes.lookup n=some row
  epoch_eq : r.sessionEpoch=row.sessionEpoch
  drained_eq : s.observeDrains n row.sessionEpoch r=.ok drained
  failed_eq : failed=drained.storeReport now n row r ∨ ∃p : Snapshot, failed=
    p.assignments.foldl (reportError now p r) (drained.storeReport now n row r)
  result : t=failed ∨ ∃p, s.snapshots.lookup (n,r.acceptedSnapshotGeneration)=some p ∧
    p.sessionEpoch=row.sessionEpoch ∧ p.snapshotGeneration=row.snapshotGeneration ∧
    t=failed.complete now n (some (r,p))
  node_eq : r.nodeId=n
  boot_eq : row.bootId=some r.bootId
  unused : s.reports.lookup (n,row.sessionEpoch,r.reportSequence)=none
  newer : row.lastReportSequence < r.reportSequence

theorem takeReport_ok {row : RuntimeNode} (hrow : s.nodes.lookup n=some row)
    (he : r.sessionEpoch=row.sessionEpoch) (hn : r.nodeId=n) (hb : row.bootId=some r.bootId)
    (hunused : s.reports.lookup (n,row.sessionEpoch,r.reportSequence)=none)
    (h : s.takeReport now n row r=.ok t) : Nonempty (Taken s now n r t) := by
  simp only [takeReport,do_ok,not_le] at h
  obtain ⟨hnew,-,-,u,hu,rfl⟩ := h
  generalize hs : (s.snapshots.lookup (n,r.acceptedSnapshotGeneration)).filter (fun p =>
    p.sessionEpoch=row.sessionEpoch && r.acceptedSnapshotGeneration≠0)=snapshot
  generalize hc : snapshot.filter (fun p => p.snapshotGeneration=row.snapshotGeneration)=current
  have hcurrent : ∀p, current=some p→s.snapshots.lookup (n,r.acceptedSnapshotGeneration)=some p ∧
      p.sessionEpoch=row.sessionEpoch ∧ p.snapshotGeneration=row.snapshotGeneration := by
    intro p hp
    rw [hp,Option.filter_eq_some_iff] at hc
    obtain ⟨hsn,hg⟩ := hc
    rw [hsn,Option.filter_eq_some_iff] at hs
    simp only [bool_ok] at hs hg
    exact ⟨hs.1,hs.2.1,hg⟩
  generalize hv : (current.filter (fun p => now+maxClockSkewMillis<p.validUntil)).elim
    (u.storeReport now n row r) (fun p => p.assignments.foldl (reportError now p r)
      (u.storeReport now n row r))=v
  refine ⟨⟨row,u,v,hrow,he,hu,?_,?_,hn,hb,hunused,hnew⟩⟩
  · rw [← hv]
    cases current.filter fun p => now+maxClockSkewMillis<p.validUntil with
    | none => exact .inl rfl
    | some p => exact .inr ⟨p,rfl⟩
  · cases hp : current with
    | none => exact .inl rfl
    | some p => exact .inr ⟨p,(hcurrent p hp).1,(hcurrent p hp).2.1,(hcurrent p hp).2.2,rfl⟩

theorem report_ok (h : s.report now n r=.ok t) : t=s ∨ Nonempty (Taken s now n r t) := by
  unfold report at h
  cases hrow : s.nodes.lookup n with
  | none => simp [hrow] at h
  | some row =>
    simp only [hrow,do_ok,not_or,not_not] at h
    obtain ⟨⟨hn,he⟩,-,hb,h⟩ := h
    cases hp : s.reports.lookup (n,row.sessionEpoch,r.reportSequence) with
    | some prior =>
      simp only [hp,do_ok] at h
      exact .inl h.2.symm
    | none =>
      simp only [hp] at h
      exact .inr (takeReport_ok hrow he hn hb hp h)

theorem Taken.frame (h : Taken s now n r t) : t={ s with
    slots := t.slots
    operations := t.operations
    deployments := t.deployments
    retirements := t.retirements
    nodes := (s.storeReport now n h.row r).nodes
    reports := (s.storeReport now n h.row r).reports } := by
  obtain ⟨row,drained,failed,-,-,hd,hf,hr⟩ := h
  dsimp only
  have hdrain := observeDrains_frame hd
  have hfail : failed={ s with
      operations := failed.operations
      deployments := failed.deployments
      retirements := failed.retirements
      nodes := (s.storeReport now n row r).nodes
      reports := (s.storeReport now n row r).reports } := by
    obtain rfl | ⟨p,rfl⟩ := hf
    · unfold storeReport
      rw [hdrain]
    · rw [reportErrors_frame]
      unfold storeReport
      rw [hdrain]
  obtain rfl | ⟨p,-,-,-,rfl⟩ := hr
  · rw [hfail]
  · rw [complete_frame,hfail]

theorem Taken.nodes (h : Taken s now n r t) : ∃row, s.nodes.lookup n=some row ∧
    t.nodes=s.nodes.insert n { row with
      lastReportSequence := r.reportSequence
      lastReport := some r
      receivedAt := some now } := by
  exact ⟨h.row,h.row_eq,congrArg State.nodes h.frame⟩

theorem Taken.reports (h : Taken s now n r t) :
    t.reports=s.reports.insert (n,r.sessionEpoch,r.reportSequence) r := congrArg State.reports h.frame

theorem hello_ok {boot lastStored : Nat} {c : List Capability}
    (h : s.hello now n boot c lastStored=.ok t) :
    (t=s ∧ ∃row, s.nodes.lookup n=some row ∧ s.boots.lookup (n,boot)=some row.sessionEpoch ∧
      row.bootId=some boot) ∨
    ∃row, s.nodes.lookup n=some row ∧ s.boots.lookup (n,boot)=none ∧
      helloCapabilities c=.ok () ∧ t={ s with
        boots := s.boots.insert (n,boot) (row.sessionEpoch+1)
        nodes := s.nodes.insert n (row.booted boot c) } := by
  simp only [hello,do_ok] at h
  obtain ⟨hc,h⟩ := h
  cases hr : s.nodes.lookup n with
  | none => simp [hr] at h
  | some row =>
    simp only [hr,do_ok] at h
    obtain ⟨-,-,h⟩ := h
    cases hb : s.boots.lookup (n,boot) with
    | none =>
      simp only [hb,newBoot,do_ok] at h
      exact .inr ⟨row,rfl,rfl,hc,h.2.symm⟩
    | some epoch =>
      simp only [hb,do_ok,not_or,not_not] at h
      obtain ⟨⟨he,hboot⟩,-,rfl⟩ := h
      exact .inl ⟨rfl,row,rfl,congrArg some he,hboot⟩

theorem compileSnapshot_ok {generation issuedAt : Nat} {l : List Assignment} {m : List Tombstone}
    {p : Snapshot} : compileSnapshot n epoch generation issuedAt validUntil l m=.ok p ↔
      issuedAt<validUntil ∧ validUntil ≤ issuedAt+leaseMillis ∧ l.length ≤ maxAssignmentsPerNode ∧
      (m.map fun t => (t.physicalProtocol,t.port,t.bindingFence)).Nodup ∧
      (∀t∈m, t.retirementGeneration≤generation) ∧ (∀t∈m, ∀a∈l, ¬resurrects t a) ∧
      p=⟨n,epoch,generation,issuedAt,validUntil,l,m⟩ := by
  simp only [compileSnapshot,do_ok,not_or,not_le,not_lt,not_not,List.any_eq_true,decide_eq_true_eq,
    not_exists,not_and]
  constructor
  · rintro ⟨⟨h1,h2⟩,h3,⟨h4,h5⟩,h6,rfl⟩
    exact ⟨h1,h2,h3,h4,h5,h6,rfl⟩
  · rintro ⟨h1,h2,h3,h4,h5,h6,rfl⟩
    exact ⟨⟨h1,h2⟩,h3,⟨h4,h5⟩,h6,rfl⟩

/-- A snapshot of the next generation and what was written with it. -/
structure Issued (s : State) (now : Nat) (n : NodeId) (row : RuntimeNode) (next : List Assignment)
    (t : State) where
  retired : State
  validUntil : Nat
  snapshot : Snapshot
  epoch_pos : row.sessionEpoch≠0
  retired_eq : s.retireChanged n (s.snapshots.lookup (n,row.snapshotGeneration)) next
    (row.snapshotGeneration+1)=.ok retired
  snapshot_eq : compileSnapshot n row.sessionEpoch (row.snapshotGeneration+1) now validUntil next
    (retired.tombstones n (row.snapshotGeneration+1))=.ok snapshot
  verified : retired.verifyPublishable now next
  result : t=(retired.store row snapshot).recordLeases snapshot

theorem issueNext_ok {row : RuntimeNode} {next : List Assignment}
    (h : s.issueNext now n row validUntil next claim=.ok t) :
    Nonempty (Issued s now n row next t) := by
  simp only [issueNext,do_ok,not_not] at h
  obtain ⟨he,-,u,hu,p,hp,hv,-,rfl⟩ := h
  exact ⟨⟨u,validUntil,p,he,hu,hp,hv,rfl⟩⟩

theorem issue_ok {awaiting : Bool} {credential : Option Nat}
    (h : s.issue now n awaiting claim credential=.ok t) : (t=s ∧ ∃row p, s.nodes.lookup n=some row ∧
      s.snapshots.lookup (n,row.snapshotGeneration)=some p ∧ p.sessionEpoch=row.sessionEpoch) ∨
    ∃row next, s.nodes.lookup n=some row ∧
      (next=[] ∨ s.assignments now n false=.ok next) ∧ Nonempty (Issued s now n row next t) := by
  unfold issue at h
  cases hrow : s.nodes.lookup n with
  | none => simp [hrow] at h
  | some row =>
    simp only [hrow,do_ok] at h
    obtain ⟨-,next,hnext,h⟩ := h
    have hsource : next=[] ∨ s.assignments now n false=.ok next := by
      unfold nextAssignments at hnext
      split_ifs at hnext with hw
      · cases hnext
        exact .inl rfl
      · exact .inr hnext
    split at h
    · rename_i hwait
      cases h
      obtain ⟨p,hp,hw⟩ := (Option.any_eq_true _ _).mp hwait
      simp only [waits,bool_ok] at hw
      exact .inl ⟨rfl,row,p,rfl,hp,hw.1.1.2⟩
    · simp only [bind_ok] at h
      obtain ⟨bound,-,h⟩ := h
      split at h
      · rename_i hsame
        cases h
        obtain ⟨p,hp,hw⟩ := (Option.any_eq_true _ _).mp hsame
        simp only [unchanged,bool_ok] at hw
        exact .inl ⟨rfl,row,p,rfl,hp,hw.1.1.1⟩
      · exact .inr ⟨row,next,rfl,hsource,issueNext_ok h⟩

theorem retireOne_ok {next : List Assignment} {old : Assignment}
    (h : retireOne n next g s old=.ok t) :
    (t=s ∧ ∃a∈next, a.instanceOn n=old.instanceOn n) ∨
      ((∀a∈next, a.instanceOn n≠old.instanceOn n) ∧ ∃ops, t={ s with
        operations := ops
        retirements := (s.retire (old.instanceOn n)
          ⟨old.forwardId,old,none,g,false⟩).retirements }) := by
  unfold retireOne at h
  split_ifs at h with hk
  · cases h
    simp only [List.any_eq_true,decide_eq_true_eq] at hk
    exact .inl ⟨rfl,hk⟩
  · simp only [List.any_eq_true,decide_eq_true_eq,not_exists,not_and] at hk
    cases ho : s.latest old.forwardId with
    | none => simp [ho] at h
    | some op =>
      simp only [ho,Except.ok.injEq] at h
      refine .inr ⟨hk,t.operations,?_⟩
      rw [← h]
      unfold retire
      split_ifs <;> rfl

theorem retireChanged_frame {previous : Option Snapshot} {next : List Assignment}
    (h : s.retireChanged n previous next g=.ok t) :
    t={ s with operations := t.operations, retirements := t.retirements } := by
  refine foldlM_ok (fun u => u={ s with operations := u.operations, retirements := u.retirements })
    ?_ rfl h
  intro b a c _ hb hc
  obtain ⟨rfl,-⟩ | ⟨-,ops,rfl⟩ := retireOne_ok hc
  · exact hb
  · rw [hb]

theorem recordLeases_frame (p : Snapshot) :
    s.recordLeases p={ s with leases := (s.recordLeases p).leases } := by
  unfold recordLeases
  refine List.foldlRecOn _ (recordLease p.nodeId p.sessionEpoch p.validUntil) (b := s)
    (motive := fun t => t={ s with leases := t.leases }) rfl ?_
  intro b hb a _
  unfold recordLease
  dsimp only
  rw [hb]

/-- The intents that Control stores have been parsed. -/
def ValidSpecs (s : State) : Prop := ∀id row, s.forwards.lookup id=some row → row.spec.valid

/-- How a command changes the reservations of an intent whose row was `old`: it leaves those of an
intent that it stops, and renews the others. A direct intent keeps reservations only unchanged. -/
inductive Reserving (s : State) (now : Nat) (old : Option ForwardRow) (f : Forward) (stops : Prop) :
    State→Prop
  | keep (hs : stops) (hk : f.spec.via=[] → old.map (·.spec)=some f.spec) : Reserving s now old f stops s
  | reserve {t : State} (ho : old=none) (hv : f.spec.via=[]) (h : s.reserve f=.ok t) :
      Reserving s now old f stops t
  | transition {row : ForwardRow} {t : State} (ho : old=some row) (hv : f.spec.via=[])
      (h : s.transition (row.forward f.id) f=.ok t) : Reserving s now old f stops t
  | plan {actor : ActorId} {t : State} (hv : f.spec.via≠[]) (h : s.acceptPlan now actor f=.ok t) :
      Reserving s now old f stops t

theorem Reserving.frame {old : Option ForwardRow} (h : Reserving s now old f stops t) :
    t={ s with slots := t.slots, deployments := t.deployments } := by
  cases h with
  | keep => rfl
  | reserve _ _ h => rw [reserve_frame h]
  | transition _ _ h => rw [transition_frame h]
  | plan _ h => exact acceptPlan_frame h

/-- The row of an intent before a command on it. -/
def Follows (f : Forward) : Option ForwardRow→Prop
  | none => f.revision=1
  | some row => ¬row.deleting ∧
      (f.revision=row.revision+1 ∨ (f.revision=row.revision ∧ f.spec=row.spec))

/-- The intent that a command writes, with its row and the kind of its Operation. -/
inductive Cause (s : State) : Event→Forward→ForwardRow→Kind→Prop
  | create {actor : ActorId} {scope : ScopeId} {id : ForwardId} {spec : Spec}
      (hn : s.forwards.lookup id=none) : Cause s (.create actor scope id spec) ⟨id,scope,1,spec⟩
        ⟨scope,1,spec,some actor,false,false⟩ .create
  | update {actor : ActorId} {id : ForwardId} {spec : Spec} {row : ForwardRow}
      (hrow : s.forwards.lookup id=some row) (hd : ¬row.deleting) (hs : row.spec≠spec)
      (hm : s.moveAllowed row spec) : Cause s (.update actor id row.revision spec)
        ⟨id,row.scopeId,row.revision+1,spec⟩
        ⟨row.scopeId,row.revision+1,spec,some actor,false,false⟩ (updateKind row.spec spec)
  | remove {actor : ActorId} {id : ForwardId} {row : ForwardRow}
      (hrow : s.forwards.lookup id=some row) (hd : ¬row.deleting) :
      Cause s (.remove actor id row.revision) ⟨id,row.scopeId,row.revision+1,row.spec⟩
        { row with revision := row.revision+1, deleting := true } .delete
  | retry {actor : ActorId} {operation expected : Nat} {id : ForwardId} {row : ForwardRow}
      (hrow : s.forwards.lookup id=some row) (hd : ¬row.deleting) :
      Cause s (.retry actor operation expected) (row.forward id)
        { row with authorizer := some actor } .retry
  | reauthorize {id : ForwardId} {allowed denied : Bool} {row : ForwardRow} (kind : Kind)
      (hrow : s.forwards.lookup id=some row) (hd : ¬row.deleting) :
      Cause s (.reauthorize id allowed denied) (row.forward id) row kind

theorem Cause.row_forward (h : Cause s e f row kind) : row.forward f.id=f := by
  cases h with
  | create | update | remove | retry | reauthorize => rfl

theorem Cause.follows (h : Cause s e f row kind) : Follows f (s.forwards.lookup f.id) := by
  cases h with
  | create hn =>
    rw [hn]
    rfl
  | update hrow hd | remove hrow hd =>
    rw [hrow]
    exact ⟨hd,.inl rfl⟩
  | retry hrow hd | reauthorize _ hrow hd =>
    rw [ForwardRow.forward,hrow]
    exact ⟨hd,.inr ⟨rfl,rfl⟩⟩

/-- A command writes the intent, reserves for it and accepts an Operation. -/
structure Commanded (s : State) (now : Nat) (e : Event) (t : State) where
  f : Forward
  kind : Kind
  row : ForwardRow
  before : Table ForwardId ForwardRow
  reserved : State
  valid : f.spec.valid
  cause : Cause s e f row kind
  reserving : Reserving { s with forwards := before } now (s.forwards.lookup f.id) f
    (row.deleting ∨ ¬f.spec.enabled ∨ kind=.revoke) reserved
  forwards : ∀id, t.forwards.lookup id=if id=f.id then some row else s.forwards.lookup id
  operations : t.operations=(s.accept now f kind).operations ∨ (kind=.revoke ∧
    t.operations=((s.accept now f kind).denyIntent s.operations.length).operations)
  result : t={ reserved with forwards := t.forwards, operations := t.operations }

theorem Commanded.row_eq (c : Commanded s now e t) : t.forwards.lookup c.f.id=some c.row := by
  rw [c.forwards,if_pos rfl]

theorem Commanded.spec (c : Commanded s now e t) : c.row.spec=c.f.spec :=
  congrArg Forward.spec c.cause.row_forward

theorem Commanded.revision (c : Commanded s now e t) : c.row.revision=c.f.revision :=
  congrArg Forward.revision c.cause.row_forward

theorem Commanded.revision_le (c : Commanded s now e t)
    (hrow : s.forwards.lookup c.f.id=some row) :
    ¬row.deleting ∧ row.revision ≤ c.f.revision := by
  have hfollows := c.cause.follows
  rw [hrow] at hfollows
  obtain ⟨hd,hr | ⟨hr,-⟩⟩ := hfollows
  · exact ⟨hd,by omega⟩
  · exact ⟨hd,hr.ge⟩

theorem transitionFor_ok {actor : Option ActorId} (hs : actor=none→stops)
    (h : s.transitionFor now (row.forward id) actor=.ok t) :
    Reserving s now (some row) (row.forward id) stops t := by
  cases actor with
  | none =>
    cases h
    exact .keep (hs rfl) fun _ => rfl
  | some actor =>
    unfold transitionFor transitionExecution at h
    dsimp only at h
    split_ifs at h with hv
    · exact .transition rfl (List.isEmpty_iff.mp hv) h
    · exact .plan (fun he => hv (List.isEmpty_iff.mpr he)) h

theorem prepareCreate_ok (h : s.prepareCreate now actor f=.ok t) :
    (f.spec.via=[] ∧ ∃u, s.reserve f=.ok u ∧ t=u.insertForward f actor) ∨
      (f.spec.via≠[] ∧ (s.insertForward f actor).acceptPlan now actor f=.ok t) := by
  unfold prepareCreate at h
  split_ifs at h with hv
  · simp only [do_ok] at h
    obtain ⟨-,u,hu,rfl⟩ := h
    exact .inl ⟨List.isEmpty_iff.mp hv,u,hu,rfl⟩
  · exact .inr ⟨fun he => hv (List.isEmpty_iff.mpr he),h⟩

variable {spec : Spec}

theorem create_ok (h : s.create now actor scope id spec=.ok t) :
    spec.valid ∧ s.forwards.lookup id=none ∧
      ∃u, s.prepareCreate now actor ⟨id,scope,1,spec⟩=.ok u ∧
        t=u.accept now ⟨id,scope,1,spec⟩ .create := by
  simp only [create,do_ok,not_not] at h
  obtain ⟨hv,-,hn,u,hu,-,rfl⟩ := h
  exact ⟨hv,Option.not_isSome_iff_eq_none.mp hn,u,hu,rfl⟩

theorem prepareUpdate_ok (h : s.prepareUpdate now actor current next=.ok t) :
    (next.spec.via=[] ∧ ∃u, s.transition current next=.ok u ∧ t=u.replace next actor) ∨
      (next.spec.via≠[] ∧ next.spec.enabled ∧
        (s.replace next actor).acceptPlan now actor next=.ok t) ∨
      (next.spec.via≠[] ∧ ¬next.spec.enabled ∧ t=s.replace next actor) := by
  unfold prepareUpdate at h
  split_ifs at h with hv he
  · simp only [do_ok] at h
    obtain ⟨u,hu,rfl⟩ := h
    exact .inl ⟨List.isEmpty_iff.mp hv,u,hu,rfl⟩
  · exact .inr (.inl ⟨fun he => hv (List.isEmpty_iff.mpr he),he,h⟩)
  · rw [pure_ok] at h
    exact .inr (.inr ⟨fun he => hv (List.isEmpty_iff.mpr he),he,h.symm⟩)

variable {expected : Nat}

theorem decideForwardChange_ok
    (h : decideForwardChange current expected spec=.ok next) :
    current.revision=expected ∧ spec.valid ∧ ((current.spec=spec ∧ next=current) ∨
      (current.spec≠spec ∧ next=⟨current.id,current.scopeId,current.revision+1,spec⟩)) := by
  simp only [decideForwardChange,do_ok,not_not] at h
  obtain ⟨he,hv,h⟩ := h
  refine ⟨he,hv,?_⟩
  split_ifs at h with hs
  · cases h
    exact .inl ⟨hs,rfl⟩
  · simp only [do_ok] at h
    exact .inr ⟨hs,h.2.symm⟩

theorem update_ok
    (h : s.update now actor id expected spec=.ok t) :
    (t=s ∧ ∃row, s.forwards.lookup id=some row ∧ row.spec=spec) ∨ ∃row,
      s.forwards.lookup id=some row ∧ ¬row.deleting ∧ spec.valid ∧ row.revision=expected ∧
      row.spec≠spec ∧ s.moveAllowed row spec ∧ ∃u,
        s.prepareUpdate now actor (row.forward id) ⟨id,row.scopeId,row.revision+1,spec⟩=.ok u ∧
        t=u.accept now ⟨id,row.scopeId,row.revision+1,spec⟩ (updateKind row.spec spec) := by
  unfold update at h
  cases hr : s.forwards.lookup id with
  | none => simp [hr] at h
  | some row =>
    simp only [hr,do_ok,not_not] at h
    obtain ⟨hd,-,next,hnext,hm,-,h⟩ := h
    obtain ⟨he,hv,⟨hs,rfl⟩ | ⟨hs,rfl⟩⟩ := decideForwardChange_ok hnext
    · have hsame : (row.forward id).revision=row.revision := rfl
      rw [if_pos hsame] at h
      cases h
      exact .inl ⟨rfl,row,rfl,hs⟩
    · have hchange : (row.forward id).revision+1≠row.revision := Nat.succ_ne_self _
      rw [if_neg hchange] at h
      simp only [do_ok] at h
      obtain ⟨u,hu,-,rfl⟩ := h
      exact .inr ⟨row,rfl,hd,hv,he,hs,hm,u,hu,rfl⟩

theorem remove_ok
    (h : s.remove now actor id expected=.ok t) : ∃row, s.forwards.lookup id=some row ∧
      ¬row.deleting ∧ row.revision=expected ∧ t=(s.markDeleting id row).accept now
        ⟨id,row.scopeId,row.revision+1,row.spec⟩ .delete := by
  unfold remove at h
  cases hr : s.forwards.lookup id with
  | none => simp [hr] at h
  | some row =>
    simp only [hr,do_ok,not_not] at h
    obtain ⟨hd,-,he,-,-,rfl⟩ := h
    exact ⟨row,rfl,hd,he,rfl⟩

theorem retry_ok (h : s.retry now actor operation expected=.ok t) : ∃op row u, op∈s.operations ∧
      s.forwards.lookup op.forwardId=some row ∧ ¬row.deleting ∧ op.status=.failed ∧
      s.transitionFor now (row.forward op.forwardId) (if row.spec.enabled then some actor else none)=
        .ok u ∧
      t=(u.setAuthorizer op.forwardId actor).accept now (row.forward op.forwardId) .retry := by
  unfold retry at h
  cases ho : s.operations.find? fun o => o.id=operation with
  | none => simp [ho] at h
  | some op =>
    cases hr : s.forwards.lookup op.forwardId with
    | none => simp [ho,hr] at h
    | some row =>
      simp only [ho,hr,do_ok,not_not] at h
      obtain ⟨hd,-,-,hf,-,u,hu,-,rfl⟩ := h
      exact ⟨op,row,u,List.mem_of_find?_eq_some ho,hr,hd,hf,hu,rfl⟩

theorem reauthorize_ok (h : s.reauthorize now id allowed denied=.ok t) :
    ∃row u, s.forwards.lookup id=some row ∧
      ¬row.deleting ∧
      s.transitionFor now (row.forward id)
        ((row.authorizer.filter fun _ => allowed).filter fun _ => row.spec.enabled)=.ok u ∧
      ∃v, v=u.accept now (row.forward id)
        (if (row.authorizer.filter fun _ => allowed).isSome then .policy else .revoke) ∧
      (t=v ∨ ((row.authorizer.filter fun _ => allowed)=none ∧
        t=v.denyIntent s.operations.length)) := by
  unfold reauthorize at h
  cases hr : s.forwards.lookup id with
  | none => simp [hr] at h
  | some row =>
    simp only [hr,do_ok] at h
    obtain ⟨hd,u,hu,rfl⟩ := h
    refine ⟨row,u,rfl,hd,hu,_,rfl,?_⟩
    by_cases hc : (denied && (row.authorizer.filter fun _ => allowed).isNone)=true
    · rw [if_pos hc]
      simp only [Bool.and_eq_true,Option.isNone_iff_eq_none] at hc
      exact .inr ⟨hc.2,rfl⟩
    · rw [if_neg hc]
      exact .inl rfl

theorem accept_operations (kind : Kind) (h : t.operations=s.operations) :
    (t.accept now f kind).operations=(s.accept now f kind).operations := by
  unfold accept latest updateOperations
  rw [h]

theorem commanded_of_insert {before : Table ForwardId ForwardRow} (hf : f.spec.valid)
    (hc : Cause s e f row kind) (hr : Reserving { s with forwards := before } now
      (s.forwards.lookup f.id) f (row.deleting ∨ ¬f.spec.enabled ∨ kind=.revoke) t)
    (hi : u.forwards=s.forwards.insert f.id row) (hu : u={ t with forwards := u.forwards }) :
    Nonempty (Commanded s now e (u.accept now f kind)) := by
  have hops : u.operations=s.operations := by rw [hu,hr.frame]
  refine ⟨⟨f,kind,row,before,t,hf,hc,hr,fun k => ?_,.inl (accept_operations _ hops),?_⟩⟩
  · exact (congrArg (AList.lookup k) hi).trans (Table.lookup_insert_eq _ _ _ _)
  · rw [accept_frame,hu]

theorem create_commanded (h : s.create now actor scope id spec=.ok t) :
    Nonempty (Commanded s now (.create actor scope id spec) t) := by
  obtain ⟨hf,hn,u,hu,rfl⟩ := create_ok h
  obtain ⟨hv,r,hr,rfl⟩ | ⟨hv,hp⟩ := prepareCreate_ok hu
  · exact commanded_of_insert hf (.create hn) (.reserve hn hv hr) (by rw [reserve_frame hr]; rfl) rfl
  · exact commanded_of_insert hf (.create hn) (.plan hv hp) (by rw [acceptPlan_frame hp]; rfl) rfl

theorem update_commanded
    (h : s.update now actor id expected spec=.ok t) :
    (t=s ∧ ∃row, s.forwards.lookup id=some row ∧ row.spec=spec) ∨
      Nonempty (Commanded s now (.update actor id expected spec) t) := by
  obtain hsame | ⟨row,hrow,hd,hf,rfl,hs,hm,u,hu,rfl⟩ := update_ok h
  · exact .inl hsame
  · right
    have hcause := @Cause.update s actor id spec row hrow hd hs hm
    obtain ⟨hv,r,hr,rfl⟩ | ⟨hv,-,hp⟩ | ⟨hv,he,rfl⟩ := prepareUpdate_ok hu
    · exact commanded_of_insert hf hcause (.transition hrow hv hr) (by rw [transition_frame hr]; rfl) rfl
    · exact commanded_of_insert hf hcause (.plan hv hp) (by rw [acceptPlan_frame hp]; rfl) rfl
    · exact commanded_of_insert hf hcause (.keep (.inr (.inl he)) fun hn => absurd hn hv) rfl rfl

theorem remove_commanded (hs : s.ValidSpecs)
    (h : s.remove now actor id expected=.ok t) :
    Nonempty (Commanded s now (.remove actor id expected) t) := by
  obtain ⟨row,hrow,hd,rfl,rfl⟩ := remove_ok h
  exact commanded_of_insert (hs id row hrow) (.remove hrow hd)
    (.keep (.inl rfl) fun _ => by simp [hrow]) rfl rfl

theorem retry_commanded (hs : s.ValidSpecs) (h : s.retry now actor operation expected=.ok t) :
    Nonempty (Commanded s now (.retry actor operation expected) t) := by
  obtain ⟨op,row,u,-,hrow,hd,-,hu,rfl⟩ := retry_ok h
  have hres : Reserving s now (s.forwards.lookup op.forwardId) (row.forward op.forwardId)
      (row.deleting ∨ ¬row.spec.enabled ∨ Kind.retry=.revoke) u := by
    rw [hrow]
    refine transitionFor_ok (fun hn => ?_) hu
    rw [ite_eq_right_iff] at hn
    exact .inr (.inl fun he => by simp [he] at hn)
  have hframe := hres.frame
  refine ⟨⟨row.forward op.forwardId,.retry,{ row with authorizer := some actor },s.forwards,u,
    hs _ row hrow,.retry hrow hd,hres,fun k => ?_,.inl (accept_operations _ (by rw [hframe]; rfl)),rfl⟩⟩
  rw [hframe]
  change (s.forwards.alter _).lookup k=_
  rw [Table.lookup_alter]
  by_cases hk : k=op.forwardId
  · rw [hk,hrow]
    simp [ForwardRow.forward]
  · change Option.map _ _=if k=op.forwardId then _ else _
    rw [if_neg hk]
    simp [hk]

theorem reauthorize_commanded (hs : s.ValidSpecs) (h : s.reauthorize now id allowed denied=.ok t) :
    Nonempty (Commanded s now (.reauthorize id allowed denied) t) := by
  obtain ⟨row,u,hrow,hd,hu,v,rfl,ht⟩ := reauthorize_ok h
  generalize hg : row.authorizer.filter (fun _ => allowed)=granted at hu ht
  generalize hkind : (if granted.isSome then Kind.policy else .revoke)=kind at ht
  have hres : Reserving s now (s.forwards.lookup id) (row.forward id) (row.deleting ∨
      ¬row.spec.enabled ∨ kind=.revoke) u := by
    rw [hrow]
    refine transitionFor_ok (fun hn => ?_) hu
    cases granted with
    | none => exact .inr (.inr hkind.symm)
    | some actor =>
      rw [Option.filter_eq_none_iff] at hn
      exact .inr (.inl (hn actor rfl))
  have hframe := hres.frame
  have hforwards : u.forwards=s.forwards := by rw [hframe]
  have hops : (u.accept now (row.forward id) kind).operations=
      (s.accept now (row.forward id) kind).operations := accept_operations _ (by rw [hframe])
  have hlookup : ∀k, s.forwards.lookup k=if k=id then some row else s.forwards.lookup k := by
    intro k
    split_ifs with hk
    · rw [hk,hrow]
    · rfl
  refine ⟨⟨row.forward id,kind,row,s.forwards,u,hs _ row hrow,.reauthorize kind hrow hd,hres,?_,?_,?_⟩⟩
  · intro k
    obtain rfl | ⟨-,rfl⟩ := ht
    · exact (congrArg (AList.lookup k) hforwards).trans (hlookup k)
    · exact (congrArg (AList.lookup k) hforwards).trans (hlookup k)
  · obtain rfl | ⟨hn,rfl⟩ := ht
    · exact .inl hops
    · refine .inr ⟨?_,?_⟩
      · rw [← hkind,hn]
        rfl
      · unfold denyIntent updateOperations
        rw [hops]
  · obtain rfl | ⟨-,rfl⟩ := ht
    · rfl
    · rfl

end State

end TuneX.Control
