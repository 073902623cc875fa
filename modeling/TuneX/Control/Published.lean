import TuneX.Control.Deployments

namespace TuneX.Control

open Framework

variable {s t u : State} {f : Forward} {now g : Nat} {n : NodeId} {e : Event} {a : Assignment}

/-- Where an assignment of a Node comes from: the slots of a direct intent, or the plan of the
latest deployment of a Forward. -/
inductive Source (s : State) (now : Nat) (n : NodeId) (includeAccepted : Bool) (a : Assignment) : Prop
  | direct {id : ForwardId} {row : ForwardRow} {p : Protocol} (hrow : s.forwards.lookup id=some row)
      (hdel : ¬row.deleting) (hsus : ¬row.recoverySuspended) (hn : row.spec.nodeId=n)
      (hv : row.spec.via=[]) (hpub : s.directPublishable now includeAccepted (row.forward id) row)
      (hp : p∈row.spec.protocols) (ha : s.compileDirectOne (row.forward id) p=.ok a)
  | relay {id : ForwardId} {g : Nat} {d : Deployment} {node : PlanNode}
      (hl : s.latestDeployment id=some (g,d)) (hpub : s.publishablePlan now id d includeAccepted)
      (hnode : d.plan.nodes.find? (fun node => node.nodeId=n)=some node)
      (ha : a∈s.deploymentAssignments now n includeAccepted d node)

variable {b : Bool} {l : List Assignment}

theorem mem_relayAssignments (h : s.relayAssignments now n b=.ok l) (ha : a∈l) :
    ∃id g d node, s.latestDeployment id=some (g,d) ∧ s.publishablePlan now id d b ∧
      d.plan.nodes.find? (fun node => node.nodeId=n)=some node ∧
      a∈s.deploymentAssignments now n b d node := by
  simp only [State.relayAssignments,map_ok] at h
  obtain ⟨ls,hls,rfl⟩ := h
  obtain ⟨m,hm,ham⟩ := List.mem_flatten.mp ha
  obtain ⟨r,hr,hon⟩ := mem_mapM_ok hls hm
  obtain ⟨row,hrow,rfl⟩ := List.mem_map.mp hr
  simp only [List.mem_filter,bool_ok] at hrow
  unfold State.deploymentOn at hon
  split at hon
  · rename_i hpub
    cases hnode : row.2.plan.nodes.find? fun node => node.nodeId=n with
    | none => simp [hnode] at hon
    | some node =>
      simp only [hnode] at hon
      cases hon
      exact ⟨_,_,_,node,hrow.2.2,hpub,hnode,ham⟩
  · cases hon
    simp at ham

theorem relayAssignments_source
    (h : s.relayAssignments now n b=.ok l) (ha : a∈l) : Source s now n b a := by
  obtain ⟨id,g,d,node,hl,hpub,hnode,ha⟩ := mem_relayAssignments h ha
  exact .relay hl hpub hnode ha

theorem directOf_source {r : ForwardId×ForwardRow}
    (hr : r∈s.directForwards n) (h : s.directOf now b r=.ok l) (ha : a∈l) : Source s now n b a := by
  simp only [State.directForwards,List.mem_filter,bool_ok,Bool.not_eq_true',List.isEmpty_iff] at hr
  obtain ⟨hrow,⟨⟨hdel,hsus⟩,hn⟩,hv⟩ := hr
  unfold State.directOf at h
  dsimp only at h
  split at h
  · rename_i hpub
    simp only [State.compileDirect,do_ok] at h
    obtain ⟨p,hp,hap⟩ := mem_mapM_ok h.2 ha
    exact .direct (Table.mem_rows.mp hrow) (by simp [hdel]) (by simp [hsus]) hn hv hpub hp hap
  · cases h
    simp at ha

theorem assignments_source (h : s.assignments now n b=.ok l) (ha : a∈l) : Source s now n b a := by
  simp only [State.assignments,do_ok] at h
  obtain ⟨direct,hd,relay,hr,-,rfl⟩ := h
  cases List.mem_append.mp ha with
  | inl hm =>
    obtain ⟨m,hm,ham⟩ := List.mem_flatten.mp hm
    obtain ⟨r,hrow,hof⟩ := mem_mapM_ok hd hm
    exact directOf_source hrow hof ham
  | inr hm => exact relayAssignments_source hr hm

theorem compileDirectOne_ok {p : Protocol} : s.compileDirectOne f p=.ok a ↔
    (s.slot (f.spec.slotKey p)).owner=some f.id ∧ 1≤(s.slot (f.spec.slotKey p)).fence ∧
      1≤(s.slot (f.spec.slotKey p)).generation ∧
      a=⟨⟨f.spec.nodeId,f.id,p,.direct⟩,f.id,f.revision,(s.slot (f.spec.slotKey p)).generation,
        (s.slot (f.spec.slotKey p)).fence,.direct,p,.active,⟨f.spec.address,f.spec.port,p⟩,
        .direct f.spec.target (s.world.facts f.spec.nodeId).policy,drainTimeoutSeconds⟩ := by
  unfold State.compileDirectOne State.slot
  cases s.slots.lookup (f.spec.slotKey p) with
  | none => simp
  | some row =>
    simp only [Option.getD_some]
    split_ifs with hc
    · simp only [Except.ok.injEq,hc,true_and]
      exact eq_comm
    · simp only [false_iff]
      rintro ⟨h1,h2,h3,-⟩
      exact hc ⟨h1,h2,h3⟩

/-- The phase in which a deployment publishes an assignment on a Node. -/
def phaseActive (d : Deployment) (role : Role) (n : NodeId) : Bool :=
  match d.plan.path with
  | none => State.relayActive d role
  | some path => State.multihopActive d path.length (path.idxOf n)

variable {d : Deployment} {node : PlanNode} {p : Snapshot}

theorem deploymentAssignments_mem (h : a∈s.deploymentAssignments now n b d node) :
    (∃c∈node.assignments, a=State.withPhase (phaseActive d c.role n) c) ∧
      ∀path, d.plan.path=some path→b=true ∨ (s.sessionAuthoritySafe now n node.sessionEpoch ∧
        State.admitted d path.length (path.idxOf n)) := by
  unfold State.deploymentAssignments at h
  unfold phaseActive
  cases hp : d.plan.path with
  | none =>
    simp only [hp] at h
    obtain ⟨c,hc,rfl⟩ := List.mem_map.mp h
    exact ⟨⟨c,hc,rfl⟩,by simp⟩
  | some path =>
    simp only [hp] at h
    split at h
    · rename_i hb
      simp only [Bool.or_eq_true,Bool.and_eq_true] at hb
      obtain ⟨c,hc,rfl⟩ := List.mem_map.mp h
      refine ⟨⟨c,hc,rfl⟩,?_⟩
      intro path' hpath
      cases hpath
      exact hb
    · simp at h

theorem find_node (h : d.plan.nodes.find? (fun node => node.nodeId=n)=some node) :
    node∈d.plan.nodes ∧ node.nodeId=n := by
  have hp := List.find?_some h
  exact ⟨List.mem_of_find?_eq_some h,of_decide_eq_true hp⟩

theorem publishablePlan_row {id : ForwardId} (h : s.publishablePlan now id d b) :
    d.stage≠.withdrawn ∧ ∃row op, s.forwards.lookup id=some row ∧ row.revision=d.targetRevision ∧
      s.authorized now row (row.forward id) d.plan ∧ s.latest id=some op ∧
      op.recoveryInvalidated=false ∧ op.live now b := by
  unfold State.publishablePlan at h
  cases ho : s.latest id with
  | none => simp [ho] at h
  | some op =>
    cases hrow : s.forwards.lookup id with
    | none => simp [ho,hrow] at h
    | some row =>
      simp only [ho,hrow,bool_ok,Bool.not_eq_true'] at h
      obtain ⟨⟨⟨⟨⟨⟨⟨⟨hvalid,-⟩,hlive⟩,-⟩,-⟩,-⟩,hrev⟩,hstage⟩,hauth⟩ := h
      exact ⟨hstage,row,op,rfl,hrev,hauth,rfl,hvalid,hlive⟩

theorem authorized_some {row : ForwardRow} {plan : Plan} (h : s.authorized now row f plan) :
    ∃actor, row.authorizer=some actor ∧ s.canExecuteRelay now actor f ∧
      now+2*maxClockSkewMillis<plan.authorizationUntil ∧ f.spec.via≠[] ∧
      ∃facts, s.facts now actor f=some facts ∧ (plan.path.isNone || !pinsChanged now plan facts) ∧
        plan.nodes.all (nodeUnchanged now plan facts) := by
  unfold State.authorized at h
  cases hactor : row.authorizer with
  | none => simp [hactor] at h
  | some actor =>
    simp only [hactor,bool_ok,Option.any_eq_true] at h
    obtain ⟨⟨⟨⟨hexec,-⟩,huntil⟩,-⟩,facts,hf,hplan⟩ := h
    refine ⟨actor,rfl,hexec,huntil,?_,facts,hf,hplan⟩
    intro hv
    simp [State.facts,hv] at hf

/-- An assignment of the latest plan of its Forward, which is authorized. -/
structure Planned (s : State) (now : Nat) (n : NodeId) (b : Bool) (a : Assignment) (d : Deployment)
    (row : ForwardRow) : Prop where
  latest : s.latestDeployment a.forwardId=some (a.deploymentGeneration,d)
  stored : s.deployments.lookup (a.forwardId,a.deploymentGeneration)=some d
  live : d.stage≠.withdrawn
  phase : a.phase=.active↔phaseActive d a.role n
  name : a.assignmentId=⟨n,a.forwardId,a.protocol,a.role⟩
  role : a.role≠.direct
  forward : s.forwards.lookup a.forwardId=some row
  revision : a.forwardRevision=row.revision
  authorized : s.authorized now row (row.forward a.forwardId) d.plan
  operation : ∃op, s.latest a.forwardId=some op ∧ op.recoveryInvalidated=false ∧ op.live now b

theorem Planned.of {id : ForwardId} (hs : Deployed s) (hl : s.latestDeployment id=some (g,d))
    (hpub : s.publishablePlan now id d b)
    (hnode : d.plan.nodes.find? (fun node => node.nodeId=n)=some node)
    (ha : a∈s.deploymentAssignments now n b d node) : ∃row, Planned s now n b a d row := by
  obtain ⟨⟨c,hc,rfl⟩,-⟩ := deploymentAssignments_mem ha
  obtain ⟨hlive,row,op,hrow,hrev,hauth,hop⟩ := publishablePlan_row hpub
  have hd := (latestDeployment_some hl).1
  obtain ⟨hmem,rfl⟩ := find_node hnode
  obtain ⟨rfl,rfl,hrevision,hname,hrole,-⟩ := (hs.formed id g d hd).assignment node hmem c hc
  refine ⟨row,hl,hd,hlive,?_,hname,hrole,hrow,hrevision.trans hrev.symm,hauth,op,hop⟩
  by_cases hp : phaseActive d c.role node.nodeId
  · simp [State.withPhase,hp]
  · simp [State.withPhase,hp]

theorem relayAssignments_planned (hs : Deployed s) (h : s.relayAssignments now n b=.ok l)
    (ha : a∈l) : ∃d row, Planned s now n b a d row := by
  obtain ⟨id,g,d,node,hl,hpub,hnode,ha⟩ := mem_relayAssignments h ha
  exact ⟨d,Planned.of hs hl hpub hnode ha⟩

/-- A snapshot in the store was there before, or it was issued just now from the sources of its
Node. -/
theorem Acts.published {key : NodeId×Nat} (h : Acts s now e t) (hp : t.snapshots.lookup key=some p) :
    s.snapshots.lookup key=some p ∨ ∃n row next,
      s.nodes.lookup n=some row ∧ key=(n,row.snapshotGeneration+1) ∧
      (∀a∈p.assignments, Source s now n false a) ∧
      ∃i : State.Issued s now n row next t, i.snapshot=p := by
  obtain ⟨hs,-⟩ | ⟨n,row,next,hrow,hnext,⟨i⟩⟩ := h.issued
  · exact .inl (hs ▸ hp)
  · rw [i.snapshots,Table.lookup_insert_some] at hp
    obtain ⟨hk,hp⟩ | ⟨-,hp⟩ := hp
    · refine .inr ⟨n,row,next,hrow,hk,?_,i,hp⟩
      intro a ha
      rw [← hp,i.snapshot_fields.2.2.2.1] at ha
      obtain rfl | hnext := hnext
      · simp at ha
      · exact assignments_source hnext ha
    · exact .inl hp

/-- An assignment names itself by its Node, Forward, protocol and role. -/
def Named (n : NodeId) (a : Assignment) : Prop :=
  a.assignmentId=⟨n,a.forwardId,a.protocol,a.role⟩

theorem Source.named (hs : Deployed s) (h : Source s now n b a) : Named n a := by
  cases h with
  | direct _ _ _ hn _ _ _ ha =>
    obtain ⟨-,-,-,rfl⟩ := compileDirectOne_ok.mp ha
    subst hn
    rfl
  | relay hl hpub hnode ha =>
    obtain ⟨row,k⟩ := Planned.of hs hl hpub hnode ha
    exact k.name

/-- An assignment of a plan that is published belongs to the latest deployment of its Forward. -/
theorem Source.planned (hs : Deployed s) (h : Source s now n b a) (hr : a.role≠.direct) :
    ∃d row, Planned s now n b a d row := by
  cases h with
  | direct _ _ _ _ _ _ _ ha =>
    obtain ⟨-,-,-,rfl⟩ := compileDirectOne_ok.mp ha
    exact absurd rfl hr
  | relay hl hpub hnode ha => exact ⟨_,Planned.of hs hl hpub hnode ha⟩

/-- Snapshots are stored under their own Node and generation, in steps of one generation. -/
structure Catalog (s : State) : Prop where
  deployed : Deployed s
  key : ∀n g p, s.snapshots.lookup (n,g)=some p→p.nodeId=n ∧ p.snapshotGeneration=g ∧ 1≤g ∧
    ∃row, s.nodes.lookup n=some row ∧ g ≤ row.snapshotGeneration ∧ p.sessionEpoch ≤ row.sessionEpoch
  named : ∀k p, s.snapshots.lookup k=some p→∀a∈p.assignments, Named p.nodeId a

theorem Catalog.initial (w : World) : Catalog (State.initial w) := by
  refine ⟨Deployed.initial w,?_,?_⟩
  all_goals simp [State.initial]

theorem Catalog.acts {e : Nat×Event} (hs : Catalog s) (h : Acts s e.1 e.2 t) : Catalog t := by
  refine ⟨hs.deployed.acts h,?_,?_⟩
  · intro n g p hp
    obtain hp | ⟨m,row,next,hrow,hk,-,i,rfl⟩ := h.published hp
    · obtain ⟨hn,hg,hpos,row,hrow,hle,hep⟩ := hs.key n g p hp
      obtain ⟨row',hrow',hepoch,hgen⟩ := h.nodes_mono hrow
      exact ⟨hn,hg,hpos,row',hrow',hle.trans hgen,hep.trans hepoch⟩
    · cases hk
      obtain ⟨hn,he,hg,-⟩ := i.snapshot_fields
      refine ⟨hn,hg,Nat.succ_pos _,{ row with snapshotGeneration := row.snapshotGeneration+1 },?_,
        le_rfl,he.le⟩
      rw [i.nodes]
      exact AList.lookup_insert _
  · intro k p hp a ha
    obtain hp | ⟨m,row,next,hrow,hk,hsource,i,rfl⟩ := h.published hp
    · exact hs.named k p hp a ha
    · rw [i.snapshot_fields.1]
      exact (hsource a ha).named hs.deployed

theorem Catalog.clock (hs : Catalog s) (now : Nat) : Catalog { s with clock := now } :=
  ⟨hs.deployed.clock now,hs.key,hs.named⟩

theorem Catalog.step {e : Nat×Event} (hs : Catalog s) (h : Step s e t) : Catalog t :=
  (hs.clock e.1).acts (step_acts hs.deployed.specs h)

theorem Catalog.fresh {row : RuntimeNode} (hs : Catalog s) (hrow : s.nodes.lookup n=some row)
    (hp : s.snapshots.lookup (n,g)=some p) : g < row.snapshotGeneration+1 := by
  obtain ⟨-,-,-,row',hrow',hle,-⟩ := hs.key n g p hp
  rw [hrow] at hrow'
  cases hrow'
  omega

end TuneX.Control
