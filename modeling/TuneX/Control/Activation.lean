import TuneX.Control.Withdrawal

namespace TuneX.Control

open Framework

variable {s t u : State} {now g : Nat} {n : NodeId} {d : Deployment} {obs obs' : PlanNode→Phase→Prop}

/-- The Nodes of the path from an index on have been seen in a phase. -/
def SeenFrom (obs : PlanNode→Phase→Prop) (d : Deployment) (phase : Phase) (i : Nat) : Prop :=
  ∀j node, i≤j→d.plan.nodes[j]?=some node → obs node phase

def MultihopProgress (obs : PlanNode→Phase→Prop) (d : Deployment) : Prop :=
  match d.stage with
  | .preparing => d.activatedCount=0 ∧ d.preparedCount<d.plan.nodes.length ∧
      SeenFrom obs d .prepared (d.plan.nodes.length-d.preparedCount)
  | .egressActive => d.preparedCount=d.plan.nodes.length ∧ 1≤d.activatedCount ∧
      d.activatedCount≤d.plan.nodes.length ∧ SeenFrom obs d .prepared 0 ∧
      SeenFrom obs d .active (d.plan.nodes.length+1-d.activatedCount)
  | .ingressActive => False
  | .active => SeenFrom obs d .prepared 0 ∧ SeenFrom obs d .active 0
  | .withdrawn => True

def RelayProgress (obs : PlanNode→Phase→Prop) (d : Deployment) : Prop :=
  match d.stage with
  | .ingressActive => SeenFrom obs d .active 1
  | .active => SeenFrom obs d .active 1
  | _ => True

def Progress (obs : PlanNode→Phase→Prop) (d : Deployment) : Prop :=
  if d.plan.path.isSome then MultihopProgress obs d else RelayProgress obs d

variable {i j revision : Nat} {id : ForwardId} {actor : ActorId} {f : Forward} {b : Bool}

theorem SeenFrom.mono {phase : Phase} (h : SeenFrom obs d phase i) (hij : i≤j) :
    SeenFrom obs d phase j :=
  fun k node hk hn => h k node (hij.trans hk) hn

theorem SeenFrom.imp {phase : Phase} (h : SeenFrom obs d phase i)
    (hobs : ∀node phase, obs node phase → obs' node phase) : SeenFrom obs' d phase i :=
  fun k node hk hn => hobs node phase (h k node hk hn)

theorem Progress.mono (h : Progress obs d) (hobs : ∀node phase, obs node phase → obs' node phase) :
    Progress obs' d := by
  unfold Progress at h ⊢
  split_ifs at h ⊢
  · unfold MultihopProgress at h ⊢
    cases hs : d.stage with
    | preparing =>
      rw [hs] at h
      exact ⟨h.1,h.2.1,h.2.2.imp hobs⟩
    | egressActive =>
      rw [hs] at h
      obtain ⟨h1,h2,h3,h4,h5⟩ := h
      exact ⟨h1,h2,h3,h4.imp hobs,h5.imp hobs⟩
    | ingressActive =>
      rw [hs] at h
      exact h
    | active =>
      rw [hs] at h
      exact ⟨h.1.imp hobs,h.2.imp hobs⟩
    | withdrawn => trivial
  · unfold RelayProgress at h ⊢
    cases hs : d.stage with
    | ingressActive | active =>
      rw [hs] at h
      exact h.imp hobs
    | _ => trivial

theorem Progress.withdrawn : Progress obs { d with stage := .withdrawn } := by
  unfold Progress
  split_ifs
  · trivial
  · trivial

section
variable (hseen : ∀node∈d.plan.nodes, ∀phase, s.observed now node phase → obs node phase)
include hseen

theorem SeenFrom.of_drop {phase : Phase}
    (h : (d.plan.nodes.drop i).all fun node => s.observed now node phase) :
    SeenFrom obs d phase i := by
  intro j node hij hj
  have hmem : node∈d.plan.nodes.drop i := by
    refine List.mem_of_getElem? (i := j-i) ?_
    rw [List.getElem?_drop,Nat.add_sub_cancel' hij]
    exact hj
  exact hseen node (List.mem_of_getElem? hj) phase (List.all_eq_true.mp h node hmem)

theorem SeenFrom.of_zipIdx
    (h : d.plan.nodes.zipIdx.all fun h => s.observed now h.1 (if i≤h.2 then .active else .prepared)) :
    SeenFrom obs d .active i := by
  intro j node hij hj
  have hnode := List.all_eq_true.mp h (node,j) (List.mem_zipIdx_iff_getElem?.mpr hj)
  rw [if_pos hij] at hnode
  exact hseen node (List.mem_of_getElem? hj) .active hnode

theorem nextMultihop_progress (h : MultihopProgress obs d) :
    MultihopProgress obs (s.nextMultihop now d) := by
  unfold State.nextMultihop
  cases hs : d.stage with
  | preparing =>
    simp only [MultihopProgress,hs] at h
    obtain ⟨h0,hlt,hprep⟩ := h
    dsimp only
    split
    · rename_i hall
      have hsee := SeenFrom.of_drop hseen hall
      by_cases heq : d.preparedCount+1=d.plan.nodes.length
      · -- The ingress was the last Node to prepare: the egress may now become active.
        simp only [MultihopProgress,heq,if_true]
        refine ⟨trivial,le_rfl,by omega,hsee.mono (by omega),?_⟩
        intro j node hj hn
        have := (List.getElem?_eq_some_iff.mp hn).1
        change j<d.plan.nodes.length at this
        omega
      · simp only [MultihopProgress,heq,if_false]
        exact ⟨trivial,by omega,hsee.mono (by omega)⟩
    · simp only [MultihopProgress,hs]
      exact ⟨h0,hlt,hprep⟩
  | egressActive =>
    simp only [MultihopProgress,hs] at h
    obtain ⟨h1,h2,h3,h4,h5⟩ := h
    dsimp only
    split
    · rename_i hall
      have hsee := SeenFrom.of_zipIdx hseen hall
      split
      · rename_i hlt
        simp only [MultihopProgress]
        exact ⟨h1,by omega,by omega,h4,hsee.mono (by omega)⟩
      · simp only [MultihopProgress]
        exact ⟨h4,hsee.mono (by omega)⟩
    · simp only [MultihopProgress,hs]
      exact ⟨h1,h2,h3,h4,h5⟩
  | ingressActive =>
    simp only [MultihopProgress,hs] at h
  | active =>
    simp only [MultihopProgress,hs] at h ⊢
    exact h
  | withdrawn => simp only [MultihopProgress,hs]

omit hseen in
theorem seen_mem (h : ((d.plan.nodes.find? fun node => node.nodeId=n).any fun node =>
      s.observed now node .active)=true) :
    ∃node∈d.plan.nodes, node.nodeId=n ∧ s.observed now node .active := by
  cases hn : d.plan.nodes.find? fun node => node.nodeId=n with
  | none => simp [hn] at h
  | some node =>
    simp only [hn,Option.any_some] at h
    exact ⟨node,(find_node hn).1,(find_node hn).2,h⟩

theorem nextRelay_progress (h : RelayProgress obs d)
    (hegress : ∀j node, 1≤j→d.plan.nodes[j]?=some node→node.nodeId=d.egressNodeId)
    (hnodup : (d.plan.nodes.map (·.nodeId)).Nodup) :
    RelayProgress obs { d with stage := s.nextRelayStage now d } := by
  have hactive : ((d.plan.nodes.find? fun node => node.nodeId=d.egressNodeId).any fun node =>
      s.observed now node .active)=true→SeenFrom obs d .active 1 := by
    intro hany j node hj hn
    obtain ⟨node',hmem',hid',hseen'⟩ := seen_mem hany
    have hmem := List.mem_of_getElem? hn
    have heq : node=node' :=
      List.inj_on_of_nodup_map hnodup hmem hmem' ((hegress j node hj hn).trans hid'.symm)
    exact heq ▸ hseen node' hmem' .active hseen'
  unfold State.nextRelayStage
  cases hs : d.stage with
  | preparing =>
    dsimp only
    split
    · trivial
    · trivial
  | egressActive =>
    dsimp only
    split
    · rename_i hc
      simp only [Bool.and_eq_true] at hc
      exact hactive hc.1
    · trivial
  | ingressActive =>
    simp only [RelayProgress,hs] at h
    dsimp only
    split
    · exact h
    · exact h
  | active =>
    simp only [RelayProgress,hs] at h
    exact h
  | withdrawn => trivial

theorem nextDeployment_progress (h : Progress obs d)
    (hegress : d.plan.path=none→∀j node, 1≤j→d.plan.nodes[j]?=some node→node.nodeId=d.egressNodeId)
    (hnodup : (d.plan.nodes.map (·.nodeId)).Nodup) : Progress obs (s.nextDeployment now d) := by
  have hplan := (nextDeployment_kept s now d).1
  unfold Progress at h ⊢
  rw [hplan]
  unfold State.nextDeployment
  by_cases hp : d.plan.path.isSome
  · rw [if_pos hp] at h
    simp only [hp,if_true]
    exact nextMultihop_progress hseen h
  · rw [if_neg hp] at h
    simp only [hp,Bool.false_eq_true,if_false]
    exact nextRelay_progress hseen h (hegress (Option.not_isSome_iff_eq_none.mp hp)) hnodup

end

/-- At an advance of this generation, the Node was seen in a phase: it reported every assignment of
its plan in that phase, from its current snapshot, in the session that the plan pins. -/
def Observed (w : World) (l : List (Nat×Event)) (id : ForwardId) (g : Nat) (node : PlanNode)
    (phase : Phase) : Prop :=
  ∃l₁ l₂ now s d, l=l₁++(now,.advance id)::l₂ ∧ Run Step (State.initial w) l₁ s ∧
    s.latestDeployment id=some (g,d) ∧ node∈d.plan.nodes ∧ s.observed now node phase

variable {l : List (Nat×Event)} {node : PlanNode} {w : World}

theorem Observed.snoc {phase : Phase} (h : Observed w l id g node phase) (e : Nat×Event) :
    Observed w (l++[e]) id g node phase := by
  obtain ⟨l₁,l₂,now,s,d,rfl,hs,hd,hn,ho⟩ := h
  exact ⟨l₁,l₂++[e],now,s,d,by simp,hs,hd,hn,ho⟩

/-- Every deployment has come only as far as its observations allow. -/
structure Activated (w : World) (l : List (Nat×Event)) (s : State) : Prop where
  deployed : Deployed s
  egress : ∀id g d, s.deployments.lookup (id,g)=some d→d.plan.path=none→∀j node, 1≤j→
    d.plan.nodes[j]?=some node→node.nodeId=d.egressNodeId
  progress : ∀id g d, s.deployments.lookup (id,g)=some d→Progress (Observed w l id g) d

theorem newDeployment_progress (a : s.Accepted now actor f t) (hv : f.spec.valid) :
    Progress obs (State.newDeployment f a.plan) := by
  have hformed := a.formed hv
  unfold Progress
  split_ifs with hp
  · obtain ⟨l,hl⟩ := Option.isSome_iff_exists.mp hp
    obtain ⟨hids,hlen,-⟩ := hformed.path l hl
    have hpos : l.length=a.plan.nodes.length := by rw [hids,List.length_map]
    refine ⟨rfl,?_,?_⟩
    · change 0<a.plan.nodes.length
      omega
    · intro j node hj hn
      have hlt : j<a.plan.nodes.length := (List.getElem?_eq_some_iff.mp hn).1
      change a.plan.nodes.length-0≤j at hj
      omega
  · trivial

theorem newDeployment_egress (a : s.Accepted now actor f t) (hv : f.spec.valid)
    (hp : a.plan.path=none) (hj : 1≤j) (hn : a.plan.nodes[j]?=some node) :
    node.nodeId=(State.newDeployment f a.plan).egressNodeId := by
  have hlen := (a.formed hv).pair hp
  have hids := compilePlan_ids a.plan_eq
  have hlt : j<a.plan.nodes.length := (List.getElem?_eq_some_iff.mp hn).1
  have hone : j=1 := by omega
  subst hone
  have hpath : f.spec.path.length=2 := by rw [← hids,List.length_map,hlen]
  obtain ⟨x,y,hxy⟩ := List.length_eq_two.mp hpath
  have hmap : (a.plan.nodes.map (·.nodeId))[1]?=some node.nodeId := by
    rw [List.getElem?_map,hn]
    rfl
  rw [hids,hxy] at hmap
  change node.nodeId=f.spec.path.getLastD 0
  rw [hxy]
  simpa using hmap.symm

theorem Activated.initial (w : World) : Activated w [] (State.initial w) := by
  refine ⟨Deployed.initial w,?_,?_⟩
  all_goals simp [State.initial]

variable {e : Nat×Event}

theorem Activated.step
    (hrun : Run Step (State.initial w) l s) (hs : Activated w l s) (h : Step s e t) :
    Activated w (l++[e]) t := by
  have hr := step_redeploy hs.deployed.specs h
  have hmono : ∀id g node phase, Observed w l id g node phase→Observed w (l++[e]) id g node phase :=
    fun id g node phase ho => ho.snoc e
  refine ⟨hs.deployed.step h,?_,?_⟩
  · intro id g d hd hp
    cases hr.origin hd with
    | kept hd₀ hplan _ _ he =>
      rw [hplan] at hp ⊢
      rw [he]
      exact hs.egress id g _ hd₀ hp
    | planned _ _ a hv _ _ _ hnew =>
      subst hnew
      intro j node hj hn
      exact newDeployment_egress a hv hp hj hn
  · intro id g d hd
    cases hr with
    | stops hstop =>
      obtain hk | ⟨d₀,hd₀,hk⟩ := hstop (id,g)
      · exact (hs.progress id g d (hk ▸ hd)).mono (hmono id g)
      · rw [hk] at hd
        cases hd
        exact .withdrawn
    | @moves id' g' d' he hl ht =>
      rw [ht,Table.lookup_insert_some] at hd
      obtain ⟨hk,rfl⟩ | ⟨-,hd⟩ := hd
      · cases hk
        have hd' := (latestDeployment_some hl).1
        refine nextDeployment_progress ?_ ((hs.progress _ _ _ hd').mono (hmono _ _))
          (hs.egress _ _ _ hd') (hs.deployed.formed _ _ _ hd').nodes_nodup
        intro node hnode phase hobs
        refine ⟨l,[],e.1,s,d',?_,hrun,hl,hnode,hobs⟩
        rw [← he]
      · exact (hs.progress id g d hd).mono (hmono id g)
    | plans hsl hdep a hv ht hts =>
      rw [ht,a.deployments,Table.lookup_insert_some] at hd
      obtain ⟨-,rfl⟩ | ⟨-,hd⟩ := hd
      · exact newDeployment_progress a hv
      · exact (hs.progress id g d (hdep ▸ hd)).mono (hmono id g)

theorem run_activated (h : Run Step (State.initial w) l s) : Activated w l s :=
  h.history (Activated w) (fun _ _ _ _ hrun hstep ha => ha.step hrun hstep) (Activated.initial w)

theorem find_index {l : List PlanNode}
    (h : l.find? (fun node => node.nodeId=n)=some node) :
    l[(l.map (·.nodeId)).idxOf n]?=some node := by
  induction l with
  | nil => simp at h
  | cons x l ih =>
    by_cases hx : x.nodeId=n
    · simp only [List.find?_cons,hx,decide_true,Option.some.injEq] at h
      rw [List.map_cons,hx,List.idxOf_cons_self,h]
      rfl
    · simp only [List.find?_cons,hx,decide_false] at h
      simp [List.idxOf_cons_ne _ hx,ih h]

theorem Progress.downstream {c : Assignment} (h : Progress obs d) (hf : d.plan.Formed id g revision)
    (hw : d.stage≠.withdrawn) (hi : d.plan.nodes[i]?=some node) (hid : node.nodeId=n)
    (hc : c∈node.assignments)
    (ha : ∀path, d.plan.path=some path→State.admitted d path.length (path.idxOf n)) :
    (multihopRole c.role→SeenFrom obs d .prepared (i+1)) ∧
      (phaseActive d c.role n→SeenFrom obs d .active (i+1)) := by
  have hmem := List.mem_of_getElem? hi
  have hrole := (hf.assignment node hmem c hc).2.2.2.2.2
  have hlt : i<d.plan.nodes.length := (List.getElem?_eq_some_iff.mp hi).1
  unfold Progress at h
  cases hp : d.plan.path with
  | none =>
    simp only [hp,Option.isSome_none,Bool.false_eq_true,if_false] at h
    refine ⟨?_,?_⟩
    · intro hm
      rw [← hrole,hp] at hm
      simp at hm
    · intro hactive
      simp only [phaseActive,hp,State.relayActive,Bool.or_eq_true,bool_ok] at hactive
      obtain (hs | hs) | ⟨hs,he⟩ := hactive
      · simp only [RelayProgress,hs] at h
        exact h.mono (by omega)
      · simp only [RelayProgress,hs] at h
        exact h.mono (by omega)
      · -- Only the egress is active in this stage, and nothing is downstream of it.
        have hone : i≠0 := by
          intro hzero
          subst hzero
          rw [hf.ingress hp node hi c hc] at he
          cases he
        have htwo := hf.pair hp
        intro j node' hj hn
        have := (List.getElem?_eq_some_iff.mp hn).1
        omega
  | some path =>
    obtain ⟨hids,-⟩ := hf.path path hp
    have hlen : path.length=d.plan.nodes.length := by rw [hids,List.length_map]
    have hindex : path.idxOf n=i := by
      have hin : i<path.length := hlen ▸ hlt
      have hget : path[i]=n := by
        have : (d.plan.nodes.map (·.nodeId))[i]?=some n := by
          rw [List.getElem?_map,hi]
          exact congrArg some hid
        rw [← hids] at this
        exact (List.getElem?_eq_some_iff.mp this).2
      rw [← hget]
      exact List.Nodup.idxOf_getElem (hids ▸ hf.nodes_nodup) i hin
    have hentry := ha path hp
    simp only [hp,Option.isSome_some,if_true] at h
    simp only [phaseActive,hp,State.multihopActive,Bool.or_eq_true,bool_ok,hlen,hindex]
    simp only [State.admitted,Bool.or_eq_true,decide_eq_true_eq,hlen,hindex] at hentry
    cases hs : d.stage with
    | preparing =>
      simp only [MultihopProgress,hs] at h
      refine ⟨fun _ => h.2.2.mono ?_,?_⟩
      · have := hentry.resolve_left (by simp [hs])
        omega
      · simp
    | egressActive =>
      simp only [MultihopProgress,hs] at h
      obtain ⟨-,h2,h3,h4,h5⟩ := h
      refine ⟨fun _ => h4.mono (by omega),?_⟩
      rintro (hn | ⟨-,hn⟩)
      · cases hn
      · exact h5.mono (by omega)
    | ingressActive => simp only [MultihopProgress,hs] at h
    | active =>
      simp only [MultihopProgress,hs] at h
      exact ⟨fun _ => h.1.mono (by omega),
        fun _ => h.2.mono (by omega)⟩
    | withdrawn => exact absurd hs hw

/-- What was seen before an assignment is published on a Node. -/
structure InOrder (w : World) (l : List (Nat×Event)) (s : State) (n : NodeId) (a : Assignment)
    (d : Deployment) (i : Nat) : Prop where
  latest : s.latestDeployment a.forwardId=some (a.deploymentGeneration,d)
  live : d.stage≠.withdrawn
  node : ∃node, d.plan.nodes[i]?=some node ∧ node.nodeId=n
  prepared : multihopRole a.role→
    SeenFrom (Observed w l a.forwardId a.deploymentGeneration) d .prepared (i+1)
  active : a.phase=.active→
    SeenFrom (Observed w l a.forwardId a.deploymentGeneration) d .active (i+1)

variable {a : Assignment}

theorem Source.inOrder (hs : Activated w l s)
    (h : Source s now n false a) (hr : a.role≠.direct) : ∃d i, InOrder w l s n a d i := by
  cases h with
  | direct _ _ _ _ _ _ _ ha =>
    obtain ⟨-,-,-,rfl⟩ := compileDirectOne_ok.mp ha
    exact absurd rfl hr
  | @relay id g d node hl hpub hnode ha =>
    obtain ⟨row,k⟩ := Planned.of hs.deployed hl hpub hnode ha
    obtain ⟨⟨c,hc,rfl⟩,hentry⟩ := deploymentAssignments_mem ha
    have hd := (latestDeployment_some hl).1
    have hformed := hs.deployed.formed id g d hd
    obtain ⟨hmem,hid⟩ := find_node hnode
    obtain ⟨rfl,rfl,-⟩ := hformed.assignment node hmem c hc
    have hi := find_index hnode
    have hopen : ∀path, d.plan.path=some path→State.admitted d path.length (path.idxOf n) := by
      intro path hp
      exact ((hentry path hp).resolve_left (by simp)).2
    obtain ⟨hprep,hact⟩ := (hs.progress _ _ d hd).downstream hformed k.live hi hid hc hopen
    exact ⟨d,_,k.latest,k.live,⟨node,hi,hid⟩,hprep,fun hphase => hact (k.phase.mp hphase)⟩

theorem phaseActive_next {role : Role} (h : phaseActive d role n) :
    phaseActive (s.nextDeployment now d) role n := by
  have hplan := (nextDeployment_kept s now d).1
  unfold phaseActive at h ⊢
  rw [hplan]
  cases hp : d.plan.path with
  | none =>
    simp only [hp] at h ⊢
    unfold State.nextDeployment
    rw [hp]
    unfold State.relayActive at h ⊢
    simp only [Option.isSome_none,Bool.false_eq_true,if_false,State.nextRelayStage]
    cases hs : d.stage with
    | preparing | withdrawn => simp [hs] at h
    | egressActive =>
      simp only [hs] at h
      dsimp only
      split
      · rfl
      · exact h
    | ingressActive =>
      dsimp only
      split
      · rfl
      · rfl
    | active => rfl
  | some path =>
    simp only [hp] at h ⊢
    unfold State.nextDeployment
    rw [hp]
    unfold State.multihopActive at h ⊢
    simp only [Option.isSome_some,if_true,State.nextMultihop]
    cases hs : d.stage with
    | preparing => simp [hs] at h
    | egressActive =>
      simp only [hs,Bool.or_eq_true,bool_ok] at h
      have hle := (h.resolve_left (by simp)).2
      dsimp only
      split
      · split
        · simp only [Bool.or_eq_true,bool_ok]
          exact .inr ⟨by simp,by omega⟩
        · rfl
      · simp only [hs,Bool.or_eq_true,bool_ok]
        exact .inr ⟨by simp,hle⟩
    | ingressActive | withdrawn => simpa [hs] using h
    | active => simp [hs]

/-- A deployment has stopped, or still publishes an assignment of a Node as active. -/
def StaysActive (s : State) (n : NodeId) (a : Assignment) : Prop :=
  ∃d, s.deployments.lookup (a.forwardId,a.deploymentGeneration)=some d ∧
    (d.stage=.withdrawn ∨ phaseActive d a.role n)

/-- What has been published as active stays active for its generation. -/
structure Phased (s : State) : Prop where
  catalog : Catalog s
  level : ∀k p, s.snapshots.lookup k=some p→∀a∈p.assignments, a.role≠.direct→a.phase=.active→
    StaysActive s p.nodeId a
  direct : ∀k p, s.snapshots.lookup k=some p→∀a∈p.assignments, a.role=.direct→a.phase=.active
  ordered : ∀n g p g' p', s.snapshots.lookup (n,g)=some p→s.snapshots.lookup (n,g')=some p' → g≤g'→
    ∀a∈p.assignments, ∀a'∈p'.assignments, a'.assignmentId=a.assignmentId→
      a'.deploymentGeneration=a.deploymentGeneration→a.phase=.active→a'.phase=.active

theorem Redeploy.staysActive (h : Redeploy s e t)
    (ha : StaysActive s n a) : StaysActive t n a := by
  obtain ⟨d,hd,hor⟩ := ha
  cases h with
  | stops hstop =>
    obtain hk | ⟨d₀,hd₀,hk⟩ := hstop (a.forwardId,a.deploymentGeneration)
    · exact ⟨d,hk.trans hd,hor⟩
    · exact ⟨_,hk,.inl rfl⟩
  | @moves id g d' _ hl ht =>
    by_cases hk : (a.forwardId,a.deploymentGeneration)=(id,g)
    · rw [hk,(latestDeployment_some hl).1] at hd
      cases hd
      refine ⟨s.nextDeployment e.1 d,?_,?_⟩
      · rw [ht,hk]
        exact AList.lookup_insert _
      · obtain hw | hactive := hor
        · left
          rw [nextDeployment_withdrawn s e.1 hw]
          exact hw
        · exact .inr (phaseActive_next hactive)
    · refine ⟨d,?_,hor⟩
      rw [ht,AList.lookup_insert_ne hk]
      exact hd
  | @plans b v actor f hs hdep acc hv ht hts =>
    have hne : (a.forwardId,a.deploymentGeneration)≠(f.id,acc.generation) := by
      intro hk
      rw [hk] at hd
      exact (lt_irrefl _) (acc.generation_fresh (hdep ▸ hd))
    refine ⟨d,?_,hor⟩
    rw [ht,acc.deployments,hdep,AList.lookup_insert_ne hne]
    exact hd

theorem Source.direct_active (hs : Deployed s) (h : Source s now n b a) (hr : a.role=.direct) :
    a.phase=.active := by
  cases h with
  | direct _ _ _ _ _ _ _ ha =>
    obtain ⟨-,-,-,rfl⟩ := compileDirectOne_ok.mp ha
    rfl
  | relay hl hpub hnode ha =>
    obtain ⟨row,k⟩ := Planned.of hs hl hpub hnode ha
    exact absurd hr k.role

theorem Source.stays {a' : Assignment} (hs : Deployed s) (h : Source s now n b a') (hna : Named n a)
    (hstay : a.role≠.direct→a.phase=.active→StaysActive s n a)
    (hname : a'.assignmentId=a.assignmentId) (hgen : a'.deploymentGeneration=a.deploymentGeneration)
    (hactive : a.phase=.active) : a'.phase=.active := by
  have hna' := h.named hs
  unfold Named at hna hna'
  rw [hna,hna'] at hname
  have hrole : a'.role=a.role := congrArg AssignmentId.role hname
  have hforward : a'.forwardId=a.forwardId := congrArg AssignmentId.forward hname
  by_cases hr : a'.role=.direct
  · exact h.direct_active hs hr
  · obtain ⟨d,row,k⟩ := h.planned hs hr
    obtain ⟨d',hd',hor⟩ := hstay (hrole ▸ hr) hactive
    have hd := k.stored
    rw [hforward,hgen,hd'] at hd
    cases hd
    rw [k.phase,hrole]
    exact hor.resolve_left k.live

theorem Phased.initial (w : World) : Phased (State.initial w) := by
  refine ⟨Catalog.initial w,?_,?_,?_⟩
  all_goals simp [State.initial]

theorem Phased.acts (hs : Phased s) (h : Acts s e.1 e.2 t) : Phased t := by
  have hd := hs.catalog.deployed
  have hr := h.redeploy hd.specs
  refine ⟨hs.catalog.acts h,?_,?_,?_⟩
  · intro k p hp a ha hrole hactive
    apply hr.staysActive
    obtain hp | ⟨m,row,next,-,-,hsource,i,rfl⟩ := h.published hp
    · exact hs.level k p hp a ha hrole hactive
    · obtain ⟨d,row',k⟩ := (hsource a ha).planned hd hrole
      rw [i.snapshot_fields.1]
      exact ⟨d,k.stored,.inr (k.phase.mp hactive)⟩
  · intro k p hp a ha hrole
    obtain hp | ⟨m,row,next,-,-,hsource,i,rfl⟩ := h.published hp
    · exact hs.direct k p hp a ha hrole
    · exact (hsource a ha).direct_active hd hrole
  · intro n g p g' p' hp hp' hle a ha a' ha' hname hgen hactive
    obtain hold' | ⟨m,row,next,hrow,hk,hsource,i,rfl⟩ := h.published hp'
    · obtain hold | ⟨m,row,next,hrow,hk,hsource,i,rfl⟩ := h.published hp
      · exact hs.ordered n g p g' p' hold hold' hle a ha a' ha' hname hgen hactive
      · -- The new snapshot cannot be the earlier of the two.
        cases hk
        have := hs.catalog.fresh hrow hold'
        omega
    · cases hk
      have hnode : i.snapshot.nodeId=n := i.snapshot_fields.1
      obtain hold | ⟨m,row₀,next₀,hrow₀,hk₀,hsource₀,i₀,rfl⟩ := h.published hp
      · obtain ⟨hn,-⟩ := hs.catalog.key n g p hold
        refine (hsource a' ha').stays hd ?_ ?_ hname hgen hactive
        · exact hn ▸ hs.catalog.named _ p hold a ha
        · intro hrole hact
          exact hn ▸ hs.level _ p hold a ha hrole hact
      · cases hk₀
        refine (hsource a' ha').stays hd ((hsource₀ a ha).named hd) ?_ hname hgen hactive
        intro hrole hact
        obtain ⟨d,row',k⟩ := (hsource₀ a ha).planned hd hrole
        exact ⟨d,k.stored,.inr (k.phase.mp hact)⟩

theorem Phased.step (hs : Phased s) (h : Step s e t) : Phased t :=
  Phased.acts (s := { s with clock := e.1 })
    ⟨hs.catalog.clock e.1,hs.level,hs.direct,hs.ordered⟩ (step_acts hs.catalog.deployed.specs h)

theorem run_phased (h : Run Step (State.initial w) l s) : Phased s :=
  h.invariant Phased (fun _ _ _ hab ha => ha.step hab) (Phased.initial w)

theorem Progress.counters {path : List NodeId} (h : Progress obs d)
    (hf : d.plan.Formed id g revision) (hp : d.plan.path=some path) :
    3≤path.length ∧ path.length ≤ maxPlannedPathNodes ∧
      (d.stage=.preparing→d.activatedCount=0 ∧ d.preparedCount<path.length) ∧
      (d.stage=.egressActive→d.preparedCount=path.length ∧ 1≤d.activatedCount ∧
        d.activatedCount≤path.length) := by
  obtain ⟨hids,h3,h8⟩ := hf.path path hp
  have hlen : path.length=d.plan.nodes.length := by rw [hids,List.length_map]
  unfold Progress at h
  simp only [hp,Option.isSome_some,if_true] at h
  refine ⟨h3,h8,?_,?_⟩
  · intro hs
    simp only [MultihopProgress,hs] at h
    exact ⟨h.1,hlen ▸ h.2.1⟩
  · intro hs
    simp only [MultihopProgress,hs] at h
    exact ⟨hlen ▸ h.1,h.2.1,hlen ▸ h.2.2.1⟩

/-- Activation goes downstream first. In every step of every run: an assignment of a path that a
new snapshot carries was preceded by observations of all Nodes downstream of it, prepared if it is
multi-hop and active if it is published as active; the stored counters fit the stage; and an
assignment that was published as active in a generation is active in every later snapshot. -/
theorem activation_downstream_first {w : World} {l : List (Nat×Event)} {e : Nat×Event}
    {s t : State} (hs : Run Step (State.initial w) l s) (ht : Step s e t) :
    (∀k p, t.snapshots.lookup k=some p→s.snapshots.lookup k≠some p→∀a∈p.assignments,
      a.role≠.direct→∃d i, InOrder w l s p.nodeId a d i) ∧
    (∀id g d path, t.deployments.lookup (id,g)=some d→d.plan.path=some path→
      3≤path.length ∧ path.length ≤ maxPlannedPathNodes ∧
      (d.stage=.preparing→d.activatedCount=0 ∧ d.preparedCount<path.length) ∧
      (d.stage=.egressActive→d.preparedCount=path.length ∧ 1≤d.activatedCount ∧
        d.activatedCount≤path.length)) ∧
    ∀n g p g' p', t.snapshots.lookup (n,g)=some p→t.snapshots.lookup (n,g')=some p' → g≤g'→
      ∀a∈p.assignments, ∀a'∈p'.assignments, a'.assignmentId=a.assignmentId→
        a'.deploymentGeneration=a.deploymentGeneration→a.phase=.active→a'.phase=.active := by
  have hact := run_activated hs
  have hact' := run_activated (hs.snoc ht)
  refine ⟨?_,?_,(run_phased (hs.snoc ht)).ordered⟩
  · intro k p hp hnew a ha hrole
    obtain hp | ⟨m,row,next,-,-,hsource,i,rfl⟩ := (step_acts hact.deployed.specs ht).published hp
    · exact absurd hp hnew
    · rw [i.snapshot_fields.1]
      obtain ⟨d,j,ho⟩ := Source.inOrder (s := { s with clock := e.1 }) (w := w) (l := l)
        ⟨hact.deployed.clock e.1,hact.egress,hact.progress⟩ (hsource a ha) hrole
      exact ⟨d,j,ho.latest,ho.live,ho.node,ho.prepared,ho.active⟩
  · intro id g d path hd hp
    exact (hact'.progress id g d hd).counters (hact'.deployed.formed id g d hd) hp

def multihopSpec : Spec := ⟨true,[.tcp],0,0,100,⟨9,80⟩,[1,2],some ⟨1,1⟩⟩

def egressPrepared : Report where
  nodeId := 2
  bootId := 1
  sessionEpoch := 1
  reportSequence := 1
  observedAt := 0
  acceptedSnapshotGeneration := 1
  observations := [⟨⟨2,1,.tcp,.multihopEgress⟩,1,1,some .prepared,.prepared,none,false⟩]
  drains := []

/-- The egress of a path of three Nodes is published and reports that it is prepared. -/
def preparingRun : List (Nat×Event) :=
  [(0,.provision 0),(0,.provision 1),(0,.provision 2),(0,.hello 0 1 fullCapabilities 0),
    (0,.hello 1 1 fullCapabilities 0),(0,.hello 2 1 fullCapabilities 0),
    (1,.create 7 0 1 multihopSpec),(2,.claim 0 1),(3,.issue 2 false none none),
    (4,.report 2 egressPrepared),(5,.advance 1)]

/-- The middle Node is published next, after the egress was seen prepared. -/
theorem activation_downstream_first_middle : ∃s t p,
    Run Step (State.initial openWorld) preparingRun s ∧ Step s (6,.issue 1 false none none) t ∧
      t.snapshots.lookup (1,1)=some p ∧ s.snapshots.lookup (1,1)=none ∧ p.assignments≠[] ∧
      ∀a∈p.assignments, a.role≠.direct→∃d i, InOrder openWorld preparingRun s p.nodeId a d i := by
  have hrun : ((performs (State.initial openWorld) preparingRun).bind fun s =>
      (perform s (6,.issue 1 false none none)).bind fun t => (t.snapshots.lookup (1,1)).map fun p =>
        (decide (s.snapshots.lookup (1,1)=none),p.assignments.isEmpty))=some (true,false) := by
    decide +kernel
  simp only [do_some,decide_eq_true_eq] at hrun
  obtain ⟨s,hs,t,ht,p,hp,hnew,hne⟩ := hrun
  refine ⟨s,t,p,run_performs hs,perform_some ht,hp,hnew,?_,?_⟩
  · simpa using hne
  · exact (activation_downstream_first (run_performs hs) (perform_some ht)).1 (1,1) p hp
      (by simp [hnew])

end TuneX.Control
