import TuneX.Control.Releases

namespace TuneX.Control

open Framework

variable {s t u : State} {f : Forward} {now g : Nat} {n : NodeId}

/-- Every stored deployment is as before or withdrawn. -/
def Stops (s t : State) : Prop :=
  ∀k, t.deployments.lookup k=s.deployments.lookup k ∨
    ∃d, s.deployments.lookup k=some d ∧ t.deployments.lookup k=some { d with stage := .withdrawn }

theorem Stops.of_eq (h : t.deployments=s.deployments) : Stops s t := fun k => .inl (by rw [h])

theorem Stops.trans (h : Stops s t) (h' : Stops t u) : Stops s u := by
  intro k
  obtain hk | ⟨d,hd,hk⟩ := h k
  · obtain hk' | ⟨d',hd',hk'⟩ := h' k
    · exact .inl (hk'.trans hk)
    · exact .inr ⟨d',hk ▸ hd',hk'⟩
  · obtain hk' | ⟨d',hd',hk'⟩ := h' k
    · exact .inr ⟨d,hd,hk'.trans hk⟩
    · rw [hk] at hd'
      cases hd'
      exact .inr ⟨d,hd,hk'⟩

theorem Stops.insert {id : ForwardId} {d : Deployment} (hd : s.deployments.lookup (id,g)=some d)
    (h : t.deployments=s.deployments.insert (id,g) { d with stage := .withdrawn }) : Stops s t := by
  intro k
  rw [h,Table.lookup_insert_eq]
  by_cases hk : k=(id,g)
  · rw [if_pos hk,hk]
    exact .inr ⟨d,hd,rfl⟩
  · rw [if_neg hk]
    exact .inl rfl

theorem executionError_stops (p : Snapshot) (a : Assignment) (o : Observation) :
    Stops s (s.executionError now p a o) := by
  obtain he | ⟨g,d,op,row,hd,-,-,-,he⟩ := State.executionError_cases s now p a o
  · exact .of_eq (by rw [he])
  · rw [he,State.failDeployment_frame]
    exact .insert (latestDeployment_some hd).1 rfl

theorem reportErrors_stops (p : Snapshot) (r : Report) (l : List Assignment) :
    Stops s (l.foldl (State.reportError now p r) s) := by
  refine List.foldlRecOn _ (State.reportError now p r) (b := s) (motive := Stops s) (.of_eq rfl) ?_
  intro b hb a _
  refine hb.trans ?_
  obtain ⟨ops,h⟩ | ⟨o,h⟩ := State.reportError_cases b now p r a
  · exact .of_eq (by rw [h])
  · rw [h]
    exact executionError_stops p a o

theorem State.Taken.stops {r : Report} (h : State.Taken s now n r t) : Stops s t := by
  obtain ⟨row,drained,failed,-,-,hd,hf,hr⟩ := h
  have hdrain : drained.deployments=s.deployments := by
    rw [State.observeDrains_frame hd]
  have hfail : Stops s failed := by
    obtain rfl | ⟨p,rfl⟩ := hf
    · exact .of_eq hdrain
    · exact Stops.trans (t := drained.storeReport now n row r) (.of_eq hdrain)
        (reportErrors_stops p r _)
  obtain rfl | ⟨p,-,-,-,rfl⟩ := hr
  · exact hfail
  · refine hfail.trans (.of_eq ?_)
    rw [State.complete_frame]

theorem quarantine_stops : Stops s s.quarantineRecovery := by
  intro k
  rw [quarantineRecovery_frame,Table.lookup_alter]
  cases s.deployments.lookup k with
  | none => exact .inl rfl
  | some d => exact .inr ⟨d,rfl,rfl⟩

/-- What a step does to the deployments: some stop, the latest one of a Forward moves on, or a
Forward gets a plan of a new generation. -/
inductive Redeploy (s : State) (e : Nat×Event) (t : State) : Prop
  | stops (h : Stops s t)
  | moves {id : ForwardId} {g : Nat} {d : Deployment} (he : e.2=.advance id)
      (hl : s.latestDeployment id=some (g,d))
      (ht : t.deployments=s.deployments.insert (id,g) (s.nextDeployment e.1 d))
  | plans {b u : State} {actor : ActorId} {f : Forward} (hs : b.slots=s.slots)
      (hd : b.deployments=s.deployments) (a : b.Accepted e.1 actor f u) (hv : f.spec.valid)
      (ht : t.deployments=u.deployments) (hts : t.slots=u.slots)

variable {e : Nat×Event}

theorem Redeploy.commanded (c : s.Commanded e.1 e.2 t) : Redeploy s e t := by
  obtain ⟨f,kind,row,before,reserved,hf,-,hr,-,-,ht⟩ := c
  have hdep : t.deployments=reserved.deployments := by rw [ht]
  have hslots : t.slots=reserved.slots := by rw [ht]
  cases hr with
  | keep => exact .stops (.of_eq hdep)
  | reserve _ _ h => exact .stops (.of_eq (by rw [hdep,State.reserve_frame h]))
  | transition _ _ h => exact .stops (.of_eq (by rw [hdep,State.transition_frame h]))
  | plan _ h =>
    obtain ⟨a⟩ := State.acceptPlan_ok h
    exact .plans (b := { s with forwards := before }) rfl rfl a hf hdep hslots

variable {d : Deployment}

theorem Redeploy.turn {id : ForwardId} {op : Operation}
    {row : ForwardRow} (he : e.2=.advance id) (hv : row.spec.valid)
    (hl : s.latestDeployment id=some (g,d)) (h : State.Turn s e.1 (row.forward id) row op g d t) :
    Redeploy s e t := by
  have hd := (latestDeployment_some hl).1
  cases h with
  | direct => exact .stops (.insert hd rfl)
  | refresh _ _ ht =>
    obtain ⟨u,hu,rfl⟩ := State.refresh_ok ht
    obtain ⟨a⟩ := State.acceptPlan_ok hu
    exact .plans rfl rfl a hv rfl rfl
  | withdraw =>
    refine .stops (.insert hd ?_)
    unfold State.withdraw
    dsimp only
    rw [State.completeRelay_frame]
    rfl
  | progress =>
    refine .moves he hl ?_
    unfold State.progress
    dsimp only
    split_ifs
    · rw [State.completeRelay_frame]
      rfl
    · rfl

theorem Acts.redeploy (hv : s.ValidSpecs) (h : Acts s e.1 e.2 t) : Redeploy s e t := by
  obtain ⟨now,e⟩ := e
  cases h with
  | idle | administer | provision | hello | expire => exact .stops (.of_eq rfl)
  | command c => exact .commanded c
  | claim h => exact .stops (.of_eq (by rw [State.claim_frame h]))
  | turn hd _ hrow _ h => exact .turn rfl (hv _ _ hrow) hd h
  | issue _ _ i => exact .stops (.of_eq (by rw [i.frame]))
  | complete => exact .stops (.of_eq (by rw [State.complete_frame]))
  | report h => exact .stops h.stops
  | quarantine => exact .stops quarantine_stops

theorem step_redeploy (hv : s.ValidSpecs) (h : Step s e t) : Redeploy s e t := by
  -- Nothing that a deployment depends on reads the clock of the store.
  cases Acts.redeploy (s := { s with clock := e.1 }) hv (step_acts hv h) with
  | stops hs => exact .stops hs
  | moves he hl ht => exact .moves he hl ht
  | plans hs hd a hf ht hts => exact .plans hs hd a hf ht hts

/-- A stored deployment keeps its plan, and one that is withdrawn stays as it is; another one is
the new deployment of an accepted plan. -/
inductive Origin (s : State) (now : Nat) (t : State) (id : ForwardId) (g : Nat) (d : Deployment) : Prop
  | kept {d₀ : Deployment} (hd : s.deployments.lookup (id,g)=some d₀) (hp : d.plan=d₀.plan)
      (hr : d.targetRevision=d₀.targetRevision) (hi : d.ingressNodeId=d₀.ingressNodeId)
      (he : d.egressNodeId=d₀.egressNodeId) (hw : d₀.stage=.withdrawn→d=d₀)
  | planned {b v : State} {actor : ActorId} {f : Forward} (hs : b.slots=s.slots)
      (hd : b.deployments=s.deployments) (a : b.Accepted now actor f v) (hv : f.spec.valid)
      (hts : t.slots=v.slots) (hf : f.id=id) (hg : a.generation=g)
      (he : d=State.newDeployment f a.plan) (ht : t.deployments=s.deployments.insert (id,g) d)

theorem nextDeployment_kept (s : State) (now : Nat) (d : Deployment) :
    (s.nextDeployment now d).plan=d.plan ∧ (s.nextDeployment now d).targetRevision=d.targetRevision ∧
      (s.nextDeployment now d).ingressNodeId=d.ingressNodeId ∧
      (s.nextDeployment now d).egressNodeId=d.egressNodeId := by
  unfold State.nextDeployment
  split_ifs
  · unfold State.nextMultihop
    dsimp only
    split
    · split_ifs <;> exact ⟨rfl,rfl,rfl,rfl⟩
    · split_ifs <;> exact ⟨rfl,rfl,rfl,rfl⟩
    · exact ⟨rfl,rfl,rfl,rfl⟩
  · exact ⟨rfl,rfl,rfl,rfl⟩

theorem nextDeployment_withdrawn (s : State) (now : Nat) (h : d.stage=.withdrawn) :
    s.nextDeployment now d=d := by
  unfold State.nextDeployment State.nextMultihop State.nextRelayStage
  split_ifs
  · simp only [h]
  · simp only [h]
    rw [← h]

theorem Redeploy.origin {id : ForwardId} (h : Redeploy s e t)
    (hd : t.deployments.lookup (id,g)=some d) : Origin s e.1 t id g d := by
  cases h with
  | stops h =>
    obtain hk | ⟨d₀,hd₀,hk⟩ := h (id,g)
    · exact .kept (hk ▸ hd) rfl rfl rfl rfl fun _ => rfl
    · rw [hk] at hd
      cases hd
      exact .kept hd₀ rfl rfl rfl rfl fun hw => by rw [← hw]
  | moves he hl ht =>
    rw [ht,Table.lookup_insert_some] at hd
    obtain ⟨hk,rfl⟩ | ⟨-,hd⟩ := hd
    · cases hk
      obtain ⟨h1,h2,h3,h4⟩ := nextDeployment_kept s e.1 _
      exact .kept (latestDeployment_some hl).1 h1 h2 h3 h4 (nextDeployment_withdrawn s e.1)
    · exact .kept hd rfl rfl rfl rfl fun _ => rfl
  | plans hs hdep a hv ht hts =>
    have hins := ht.trans (hdep ▸ a.deployments)
    rw [hins,Table.lookup_insert_some] at hd
    obtain ⟨hk,rfl⟩ | ⟨-,hd⟩ := hd
    · cases hk
      exact .planned hs hdep a hv hts rfl rfl rfl hins
    · exact .kept hd rfl rfl rfl rfl fun _ => rfl

theorem Redeploy.lookup {id : ForwardId} (h : Redeploy s e t)
    (hd : s.deployments.lookup (id,g)=some d) : ∃d', t.deployments.lookup (id,g)=some d' ∧
      (d.stage=.withdrawn→d'=d) := by
  cases h with
  | stops h =>
    obtain hk | ⟨d₀,hd₀,hk⟩ := h (id,g)
    · exact ⟨d,hk.trans hd,fun _ => rfl⟩
    · rw [hd] at hd₀
      cases hd₀
      exact ⟨_,hk,fun hw => by rw [← hw]⟩
  | @moves id' g' d' he hl ht =>
    by_cases hk : (id,g)=(id',g')
    · cases hk
      have := (latestDeployment_some hl).1
      rw [hd] at this
      cases this
      refine ⟨_,?_,nextDeployment_withdrawn s e.1⟩
      rw [ht]
      exact AList.lookup_insert _
    · refine ⟨d,?_,fun _ => rfl⟩
      rw [ht,AList.lookup_insert_ne hk]
      exact hd
  | @plans b v actor f hs hdep a hv ht hts =>
    refine ⟨d,?_,fun _ => rfl⟩
    have hne : (id,g)≠(f.id,a.generation) := by
      intro hk
      cases hk
      exact (lt_irrefl _) (a.generation_fresh (hdep ▸ hd))
    rw [ht,a.deployments,hdep,AList.lookup_insert_ne hne]
    exact hd

/-- Everything a plan reserves is at or below the fence of its slot, and the plans of one Forward
have growing fences on every slot they share. -/
structure Deployed (s : State) : Prop where
  specs : s.ValidSpecs
  formed : ∀id g d, s.deployments.lookup (id,g)=some d→d.plan.Formed id g d.targetRevision
  fenced : ∀id g d, s.deployments.lookup (id,g)=some d→∀node∈d.plan.nodes, ∀a∈node.assignments,
    a.bindingFence≤(s.slot (a.slotOn node.nodeId)).fence
  ordered : ∀id g d g' d', s.deployments.lookup (id,g)=some d→s.deployments.lookup (id,g')=some d'→
    g<g'→∀node∈d.plan.nodes, ∀a∈node.assignments, ∀node'∈d'.plan.nodes, ∀a'∈node'.assignments,
      a'.slotOn node'.nodeId=a.slotOn node.nodeId→a.bindingFence<a'.bindingFence

theorem Deployed.initial (w : World) : Deployed (State.initial w) := by
  refine ⟨?_,?_,?_,?_⟩
  all_goals simp [State.initial,State.ValidSpecs]

theorem Deployed.acts (hs : Deployed s) (h : Acts s e.1 e.2 t) : Deployed t := by
  have hr := h.redeploy hs.specs
  refine ⟨h.validSpecs hs.specs,?_,?_,?_⟩
  · intro id g d hd
    cases hr.origin hd with
    | kept hd₀ hp hrev => exact hp ▸ hrev ▸ hs.formed id g _ hd₀
    | planned _ _ a hv _ hf hg he =>
      subst hf hg he
      exact a.formed hv
  · intro id g d hd node hnode a ha
    cases hr.origin hd with
    | kept hd₀ hp =>
      rw [hp] at hnode
      exact (hs.fenced id g _ hd₀ node hnode a ha).trans (h.fence_mono _)
    | planned _ _ acc hv hts hf hg he =>
      subst he
      rw [State.slot_congr hts,(acc.fence hnode ha).2]
  · intro id g d g' d' hd hd' hlt node hnode a ha node' hnode' a' ha' hslot
    cases hr.origin hd' with
    | kept hd₀' hp' =>
      rw [hp'] at hnode'
      cases hr.origin hd with
      | kept hd₀ hp =>
        rw [hp] at hnode
        exact hs.ordered id g _ g' _ hd₀ hd₀' hlt node hnode a ha node' hnode' a' ha' hslot
      | planned _ hdep acc _ _ hf hg _ =>
        -- A new plan has the highest generation, so it is not the earlier of the two.
        subst hf hg
        have := acc.generation_fresh (hdep ▸ hd₀')
        omega
    | planned hsl hdep acc _ _ hf hg he ht =>
      rw [ht,AList.lookup_insert_ne (by simp [hlt.ne])] at hd
      subst hf hg he
      have hle := hs.fenced _ g _ hd node hnode a ha
      have hnew := (acc.fence hnode' ha').1
      rw [State.slot_congr hsl,hslot] at hnew
      omega

theorem Deployed.clock (hs : Deployed s) (now : Nat) : Deployed { s with clock := now } :=
  ⟨hs.specs,hs.formed,hs.fenced,hs.ordered⟩

theorem Deployed.step (hs : Deployed s) (h : Step s e t) : Deployed t :=
  (hs.clock e.1).acts (step_acts hs.specs h)

theorem run_deployed {w : World} {l : List (Nat×Event)} (h : Run Step (State.initial w) l s) :
    Deployed s :=
  h.invariant Deployed (fun _ _ _ hab ha => ha.step hab) (Deployed.initial w)

end TuneX.Control
