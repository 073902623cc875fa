import TuneX.Control.Placement

namespace TuneX.Control

variable {s t u : State} {now : Nat} {n : NodeId} {e : Event} {k : SlotKey} {i j : Instance}
  {f : Forward}

/-- The transport of the socket behind an assignment: the Nodes of a path talk over TCP. -/
def physicalProtocol : Role→Protocol→Protocol
  | .relayEgress,_ => .tcp
  | .multihopTransit,_ => .tcp
  | .multihopEgress,_ => .tcp
  | _,p => p

theorem hopResource_physical {input : PlanInput} {index : Nat} {p : Protocol} {r : RelayResource}
    (h : hopResource f input index n p=some r) :
    r.physicalProtocol=physicalProtocol (hopRole f index) p := by
  unfold hopResource at h
  unfold hopRole pathRole
  by_cases h0 : index=0
  · rw [if_pos h0] at h
    cases h
    rw [if_pos h0]
    dsimp only
    split_ifs
    · rfl
    · rfl
  · rw [if_neg h0] at h
    rw [if_neg h0]
    simp only [Option.bind_eq_bind,Option.bind_eq_some_iff,Option.some.injEq] at h
    obtain ⟨endpoint,-,port,-,rfl⟩ := h
    dsimp only
    split_ifs
    all_goals rfl

variable {node : PlanNode} {id : ForwardId} {g : Nat} {d : Deployment}

theorem State.Accepted.resource {actor : ActorId} (a : s.Accepted now actor f t)
    (hpath : f.spec.path.Nodup) {b : Assignment} (hn : node∈a.plan.nodes) (hb : b∈node.assignments) :
    ∃r∈a.resources, r.key=b.slotOn node.nodeId ∧
      r.forwardProtocol=b.protocol ∧ b.resource.protocol=physicalProtocol b.role b.protocol := by
  obtain ⟨index,hindex⟩ := List.getElem?_of_mem hn
  obtain ⟨q,r,config,hr,rfl⟩ := compilePlan_assignment a.plan_eq hindex hb
  obtain ⟨hmem,hnode,hproto⟩ := reservation_some hr
  rw [State.reserveRelay_reserved (compilePathResources_nodup a.resources_eq) a.reserved_eq] at hmem
  obtain ⟨resource,hres,rfl⟩ := List.mem_map.mp hmem
  obtain ⟨hop,hhop,p,-,hmade⟩ := compilePathResources_mem a.resources_eq hres
  obtain ⟨hid,hp⟩ := hopResource_some hmade
  have hpq : p=q := hp.symm.trans hproto
  -- The hop that the socket was made for is the hop of the assignment.
  have hhopIndex : hop.2=index := by
    have hat : f.spec.path[hop.2]?=some node.nodeId := by
      rw [List.mem_zipIdx_iff_getElem?] at hhop
      rw [hhop,← hid]
      exact congrArg some hnode
    have hat' : f.spec.path[index]?=some node.nodeId := by
      rw [← compilePlan_ids a.plan_eq,List.getElem?_map,hindex]
      rfl
    obtain ⟨hlt,-⟩ := List.getElem?_eq_some_iff.mp hat
    exact (List.getElem?_inj hlt hpath).mp (hat.trans hat'.symm)
  have hphysical := hopResource_physical hmade
  rw [hhopIndex,hpq] at hphysical
  refine ⟨resource,hres,?_,hproto,hphysical⟩
  change (⟨resource.nodeId,resource.physicalProtocol,resource.port⟩ : SlotKey)=_
  rw [hnode]
  rfl

theorem Acts.planned_via (h : Acts s now e t) (hnew : s.deployments.lookup (id,g)=none)
    (hd : t.deployments.lookup (id,g)=some d) (hfence : (s.slot k).fence<(t.slot k).fence)
    (ho : (t.slot k).owner=some id) : ∃row, t.forwards.lookup id=some row ∧ row.spec.via≠[] := by
  have hsame : t.deployments≠s.deployments := by
    intro heq
    rw [heq,hnew] at hd
    cases hd
  have howner : ∀id', Takes id' s t→id'=id := by
    intro id' htakes
    by_contra hne
    rw [htakes.kept ho (Ne.symm hne)] at hfence
    exact lt_irrefl _ hfence
  cases h.books with
  | freed hfreed =>
    obtain hk | ⟨_,_,-,-,-,hk⟩ := hfreed k
    · rw [hk] at hfence
      exact absurd hfence (lt_irrefl _)
    · rw [hk] at ho
      cases ho
  | command c =>
    have hid := howner _ c.takes
    refine ⟨c.row,by rw [c.forwards,if_pos hid.symm],?_⟩
    rw [c.spec]
    have hdep := c.deployments
    have hr := c.reserving
    generalize c.reserved=reserved at hdep hr
    cases hr with
    | keep => exact absurd hdep hsame
    | reserve _ _ hres => exact absurd (hdep.trans (by rw [State.reserve_frame hres])) hsame
    | transition _ _ hres => exact absurd (hdep.trans (by rw [State.transition_frame hres])) hsame
    | plan hv => exact hv
  | refresh hrow hv a hs _ hf =>
    have hid := howner _ (a.takes rfl hs)
    exact ⟨_,by rw [hf,← hid]; exact hrow,hv⟩

theorem Acts.reserves_plan {a : Assignment} (hv : s.ValidSpecs) (h : Acts s now e t)
    (hs : s.deployments.lookup (id,g)=none) (hd : t.deployments.lookup (id,g)=some d)
    (hn : node∈d.plan.nodes) (ha : a∈node.assignments) :
    t.slot (a.slotOn node.nodeId)=⟨some id,a.bindingFence,g⟩ ∧
      a.resource.protocol=physicalProtocol a.role a.protocol ∧ ∀b∈node.assignments,
        b.slotOn node.nodeId=a.slotOn node.nodeId→b.protocol=a.protocol := by
  cases (Acts.redeploy (e := (now,e)) hv h).origin hd with
  | kept hd₀ =>
    rw [hs] at hd₀
    cases hd₀
  | planned _ _ acc hvalid hts hf hg he _ =>
    subst he hf hg
    have hpath := Spec.valid_path hvalid
    obtain ⟨r,hr,hkey,hproto,hphysical⟩ := acc.resource hpath hn ha
    refine ⟨?_,hphysical,?_⟩
    · rw [State.slot_congr hts]
      exact (acc.fence hn ha).2
    · intro b hb hslot
      obtain ⟨r',hr',hkey',hproto',-⟩ := acc.resource hpath hn hb
      have hres : r'=r := List.inj_on_of_nodup_map (compilePathResources_nodup acc.resources_eq)
        hr' hr (hkey'.trans (hslot.trans hkey.symm))
      rw [← hproto',hres,hproto]

theorem Acts.reserves_single (ht : Deployed t) (hv : s.ValidSpecs) (h : Acts s now e t)
    (hi : Reserves s t k i) (hj : Reserves s t k j) : i=j := by
  have hmixed : ∀{id id' : ForwardId} {row : ForwardRow} {g : Nat} {d : Deployment} {node : PlanNode}
      {a : Assignment}, t.forwards.lookup id=some row → row.spec.via=[]→(t.slot k).owner=some id→
      (s.slot k).fence<(t.slot k).fence→s.deployments.lookup (id',g)=none→
      t.deployments.lookup (id',g)=some d→node∈d.plan.nodes→a∈node.assignments→
      a.slotOn node.nodeId=k→False := by
    intro id id' row g d node a hrow hvia ho hf hs hd hn ha hk
    obtain ⟨hslot,-⟩ := h.reserves_plan hv hs hd hn ha
    rw [hk] at hslot
    have hid : id'=id := by
      rw [hslot] at ho
      exact Option.some.inj ho
    subst hid
    obtain ⟨row',hrow',hvia'⟩ := h.planned_via hs hd hf ho
    rw [hrow] at hrow'
    cases hrow'
    exact hvia' hvia
  cases hi with
  | direct hrow hvia hp hk ho hf hi =>
    cases hj with
    | direct hrow' _ hp' hk' ho' _ hj =>
      rw [ho] at ho'
      cases ho'
      rw [hrow] at hrow'
      cases hrow'
      have hproto := congrArg SlotKey.protocol (hk.trans hk'.symm)
      rw [hi,hj]
      exact congrArg (fun p => (⟨k.node,⟨k.node,_,p,.direct⟩,_,_⟩ : Instance)) hproto
    | relay hs hd hn ha hk' => exact (hmixed hrow hvia ho hf hs hd hn ha hk').elim
  | relay hs hd hn ha hk hi =>
    cases hj with
    | direct hrow hvia _ _ ho hf _ => exact (hmixed hrow hvia ho hf hs hd hn ha hk).elim
    | @relay id' g' d' node' a' hs' hd' hn' ha' hk' hj =>
      obtain ⟨hslot,-,honly⟩ := h.reserves_plan hv hs hd hn ha
      obtain ⟨hslot',-⟩ := h.reserves_plan hv hs' hd' hn' ha'
      rw [hk] at hslot
      rw [hk',hslot] at hslot'
      simp only [SlotRow.mk.injEq,Option.some.injEq] at hslot'
      obtain ⟨rfl,-,rfl⟩ := hslot'
      rw [hd] at hd'
      cases hd'
      have hformed := ht.formed _ _ _ hd
      have hnode := List.inj_on_of_nodup_map hformed.nodes_nodup hn hn'
        (congrArg SlotKey.node (hk.trans hk'.symm))
      subst hnode
      have hassign := List.inj_on_of_nodup_map (hformed.protocols_nodup _ hn) ha' ha
        (honly a' ha' (hk'.trans hk.symm))
      rw [hi,hj,hassign]

theorem Acts.reserves_physical (ht : Deployed t) (hv : s.ValidSpecs) (h : Acts s now e t)
    (hi : Reserves s t k i) :
    k.protocol=physicalProtocol i.assignmentId.role i.assignmentId.protocol := by
  cases hi with
  | direct _ _ _ hk _ _ hi =>
    subst hk hi
    rfl
  | relay hs hd hn ha hk hi =>
    obtain ⟨-,hphysical,-⟩ := h.reserves_plan hv hs hd hn ha
    obtain ⟨-,-,-,hname,-⟩ := (ht.formed _ _ _ hd).assignment _ hn _ ha
    subst hk hi
    change Resource.protocol _=physicalProtocol (AssignmentId.role (Assignment.assignmentId _))
      (AssignmentId.protocol (Assignment.assignmentId _))
    rw [hphysical,hname]

/-- A slot and a fence name one identity, of the transport of the slot. -/
structure Fenced (s : State) : Prop where
  below : ∀i k, Known s i k→i.fence≤(s.slot k).fence ∧ i.node=k.node
  single : ∀i j k, Known s i k→Known s j k→i.fence=j.fence→i=j
  physical : ∀i k, Known s i k→k.protocol=physicalProtocol i.assignmentId.role i.assignmentId.protocol

theorem not_known_initial (w : World) : ¬Known (State.initial w) i k := by
  intro h
  cases h with
  | direct hrow => simp [State.initial] at hrow
  | planned hd => simp [State.initial] at hd
  | published hp => simp [State.initial] at hp

theorem Fenced.initial (w : World) : Fenced (State.initial w) :=
  ⟨fun _ _ h => absurd h (not_known_initial w),fun _ _ _ h => absurd h (not_known_initial w),
    fun _ _ h => absurd h (not_known_initial w)⟩

theorem Fenced.acts {e : Nat×Event} (hd : Deployed s) (hs : Fenced s) (h : Acts s e.1 e.2 t) :
    Fenced t := by
  have ht : Deployed t := hd.acts h
  -- What the step reserves has a fence above everything known of the slot.
  have habove : ∀i j k, Known s i k→Reserves s t k j→i.fence<j.fence := by
    intro i j k hi hj
    obtain ⟨hlt,hfence,-⟩ := h.reserves_fence hd.specs hj
    rw [hfence]
    exact lt_of_le_of_lt (hs.below i k hi).1 hlt
  refine ⟨?_,?_,?_⟩
  · intro i k hi
    obtain hi | hi := h.known hd hi
    · exact ⟨(hs.below i k hi).1.trans (h.fence_mono k),(hs.below i k hi).2⟩
    · obtain ⟨-,hfence,hnode⟩ := h.reserves_fence hd.specs hi
      exact ⟨hfence.le,hnode⟩
  · intro i j k hi hj hfence
    obtain hi | hi := h.known hd hi
    · obtain hj | hj := h.known hd hj
      · exact hs.single i j k hi hj hfence
      · exact absurd hfence (habove i j k hi hj).ne
    · obtain hj | hj := h.known hd hj
      · exact absurd hfence.symm (habove j i k hj hi).ne
      · exact h.reserves_single ht hd.specs hi hj
  · intro i k hi
    obtain hi | hi := h.known hd hi
    · exact hs.physical i k hi
    · exact h.reserves_physical ht hd.specs hi

end TuneX.Control
