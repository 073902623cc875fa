import TuneX.Control.Slots

namespace TuneX.Control

open Framework

variable {s t u : State} {f : Forward} {now g : Nat} {n : NodeId}

/-- A plan for one generation of a Forward: the Nodes are different, each has one assignment of
that generation for each protocol, and none of them is direct. -/
structure Plan.Formed (p : Plan) (id : ForwardId) (generation revision : Nat) : Prop where
  nodes_nodup : (p.nodes.map (·.nodeId)).Nodup
  path : ∀l, p.path=some l→l=p.nodes.map (·.nodeId) ∧ 3≤l.length ∧ l.length ≤ maxPlannedPathNodes
  pair : p.path=none→p.nodes.length=2
  ingress : p.path=none→∀node, p.nodes[0]?=some node→∀a∈node.assignments, a.role=.relayIngress
  assignment : ∀node∈p.nodes, ∀a∈node.assignments, a.forwardId=id ∧
    a.deploymentGeneration=generation ∧ a.forwardRevision=revision ∧
    a.assignmentId=⟨node.nodeId,id,a.protocol,a.role⟩ ∧ a.role≠.direct ∧
    (p.path.isSome↔multihopRole a.role)
  protocols_nodup : ∀node∈p.nodes, (node.assignments.map (·.protocol)).Nodup

variable {i : PlanInput}

theorem compileResources_nodup {c : List Capability} {l : List RelayResource}
    (h : compileResources c f i=some l) : (l.map RelayResource.key).Nodup := by
  simp only [compileResources,do_some] at h
  obtain ⟨r,-,h⟩ := h
  split_ifs at h with hc
  cases h
  simp only [bool_ok] at hc
  exact hc.2

theorem compilePathResources_nodup {l : List RelayResource}
    (h : compilePathResources f i=some l) : (l.map RelayResource.key).Nodup := by
  unfold compilePathResources compileMultihopResources compileRelayResources at h
  split_ifs at h
  · exact compileResources_nodup h
  · exact compileResources_nodup h

theorem compilePathResources_length {l : List RelayResource}
    (h : compilePathResources f i=some l) : if 1<f.spec.via.length then
      3≤f.spec.path.length ∧ f.spec.path.length ≤ maxPlannedPathNodes else f.spec.path.length=2 := by
  unfold compilePathResources compileMultihopResources compileRelayResources at h
  split_ifs at h ⊢ with hm hl hl
  · exact hl
  · exact hl

variable {index : Nat} {r : RelayResource} {node : PlanNode} {p : Plan} {id : ForwardId}
  {d : Deployment}

theorem hopResource_some {p : Protocol} (h : hopResource f i index n p=some r) :
    r.nodeId=n ∧ r.forwardProtocol=p := by
  unfold hopResource at h
  split_ifs at h
  · cases h
    exact ⟨rfl,rfl⟩
  · simp only [do_some] at h
    obtain ⟨e,-,port,-,rfl⟩ := h
    exact ⟨rfl,rfl⟩

theorem compilePathResources_mem {l : List RelayResource} (h : compilePathResources f i=some l)
    (hr : r∈l) : ∃hop∈f.spec.path.zipIdx,
      ∃p∈f.spec.protocols, hopResource f i hop.2 hop.1 p=some r := by
  have hc : ∃c, compileResources c f i=some l := by
    unfold compilePathResources compileMultihopResources compileRelayResources at h
    split_ifs at h
    · exact ⟨_,h⟩
    · exact ⟨_,h⟩
  obtain ⟨c,hc⟩ := hc
  simp only [compileResources,do_some] at hc
  obtain ⟨rs,hrs,hc⟩ := hc
  split_ifs at hc
  cases hc
  obtain ⟨m,hm,hrm⟩ := List.mem_flatten.mp hr
  obtain ⟨x,hx,hxm⟩ := mem_forall₂ (forall₂_mapM_some hrs) hm
  obtain ⟨hop,hhop,rfl⟩ := List.mem_map.mp hx
  obtain ⟨p,hp,hres⟩ := mem_forall₂ (forall₂_mapM_some hxm) hrm
  exact ⟨hop,hhop,p,hp,hres⟩

variable {l : List Reserved}

theorem reservation_some {p : Protocol} {r : Reserved}
    (h : reservation l n p=some r) :
    r∈l ∧ r.resource.nodeId=n ∧ r.resource.forwardProtocol=p := by
  have hp := List.find?_some h
  simp only [bool_ok] at hp
  exact ⟨List.mem_of_find?_eq_some h,hp.1,hp.2⟩

theorem planNode_some {reference : ProfileRef}
    (h : planNode now f g i reference l index n=some node) :
    node.nodeId=n ∧ List.Forall₂ (fun p a => ∃r config, reservation l n p=some r ∧
      a=planAssignment f g (hopRole f index) n p r config) f.spec.protocols node.assignments := by
  simp only [planNode,do_some] at h
  obtain ⟨e,-,a,ha,rfl⟩ := h
  refine ⟨rfl,(forall₂_mapM_some ha).imp ?_⟩
  intro p a hp
  simp only [do_some] at hp
  obtain ⟨r,hr,config,-,rfl⟩ := hp
  exact ⟨r,config,hr,rfl⟩

theorem compilePlan_some (h : compilePlan now f g i l=some p) :
    p.path=(if 1<f.spec.via.length then some f.spec.path else none) ∧
      ∃reference, List.Forall₂ (fun h node => planNode now f g i reference l h.2 h.1=some node)
        f.spec.path.zipIdx p.nodes := by
  simp only [compilePlan,do_some] at h
  obtain ⟨reference,-,nodes,hn,h⟩ := h
  rw [Option.ite_none_right_eq_some] at h
  cases h.2
  exact ⟨by simp only [decide_eq_true_eq],reference,forall₂_mapM_some hn⟩

theorem hopRole_ne_direct (f : Forward) (index : Nat) : hopRole f index≠.direct := by
  unfold hopRole
  dsimp only
  split_ifs
  all_goals cases pathRole f.spec.path.length index <;> simp [PathRole.multihop,PathRole.relay]

theorem multihopRole_hopRole (f : Forward) (index : Nat) :
    multihopRole (hopRole f index)=decide (1<f.spec.via.length) := by
  unfold hopRole
  dsimp only
  split_ifs with h
  all_goals
    cases pathRole f.spec.path.length index <;>
      simp [PathRole.multihop,PathRole.relay,multihopRole,h]

theorem compilePlan_ids (h : compilePlan now f g i l=some p) :
    p.nodes.map (·.nodeId)=f.spec.path := by
  obtain ⟨-,reference,hn⟩ := compilePlan_some h
  rw [map_eq_of_forall₂ (a := fun h => h.1) hn fun x y hxy => (planNode_some hxy).1]
  exact List.zipIdx_map_fst 0 f.spec.path

theorem compilePlan_assignment (h : compilePlan now f g i l=some p)
    (hnode : p.nodes[index]?=some node) {a : Assignment} (ha : a∈node.assignments) :
    ∃q r config, reservation l node.nodeId q=some r ∧
      a=planAssignment f g (hopRole f index) node.nodeId q r config := by
  obtain ⟨-,reference,hn⟩ := compilePlan_some h
  obtain ⟨x,hx,hplan⟩ := forall₂_at hn hnode
  have hindex : x.2=index := by
    rw [List.getElem?_zipIdx,Option.map_eq_some_iff] at hx
    obtain ⟨m,-,rfl⟩ := hx
    exact Nat.zero_add index
  obtain ⟨hid,hassign⟩ := planNode_some hplan
  obtain ⟨q,-,r,config,hr,he⟩ := mem_forall₂ hassign ha
  exact ⟨q,r,config,hid ▸ hr,hindex ▸ hid ▸ he⟩

theorem compilePlan_formed (hpath : f.spec.path.Nodup) (hp : f.spec.protocols.Nodup)
    (hlen : if 1<f.spec.via.length then
      3≤f.spec.path.length ∧ f.spec.path.length ≤ maxPlannedPathNodes else f.spec.path.length=2)
    (h : compilePlan now f g i l=some p) : p.Formed f.id g f.revision := by
  obtain ⟨h4,reference,hn⟩ := compilePlan_some h
  have hids := compilePlan_ids h
  refine ⟨hids ▸ hpath,?_,?_,?_,?_,?_⟩
  · intro m hm
    rw [h4] at hm
    split_ifs at hm with hv
    cases hm
    rw [if_pos hv] at hlen
    exact ⟨hids.symm,hlen⟩
  · intro hm
    rw [h4] at hm
    split_ifs at hm with hv
    rw [if_neg hv] at hlen
    rw [← List.length_map (fun node : PlanNode => node.nodeId),hids,hlen]
  · intro hm node hnode a ha
    rw [h4] at hm
    split_ifs at hm with hv
    obtain ⟨q,r,config,-,rfl⟩ := compilePlan_assignment h hnode ha
    change hopRole f 0=_
    unfold hopRole
    dsimp only
    rw [if_neg hv]
    rfl
  · intro node hnode a ha
    obtain ⟨index,hi⟩ := List.getElem?_of_mem hnode
    obtain ⟨q,r,config,-,rfl⟩ := compilePlan_assignment h hi ha
    refine ⟨rfl,rfl,rfl,rfl,hopRole_ne_direct f index,?_⟩
    change _↔multihopRole (hopRole f index)
    rw [multihopRole_hopRole,h4]
    split_ifs with hv <;> simp [hv]
  · intro node hnode
    obtain ⟨x,-,hx⟩ := mem_forall₂ hn hnode
    have hpr : node.assignments.map (·.protocol)=f.spec.protocols := by
      have := map_eq_of_forall₂ (a := id) (b := fun a : Assignment => a.protocol) (planNode_some hx).2
        (by rintro q a ⟨r,config,-,rfl⟩; rfl)
      simpa using this
    exact hpr ▸ hp

theorem latestDeployment_some (h : s.latestDeployment id=some (g,d)) :
    s.deployments.lookup (id,g)=some d ∧
      ∀g' d', s.deployments.lookup (id,g')=some d' → g'≤g := by
  have hmem := first_mem h
  obtain ⟨r,hr,he⟩ := List.mem_map.mp hmem
  simp only [List.mem_filter,decide_eq_true_eq] at hr
  obtain ⟨hrow,hid⟩ := hr
  cases he
  refine ⟨?_,?_⟩
  · rw [← Table.mem_rows,← hid]
    exact hrow
  · intro g' d' hd'
    have hin : (g',d')∈(s.deployments.rows.filter fun r => r.1.1=id).map fun r => (r.1.2,r.2) := by
      refine List.mem_map.mpr ⟨((id,g'),d'),List.mem_filter.mpr ⟨Table.mem_rows.mpr hd',?_⟩,rfl⟩
      simp
    have hle := first_before (fun a b c hab hbc => by
        simp only [decide_eq_true_eq] at *
        exact hbc.trans hab) (fun a b => by
        simp only [decide_eq_true_eq]
        exact le_total b.1 a.1) h (g',d') hin
    simpa using hle

theorem latestDeployment_none (h : s.latestDeployment id=none) (g : Nat) :
    s.deployments.lookup (id,g)=none := by
  by_contra hne
  obtain ⟨d,hd⟩ := Option.ne_none_iff_exists'.mp hne
  have hin : (g,d)∈(s.deployments.rows.filter fun r => r.1.1=id).map fun r => (r.1.2,r.2) := by
    refine List.mem_map.mpr ⟨((id,g),d),List.mem_filter.mpr ⟨Table.mem_rows.mpr hd,?_⟩,rfl⟩
    simp
  rw [State.latestDeployment,first_eq_none] at h
  simp [h] at hin

variable {actor : ActorId}

section

variable (a : s.Accepted now actor f t)
include a

theorem State.Accepted.generation_fresh (h : s.deployments.lookup (f.id,g)=some d) :
    g<a.generation := by
  rw [a.generation_eq]
  cases hl : s.latestDeployment f.id with
  | none =>
    rw [latestDeployment_none hl g] at h
    cases h
  | some gd =>
    have hle := (latestDeployment_some hl).2 g d h
    simp only [Option.map_some,Option.getD_some]
    omega

theorem State.Accepted.deployments :
    t.deployments=s.deployments.insert (f.id,a.generation) (newDeployment f a.plan) := by
  have hframe : a.reserved.1.deployments=s.deployments := by
    rw [State.reserveRelay_frame a.reserved_eq]
  refine (congrArg State.deployments a.result).trans ?_
  change a.reserved.1.deployments.insert _ _=_
  rw [hframe]

theorem State.Accepted.slots : t.slots=a.reserved.1.slots := by
  have h := congrArg State.slots a.result
  exact h

theorem State.Accepted.formed (hv : f.spec.valid) : a.plan.Formed f.id a.generation f.revision := by
  simp only [Spec.valid,bool_ok] at hv
  refine compilePlan_formed ?_ ?_ (compilePathResources_length a.resources_eq) a.plan_eq
  · exact List.nodup_cons.mpr ⟨hv.1.2.2,hv.1.2.1⟩
  · have hp := hv.1.1.1
    simp only [mem_list] at hp
    obtain h | h | h := hp <;> simp [h]

theorem State.Accepted.fence {b : Assignment} (hn : node∈a.plan.nodes) (hb : b∈node.assignments) :
    b.bindingFence=(s.slot (b.slotOn node.nodeId)).fence+1 ∧
      t.slot (b.slotOn node.nodeId)=⟨some f.id,b.bindingFence,a.generation⟩ := by
  obtain ⟨index,hindex⟩ := List.getElem?_of_mem hn
  obtain ⟨q,r,config,hr,rfl⟩ := compilePlan_assignment a.plan_eq hindex hb
  obtain ⟨hmem,hnode,-⟩ := reservation_some hr
  have hnd := compilePathResources_nodup a.resources_eq
  rw [State.reserveRelay_reserved hnd a.reserved_eq] at hmem
  obtain ⟨resource,hres,rfl⟩ := List.mem_map.mp hmem
  have hkey : (planAssignment f a.generation (hopRole f index) node.nodeId q
      ⟨resource,(s.slot resource.key).fence+1⟩ config).slotOn node.nodeId=resource.key := by
    change (⟨node.nodeId,resource.physicalProtocol,resource.port⟩ : SlotKey)=_
    rw [← hnode]
    rfl
  rw [hkey]
  refine ⟨rfl,?_⟩
  have hslot := (State.reserveRelay_spec hnd a.reserved_eq).2 resource.key
  rw [if_pos (List.mem_map_of_mem hres)] at hslot
  rw [State.slot_congr a.slots,hslot]
  rfl

theorem State.Accepted.covers (hpath : f.spec.path.Nodup) {k : SlotKey}
    (hk : k∈a.resources.map RelayResource.key) :
    ∃node∈a.plan.nodes, ∃b∈node.assignments, b.slotOn node.nodeId=k := by
  obtain ⟨r,hr,rfl⟩ := List.mem_map.mp hk
  obtain ⟨hop,hhop,p,hp,hres⟩ := compilePathResources_mem a.resources_eq hr
  obtain ⟨-,reference,hn⟩ := compilePlan_some a.plan_eq
  obtain ⟨node,hnode,hplan⟩ := mem_forall₂ hn.flip hhop
  obtain ⟨hid,hassign⟩ := planNode_some hplan
  obtain ⟨b,hb,r',config,hr',rfl⟩ := mem_forall₂ hassign.flip hp
  obtain ⟨hmem,hnode',hproto⟩ := reservation_some hr'
  rw [State.reserveRelay_reserved (compilePathResources_nodup a.resources_eq) a.reserved_eq] at hmem
  obtain ⟨resource,hresource,rfl⟩ := List.mem_map.mp hmem
  -- The reservation that the plan finds for this hop and protocol is the one made for them.
  have hsame : resource=r := by
    obtain ⟨hop',hhop',p',-,hres'⟩ := compilePathResources_mem a.resources_eq hresource
    obtain ⟨h1,h2⟩ := hopResource_some hres'
    have hfst : hop'.1=hop.1 := h1.symm.trans hnode'
    have hhops : hop'=hop := by
      have hinj := List.inj_on_of_nodup_map (f := Prod.fst) (l := f.spec.path.zipIdx)
        (by rwa [List.zipIdx_map_fst])
      exact hinj hhop' hhop hfst
    have hprotocols : p'=p := h2.symm.trans hproto
    rw [hhops,hprotocols,hres] at hres'
    exact (Option.some.inj hres').symm
  refine ⟨node,hnode,_,hb,?_⟩
  have hr1 := (hopResource_some hres).1
  change (⟨node.nodeId,resource.physicalProtocol,resource.port⟩ : SlotKey)=_
  rw [hsame,hid,← hr1]
  rfl

end

end TuneX.Control
