import TuneX.Control.TransitStaging
import Mathlib.Data.List.Dedup
import Mathlib.Data.List.Perm.Subperm

namespace TuneX.Control.Transit

open Framework
open Agent (counterOk)

variable {f : Forward} {route : List Hop} {path : List String} {at_ : Hop×Protocol}

theorem compilePathTopology_ok (h : compilePathTopology f=.ok route) :
    f.valid ∧ f.path.length≤8 ∧ f.path.Nodup ∧ route=hops f.path := by
  simp only [compilePathTopology,do_ok,not_not,Bool.not_eq_false,Nat.not_lt] at h
  obtain ⟨hvalid,hsize,hnodup,rfl⟩ := h
  exact ⟨hvalid,hsize,hnodup,rfl⟩

theorem hops_nodeId (path : List String) : (hops path).map Hop.nodeId=path := by
  apply List.ext_getElem
  · simp [hops]
  · intro i h h'
    simp [hops]

theorem hops_length (path : List String) : (hops path).length=path.length := by
  simp [hops]

theorem hops_role {hop : Hop} (h : hop∈hops path) : hop.role=.ingress ↔ hop.index=0 := by
  obtain ⟨i,hi,rfl⟩ := List.mem_mapIdx.mp h
  show hopRole path.length i=.ingress ↔ i=0
  unfold hopRole
  split_ifs with h0 h1 <;> simp [h0]

theorem hops_same (hn : path.Nodup) {a b : Hop} (ha : a∈hops path) (hb : b∈hops path)
    (h : a.nodeId=b.nodeId) : a=b := by
  have hmap : ((hops path).map Hop.nodeId).Nodup := by
    rw [hops_nodeId]
    exact hn
  exact List.inj_on_of_nodup_map hmap ha hb h

/-- The resource is the one that its place asks for. -/
structure Placed (at_ : Hop×Protocol) (r : TransitResource) : Prop where
  node : r.nodeId=at_.1.nodeId
  role : r.role=at_.1.role
  protocol : r.forwardProtocol=at_.2
  physical : r.physicalProtocol=if at_.1.index=0 then at_.2 else .tcp

theorem resourceAt_ok {endpoints : List (String×Endpoint)} {ports : String→Protocol→Option Nat}
    {r : TransitResource} (h : resourceAt f endpoints ports at_=.ok r) : Placed at_ r := by
  unfold resourceAt at h
  split_ifs at h with hindex
  · simp only [do_ok] at h
    obtain ⟨-,rfl⟩ := h
    exact ⟨rfl,rfl,rfl,by rw [if_pos hindex]⟩
  · split at h
    · simp only [do_ok] at h
      obtain ⟨-,-,rfl⟩ := h
      exact ⟨rfl,rfl,rfl,by rw [if_neg hindex]⟩
    · cases h
    · cases h

section
variable {ι : Type} {c : Surroundings ι}

theorem checkPath_ok (h : checkPath c f=.ok route) :
    f.valid ∧ 3≤f.path.length ∧ f.path.length≤8 ∧ f.path.Nodup ∧ route=hops f.path := by
  simp only [checkPath,do_ok] at h
  obtain ⟨-,found,hroute,hsize,-,rfl⟩ := h
  obtain ⟨hvalid,hlong,hnodup,hhops⟩ := compilePathTopology_ok hroute
  rw [hhops,hops_length] at hsize
  exact ⟨hvalid,by omega,hlong,hnodup,hhops⟩

/-- What is known of a compiled list of resources. -/
structure Compiled (f : Forward) (out : List TransitResource) : Prop where
  valid : f.valid
  short : 3 ≤ f.path.length
  long : f.path.length≤8
  nodes : f.path.Nodup
  placed : ∀r∈out, ∃at_∈places f (hops f.path), Placed at_ r
  length : out.length=(places f (hops f.path)).length
  sockets : (out.map TransitResource.socket).Nodup

theorem compileTransitResources_ok {endpoints : List (String×Endpoint)}
    {ports : String→Protocol→Option Nat} {out : List TransitResource}
    (h : compileTransitResources c f endpoints ports=.ok out) : Compiled f out := by
  simp only [compileTransitResources,do_ok,not_not] at h
  obtain ⟨route,hroute,out,hout,hnodup,rfl⟩ := h
  obtain ⟨hvalid,hshort,hlong,hpath,rfl⟩ := checkPath_ok hroute
  refine ⟨hvalid,hshort,hlong,hpath,?_,?_,hnodup⟩
  · intro r hr
    obtain ⟨at_,hat,hok⟩ := mem_mapM_ok hout hr
    exact ⟨at_,hat,resourceAt_ok hok⟩
  · exact (forall₂_mapM_ok hout).length_eq.symm

end

theorem mem_places : at_∈places f route ↔ at_.1∈route ∧ at_.2∈f.protocols := by
  obtain ⟨hop,protocol⟩ := at_
  simp [places]

section
variable {id : String} {generation : Nat} {slots next : Slots}

theorem Slots.at_insert (slots : Slots) (a b : String×Protocol×Nat) (row : SlotRow) :
    Slots.at_ (slots.insert a row) b=if b=a then row else slots.at_ b := by
  unfold Slots.at_
  rw [Table.lookup_insert_eq]
  split_ifs <;> rfl

theorem reserveOne_ok {r : TransitResource} {reserved : ReservedTransitResource}
    (h : reserveOne id generation slots r=.ok (next,reserved)) :
    (slots.at_ r.socket).ownerId=none ∧
    reserved=⟨r,id,generation,(slots.at_ r.socket).fence+1⟩ ∧
    next=slots.insert r.socket ⟨some id,(slots.at_ r.socket).fence+1,generation⟩ := by
  simp only [reserveOne,do_ok,not_not,Prod.mk.injEq] at h
  obtain ⟨howner,-,rfl,rfl⟩ := h
  exact ⟨howner,rfl,rfl⟩

/-- What one reservation found in its slot and left there. -/
structure Held (id : String) (generation : Nat) (slots next : Slots)
    (r : ReservedTransitResource) : Prop where
  forward : r.forwardId=id
  deployment : r.deploymentGeneration=generation
  unowned : (slots.at_ r.socket).ownerId=none
  fence : r.bindingFence=(slots.at_ r.socket).fence+1
  stored : next.lookup r.socket=some ⟨some id,r.bindingFence,generation⟩

variable {reservations : List ReservedTransitResource}

theorem reserveEach_ok {l : List TransitResource}
    (h : reserveEach id generation slots l=.ok (next,reservations))
    (hn : (l.map TransitResource.socket).Nodup) :
    reservations.map ReservedTransitResource.toTransitResource=l ∧
    (∀r∈reservations, Held id generation slots next r) ∧
    ∀socket∉l.map TransitResource.socket, next.lookup socket=slots.lookup socket := by
  induction l generalizing slots reservations with
  | nil =>
    obtain ⟨rfl,rfl⟩ := Prod.mk.inj (Except.ok.inj h)
    exact ⟨rfl,nofun,fun _ _ => rfl⟩
  | cons a l ih =>
    simp only [reserveEach,do_ok,Prod.mk.injEq] at h
    obtain ⟨⟨middle,reserved⟩,hone,⟨last,more⟩,hrest,rfl,rfl⟩ := h
    obtain ⟨howner,rfl,rfl⟩ := reserveOne_ok hone
    rw [List.map_cons,List.nodup_cons] at hn
    obtain ⟨hmap,hheld,hframe⟩ := ih hrest hn.2
    refine ⟨?_,?_,?_⟩
    · rw [List.map_cons,hmap]
    · intro r hr
      rcases List.mem_cons.mp hr with rfl | hr
      · have hstored := hframe a.socket hn.1
        rw [Table.lookup_insert_eq,if_pos rfl] at hstored
        exact ⟨rfl,rfl,howner,rfl,hstored⟩
      · have k := hheld r hr
        have hother : r.socket≠a.socket := by
          intro heq
          apply hn.1
          rw [← heq,← hmap,List.map_map]
          exact List.mem_map_of_mem hr
        have hat : Slots.at_ (slots.insert a.socket
            ⟨some id,(slots.at_ a.socket).fence+1,generation⟩) r.socket=slots.at_ r.socket := by
          rw [Slots.at_insert,if_neg hother]
        exact ⟨k.forward,k.deployment,hat ▸ k.unowned,hat ▸ k.fence,k.stored⟩
    · intro socket hsocket
      rw [List.map_cons,List.mem_cons,not_or] at hsocket
      rw [hframe socket hsocket.2,Table.lookup_insert_eq,if_neg hsocket.1]

structure HeldAll (id : String) (generation : Nat) (slots next : Slots)
    (reservations : List ReservedTransitResource) : Prop where
  sockets : (reservations.map fun r => r.socket).Nodup
  held : ∀r∈reservations, Held id generation slots next r
  frame : ∀socket, (∀r∈reservations, r.socket≠socket)→next.lookup socket=slots.lookup socket

theorem reserveTransitResources_ok {before : TransitResource→TransitResource→Bool}
    {sessions : String→Option Nat} {resources : List TransitResource}
    (h : reserveTransitResources before sessions slots f resources generation=
      .ok (next,reservations)) : HeldAll f.id generation slots next reservations := by
  simp only [reserveTransitResources,validateTransitReservationSet,do_ok,Prod.mk.injEq,not_or,
    not_not] at h
  obtain ⟨⟨route,-,-,-,-,-,hsockets,-,-⟩,-,⟨last,found⟩,heach,-,rfl,rfl⟩ := h
  have hperm := List.perm_insertionSort (fun a b => before a b) resources
  have hnodup : ((resources.insertionSort fun a b => before a b).map TransitResource.socket).Nodup :=
    (hperm.map _).nodup_iff.mpr hsockets
  obtain ⟨hmap,hheld,hframe⟩ := reserveEach_ok heach hnodup
  have hmaps : found.map (fun r => r.socket)=
      (resources.insertionSort fun a b => before a b).map TransitResource.socket := by
    rw [← hmap,List.map_map]
    rfl
  refine ⟨hmaps ▸ hnodup,hheld,?_⟩
  intro socket hother
  apply hframe
  rw [← hmaps]
  intro hmem
  obtain ⟨r,hr,heq⟩ := List.mem_map.mp hmem
  exact hother r hr heq

end

/-- An assignment as the compiler builds it from a reservation. -/
structure Bound (expected : List TransitResource) (reservations : List ReservedTransitResource)
    (generation : Nat) (a : HopBinding) : Prop where
  resource : a.resource∈expected
  node : a.resource.nodeId=a.nodeId
  protocol : a.resource.forwardProtocol=a.protocol
  fence : counterOk a.bindingFence
  session : counterOk a.sessionEpoch
  slot : ∃slot∈reservations, slot.toTransitResource=a.resource ∧
    slot.bindingFence=a.bindingFence ∧ slot.deploymentGeneration=generation

section
variable {ι : Type} {digests : PlanDigests ι} {c : Surroundings ι}
  {nodes : List KnownNode} {expected : List TransitResource}
  {reservations : List ReservedTransitResource} {generation : Nat}
  {session : Nat} {hop : Hop} {used : List String}

theorem bindHop_ok {protocol : Protocol} {a : HopBinding} (hs : counterOk session)
    (h : bindHop digests f expected reservations generation session hop protocol=.ok a) :
    (a.nodeId=hop.nodeId ∧ a.role=hop.role ∧ a.protocol=protocol) ∧
      Bound expected reservations generation a := by
  unfold bindHop at h
  split at h
  · cases h
  · rename_i resource hfind
    split at h
    · rename_i slot hslot
      simp only [do_ok,not_or,not_not,Bool.not_eq_false] at h
      obtain ⟨⟨-,hfence⟩,hgeneration,rfl⟩ := h
      have hmem := List.mem_of_find?_eq_some hfind
      have hkey := List.find?_some hfind
      simp only [Bool.decide_and,bool_ok] at hkey
      have hheld : slot∈reservations.filter fun r => r.holds f resource := by
        rw [hslot]
        exact List.mem_singleton_self _
      obtain ⟨hin,hholds⟩ := List.mem_filter.mp hheld
      simp only [ReservedTransitResource.holds,bool_ok] at hholds
      exact ⟨⟨rfl,rfl,rfl⟩,hmem,hkey.1,hkey.2,hfence,hs,slot,hin,hholds.1,rfl,hgeneration⟩
    · cases h

theorem identity_ok {node : KnownNode} {bound : Int}
    (h : identity c nodes used hop=.ok (node,bound)) : counterOk node.sessionEpoch := by
  unfold identity at h
  split at h
  · cases h
  · split at h
    · simp only [do_ok,not_or,Bool.not_eq_false,Prod.mk.injEq] at h
      obtain ⟨⟨-,-,hs,-⟩,rfl,-⟩ := h
      exact hs
    · cases h

def HopBinding.place (a : HopBinding) : String×HopRole×Protocol := (a.nodeId,a.role,a.protocol)

theorem bindEach_place {protocols : List Protocol} {own : List HopBinding} (hs : counterOk session)
    (h : protocols.mapM (bindHop digests f expected reservations generation session hop)=.ok own) :
    own.map HopBinding.place=protocols.map fun protocol => (hop.nodeId,hop.role,protocol) := by
  have hall := forall₂_mapM_ok h
  clear h
  induction hall with
  | nil => rfl
  | cons ha _ ih =>
    obtain ⟨⟨hnode,hrole,hprotocol⟩,-⟩ := bindHop_ok hs ha
    rw [List.map_cons,List.map_cons,ih]
    simp only [HopBinding.place,hnode,hrole,hprotocol]

theorem bindHops_ok {until_ last : Int} {assignments : List HopBinding}
    (h : bindHops digests c f nodes expected reservations generation used until_ route=
      .ok (assignments,last)) : assignments.map HopBinding.place=
      (places f route).map (fun at_ => (at_.1.nodeId,at_.1.role,at_.2)) ∧
    (∀a∈assignments, Bound expected reservations generation a) ∧ last ≤ until_ := by
  induction route generalizing used until_ assignments with
  | nil =>
    obtain ⟨rfl,rfl⟩ := Prod.mk.inj (Except.ok.inj h)
    exact ⟨rfl,nofun,le_refl _⟩
  | cons hop route ih =>
    simp only [bindHops,do_ok,Prod.mk.injEq] at h
    obtain ⟨⟨node,bound⟩,hnode,own,hown,⟨more,end_⟩,hrest,rfl,rfl⟩ := h
    obtain ⟨hmap,hbound,hlast⟩ := ih hrest
    have hs := identity_ok hnode
    have hplaces := bindEach_place hs hown
    refine ⟨?_,?_,hlast.trans (min_le_left _ _)⟩
    · rw [List.map_append,hplaces,hmap]
      simp [places]
    · intro a ha
      rcases List.mem_append.mp ha with ha | ha
      · obtain ⟨protocol,-,hok⟩ := mem_mapM_ok hown ha
        exact (bindHop_ok hs hok).2
      · exact hbound a ha

/-- A plan as the compiler returns it. -/
structure Prepared (digests : PlanDigests ι) (now : Int) (f : Forward)
    (expected : List TransitResource) (reservations : List ReservedTransitResource)
    (plan : TransitPreparation ι) : Prop where
  compiled : Compiled f expected
  count : reservations.length=expected.length
  identity : plan.scopeId=f.scopeId ∧ plan.forwardId=f.id ∧ plan.forwardRevision=f.revision
  order : plan.activationOrder=f.path.reverse
  digest : plan.planDigest=digests.body plan.toPlanBody
  authorization : safe plan.authorizationUntil ∧ safe now ∧ now < plan.authorizationUntil
  assigned : plan.assignments.map HopBinding.place=
    (places f (hops f.path)).map (fun at_ => (at_.1.nodeId,at_.1.role,at_.2))
  bound : ∀a∈plan.assignments, Bound expected reservations plan.deploymentGeneration a

theorem compileTransitPreparation_ok {profile : String×Nat} {endpoints : List (String×Endpoint)}
    {plan : TransitPreparation ι}
    (h : compileTransitPreparation digests c f profile nodes endpoints reservations=
      .ok plan) : ∃expected, Prepared digests c.now f expected reservations plan := by
  simp only [compileTransitPreparation,do_ok,not_or,not_not,Bool.not_eq_false,Int.not_le] at h
  obtain ⟨⟨hnow,-⟩,expected,hexpected,⟨hcount,-⟩,⟨assignments,until_⟩,hbind,⟨-,hlater⟩,intents,-,
    rfl⟩ := h
  obtain ⟨hplaces,hbound,hlast⟩ := bindHops_ok hbind
  refine ⟨expected,compileTransitResources_ok hexpected,hcount,⟨rfl,rfl,rfl⟩,rfl,rfl,⟨?_,hnow,hlater⟩,
    hplaces,hbound⟩
  simp only [safe,bool_ok] at hnow ⊢
  dsimp only at hlater hlast ⊢
  omega

end

end TuneX.Control.Transit
