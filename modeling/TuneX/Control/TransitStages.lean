import TuneX.Control.TransitHoldings
import Mathlib.Data.List.ProdSigma
import Mathlib.Data.List.Nodup

namespace TuneX.Control.Transit

open Framework
open Agent (counterOk)

theorem Forward.valid_protocols {f : Forward} (h : f.valid) : f.protocols.Nodup ∧ f.protocols≠[] := by
  simp only [Forward.valid,bool_ok] at h
  have hmem := h.1.1.1.2
  simp only [mem_list] at hmem
  rcases hmem with hp | hp | hp <;> rw [hp] <;> exact ⟨by decide,by decide⟩

theorem Forward.valid_revision {f : Forward} (h : f.valid) : counterOk f.revision := by
  simp only [Forward.valid,Bool.and_eq_true] at h
  exact h.1.1.1.1

theorem places_product (f : Forward) (path : List String) :
    (places f (hops path)).map (fun at_ => (at_.1.nodeId,at_.2))=path.product f.protocols := by
  conv_rhs => rw [← hops_nodeId path]
  unfold places List.product
  rw [List.map_flatMap,List.flatMap_map]
  simp only [List.map_map]
  rfl

namespace Prepared

variable {ι : Type} {digests : PlanDigests ι} {now : Int} {f : Forward}
  {expected : List TransitResource} {reservations : List ReservedTransitResource}
  {plan : TransitPreparation ι}

theorem keys (k : Prepared digests now f expected reservations plan) :
    plan.assignments.map (fun a => (a.nodeId,a.protocol))=f.path.product f.protocols := by
  have h := congrArg (List.map fun p : String×HopRole×Protocol => (p.1,p.2.2)) k.assigned
  rw [List.map_map,List.map_map] at h
  rw [← places_product f f.path]
  exact h

theorem keys_nodup (k : Prepared digests now f expected reservations plan) :
    (plan.assignments.map fun a => (a.nodeId,a.protocol)).Nodup := by
  rw [k.keys]
  exact List.Nodup.product k.compiled.nodes (Forward.valid_protocols k.compiled.valid).1

variable {a : HopBinding}

section

variable (k : Prepared digests now f expected reservations plan)
include k

theorem placed (ha : a∈plan.assignments) : ∃hop∈hops f.path, hop.role=a.role ∧
      Placed (hop,a.protocol) a.resource := by
  have hb := k.bound a ha
  have hplace : a.place∈plan.assignments.map HopBinding.place := List.mem_map_of_mem ha
  rw [k.assigned] at hplace
  obtain ⟨at_,hat,heq⟩ := List.mem_map.mp hplace
  obtain ⟨hnode,hrole,-⟩ : at_.1.nodeId=a.nodeId ∧ at_.1.role=a.role ∧ at_.2=a.protocol := by
    simpa [HopBinding.place] using heq
  obtain ⟨bt,hbt,hp⟩ := k.compiled.placed a.resource hb.resource
  have hsame : at_.1=bt.1 :=
    hops_same k.compiled.nodes (mem_places.mp hat).1 (mem_places.mp hbt).1
      (by rw [hnode,← hb.node,hp.node])
  have hprotocol : bt.2=a.protocol := by
    rw [← hp.protocol,hb.protocol]
  refine ⟨at_.1,(mem_places.mp hat).1,hrole,?_⟩
  rw [hsame,← hprotocol]
  exact hp

theorem fine (ha : a∈plan.assignments) : a.wrong=false := by
  have hb := k.bound a ha
  obtain ⟨hop,hhop,hrole,hp⟩ := k.placed ha
  have hingress := hops_role hhop
  have hphysical := hp.physical
  rw [hrole] at hingress
  have hresource : a.resource.role=a.role := by rw [hp.role,hrole]
  by_cases h0 : hop.index=0
  · rw [if_pos h0] at hphysical
    simp [HopBinding.wrong,hb.fence,hb.session,hb.node,hb.protocol,hresource,hingress.mpr h0,hphysical]
  · rw [if_neg h0] at hphysical
    have hrole' : a.role≠.ingress := fun h => h0 (hingress.mp h)
    simp [HopBinding.wrong,hb.fence,hb.session,hb.node,hb.protocol,hresource,hrole',hphysical]

theorem socket_eq (ha : a∈plan.assignments) : a.socket=a.resource.socket := by
  unfold HopBinding.socket TransitResource.socket
  rw [(k.bound a ha).node]

theorem sockets_nodup : (plan.assignments.map HopBinding.socket).Nodup := by
  refine List.Nodup.map_on ?_ (List.Nodup.of_map _ k.keys_nodup)
  intro a ha b hb hsocket
  rw [k.socket_eq ha,k.socket_eq hb] at hsocket
  have hresource : a.resource=b.resource :=
    List.inj_on_of_nodup_map k.compiled.sockets (k.bound a ha).resource (k.bound b hb).resource
      hsocket
  apply List.inj_on_of_nodup_map k.keys_nodup ha hb
  rw [← (k.bound a ha).node,← (k.bound b hb).node,← (k.bound a ha).protocol,
    ← (k.bound b hb).protocol,hresource]

theorem nodeIds_perm : plan.nodeIds.Perm f.path := by
  apply (List.perm_ext_iff_of_nodup (List.nodup_dedup _) k.compiled.nodes).mpr
  intro node
  have hnodes : plan.assignments.map HopBinding.nodeId=
      (f.path.product f.protocols).map Prod.fst := by
    rw [← k.keys,List.map_map]
    rfl
  obtain ⟨protocol,hprotocol⟩ :=
    List.exists_mem_of_ne_nil _ (Forward.valid_protocols k.compiled.valid).2
  rw [List.mem_dedup,hnodes,List.mem_map]
  constructor
  · rintro ⟨⟨n,p⟩,hmem,rfl⟩
    exact (List.pair_mem_product.mp hmem).1
  · intro hnode
    exact ⟨(node,protocol),List.pair_mem_product.mpr ⟨hnode,hprotocol⟩,rfl⟩

theorem sockets_perm :
    (plan.assignments.map HopBinding.socket).Perm (reservations.map fun r => r.socket) := by
  have hsub : plan.assignments.map HopBinding.socket⊆reservations.map fun r => r.socket := by
    intro socket hsocket
    obtain ⟨a,ha,rfl⟩ := List.mem_map.mp hsocket
    obtain ⟨slot,hslot,hresource,-⟩ := (k.bound a ha).slot
    rw [k.socket_eq ha,← hresource]
    exact List.mem_map_of_mem (f := fun r : ReservedTransitResource => r.socket) hslot
  have hlength : plan.assignments.length=(places f (hops f.path)).length := by
    simpa using congrArg List.length k.assigned
  apply (List.subperm_of_subset k.sockets_nodup hsub).perm_of_length_le
  rw [List.length_map,List.length_map,k.count,k.compiled.length,hlength]

end

end Prepared

structure Accepted {ι : Type} (digests : PlanDigests ι) (w w' : Staging ι) (c : Surroundings ι)
    (id : String) (f : Forward) (expected : List TransitResource)
    (reservations : List ReservedTransitResource) (row : TransitStageRow ι) : Prop where
  forward : c.forward id=some f ∧ f.id=id ∧ f.scopeId=c.scopeId
  newest : ∀old, w.newest id=some old → old.state=.aborted ∧ old.generation < row.generation
  held : HeldAll id row.generation w.slots w'.slots reservations
  prepared : Prepared digests c.now f expected reservations row.body
  identity : row.forwardId=id ∧ row.scopeId=f.scopeId ∧ row.targetRevision=f.revision
  state : row.state=.reserved
  generation : counterOk row.generation
  digest : row.planDigest=row.body.planDigest
  times : row.createdAt=c.now ∧ c.now+10000 < row.expiresAt ∧
    row.expiresAt ≤ row.body.authorizationUntil
  stages : w'.stages=w.stages.insert id (w.rows id++[row])
  journals : w'.journals=w.journals

section
variable {ι : Type} {digests : PlanDigests ι} {before : TransitResource→TransitResource→Bool}
  {w w' : Staging ι} {c : Surroundings ι} {id : String} {f : Forward}

theorem Staging.lockedForward_ok (h : Staging.lockedForward c id=.ok f) :
    c.forward id=some f ∧ f.id=id ∧ f.scopeId=c.scopeId := by
  unfold lockedForward at h
  split at h
  · cases h
  · rename_i g hg
    simp only [do_ok,not_or,not_not] at h
    obtain ⟨⟨hid,hscope⟩,rfl⟩ := h
    exact ⟨hg,hid,hscope⟩

theorem Staging.checkNewest_ok {old : Option (TransitStageRow ι)}
    (h : Staging.checkNewest f old=.ok ()) {r : TransitStageRow ι} (hr : old=some r) :
    r.state=.aborted := by
  subst hr
  simp only [checkNewest,do_ok] at h
  cases hs : r.state with
  | reserved => exact absurd hs h.2
  | aborted => rfl

theorem Staging.stage_ok {expectedRevision : Nat} {plan : TransitPreparation ι}
    (h : w.stage digests before c id expectedRevision=.ok (w',plan)) :
    ∃f expected reservations row, Accepted digests w w' c id f expected reservations row ∧
      row.body=plan := by
  simp only [stage,do_ok,Prod.mk.injEq] at h
  obtain ⟨-,f,hf,-,-,route,-,-,hnewest,hgeneration,-,profile,-,nodes,-,endpoints,-,ports,-,resources,
    -,-,⟨slots,reservations⟩,hreserve,found,hplan,hexpiry,rfl,rfl⟩ := h
  obtain ⟨hforward,rfl,hscope⟩ := lockedForward_ok hf
  obtain ⟨expected,k⟩ := compileTransitPreparation_ok hplan
  have hheld := reserveTransitResources_ok hreserve
  rw [not_or,Bool.not_eq_false] at hgeneration
  refine ⟨f,expected,reservations,_,⟨⟨hforward,rfl,hscope⟩,?_,hheld,k,⟨rfl,hscope.symm,rfl⟩,rfl,
    hgeneration.1,rfl,⟨rfl,Int.not_le.mp hexpiry,min_le_left _ _⟩,rfl,rfl⟩,rfl⟩
  intro old hold
  refine ⟨checkNewest_ok hnewest hold,?_⟩
  show old.generation < max f.revision (((w.newest f.id).map fun r => r.generation).getD 0+1)
  rw [hold]
  exact lt_of_lt_of_le (Nat.lt_succ_self _) (le_max_right _ _)

end

namespace Accepted

variable {ι : Type} {digests : PlanDigests ι} {w w' : Staging ι} {c : Surroundings ι}
  {id : String} {f : Forward} {expected : List TransitResource}
  {reservations : List ReservedTransitResource} {row : TransitStageRow ι}

section

variable (k : Accepted digests w w' c id f expected reservations row)
include k

theorem slot {a : HopBinding} (ha : a∈row.body.assignments) : (w.slots.at_ a.socket).ownerId=none ∧
      a.bindingFence=(w.slots.at_ a.socket).fence+1 ∧
      w'.slots.lookup a.socket=some ⟨some id,a.bindingFence,row.generation⟩ := by
  obtain ⟨slot,hslot,hresource,hfence,-⟩ := (k.prepared.bound a ha).slot
  have hheld := k.held.held slot hslot
  have hsocket : a.socket=slot.socket := by
    rw [k.prepared.socket_eq ha,← hresource]
  rw [hsocket,← hfence]
  exact ⟨hheld.unowned,hheld.fence,hheld.stored⟩

theorem frame {socket : String×Protocol×Nat} (h : socket∉row.body.assignments.map HopBinding.socket) :
    w'.slots.lookup socket=w.slots.lookup socket := by
  apply k.held.frame
  rintro r hr rfl
  apply h
  rw [k.prepared.sockets_perm.mem_iff]
  exact List.mem_map_of_mem (f := fun r : ReservedTransitResource => r.socket) hr

theorem deployment : row.body.deploymentGeneration=row.generation := by
  have hkeys := k.prepared.keys
  have hne : row.body.assignments≠[] := by
    intro hnil
    have hperm := k.prepared.nodeIds_perm.length_eq
    have hshort := k.prepared.compiled.short
    rw [PlanBody.nodeIds,hnil] at hperm
    simp only [List.map_nil,List.dedup_nil,List.length_nil] at hperm
    omega
  obtain ⟨a,ha⟩ := List.exists_mem_of_ne_nil _ hne
  obtain ⟨slot,hslot,-,-,hgeneration⟩ := (k.prepared.bound a ha).slot
  rw [← hgeneration]
  exact (k.held.held slot hslot).deployment

theorem verified : verifyTransitStage digests.body row=.ok row.body := by
  have hp := k.prepared
  have hsize := hp.nodeIds_perm.length_eq
  have hshort := hp.compiled.short
  have hlong := hp.compiled.long
  obtain ⟨hsafe,hnow,hlater⟩ := hp.authorization
  obtain ⟨hcreated,hexpires,hbound⟩ := k.times
  have hreverse : f.path.reverse.Nodup := List.nodup_reverse.mpr hp.compiled.nodes
  have hsafe' : safe row.expiresAt := by
    simp only [safe,bool_ok] at hsafe hnow ⊢
    omega
  simp only [verifyTransitStage,do_ok,not_or,not_not,Bool.not_eq_false,hp.order]
  refine ⟨⟨k.generation,?_,hsafe',?_,hsafe⟩,⟨k.digest.symm,?_,?_,?_,?_,k.deployment,?_⟩,
    ⟨?_,?_,hp.sockets_nodup,hp.keys_nodup,?_,?_,?_,?_⟩,trivial⟩
  · rw [k.identity.2.2]
    exact Forward.valid_revision hp.compiled.valid
  · omega
  · rw [k.digest,hp.digest]
  · rw [hp.identity.2.1,k.identity.1,k.forward.2.1]
  · rw [hp.identity.1,k.identity.2.1]
  · rw [hp.identity.2.2,k.identity.2.2]
  · omega
  · omega
  · omega
  · rw [hsize,List.length_reverse]
  · rw [hreverse.dedup,hsize,List.length_reverse]
  · rintro ⟨node,hnode,hout⟩
    exact hout (hp.nodeIds_perm.mem_iff.mpr (List.mem_reverse.mp hnode))
  · rintro ⟨a,ha,hwrong⟩
    rw [hp.fine ha] at hwrong
    cases hwrong

end

end Accepted

end TuneX.Control.Transit
