import TuneX.Control.Operations
import TuneX.Control.Credentials

namespace TuneX.Control

open Framework

variable {s t : State} {f : Forward} {now g : Nat} {n : NodeId} {e : Event} {a : Assignment}

/-- Every Node of a plan has a credential that some assignment of the plan pins. -/
def Plan.Pinned (p : Plan) : Prop :=
  ∀node∈p.nodes, ∃part∈p.nodes, ∃a∈part.assignments, ∃pin∈pinnedPeers a, pin.1=node.nodeId

variable {actor : ActorId} {facts : ExecutionFacts} {b : Bool} {i : PlanInput} {plan : Plan}
  {id : ForwardId} {row : ForwardRow} {l : List Assignment}

theorem executionFacts_some {scope : ScopeId} (h : s.executionFacts now actor scope n=some facts) :
    facts.nodeId=n ∧
      s.relayCredentialFacts now n true=some facts.peers := by
  simp only [State.executionFacts,do_some] at h
  obtain ⟨row,-,peers,hpeers,h⟩ := h
  rw [Option.ite_none_right_eq_some] at h
  cases h.2
  exact ⟨rfl,hpeers⟩

theorem facts_mem {l : List ExecutionFacts} (h : s.facts now actor f=some l) (hm : facts∈l) :
    s.relayCredentialFacts now facts.nodeId true=some facts.peers := by
  unfold State.facts at h
  split_ifs at h
  obtain ⟨m,-,hfacts⟩ := mem_forall₂ (forall₂_mapM_some h) hm
  obtain ⟨rfl,hpeers⟩ := executionFacts_some hfacts
  exact hpeers

theorem relayCredentialFacts_some {l : List Peer} (h : s.relayCredentialFacts now n b=some l) :
    l=((s.world.relayCredentials n).filter fun c => now < c.validUntil && !(b && c.retiring)).map
      (fun c => ⟨c.fingerprint,min c.validUntil (s.world.credentialUntil n)⟩) ∧
      s.nodeAuthorized now n ∧ l≠[] := by
  unfold State.relayCredentialFacts at h
  dsimp only at h
  rw [Option.ite_none_right_eq_some] at h
  obtain ⟨hc,h⟩ := h
  cases h
  simp only [bool_ok] at hc
  refine ⟨rfl,hc.1.1,?_⟩
  intro hnil
  rw [List.map_eq_nil_iff] at hnil
  have hpos := hc.1.2
  rw [hnil] at hpos
  simp at hpos

theorem planInput_facts {previous : Option Plan} {own : Option ForwardId}
    (h : s.planInput now actor f previous own=some i) : s.facts now actor f=some i.nodes := by
  simp only [State.planInput,do_some] at h
  obtain ⟨nodes,hn,reference,-,profile,-,endpoints,-,ports,-,rfl⟩ := h
  exact hn

theorem compilePlan_config {l : List Reserved} {p : Plan} {node : PlanNode} {index : Nat}
    (h : compilePlan now f g i l=some p) (hnode : p.nodes[index]?=some node) :
    f.spec.path[index]?=some node.nodeId ∧ ∃reference, ∀q∈f.spec.protocols, ∃a∈node.assignments,
      hopConfig now f i index reference l q=some a.config := by
  obtain ⟨-,reference,hn⟩ := compilePlan_some h
  obtain ⟨x,hx,hplan⟩ := forall₂_at hn hnode
  rw [List.getElem?_zipIdx,Option.map_eq_some_iff] at hx
  obtain ⟨m,hm,rfl⟩ := hx
  simp only [planNode,do_some] at hplan
  obtain ⟨facts,-,assignments,hassign,rfl⟩ := hplan
  refine ⟨hm,reference,?_⟩
  intro q hq
  obtain ⟨a,ha,hqa⟩ := mem_forall₂ (forall₂_mapM_some hassign).flip hq
  simp only [do_some] at hqa
  obtain ⟨r,-,config,hconfig,rfl⟩ := hqa
  rw [Nat.zero_add] at hconfig
  exact ⟨_,ha,hconfig⟩

/-- The credentials of a Node that a plan counts on. -/
def ExecutionFacts.pinned (now : Nat) (multihop : Bool) (e : ExecutionFacts) : List Peer :=
  if multihop then (e.pin now).toList else e.peers

/-- The credentials that a plan pins for one Node, each once. -/
def Plan.pins (p : Plan) (m : NodeId) : List Fingerprint :=
  ((p.nodes.flatMap fun part => part.assignments.flatMap pinnedPeers).filter
    fun pin => pin.1=m).map Prod.snd |>.dedup

theorem mem_pins {x : Fingerprint} : x∈plan.pins n ↔
    ∃node∈plan.nodes, ∃a∈node.assignments, (n,x)∈pinnedPeers a := by
  simp only [Plan.pins,List.mem_dedup,List.mem_map,List.mem_filter,List.mem_flatMap,
    decide_eq_true_eq]
  constructor
  · rintro ⟨⟨m,y⟩,⟨⟨node,hnode,a,ha,hpin⟩,rfl⟩,rfl⟩
    exact ⟨node,hnode,a,ha,hpin⟩
  · rintro ⟨node,hnode,a,ha,hpin⟩
    exact ⟨(n,x),⟨⟨node,hnode,a,ha,hpin⟩,rfl⟩,rfl⟩

section Configured

variable {reserved : List Reserved} {index : Nat} {reference : ProfileRef} {q : Protocol}

theorem multihopConfig_pinned (h : multihopConfig now f i index reference reserved q=some a.config)
    (pin : NodeId×Fingerprint) : pin∈pinnedPeers a ↔ ∃m∈f.spec.path, ∃e, i.node m=some e ∧
      ∃p, e.pin now=some p ∧ pin=(m,p.fingerprint) := by
  simp only [multihopConfig,do_some] at h
  obtain ⟨n,-,facts,-,path,hpath,hconfig⟩ := h
  have hhops := forall₂_mapM_some hpath
  have hpinned : pinnedPeers a=path.map fun hop => (hop.nodeId,hop.peerFingerprint) := by
    unfold pinnedPeers
    rw [← hconfig]
  rw [hpinned,List.mem_map]
  constructor
  · rintro ⟨hop,hhop,rfl⟩
    obtain ⟨m,hm,hnode⟩ := mem_forall₂ hhops hhop
    simp only [hopNode,do_some] at hnode
    obtain ⟨e,he,p,hp,r,-,rfl⟩ := hnode
    exact ⟨m,hm,e,he,p,hp,rfl⟩
  · rintro ⟨m,hm,e,he,p,hp,rfl⟩
    obtain ⟨hop,hhop,hnode⟩ := mem_forall₂ hhops.flip hm
    simp only [hopNode,do_some] at hnode
    obtain ⟨e',he',p',hp',r,-,rfl⟩ := hnode
    rw [he] at he'
    cases he'
    rw [hp] at hp'
    cases hp'
    exact ⟨_,hhop,rfl⟩

theorem relayConfig_pinned (h : relayConfig f i index reference reserved q=some a.config) :
    ∃m e policy dial, f.spec.path[1-index]?=some m ∧ i.node m=some e ∧
      a.config=.relay m (e.peers.map (·.fingerprint)) reference policy dial := by
  simp only [relayConfig,do_some] at h
  obtain ⟨n,-,m,hm,facts,-,e,he,hdial⟩ := h
  split_ifs at hdial
  · simp only [do_some] at hdial
    obtain ⟨endpoint,-,r,-,dial,-,hconfig⟩ := hdial
    exact ⟨m,e,facts.facts.policy,dial,hm,he,hconfig.symm⟩
  · exact ⟨m,e,facts.facts.policy,f.spec.target,hm,he,(Option.some.inj hdial).symm⟩

end Configured

namespace State.Accepted

variable {e : ExecutionFacts}

section

variable (acc : s.Accepted now actor f t)
include acc

theorem node_facts (he : e∈acc.input.nodes) :
    e.nodeId∈f.spec.path ∧ s.executionFacts now actor f.scopeId e.nodeId=some e := by
  have hfacts := planInput_facts acc.input_eq
  unfold State.facts at hfacts
  split_ifs at hfacts
  obtain ⟨m,hm,hn⟩ := mem_forall₂ (forall₂_mapM_some hfacts) he
  obtain ⟨rfl,-⟩ := executionFacts_some hn
  exact ⟨hm,hn⟩

theorem path_facts (hn : n∈f.spec.path) : ∃e∈acc.input.nodes, e.nodeId=n := by
  have hfacts := planInput_facts acc.input_eq
  unfold State.facts at hfacts
  split_ifs at hfacts
  obtain ⟨e,he,hm⟩ := mem_forall₂ (forall₂_mapM_some hfacts).flip hn
  exact ⟨e,he,(executionFacts_some hm).1⟩

theorem node_eq (he : e∈acc.input.nodes) : acc.input.node e.nodeId=some e := by
  cases hfound : acc.input.node e.nodeId with
  | none =>
    have hnot := List.find?_eq_none.mp hfound e he
    simp at hnot
  | some d =>
    have hid : d.nodeId=e.nodeId := by simpa using List.find?_some hfound
    have hd := (acc.node_facts (List.mem_of_find?_eq_some hfound)).2
    rw [hid,(acc.node_facts he).2] at hd
    exact hd.symm

theorem plan_node (he : e∈acc.input.nodes) : ∃node∈acc.plan.nodes, node.nodeId=e.nodeId := by
  have hmem := (acc.node_facts he).1
  rw [← compilePlan_ids acc.plan_eq] at hmem
  exact List.mem_map.mp hmem

theorem compiled : (∀e∈acc.input.nodes, (e.peers.map (·.fingerprint)).Nodup ∧
      e.pinned now (1<f.spec.via.length)≠[]) ∧
    acc.plan.authorizationUntil=
      (acc.input.nodes.map (nodeBound now (1<f.spec.via.length))).foldl min maxCounter := by
  have h := acc.plan_eq
  simp only [compilePlan,do_some] at h
  obtain ⟨reference,-,nodes,-,h⟩ := h
  rw [Option.ite_none_right_eq_some] at h
  obtain ⟨hc,h⟩ := h
  refine ⟨?_,(congrArg Plan.authorizationUntil (Option.some.inj h)).symm⟩
  intro e he
  have hnode := List.all_eq_true.mp hc e he
  simp only [bool_ok] at hnode
  refine ⟨hnode.1.2,?_⟩
  have hpeers := (relayCredentialFacts_some
    (executionFacts_some (acc.node_facts he).2).2).2.2
  unfold ExecutionFacts.pinned
  by_cases hmulti : 1<f.spec.via.length
  · have hpin := hnode.2
    rw [if_pos (by simpa using hmulti)] at hpin ⊢
    obtain ⟨p,hp⟩ := Option.isSome_iff_exists.mp hpin
    simp [hp]
  · rwa [if_neg (by simpa using hmulti)]

theorem pinned_pins (hv : f.spec.valid) (he : e∈acc.input.nodes) {p : Peer}
    (hp : p∈e.pinned now (1<f.spec.via.length)) : p.fingerprint∈acc.plan.pins e.nodeId := by
  obtain ⟨q,hq⟩ : ∃q, q∈f.spec.protocols := by
    simp only [Spec.valid,bool_ok] at hv
    apply List.exists_mem_of_ne_nil
    intro hnil
    simp [hnil] at hv
  obtain ⟨node,hnode,hid⟩ := acc.plan_node he
  obtain ⟨index,hindex⟩ := List.getElem?_of_mem hnode
  obtain ⟨hpath,reference,hconfig⟩ := compilePlan_config acc.plan_eq hindex
  rw [mem_pins]
  unfold ExecutionFacts.pinned at hp
  by_cases hmulti : 1<f.spec.via.length
  · rw [if_pos (by simpa using hmulti)] at hp
    obtain ⟨a,ha,hac⟩ := hconfig q hq
    rw [hopConfig,if_pos hmulti] at hac
    exact ⟨node,hnode,a,ha,(multihopConfig_pinned hac _).mpr
      ⟨e.nodeId,(acc.node_facts he).1,e,acc.node_eq he,p,Option.mem_toList.mp hp,rfl⟩⟩
  · rw [if_neg (by simpa using hmulti)] at hp
    have hlen := compilePathResources_length acc.resources_eq
    rw [if_neg hmulti] at hlen
    -- the other Node of the pair is the one that pins this one
    have hbound : index<2 := by
      have := (List.getElem?_eq_some_iff.mp hpath).1
      omega
    have hlength : acc.plan.nodes.length=2 := by
      rw [← List.length_map (fun node : PlanNode => node.nodeId),compilePlan_ids acc.plan_eq,hlen]
    have hother : 1-index<acc.plan.nodes.length := by omega
    obtain ⟨-,reference',hconfig'⟩ := compilePlan_config acc.plan_eq (List.getElem?_eq_getElem hother)
    obtain ⟨a,ha,hac⟩ := hconfig' q hq
    rw [hopConfig,if_neg hmulti] at hac
    obtain ⟨m,d,policy,dial,hm,hd,hrelay⟩ := relayConfig_pinned hac
    have hback : 1-(1-index)=index := by omega
    rw [hback,hpath,hid] at hm
    cases hm
    rw [acc.node_eq he] at hd
    cases hd
    refine ⟨_,List.getElem_mem hother,a,ha,?_⟩
    unfold pinnedPeers
    rw [hrelay]
    exact List.mem_map.mpr ⟨p.fingerprint,List.mem_map.mpr ⟨p,hp,rfl⟩,rfl⟩

theorem pinned (hv : f.spec.valid) : acc.plan.Pinned := by
  intro node hnode
  obtain ⟨e,he,hid⟩ := acc.path_facts (n := node.nodeId)
    (compilePlan_ids acc.plan_eq ▸ List.mem_map_of_mem hnode)
  obtain ⟨p,hp⟩ := List.exists_mem_of_ne_nil _ (acc.compiled.1 e he).2
  obtain ⟨part,hpart,a,ha,hpin⟩ := mem_pins.mp (acc.pinned_pins hv he hp)
  exact ⟨part,hpart,a,ha,_,hpin,hid⟩

end

end State.Accepted

/-- What the store keeps behind every publication of a Relay: plans that pin all their Nodes,
and an Operation for the revision of every intent. -/
structure Backing (s : State) : Prop where
  deployed : Deployed s
  queue : Queue s
  pinned : ∀id g d, s.deployments.lookup (id,g)=some d→d.plan.Pinned
  operated : ∀id row, s.forwards.lookup id=some row→∃o∈s.operations, o.forwardId=id ∧
    o.targetRevision=row.revision

theorem Backing.initial (w : World) : Backing (State.initial w) := by
  refine ⟨Deployed.initial w,Queue.initial w,?_,?_⟩
  all_goals simp [State.initial]

theorem State.Commanded.operated (c : s.Commanded now e t) : ∃o∈t.operations,
    o.forwardId=c.f.id ∧ o.targetRevision=c.f.revision := by
  have haccept : ∃o∈(s.accept now c.f c.kind).operations, o.id=s.operations.length ∧
      o.forwardId=c.f.id ∧ o.targetRevision=c.f.revision := by
    unfold State.accept
    exact ⟨_,List.mem_cons_self,rfl,rfl,rfl⟩
  obtain ⟨o,ho,-,hid,hrev⟩ := haccept
  obtain hops | ⟨-,hops⟩ := c.operations
  · exact ⟨o,hops ▸ ho,hid,hrev⟩
  · rw [hops]
    unfold State.denyIntent State.updateOperations
    refine ⟨_,List.mem_map_of_mem ho,?_⟩
    split_ifs <;> exact ⟨hid,hrev⟩

theorem Backing.acts {e : Nat×Event} (hs : Backing s) (h : Acts s e.1 e.2 t) : Backing t := by
  obtain ⟨hqueue,hworked⟩ := h.worked hs.queue
  have hkept : ∀id revision, (∃o∈s.operations, o.forwardId=id ∧ o.targetRevision=revision)→
      ∃o∈t.operations, o.forwardId=id ∧ o.targetRevision=revision := by
    rintro id revision ⟨o,ho,hid,hrev⟩
    obtain ⟨p,hp,hev⟩ := hworked.kept o ho
    exact ⟨p,hp,hev.forwardId.trans hid,hev.targetRevision.trans hrev⟩
  refine ⟨hs.deployed.acts h,hqueue,?_,?_⟩
  · intro id g d hd
    cases (h.redeploy hs.deployed.specs).origin hd with
    | kept hd₀ hp => exact hp ▸ hs.pinned id g _ hd₀
    | planned _ _ acc hv _ _ _ he =>
      subst he
      exact acc.pinned hv
  · intro id row hrow
    obtain hsame | ⟨-,halter⟩ | ⟨⟨c⟩⟩ := h.forwards
    · exact hkept id row.revision (hs.operated id row (hsame ▸ hrow))
    · rw [halter,Table.lookup_alter_some] at hrow
      obtain ⟨row₀,hrow₀,rfl⟩ := hrow
      exact hkept id row₀.revision (hs.operated id row₀ hrow₀)
    · rw [c.forwards] at hrow
      split_ifs at hrow with hid
      · cases hrow
        rw [hid,c.revision]
        exact c.operated
      · exact hkept id row.revision (hs.operated id row hrow)

theorem Backing.step {e : Nat×Event} (hs : Backing s) (h : Step s e t) : Backing t := by
  have hd := hs.deployed
  have hq := hs.queue
  exact Backing.acts (s := { s with clock := e.1 })
    ⟨hd.clock _,⟨hq.bounded,hq.ids,hq.rows,hq.ordered⟩,hs.pinned,hs.operated⟩
    (step_acts hd.specs h)

theorem run_backing {w : World} {l : List (Nat×Event)} (h : Run Step (State.initial w) l s) :
    Backing s :=
  h.invariant Backing (fun _ _ _ hab ha => ha.step hab) (Backing.initial w)

theorem Backing.newest {op : Operation} (hs : Backing s) (hrow : s.forwards.lookup id=some row)
    (hop : s.latest id=some op) : s.newestFor id row.revision=some op := by
  obtain ⟨hmem,hid,hlatest⟩ := hs.queue.latest hop
  obtain ⟨o,ho,hoid,horev⟩ := hs.operated id row hrow
  obtain ⟨row',hrow',hle⟩ := hs.queue.rows op hmem
  rw [hid,hrow] at hrow'
  cases hrow'
  have hrev : op.targetRevision=row.revision := by
    rcases hlatest o ho hoid with rfl|hold
    · exact horev
    · have := (hold (hid.trans hoid.symm)).1
      omega
  cases hn : s.newestFor id row.revision with
  | none =>
    rw [State.newestFor,first_eq_none,List.filter_eq_nil_iff] at hn
    exact absurd (by simp [hid,hrev]) (hn op hmem)
  | some p =>
    have hpmem := first_mem hn
    simp only [List.mem_filter,bool_ok] at hpmem
    have hin : op∈s.operations.filter fun o => o.forwardId=id && o.targetRevision=row.revision := by
      simp [hmem,hid,hrev]
    have hbefore := first_before (fun a b c hab hbc => by
        simp only [Operation.newestFirst,Bool.or_eq_true,bool_ok] at *
        omega) (fun a b => by
        simp only [Operation.newestFirst,Bool.or_eq_true,bool_ok]
        omega) hn op hin
    simp only [Operation.newestFirst,Bool.or_eq_true,bool_ok] at hbefore
    rcases hlatest p hpmem.1 hpmem.2.1 with rfl|hold
    · rfl
    · have := (hold (hid.trans hpmem.2.1.symm)).2.1
      omega

/-- The bound counts retiring credentials too: they are still few and different, and every
current credential is among them. -/
theorem relayCredentialFacts_all {l : List Peer}
    (hheld : Credentials.Held now (s.world.relayCredentials n))
    (h : s.relayCredentialFacts now n true=some l) :
    ∃all, s.relayCredentialFacts now n false=some all ∧ (all.map (·.fingerprint)).Nodup ∧
      (∀p∈l, p∈all) ∧ ∀p∈all, p.validUntil ≤ s.world.credentialUntil n := by
  obtain ⟨rfl,hauth,hne⟩ := relayCredentialFacts_some h
  obtain ⟨hnodup,htwo⟩ := hheld.spec
  have hone : 1≤((s.world.relayCredentials n).filter fun c => now < c.validUntil).length := by
    obtain ⟨c,cs,hcs⟩ := List.exists_cons_of_ne_nil (mt List.map_eq_nil_iff.mpr hne)
    have hc : c∈(s.world.relayCredentials n).filter fun c =>
        now < c.validUntil && !(true && c.retiring) := hcs ▸ List.mem_cons_self
    simp only [List.mem_filter,Bool.and_eq_true] at hc
    have hin : c∈(s.world.relayCredentials n).filter fun c => now < c.validUntil :=
      List.mem_filter.mpr ⟨hc.1,hc.2.1⟩
    exact List.length_pos_of_mem hin
  refine ⟨((s.world.relayCredentials n).filter fun c => now < c.validUntil).map
    (fun c => ⟨c.fingerprint,min c.validUntil (s.world.credentialUntil n)⟩),?_,?_,?_,?_⟩
  · unfold State.relayCredentialFacts
    simp only [Bool.false_and,Bool.not_false,Bool.and_true,hauth,Bool.true_and]
    rw [if_pos]
    simp only [bool_ok]
    exact ⟨hone,htwo⟩
  · rw [List.map_map]
    exact hnodup.sublist (List.filter_sublist.map _)
  · intro p hp
    obtain ⟨c,hc,rfl⟩ := List.mem_map.mp hp
    simp only [List.mem_filter,Bool.and_eq_true] at hc
    exact List.mem_map_of_mem (List.mem_filter.mpr ⟨hc.1,hc.2.1⟩)
  · intro p hp
    obtain ⟨c,-,rfl⟩ := List.mem_map.mp hp
    exact min_le_right _ _

theorem authorized_pins (h : s.authorized now row f plan) :
    now+2*maxClockSkewMillis<plan.authorizationUntil ∧ ∃actor facts,
      s.facts now actor f=some facts ∧ ∀node∈plan.nodes, ∀a∈node.assignments,
        ∀pin∈pinnedPeers a, pinHolds now facts pin := by
  obtain ⟨actor,-,-,huntil,-,facts,hf,hplan⟩ := authorized_some h
  simp only [schema_ok,Bool.or_eq_true,Bool.not_eq_true'] at hplan
  refine ⟨huntil,actor,facts,hf,?_⟩
  intro node hnode a ha pin hpin
  cases hp : plan.path with
  | none =>
    have hunchanged := hplan.2 node hnode
    simp only [nodeUnchanged,Option.any_eq_true,schema_ok,hp] at hunchanged
    obtain ⟨facts',-,-,hall⟩ := hunchanged
    have hpins := (hall a ha).2
    simp only [Option.isSome_none,Bool.false_or,List.all_eq_true] at hpins
    exact hpins pin hpin
  | some path =>
    have hchanged := hplan.1.resolve_left (by simp [hp])
    unfold pinsChanged at hchanged
    rw [List.any_eq_false] at hchanged
    have hnodes := hchanged node hnode
    rw [Bool.not_eq_true,List.any_eq_false] at hnodes
    have hpins := hnodes a ha
    simp only [hp,Option.isSome_some,if_true,Bool.not_eq_true',Bool.not_eq_false,
      List.all_eq_true] at hpins
    exact hpins pin hpin

theorem pinHolds_credential {facts : List ExecutionFacts} {pin : NodeId×Fingerprint}
    (hheld : ∀m, Credentials.Held now (s.world.relayCredentials m))
    (hf : s.facts now actor f=some facts) (h : pinHolds now facts pin) :
    ∃all, s.relayCredentialFacts now pin.1 false=some all ∧ (all.map (·.fingerprint)).Nodup ∧
      ∃p∈all, p.fingerprint=pin.2 ∧ now+maxClockSkewMillis<p.validUntil ∧
        p.validUntil ≤ s.world.credentialUntil pin.1 := by
  unfold pinHolds at h
  rw [Option.any_eq_true] at h
  obtain ⟨e,he,hany⟩ := h
  have hid : e.nodeId=pin.1 := by simpa using List.find?_some he
  have hpeers := facts_mem hf (List.mem_of_find?_eq_some he)
  rw [hid] at hpeers
  obtain ⟨all,hall,hnodup,hsub,hle⟩ := relayCredentialFacts_all (hheld pin.1) hpeers
  rw [List.any_eq_true] at hany
  obtain ⟨p,hp,hpin⟩ := hany
  simp only [bool_ok] at hpin
  exact ⟨all,hall,hnodup,p,hsub p hp,hpin.1,hpin.2,hle p (hsub p hp)⟩

theorem filter_length {all : List Peer} {pinned : List Fingerprint}
    (hnodup : (all.map (·.fingerprint)).Nodup) (hpinned : pinned.Nodup)
    (hfound : ∀x∈pinned, ∃p∈all, p.fingerprint=x) :
    (all.filter fun p => pinned.contains p.fingerprint).length=pinned.length := by
  have hperm : ((all.filter fun p => pinned.contains p.fingerprint).map (·.fingerprint)).Perm pinned := by
    rw [List.perm_ext_iff_of_nodup (hnodup.sublist (List.filter_sublist.map _)) hpinned]
    intro x
    simp only [List.mem_map,List.mem_filter,List.contains_iff_mem]
    constructor
    · rintro ⟨p,⟨-,hp⟩,rfl⟩
      exact hp
    · intro hx
      obtain ⟨p,hp,rfl⟩ := hfound x hx
      exact ⟨p,⟨hp,hx⟩,rfl⟩
  rw [← hperm.length_eq,List.length_map]

theorem planBound_some (hheld : ∀m, Credentials.Held now (s.world.relayCredentials m))
    (hpinned : plan.Pinned) (h : s.authorized now row f plan) :
    ∃b, s.planBound now plan=some b ∧ now+maxClockSkewMillis<b := by
  obtain ⟨huntil,actor,facts,hf,hpins⟩ := authorized_pins h
  have hnode : ∀node∈plan.nodes, ∃b, (do
      let peers ← s.relayCredentialFacts now node.nodeId false
      let credentials := peers.filter fun p => (plan.pins node.nodeId).contains p.fingerprint
      if credentials.length=(plan.pins node.nodeId).length then
        some ((credentials.map (·.validUntil)).foldl min (s.world.credentialUntil node.nodeId))
      else none)=some b ∧ now+maxClockSkewMillis<b := by
    intro node hnode
    obtain ⟨part,hpart,a,ha,pin,hpin,hid⟩ := hpinned node hnode
    obtain ⟨all,hall,hnodup,p,-,-,hlong,hle⟩ :=
      pinHolds_credential hheld hf (hpins part hpart a ha pin hpin)
    rw [hid] at hall hle
    -- every name that the plan pins for this Node is one of these credentials
    have hfound : ∀x∈plan.pins node.nodeId, ∃p∈all, p.fingerprint=x ∧
        now+maxClockSkewMillis<p.validUntil := by
      intro x hx
      rw [Plan.pins,List.mem_dedup] at hx
      obtain ⟨pin',hpin',rfl⟩ := List.mem_map.mp hx
      simp only [List.mem_filter,List.mem_flatMap,decide_eq_true_eq] at hpin'
      obtain ⟨⟨part',hpart',a',ha',hin⟩,hid'⟩ := hpin'
      obtain ⟨all',hall',-,p',hp',hfp,hlong',-⟩ :=
        pinHolds_credential hheld hf (hpins part' hpart' a' ha' pin' hin)
      rw [hid',hall] at hall'
      cases hall'
      exact ⟨p',hp',hfp,hlong'⟩
    have hlength := filter_length hnodup (List.nodup_dedup _) fun x hx =>
      (hfound x hx).imp fun p hp => ⟨hp.1,hp.2.1⟩
    refine ⟨((all.filter fun p => (plan.pins node.nodeId).contains p.fingerprint).map
      (·.validUntil)).foldl min (s.world.credentialUntil node.nodeId),?_,?_⟩
    · simp only [hall,Option.bind_eq_bind,Option.bind_some]
      exact if_pos hlength
    · apply lt_foldl_min (hlong.trans_le hle)
      intro x hx
      obtain ⟨c,hc,rfl⟩ := List.mem_map.mp hx
      simp only [List.mem_filter,List.contains_iff_mem] at hc
      obtain ⟨p',hp',hfp,hlong'⟩ := hfound _ hc.2
      have hsame : p'=c := List.inj_on_of_nodup_map hnodup hp' hc.1 hfp
      exact hsame ▸ hlong'
  obtain ⟨bounds,hbounds,hlong⟩ := mapM_some_of (fun b => now+maxClockSkewMillis<b) hnode
  refine ⟨bounds.foldl min plan.authorizationUntil,?_,?_⟩
  · unfold State.planBound
    exact Option.bind_eq_some_iff.mpr ⟨bounds,hbounds,rfl⟩
  · apply lt_foldl_min _ hlong
    unfold maxClockSkewMillis at huntil ⊢
    omega

theorem Source.verified (hs : Backing s) (h : Source s now n false a) :
    (s.newestFor a.forwardId a.forwardRevision).any fun op =>
      !op.recoveryInvalidated && op.live now false := by
  cases h with
  | direct _ _ _ _ _ hpub _ ha =>
    obtain ⟨-,-,-,rfl⟩ := compileDirectOne_ok.mp ha
    simp only [State.directPublishable,Bool.and_eq_true] at hpub
    obtain ⟨op,hop,hlive⟩ := (Option.any_eq_true _ _).mp hpub.1.1
    rw [Option.any_eq_true]
    simp only [Bool.and_eq_true] at hlive ⊢
    exact ⟨op,hop,hlive.1⟩
  | relay hl hpub hnode ha =>
    obtain ⟨row,k⟩ := Planned.of hs.deployed hl hpub hnode ha
    obtain ⟨op,hop,hvalid,hlive⟩ := k.operation
    rw [k.revision,hs.newest k.forward hop]
    simp [hvalid,hlive]

theorem authorizationBound_sources (hs : Backing s)
    (hheld : ∀m, Credentials.Held now (s.world.relayCredentials m))
    (hnow : now+maxClockSkewMillis < maxCounter) (hl : ∀a∈l, Source s now n false a) :
    ∃b, s.authorizationBound now l=.ok b ∧ now+maxClockSkewMillis<b := by
  have hrelayed : ∀id∈((l.filter fun a => a.role≠.direct).map (·.forwardId)).dedup,
      ∃d b, s.latestDeployment id=some d ∧ s.planBound now d.2.plan=some b ∧
        now+maxClockSkewMillis<b := by
    intro id hid
    rw [List.mem_dedup] at hid
    obtain ⟨a,ha,rfl⟩ := List.mem_map.mp hid
    simp only [List.mem_filter,decide_eq_true_eq] at ha
    obtain ⟨d,row,k⟩ := (hl a ha.1).planned hs.deployed ha.2
    obtain ⟨b,hb,hlong⟩ := planBound_some hheld (hs.pinned _ _ d k.stored) k.authorized
    exact ⟨_,b,k.latest,hb,hlong⟩
  unfold State.authorizationBound
  dsimp only
  -- each turn of the loop finds its plan and lowers the bound to one that is still late enough
  generalize ((l.filter fun a => a.role≠.direct).map (·.forwardId)).dedup=ids at hrelayed
  generalize maxCounter=start at hnow
  induction ids generalizing start with
  | nil => exact ⟨start,rfl,hnow⟩
  | cons id ids ih =>
    obtain ⟨d,b,hd,hb,hlong⟩ := hrelayed id List.mem_cons_self
    obtain ⟨c,hc,hlate⟩ := ih (fun x hx => hrelayed x (List.mem_cons_of_mem _ hx)) (min start b)
      (lt_min hnow hlong)
    refine ⟨c,?_,hlate⟩
    rw [List.foldlM_cons,hd]
    dsimp only
    rw [hb]
    exact hc

/-- The last instant a `Date` names, in milliseconds. -/
def maxTime : Nat := 8640000000000000

/-- A publication of a list goes on: its bound is there and late enough, its Operations are
live, and the new snapshot ends after now. -/
structure GoesOn (s : State) (now : Nat) (l : List Assignment) : Prop where
  bound : ∃b, s.authorizationBound now l=.ok b ∧ now+maxClockSkewMillis<b ∧
    ∀until_, now<until_→now < min (now+leaseMillis) (min until_ b)
  verified : s.verifyPublishable now l

theorem GoesOn.of_sources (hs : Backing s)
    (hheld : ∀m, Credentials.Held now (s.world.relayCredentials m)) (hnow : now ≤ maxTime)
    (hl : ∀a∈l, Source s now n false a) : GoesOn s now l := by
  have hcounter : now+maxClockSkewMillis < maxCounter := by
    unfold maxTime at hnow
    unfold maxClockSkewMillis maxCounter
    omega
  obtain ⟨b,hb,hlate⟩ := authorizationBound_sources hs hheld hcounter hl
  refine ⟨⟨b,hb,hlate,?_⟩,?_⟩
  · intro until_ huntil
    have hlease : now<now+leaseMillis := by
      unfold leaseMillis
      omega
    exact lt_min hlease (lt_min huntil (by omega))
  · unfold State.verifyPublishable
    rw [List.all_eq_true]
    intro a ha
    exact (hl a ha).verified hs

/-- A lapsed Relay Forward is left out of the list and does not stop the publication. -/
theorem lapsed_relay_left_out {w : World} {l : List (Nat×Event)} {relays : List Assignment}
    (h : Run Step (State.initial w) l s) (hnow : now ≤ maxTime)
    (hheld : ∀m, Credentials.Held now (s.world.relayCredentials m))
    (hr : s.relayAssignments now n false=.ok relays) :
    GoesOn s now relays ∧ (∀next, s.assignments now n false=.ok next→GoesOn s now next) ∧
      ∀id g d row, s.latestDeployment id=some (g,d)→s.forwards.lookup id=some row→
        s.authorized now row (row.forward id) d.plan=false→∀a∈relays, a.forwardId≠id := by
  have hs := run_backing h
  have hsource : ∀a∈relays, Source s now n false a := fun a ha => relayAssignments_source hr ha
  refine ⟨.of_sources hs hheld hnow hsource,?_,?_⟩
  · intro next hnext
    exact .of_sources hs hheld hnow fun a ha => assignments_source hnext ha
  · intro id g d row hd hrow hauth a ha hid
    subst hid
    obtain ⟨d',row',k⟩ := relayAssignments_planned hs.deployed hr ha
    obtain ⟨rfl,rfl⟩ := Prod.mk.inj (Option.some.inj (hd.symm.trans k.latest))
    obtain rfl := Option.some.inj (hrow.symm.trans k.forward)
    have hauth' := k.authorized
    rw [hauth] at hauth'
    cases hauth'

/-- A Relay over two Nodes is accepted and claimed. -/
def claimedRun : List (Nat×Event) :=
  [(0,.provision 0),(0,.provision 1),(0,.hello 0 1 fullCapabilities 0),
    (0,.hello 1 1 fullCapabilities 0),(1,.create 7 0 1 (relaySpec true)),(2,.claim 0 1)]

theorem openWorld_held (m : NodeId) : Credentials.Held 3 (openWorld.relayCredentials m) := by
  have hissue : Credentials.Step .empty
      (0,.relayCredential m 1000000000 1000000000 1000000000 0)
      ⟨0,[⟨m,1000000000,none,false⟩]⟩ := by
    refine ⟨le_rfl,?_⟩
    simp only [Credentials.apply,Credentials.relayCredential,Credentials.empty,do_ok]
    exact ⟨by simp,by simp,by simp,by simp⟩
  exact ⟨_,_,Run.single hissue,Nat.zero_le _,by simp [Credentials.view,openWorld,
    CredentialRow.credential]⟩

theorem lapsed_relay_left_out_claimed : ∃s relays, Run Step (State.initial openWorld) claimedRun s ∧
    s.relayAssignments 3 1 false=.ok relays ∧ relays.length=1 ∧ GoesOn s 3 relays := by
  have hrun : ((performs (State.initial openWorld) claimedRun).bind fun s =>
      (s.relayAssignments 3 1 false).toOption.map (·.length))=some 1 := by
    decide +kernel
  simp only [do_some,toOption_ok] at hrun
  obtain ⟨s,hs,relays,hrelays,hlen⟩ := hrun
  have hrun := run_performs hs
  have hworld : s.world=openWorld := by
    apply run_world hrun
    intro e he
    simp only [claimedRun,mem_list] at he
    rcases he with rfl|rfl|rfl|rfl|rfl|rfl <;> simp
  have hheld : ∀m, Credentials.Held 3 (s.world.relayCredentials m) := by
    intro m
    rw [hworld]
    exact openWorld_held m
  have hnow : 3 ≤ maxTime := by
    unfold maxTime
    omega
  exact ⟨s,relays,hrun,hrelays,hlen,(lapsed_relay_left_out hrun hnow hheld hrelays).1⟩

/-- Whatever credentials were issued and revoked, a Node has one credential for new plans. -/
theorem current_credential_unique {peers : List Peer}
    (hheld : Credentials.Held now (s.world.relayCredentials n))
    (h : s.relayCredentialFacts now n true=some peers) : ∃p, peers=[p] := by
  obtain ⟨rfl,-,hne⟩ := relayCredentialFacts_some h
  obtain ⟨events,c,hrun,-,hview⟩ := hheld
  rw [← List.length_eq_one_iff]
  have hle : ((s.world.relayCredentials n).filter fun c =>
      now < c.validUntil && !(true && c.retiring)).length≤1 := by
    refine le_trans ?_ (Credentials.run_current hrun)
    rw [hview,Credentials.view,← List.countP_eq_length_filter,List.countP_map,List.countP_filter]
    refine List.countP_mono_left fun r _ hr => ?_
    simp only [CredentialRow.credential,Function.comp,Bool.and_eq_true] at hr
    grind
  have hpos := List.length_pos_of_ne_nil hne
  rw [List.length_map] at hpos ⊢
  omega

/-- A credential is revoked, and its successor is rotated. -/
def rotation : List (Nat×Credentials.Event) :=
  [(0,.relayCredential 5 20 20 20 10),(1,.revoke),(1,.relayCredential 6 20 20 20 10),
    (2,.relayCredential 7 30 30 30 10)]

def rotated : Credentials :=
  ⟨2,[⟨5,20,none,true⟩,⟨6,20,some 12,false⟩,⟨7,30,none,false⟩]⟩

theorem rotation_run : Run Credentials.Step .empty rotation rotated := by
  have hissued : Run Credentials.Step .empty [rotation[0]] ⟨0,[⟨5,20,none,false⟩]⟩ :=
    .single ⟨le_rfl,rfl⟩
  have hrevoked := hissued.snoc (e := rotation[1]) (u := ⟨1,[⟨5,20,none,true⟩]⟩) ⟨by decide,rfl⟩
  have hagain := hrevoked.snoc (e := rotation[2])
    (u := ⟨1,[⟨5,20,none,true⟩,⟨6,20,none,false⟩]⟩) ⟨by decide,rfl⟩
  exact hagain.snoc ⟨by decide,rfl⟩

def rotatedWorld : World := { openWorld with relayCredentials := fun _ => rotated.view }

/-- During a rotation two credentials are valid, and one of them is for new plans. -/
theorem current_credential_unique_rotated : ∃all peers p,
    (State.initial rotatedWorld).relayCredentialFacts 3 0 false=some all ∧ all.length=2 ∧
      (State.initial rotatedWorld).relayCredentialFacts 3 0 true=some peers ∧ peers=[p] := by
  have hfacts : (((State.initial rotatedWorld).relayCredentialFacts 3 0 false).bind fun all =>
      ((State.initial rotatedWorld).relayCredentialFacts 3 0 true).map fun _ => all.length)=some 2 := by
    decide
  simp only [do_some] at hfacts
  obtain ⟨all,hall,peers,hpeers,hlen⟩ := hfacts
  have hheld : Credentials.Held 3 rotated.view := ⟨rotation,rotated,rotation_run,by decide,rfl⟩
  obtain ⟨p,hp⟩ := current_credential_unique (s := State.initial rotatedWorld) (n := 0) hheld hpeers
  exact ⟨all,peers,p,hall,hlen,hpeers,hp⟩

end TuneX.Control
