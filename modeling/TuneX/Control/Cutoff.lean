import TuneX.Control.Revocation

namespace TuneX.Control

open Framework

variable {s t u : State} {now g : Nat} {n : NodeId} {e : Event} {id : ForwardId} {row : ForwardRow}

/-- An update leaves the ingress of a Forward where it is and does not make a Relay direct. -/
def keepsNodes (s : State) : Event→Bool
  | .update _ id _ spec => (s.forwards.lookup id).all fun row =>
      spec.nodeId=row.spec.nodeId && (row.spec.via.isEmpty || !spec.via.isEmpty)
  | _ => true

def KeepStep (s : State) (e : Nat×Event) (t : State) : Prop := Step s e t ∧ keepsNodes s e.2

/-- A Node that a command on the Forward looks at. -/
def Reaches (s : State) (id : ForwardId) (row : ForwardRow) (n : NodeId) : Prop :=
  n=row.spec.nodeId ∨ (row.spec.via≠[] ∧ ∃g d node, s.deployments.lookup (id,g)=some d ∧
    node∈d.plan.nodes ∧ node.nodeId=n)

theorem Reaches.nodeIDs (h : Reaches s id row n) : n∈s.nodeIDs (row.forward id) := by
  unfold State.nodeIDs
  rw [List.mem_append]
  obtain rfl | ⟨-,g,d,node,hd,hnode,rfl⟩ := h
  · exact .inl List.mem_cons_self
  · right
    have hrow : ((id,g),d)∈s.deployments.rows.filter fun r => r.1.1=(row.forward id).id := by
      refine List.mem_filter.mpr ⟨Table.mem_rows.mpr hd,?_⟩
      exact decide_eq_true rfl
    exact List.mem_flatMap.mpr ⟨_,hrow,List.mem_map_of_mem hnode⟩

theorem Reaches.memberNodes (h : Reaches s id row n) : n∈s.memberNodes (row.forward id) := by
  unfold State.memberNodes
  by_cases hv : row.spec.via=[]
  · obtain rfl | ⟨hne,-⟩ := h
    · simp [ForwardRow.forward,hv]
    · exact absurd hv hne
  · have hpath : (row.forward id).spec.via.isEmpty=false := List.isEmpty_eq_false_iff.mpr hv
    simpa [hpath] using h.nodeIDs

theorem Reaches.pathNodes (h : Reaches s id row n) :
    (row.spec.via=[] ∧ n=row.spec.nodeId) ∨ n∈s.pathNodes (row.forward id) := by
  unfold State.pathNodes
  by_cases hv : row.spec.via=[]
  · obtain rfl | ⟨hne,-⟩ := h
    · exact .inl ⟨hv,rfl⟩
    · exact absurd hv hne
  · right
    have hpath : (row.forward id).spec.via.isEmpty=false := List.isEmpty_eq_false_iff.mpr hv
    simpa [hpath] using h.nodeIDs

theorem Source.reaches {a : Assignment} (hd : Deployed s) (h : Source s now n false a) :
    ∃row, s.forwards.lookup a.forwardId=some row ∧ Reaches s a.forwardId row n := by
  cases h with
  | direct hrow _ _ hn _ _ _ ha =>
    obtain ⟨-,-,-,rfl⟩ := compileDirectOne_ok.mp ha
    exact ⟨_,hrow,.inl hn.symm⟩
  | relay hl hpub hnode ha =>
    obtain ⟨row,k⟩ := Planned.of hd hl hpub hnode ha
    obtain ⟨hmem,hn⟩ := find_node hnode
    obtain ⟨-,-,-,-,hvia,-⟩ := authorized_some k.authorized
    exact ⟨row,k.forward,.inr ⟨hvia,_,_,_,k.stored,hmem,hn⟩⟩

theorem Acts.plan_kept {d : Deployment} (hv : s.ValidSpecs) (h : Acts s now e t)
    (hd : s.deployments.lookup (id,g)=some d) :
    ∃d', t.deployments.lookup (id,g)=some d' ∧ d'.plan=d.plan := by
  have hr := Acts.redeploy (e := (now,e)) hv h
  obtain ⟨d',hd',-⟩ := hr.lookup hd
  refine ⟨d',hd',?_⟩
  cases hr.origin hd' with
  | kept hd₀ hp =>
    rw [hd] at hd₀
    cases hd₀
    exact hp
  | planned _ hbd acc _ _ hf hg =>
    subst hf hg
    exact absurd (acc.generation_fresh (hbd ▸ hd)) (lt_irrefl _)

theorem Acts.reaches (hv : s.ValidSpecs) (h : Acts s now e t) (hk : keepsNodes s e)
    (hrow : s.forwards.lookup id=some row) (hr : Reaches s id row n) :
    ∃row', t.forwards.lookup id=some row' ∧ Reaches t id row' n := by
  have hmoves : ∀row' : ForwardRow, row'.spec.nodeId=row.spec.nodeId→
      (row.spec.via≠[] → row'.spec.via≠[])→Reaches t id row' n := by
    intro row' hnode hvia
    obtain rfl | ⟨hne,g,d,node,hd,hmem,hn⟩ := hr
    · exact .inl hnode.symm
    · obtain ⟨d',hd',hplan⟩ := h.plan_kept hv hd
      exact .inr ⟨hvia hne,g,d',node,hd',hplan ▸ hmem,hn⟩
  obtain hf | ⟨-,hf⟩ | ⟨⟨c⟩⟩ := h.forwards
  · exact ⟨row,hf ▸ hrow,hmoves row rfl fun hne => hne⟩
  · refine ⟨{ row with recoverySuspended := true },?_,hmoves _ rfl fun hne => hne⟩
    rw [hf,Table.lookup_alter_some]
    exact ⟨row,hrow,rfl⟩
  · by_cases hid : id=c.f.id
    · refine ⟨c.row,by rw [c.forwards,if_pos hid],?_⟩
      have hcause := c.cause
      generalize c.f=f at hid hcause
      generalize c.row=next at hcause
      generalize c.kind=kind at hcause
      subst hid
      cases hcause with
      | create hn =>
        rw [hn] at hrow
        cases hrow
      | update hrow' =>
        rw [hrow'] at hrow
        cases hrow
        simp only [keepsNodes,hrow',Option.all_some,bool_ok,Bool.or_eq_true,List.isEmpty_iff,
          Bool.not_eq_true',List.isEmpty_eq_false_iff] at hk
        exact hmoves _ hk.1 fun hne => hk.2.resolve_left hne
      | remove hrow' =>
        rw [hrow'] at hrow
        cases hrow
        exact hmoves _ rfl fun hne => hne
      | retry hrow' | reauthorize _ hrow' =>
        rw [ForwardRow.forward,hrow'] at hrow
        cases hrow
        exact hmoves _ rfl fun hne => hne
    · exact ⟨row,by rw [c.forwards,if_neg hid]; exact hrow,hmoves row rfl fun hne => hne⟩

/-- Every lease is on a Node that its Forward reaches, and lasts beyond the start of time. -/
structure Covered (s : State) : Prop where
  leasing : Leasing s
  reached : ∀key x, s.leases.lookup key=some x→∃row, s.forwards.lookup x.forwardId=some row ∧
    Reaches s x.forwardId row key.instanceKey.node
  positive : ∀key x, s.leases.lookup key=some x→0<x.validUntil

theorem Covered.initial (w : World) : Covered (State.initial w) := by
  refine ⟨.initial w,?_,?_⟩
  all_goals simp [State.initial]

theorem recordLeases_positive {epoch validUntil : Nat} (hpos : 0<validUntil) (l : List Assignment)
    (hs : ∀key x, s.leases.lookup key=some x→0<x.validUntil) : ∀key x,
      (l.foldl (State.recordLease n epoch validUntil) s).leases.lookup key=some x→0<x.validUntil := by
  induction l generalizing s with
  | nil => exact hs
  | cons a l ih =>
    refine ih ?_
    intro key x hx
    rw [recordLease_lookup] at hx
    split_ifs at hx
    · cases hold : s.leases.lookup key with
      | none =>
        rw [hold] at hx
        cases hx
        exact hpos
      | some y =>
        rw [hold] at hx
        cases hx
        exact lt_of_lt_of_le hpos (le_max_right _ _)
    · exact hs key x hx

theorem Acts.leases_positive (h : Acts s now e t)
    (hs : ∀key x, s.leases.lookup key=some x→0<x.validUntil) :
    ∀key x, t.leases.lookup key=some x→0<x.validUntil := by
  obtain ⟨-,hl⟩ | ⟨n,row,next,-,-,⟨i⟩⟩ := h.issued
  · rw [hl]
    exact hs
  · obtain ⟨hlt,-,-,-,-,-,hp⟩ := State.compileSnapshot_ok.mp i.snapshot_eq
    have hpos : 0 < i.snapshot.validUntil := by
      rw [hp]
      exact Nat.zero_lt_of_lt hlt
    have hleases : (i.retired.store row i.snapshot).leases=s.leases := by
      have hframe := congrArg State.leases (State.retireChanged_frame i.retired_eq)
      exact hframe
    rw [i.result]
    refine recordLeases_positive hpos _ ?_
    rw [hleases]
    exact hs

theorem Covered.acts {e : Nat×Event} (hs : Covered s) (h : Acts s e.1 e.2 t)
    (hk : keepsNodes s e.2) : Covered t := by
  have hd := hs.leasing.deployed
  refine ⟨hs.leasing.acts h,?_,h.leases_positive hs.positive⟩
  intro key x hx
  obtain hx | ⟨n,row,next,-,hsource,-,a,ha,rfl,hforward⟩ := h.leases hx
  · obtain ⟨row,hrow,hr⟩ := hs.reached key x hx
    exact h.reaches hd.specs hk hrow hr
  · obtain hf | ⟨y,hy,hf⟩ := hforward
    · obtain ⟨row',hrow',hr⟩ := (hsource a ha).reaches hd
      rw [hf]
      exact h.reaches hd.specs hk hrow' hr
    · obtain ⟨row',hrow',hr⟩ := hs.reached _ y hy
      rw [hf]
      exact h.reaches hd.specs hk hrow' hr

theorem Covered.step {e : Nat×Event} (hs : Covered s) (h : KeepStep s e t) : Covered t :=
  Covered.acts (s := s.atTime e.1) ⟨hs.leasing.atTime e.1,hs.reached,hs.positive⟩
    (step_acts hs.leasing.deployed.specs h.1) h.2

theorem run_covered {w : World} {l : List (Nat×Event)} (h : Run KeepStep (State.initial w) l s) :
    Covered s :=
  h.invariant Covered (fun _ _ _ hab ha => ha.step hab) (.initial w)

theorem Reconciled.covered (hs : Covered s) (h : Reconciled now s t) : Covered t := by
  obtain ⟨l,hrun,hl⟩ := h
  induction hrun with
  | refl => exact hs
  | @snoc l t u e hrun hstep ih =>
    have ht := ih fun e he => hl e (List.mem_append_left _ he)
    obtain ⟨id,allowed,rfl⟩ := hl e (List.mem_append_right _ (List.mem_singleton_self e))
    exact ht.step ⟨hstep,rfl⟩

theorem later_le {m v : Option Nat} {b : Nat} (h : ∃u, (m=some u ∨ v=some u) ∧ b≤u) :
    ∃u, later m v=some u ∧ b≤u := by
  obtain ⟨u,hu,hb⟩ := h
  cases v with
  | none =>
    obtain rfl | hu := hu
    · exact ⟨u,rfl,hb⟩
    · cases hu
  | some x =>
    refine ⟨max (m.getD 0) x,rfl,?_⟩
    obtain rfl | hu := hu
    · exact hb.trans (le_max_left _ _)
    · cases hu
      exact hb.trans (le_max_right _ _)

theorem maximumAuthorization_covers {key : LeaseKey} {x : Lease}
    (hx : s.leases.lookup key=some x) (hn : key.instanceKey.node=n) :
    ∃u, s.maximumAuthorization n=some u ∧ x.validUntil≤u := by
  have hmem : x.validUntil∈(s.leases.rows.filter fun l => l.1.instanceKey.node=n).map
      (·.2.validUntil) := by
    refine List.mem_map.mpr ⟨(key,x),List.mem_filter.mpr ⟨Table.mem_rows.mpr hx,?_⟩,rfl⟩
    exact decide_eq_true hn
  unfold State.maximumAuthorization
  cases hmax : ((s.leases.rows.filter fun l => l.1.instanceKey.node=n).map (·.2.validUntil)).max? with
  | none =>
    rw [List.max?_eq_none_iff] at hmax
    rw [hmax] at hmem
    cases hmem
  | some u => exact ⟨u,rfl,(List.max?_eq_some_iff.mp hmax).2 _ hmem⟩

theorem cutoff_covers {nodes : List NodeId} {key : LeaseKey} {x : Lease}
    (hx : s.leases.lookup key=some x) (hn : key.instanceKey.node∈nodes) :
    ∃u, s.cutoff nodes=some u ∧ x.validUntil≤u := by
  have hloop : ∀(l : List NodeId) (m : Option Nat), ((∃u, m=some u ∧ x.validUntil≤u) ∨
      key.instanceKey.node∈l)→∃u, l.foldl (fun m n => later m (s.maximumAuthorization n)) m=some u ∧
        x.validUntil≤u := by
    intro l
    induction l with
    | nil =>
      intro m hm
      exact hm.resolve_right List.not_mem_nil
    | cons n l ih =>
      intro m hm
      refine ih _ ?_
      obtain ⟨u,hu,hle⟩ | hmem := hm
      · exact .inl (later_le ⟨u,.inl hu,hle⟩)
      · obtain hhead | htail := List.mem_cons.mp hmem
        · obtain ⟨u,hu,hle⟩ := maximumAuthorization_covers hx hhead
          exact .inl (later_le ⟨u,.inr hu,hle⟩)
        · exact .inr htail
  exact hloop nodes none (.inr hn)

/-- Every lease of a Forward ends by a time. -/
def EndsBy (s : State) (id : ForwardId) (limit : Option Nat) : Prop :=
  ∀key x, s.leases.lookup key=some x→x.forwardId=id→∃u, limit=some u ∧ x.validUntil≤u

theorem Covered.memberNodes (hs : Covered s) (hrow : s.forwards.lookup id=some row) :
    EndsBy s id (s.cutoff (s.memberNodes (row.forward id))) := by
  intro key x hx hid
  obtain ⟨row',hrow',hr⟩ := hs.reached key x hx
  rw [hid] at hrow' hr
  rw [hrow] at hrow'
  cases hrow'
  exact cutoff_covers hx hr.memberNodes

theorem memberForwards_ends {actor : ActorId} {manager : Bool} {l : List ForwardId}
    {acc : State×List (ForwardId×Kind)×Option Nat} (hs : Covered s) (hc : s.clock=now)
    (h : l.foldlM (State.memberForward now actor manager) (s,[],none)=.ok acc) :
    ∀op∈acc.2.1, EndsBy s op.1 acc.2.2 := by
  have hv := hs.leasing.deployed.specs
  have hinv : Reconciled now s acc.1 ∧ ∀op∈acc.2.1, EndsBy s op.1 acc.2.2 := by
    refine foldlM_ok (fun b : State×List (ForwardId×Kind)×Option Nat =>
      Reconciled now s b.1 ∧ ∀op∈b.2.1, EndsBy s op.1 b.2.2) ?_ ⟨.refl now s,by simp⟩ h
    intro b id c _ hb hf
    obtain rfl | ⟨row,allowed,hrow,hr,hnext⟩ := memberForward_ok hf
    · exact hb
    · have hrec := hb.1.snoc hv hc hr
      refine ⟨hrec,?_⟩
      rw [hnext]
      obtain ⟨-,-,-,hleases,hforwards⟩ := hrec.keeps hv
      intro op hop key x hx hid
      obtain hop | hop := List.mem_append.mp hop
      · obtain ⟨u,hu,hle⟩ := hb.2 op hop key x hx hid
        exact later_le ⟨u,.inl hu,hle⟩
      · obtain rfl := List.mem_singleton.mp hop
        have hrow' : c.1.forwards.lookup id=some row := by
          rw [hforwards,← (hb.1.keeps hv).2.2.2.2]
          exact hrow
        have hends := (hrec.covered hs).memberNodes hrow'
        obtain ⟨u,hu,hle⟩ := hends key x (by rw [hleases]; exact hx) hid
        exact later_le ⟨u,.inr hu,hle⟩
  exact hinv.2

theorem nodeForwards_ends {allowed : Bool} {l : List ForwardId}
    {acc : State×List (ForwardId×Kind)×List NodeId} (hs : Covered s) (hc : s.clock=now)
    (hl : ∀id∈l, ∀row, s.forwards.lookup id=some row → row.spec.via=[] → row.spec.nodeId=n)
    (h : l.foldlM (State.nodeForward now allowed) (s,[],[n])=.ok acc) :
    ∀op∈acc.2.1, EndsBy s op.1 (acc.1.cutoff acc.2.2) := by
  have hv := hs.leasing.deployed.specs
  have hinv : Reconciled now s acc.1 ∧ n∈acc.2.2 ∧ ∀op∈acc.2.1, ∀key x,
      s.leases.lookup key=some x→x.forwardId=op.1→key.instanceKey.node∈acc.2.2 := by
    refine foldlM_ok (fun b : State×List (ForwardId×Kind)×List NodeId => Reconciled now s b.1 ∧
      n∈b.2.2 ∧ ∀op∈b.2.1, ∀key x, s.leases.lookup key=some x→x.forwardId=op.1→
        key.instanceKey.node∈b.2.2) ?_ ⟨.refl now s,List.mem_singleton_self n,by simp⟩ h
    intro b id c hid hb hf
    obtain ⟨row,hrow,hr,hnext⟩ := nodeForward_ok hf
    obtain ⟨-,-,-,hleases,hforwards⟩ := hb.1.keeps hv
    refine ⟨hb.1.snoc hv hc hr,?_,?_⟩
    · rw [hnext]
      exact List.mem_append_left _ hb.2.1
    · rw [hnext]
      intro op hop key x hx hop'
      obtain hop | hop := List.mem_append.mp hop
      · exact List.mem_append_left _ (hb.2.2 op hop key x hx hop')
      · obtain rfl := List.mem_singleton.mp hop
        obtain ⟨row',hrow',hreach⟩ := (hb.1.covered hs).reached key x (by rw [hleases]; exact hx)
        rw [hop'] at hrow' hreach
        rw [hrow] at hrow'
        cases hrow'
        obtain ⟨hvia,hnode⟩ | hpath := hreach.pathNodes
        · rw [hforwards] at hrow
          rw [hnode,hl id hid row hrow hvia]
          exact List.mem_append_left _ hb.2.1
        · exact List.mem_append_right _ hpath
  obtain ⟨hrec,-,hnodes⟩ := hinv
  intro op hop key x hx hid
  have hx' : acc.1.leases.lookup key=some x := by
    rw [(hrec.keeps hv).2.2.2.1]
    exact hx
  exact cutoff_covers hx' (hnodes op hop key x hx hid)

theorem mem_forwardIds {which : ForwardRow→Bool} (h : id∈s.forwardIds which) :
    ∃row, s.forwards.lookup id=some row ∧ which row := by
  unfold State.forwardIds at h
  rw [List.mem_insertionSort] at h
  obtain ⟨⟨id',row⟩,hrow,rfl⟩ := List.mem_map.mp h
  rw [List.mem_filter,Table.mem_rows] at hrow
  exact ⟨row,hrow.1,hrow.2⟩

theorem uses_direct (h : State.uses row n) (hv : row.spec.via=[]) : row.spec.nodeId=n := by
  simpa [State.uses,hv] using h

/-- A command that reports how long what it stops may go on. -/
def Management.reports : Management→Bool
  | .profileGrant _ _ _ _ _ _ => false
  | _ => true

theorem manage_ends {m : Management} {r : AccessResult} (hs : Covered s) (hc : s.clock=now)
    (hm : m.reports) (h : s.manage now m=.ok (t,r)) :
    ∀op∈r.operations, EndsBy s op.1 r.maximumAuthorization := by
  have hright : Covered (s.withRights m) := by
    have hstep : Step s (now,.administer (m.rights s.world)) (s.withRights m) :=
      apply_step rfl hc
    exact hs.step ⟨hstep,rfl⟩
  cases m with
  | member scope actor role changed =>
    simp only [State.manage] at h
    split_ifs at h
    · simp only [do_ok,Prod.mk.injEq] at h
      obtain ⟨acc,hacc,rfl,rfl⟩ := h
      exact fun op hop key x hx => memberForwards_ends hright hc hacc op hop key x hx
    · cases h
      simp
  | nodeGrant scope n actor allowed =>
    simp only [State.manage,do_ok] at h
    obtain ⟨-,acc,hacc,h⟩ := h
    have hr : r=⟨acc.2.1,acc.1.cutoff acc.2.2⟩ := by
      by_cases hroom : allowed
      · rw [if_pos hroom,bind_ok] at h
        obtain ⟨-,-,h⟩ := h
        cases h
        rfl
      · rw [if_neg hroom] at h
        cases h
        rfl
    subst hr
    refine fun op hop key x hx => nodeForwards_ends hright hc ?_ hacc op hop key x hx
    intro id hid row hrow hvia
    split_ifs at hid with hsame
    · cases hid
    · obtain ⟨row',hrow',hwhich⟩ := mem_forwardIds hid
      rw [hrow] at hrow'
      cases hrow'
      simp only [Bool.and_eq_true] at hwhich
      exact uses_direct hwhich.2 hvia
  | profileGrant => cases hm
  | revokeNode scope n =>
    simp only [State.manage,do_ok,Prod.mk.injEq] at h
    obtain ⟨acc,hacc,rfl,rfl⟩ := h
    refine fun op hop key x hx => nodeForwards_ends hright hc ?_ hacc op hop key x hx
    intro id hid row hrow hvia
    obtain ⟨row',hrow',hwhich⟩ := mem_forwardIds hid
    rw [hrow] at hrow'
    cases hrow'
    simp only [Bool.and_eq_true] at hwhich
    exact uses_direct hwhich.2 hvia

/-- While updates keep the Nodes of the Forwards, a command reports a time by which every lease of
a Forward that it stops has ended. -/
theorem reported_cutoff_honest {w : World} {l : List (Nat×Event)} {m : Management}
    {r : AccessResult} {key : LeaseKey} {x : Lease} (h : Run KeepStep (State.initial w) l s)
    (hm : m.reports) (hc : Managed s now m t r) (hid : (id,Kind.revoke)∈r.operations)
    (hx : s.leases.lookup key=some x) (hf : x.forwardId=id) :
    ∃u, r.latestAuthorizationUntil=some u ∧ x.validUntil+5000≤u := by
  have hs := run_covered h
  have hat : Covered (s.atTime now) := ⟨hs.leasing.atTime now,hs.reached,hs.positive⟩
  obtain ⟨u,hu,hle⟩ := manage_ends hat rfl hm hc _ hid key x hx hf
  have hpos := hs.positive key x hx
  refine ⟨u+5000,?_,by omega⟩
  have hne : u≠0 := by omega
  simp [AccessResult.latestAuthorizationUntil,hu,hne]

/-- The step as a function. -/
def performKeeping (s : State) (e : Nat×Event) : Option State :=
  if keepsNodes s e.2 then perform s e else none

theorem run_performKeeping {l : List (Nat×Event)} (h : l.foldlM performKeeping s=some t) :
    Run KeepStep s l t := by
  induction l generalizing s with
  | nil =>
    cases h
    exact .refl
  | cons e l ih =>
    simp only [List.foldlM_cons,do_some] at h
    obtain ⟨u,hu,hl⟩ := h
    unfold performKeeping at hu
    split_ifs at hu with hk
    exact .cons ⟨perform_some hu,hk⟩ (ih hl)

/-- A Relay is created and published on its egress, Node 1. -/
def egressRun : List (Nat×Event) :=
  startRun++[(1,.create 7 0 1 (relaySpec true)),(2,.claim 0 1),(3,.issue 1 false none none)]

/-- The lease of the egress is reported when actor 7 becomes a viewer. -/
theorem reported_cutoff_honest_egress : ∃s t r x u, Run KeepStep (State.initial openWorld) egressRun s ∧
    Managed s 4 (.member 0 7 .viewer true) t r ∧ (1,Kind.revoke)∈r.operations ∧
    s.leases.lookup ⟨⟨1,⟨1,1,.tcp,.relayEgress⟩,1,1⟩,1⟩=some x ∧
    r.latestAuthorizationUntil=some u ∧ x.validUntil+5000≤u := by
  have hrun : ((egressRun.foldlM performKeeping (State.initial openWorld)).bind fun s =>
      ((s.atTime 4).manage 4 (.member 0 7 .viewer true)).toOption.bind fun t =>
        (s.leases.lookup ⟨⟨1,⟨1,1,.tcp,.relayEgress⟩,1,1⟩,1⟩).map fun x =>
          (decide ((1,Kind.revoke)∈t.2.operations),decide (x.forwardId=1)))=some (true,true) := by
    decide +kernel
  simp only [do_some,decide_eq_true_eq,toOption_ok] at hrun
  obtain ⟨s,hs,⟨t,r⟩,ht,x,hx,hop,hf⟩ := hrun
  obtain ⟨u,hu,hle⟩ := reported_cutoff_honest (run_performKeeping hs) rfl ht hop hx hf
  exact ⟨s,t,r,x,u,run_performKeeping hs,ht,hop,hx,hu,hle⟩

/-- The Relay becomes direct before actor 7 becomes a viewer: no time is reported although the
lease of the egress is valid. -/
theorem reported_cutoff_missing : ∃s t r x,
    Run Step (State.initial openWorld) (egressRun++[(4,.update 7 1 1 (directSpec 100))]) s ∧
    Managed s 5 (.member 0 7 .viewer true) t r ∧ (1,Kind.revoke)∈r.operations ∧
    s.leases.lookup ⟨⟨1,⟨1,1,.tcp,.relayEgress⟩,1,1⟩,1⟩=some x ∧ x.forwardId=1 ∧
    5 < x.validUntil ∧ r.latestAuthorizationUntil=none := by
  have hrun : ((performs (State.initial openWorld)
      (egressRun++[(4,.update 7 1 1 (directSpec 100))])).bind fun s =>
      ((s.atTime 5).manage 5 (.member 0 7 .viewer true)).toOption.bind fun t =>
        (s.leases.lookup ⟨⟨1,⟨1,1,.tcp,.relayEgress⟩,1,1⟩,1⟩).map fun x =>
          (decide ((1,Kind.revoke)∈t.2.operations),decide (x.forwardId=1),
            decide (5 < x.validUntil),t.2.latestAuthorizationUntil))=
      some (true,true,true,none) := by
    decide +kernel
  simp only [do_some,decide_eq_true_eq,toOption_ok] at hrun
  obtain ⟨s,hs,⟨t,r⟩,ht,x,hx,hop,hf,hvalid,hnone⟩ := hrun
  exact ⟨s,t,r,x,run_performs hs,ht,hop,hx,hf,hvalid,hnone⟩

end TuneX.Control
