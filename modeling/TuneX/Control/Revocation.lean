import TuneX.Control.Access
import TuneX.Control.AuthorityBound
import TuneX.Control.Retirements

namespace TuneX.Control

open Framework

variable {s t u : State} {now g : Nat} {n : NodeId} {e : Event} {id : ForwardId}

inductive Right
  | member (actor : ActorId) (scope : ScopeId)
  | grant (node : NodeId) (actor : ActorId)
  | profile (actor : ActorId) (scope : ScopeId) (reference : ProfileRef)
  | node (node : NodeId)
  deriving DecidableEq, Repr

def Right.held (w : World) : Right→Bool
  | .member actor scope => w.executing actor scope
  | .grant n actor => w.granted n actor
  | .profile actor scope reference => (w.profile actor scope reference).isSome
  | .node n => !w.revoked n

/-- The rights that a Forward needs of an authorizer and of the Nodes of its path. -/
def rightsOf (actor : ActorId) (row : ForwardRow) : List Right :=
  .member actor row.scopeId::row.spec.path.map (.grant · actor)++row.spec.path.map .node++
    row.spec.transport.toList.map (.profile actor row.scopeId)

/-- The authorizer of a Forward may execute it. -/
def State.executes (s : State) (now : Nat) (id : ForwardId) : Bool :=
  (s.forwards.lookup id).any fun row => row.authorizer.any fun actor =>
    s.executionAllowed now actor (row.forward id)

variable {actor : ActorId} {row : ForwardRow}
  {right : Right} {key : LeaseKey} {x : Lease} {l : List (Nat×Event)}

theorem mem_rightsOf : right∈rightsOf actor row ↔ right=.member actor row.scopeId ∨
      (∃n∈row.spec.path, right=.grant n actor) ∨ (∃n∈row.spec.path, right=.node n) ∨
      ∃reference, row.spec.transport=some reference ∧ right=.profile actor row.scopeId reference := by
  simp only [rightsOf,List.cons_append,List.mem_cons,List.mem_append,List.mem_map,Option.mem_toList,
    or_assoc,eq_comm]

/-- What a command of the management takes away. -/
def Management.withdraws : Management→Right→Bool
  | .member scope actor role changed,.member a c => changed && role≠.manager && a=actor && c=scope
  | .nodeGrant _ n actor allowed,.grant m a => !allowed && m=n && a=actor
  | .profileGrant scope profile actor allowed changed _,.profile a c reference =>
    changed && !allowed && a=actor && c=scope && reference.profileId=profile
  | .revokeNode _ n,.node m => m=n
  | _,_ => false

theorem withdraws_gone {m : Management} (w : World) (h : m.withdraws right) :
    ¬right.held (m.rights w) := by
  cases m with
  | member scope actor role changed | nodeGrant scope n actor allowed
  | profileGrant scope profile actor allowed changed stored | revokeNode scope n =>
    cases right <;> simp_all [Management.withdraws,Management.rights,Right.held]

theorem executionFacts_rights {scope : ScopeId} {facts : ExecutionFacts}
    (h : s.executionFacts now actor scope n=some facts) : s.world.executing actor scope ∧
      s.world.granted n actor ∧ ¬s.world.revoked n := by
  simp only [State.executionFacts,do_some] at h
  obtain ⟨row,-,peers,-,h⟩ := h
  rw [Option.ite_none_right_eq_some] at h
  simp only [State.nodeAuthorized,bool_ok,Bool.not_eq_true'] at h
  obtain ⟨⟨⟨⟨hexec,-⟩,hgrant⟩,hnode⟩,-⟩ := h.1
  exact ⟨hexec,hgrant,by simp [hnode.1]⟩

theorem canExecuteRelay_rights
    (h : s.canExecuteRelay now actor (row.forward id)) : row.spec.via≠[] ∧
      ∀right∈rightsOf actor row, right.held s.world := by
  unfold State.canExecuteRelay at h
  rw [Option.isSome_iff_exists] at h
  obtain ⟨resources,h⟩ := h
  obtain ⟨input,hinput,-⟩ := Option.bind_eq_some_iff.mp h
  have hfacts := planInput_facts hinput
  simp only [State.planInput,do_some] at hinput
  obtain ⟨-,-,reference,href,profile,hprofile,-⟩ := hinput
  unfold State.facts at hfacts
  split_ifs at hfacts with hpath
  simp only [Bool.or_eq_true,List.isEmpty_iff,not_or] at hpath
  have hnode : ∀n∈row.spec.path, s.world.executing actor row.scopeId ∧ s.world.granted n actor ∧
      ¬s.world.revoked n := by
    intro n hn
    obtain ⟨facts,-,hn'⟩ := mem_forall₂ (forall₂_mapM_some hfacts).flip hn
    exact executionFacts_rights hn'
  refine ⟨hpath.1.1,?_⟩
  intro right hright
  obtain rfl | ⟨n,hn,rfl⟩ | ⟨n,hn,rfl⟩ | ⟨ref,hr,rfl⟩ := mem_rightsOf.mp hright
  · exact (hnode row.spec.nodeId List.mem_cons_self).1
  · exact (hnode n hn).2.1
  · simpa [Right.held] using (hnode n hn).2.2
  · change row.spec.transport=some reference at href
    rw [href] at hr
    cases hr
    change s.world.profile actor row.scopeId reference=some profile at hprofile
    simp [Right.held,hprofile]

theorem canExecuteDirect_rights (hv : row.spec.valid)
    (hvia : row.spec.via=[]) (h : s.canExecuteDirect now actor (row.forward id)) :
    ∀right∈rightsOf actor row, right.held s.world := by
  simp only [State.canExecuteDirect,State.nodeAuthorized,Bool.and_eq_true,Bool.not_eq_true'] at h
  obtain ⟨⟨⟨hexec,hgrant⟩,hrevoked,-⟩,-⟩ := h
  have htransport : row.spec.transport=none := by
    simp only [Spec.valid,schema_ok,hvia] at hv
    exact Option.isNone_iff_eq_none.mp hv.2.symm
  have hpath : row.spec.path=[row.spec.nodeId] := by
    rw [Spec.path,hvia]
  intro right hright
  obtain rfl | ⟨n,hn,rfl⟩ | ⟨n,hn,rfl⟩ | ⟨ref,hr,rfl⟩ := mem_rightsOf.mp hright
  · exact hexec
  · rw [hpath,List.mem_singleton] at hn
    subst hn
    exact hgrant
  · rw [hpath,List.mem_singleton] at hn
    subst hn
    change s.world.revoked row.spec.nodeId=false at hrevoked
    simp [Right.held,hrevoked]
  · rw [htransport] at hr
    cases hr

theorem executionAllowed_rights (hv : row.spec.valid)
    (h : s.executionAllowed now actor (row.forward id)) :
    ∀right∈rightsOf actor row, right.held s.world := by
  by_cases hvia : row.spec.via=[]
  · rw [executionAllowed_direct hvia] at h
    exact canExecuteDirect_rights hv hvia h
  · rw [executionAllowed_relay hvia] at h
    exact (canExecuteRelay_rights h).2

theorem Source.executes {a : Assignment} (hd : Deployed s) (h : Source s now n false a) :
    s.executes now a.forwardId := by
  have hof : ∀{id : ForwardId} {row : ForwardRow} {actor : ActorId}, s.forwards.lookup id=some row→
      row.authorizer=some actor→s.executionAllowed now actor (row.forward id)→s.executes now id := by
    intro id row actor hrow hactor hallowed
    simp only [State.executes,hrow,hactor,Option.any_some]
    exact hallowed
  cases h with
  | direct hrow _ _ _ hv hpub _ ha =>
    obtain ⟨-,-,-,rfl⟩ := compileDirectOne_ok.mp ha
    simp only [State.directPublishable,Bool.and_eq_true] at hpub
    obtain ⟨actor,hactor,hexec⟩ := (Option.any_eq_true _ _).mp hpub.2
    have hexecutes := hof hrow hactor (by
      rw [executionAllowed_direct hv]
      exact hexec)
    exact hexecutes
  | relay hl hpub hnode ha =>
    obtain ⟨row,k⟩ := Planned.of hd hl hpub hnode ha
    obtain ⟨actor,hactor,hexec,-,hvia,-⟩ := authorized_some k.authorized
    refine hof k.forward hactor ?_
    rw [executionAllowed_relay hvia]
    exact hexec

/-- Leases are named after their Forward. -/
structure Leasing (s : State) : Prop where
  deployed : Deployed s
  named : ∀key x, s.leases.lookup key=some x→x.forwardId=key.instanceKey.assignmentId.forward

theorem Leasing.initial (w : World) : Leasing (State.initial w) := by
  refine ⟨.initial w,?_⟩
  simp [State.initial]

theorem Leasing.new (hs : Leasing s) (h : Acts s now e t) (hx : t.leases.lookup key=some x) :
    s.leases.lookup key=some x ∨ ∃n a, Source s now n false a ∧
      x.forwardId=a.forwardId ∧ x.forwardId=key.instanceKey.assignmentId.forward := by
  obtain hx | ⟨n,row,next,-,hsource,-,a,ha,hkey,hforward⟩ := h.leases hx
  · exact .inl hx
  · right
    have hname : Named n a := (hsource a ha).named hs.deployed
    have hassign : key.instanceKey.assignmentId.forward=a.forwardId := by
      rw [hkey]
      change a.assignmentId.forward=_
      rw [hname]
    have hsame : x.forwardId=a.forwardId := by
      obtain hf | ⟨y,hy,hf⟩ := hforward
      · exact hf
      · rw [hf,hs.named key y hy,hassign]
    exact ⟨n,a,hsource a ha,hsame,hsame.trans hassign.symm⟩

theorem Leasing.acts {e : Nat×Event} (hs : Leasing s) (h : Acts s e.1 e.2 t) : Leasing t := by
  refine ⟨hs.deployed.acts h,?_⟩
  intro key x hx
  obtain hx | ⟨-,-,-,-,hname⟩ := hs.new h hx
  · exact hs.named key x hx
  · exact hname

theorem Leasing.atTime (hs : Leasing s) (now : Nat) : Leasing (s.atTime now) :=
  ⟨hs.deployed.clock now,hs.named⟩

theorem Leasing.step {e : Nat×Event} (hs : Leasing s) (h : Step s e t) : Leasing t :=
  (hs.atTime e.1).acts (step_acts hs.deployed.specs h)

theorem run_leasing {w : World} (h : Run Step (State.initial w) l s) : Leasing s :=
  h.invariant Leasing (fun _ _ _ hab ha => ha.step hab) (.initial w)

theorem Leasing.unchanged {e : Nat×Event} (hs : Leasing s) (h : Step s e t)
    (hid : ¬(s.atTime e.1).executes e.1 id) (hx : x.forwardId=id) :
    t.leases.lookup key=some x ↔ s.leases.lookup key=some x := by
  have hacts := step_acts hs.deployed.specs h
  have hback : ∀y, y.forwardId=id→t.leases.lookup key=some y→s.leases.lookup key=some y := by
    intro y hy hlease
    obtain hold | ⟨n,a,hsource,hforward,-⟩ := (hs.atTime e.1).new hacts hlease
    · exact hold
    · have hexec := hsource.executes (hs.atTime e.1).deployed
      rw [← hforward,hy] at hexec
      exact absurd hexec hid
  refine ⟨hback x hx,?_⟩
  intro hlease
  obtain ⟨y,hy,hforward⟩ : ∃y, t.leases.lookup key=some y ∧ y.forwardId=x.forwardId := by
    obtain ⟨-,hl⟩ | ⟨n,row,next,-,-,⟨i⟩⟩ := hacts.issued
    · exact ⟨x,by rw [hl]; exact hlease,rfl⟩
    · obtain ⟨y,hy,-,hf⟩ := i.leased.grows key x hlease
      exact ⟨y,hy,hf⟩
  have hsame := hback y (hforward.trans hx) hy
  rw [hlease] at hsame
  cases hsame
  exact hy

/-- The commands, which alone change what a Forward needs and which rights are held. -/
def Event.isCommand : Event→Bool
  | .administer _ | .create .. | .update .. | .remove .. | .retry .. | .reauthorize .. => true
  | _ => false

theorem State.Cause.isCommand {f : Forward} {kind : Kind} (h : State.Cause s e f row kind) :
    e.isCommand := by
  cases h with
  | create | update | remove | retry | reauthorize => rfl

/-- The authorizer of the Forward lacks a right that the Forward needs. -/
def Lacks (id : ForwardId) (s : State) : Prop := ∀row, s.forwards.lookup id=some row→
  ∀actor, row.authorizer=some actor→∃right∈rightsOf actor row, ¬right.held s.world

theorem Lacks.not_executes (hl : Lacks id s) (hs : s.ValidSpecs) (now : Nat) :
    ¬(s.atTime now).executes now id := by
  intro hexec
  obtain ⟨row,hrow,hexec⟩ := (Option.any_eq_true _ _).mp hexec
  obtain ⟨actor,hactor,hexec⟩ := (Option.any_eq_true _ _).mp hexec
  obtain ⟨right,hneeds,hgone⟩ := hl row hrow actor hactor
  exact hgone (executionAllowed_rights (s := s.atTime now) (hs id row hrow) hexec right hneeds)

theorem Acts.rows (h : Acts s now e t) (he : ¬e.isCommand) (hrow : t.forwards.lookup id=some row) :
    ∃r, s.forwards.lookup id=some r ∧ r.authorizer=row.authorizer ∧
      ∀actor, rightsOf actor r=rightsOf actor row := by
  obtain hf | ⟨-,hf⟩ | ⟨⟨c⟩⟩ := h.forwards
  · exact ⟨row,hf ▸ hrow,rfl,fun _ => rfl⟩
  · rw [hf,Table.lookup_alter] at hrow
    obtain ⟨r,hr,rfl⟩ := Option.map_eq_some_iff.mp hrow
    exact ⟨r,hr,rfl,fun _ => rfl⟩
  · exact absurd c.cause.isCommand he

/-- No other part of a transaction gives a right back; recovery revokes every Node. -/
theorem Acts.held (h : Acts s now e t) (he : ¬e.isCommand) (hheld : right.held t.world) :
    right.held s.world := by
  obtain hw | rfl | rfl := h.world
  · exact hw ▸ hheld
  · exact absurd rfl he
  · cases h with
    | idle => exact hheld
    | command c => exact absurd c.cause.isCommand he
    | quarantine =>
      rw [quarantineRecovery_frame] at hheld
      cases right with
      | member | grant | profile => exact hheld
      | node => simp [Right.held] at hheld

theorem Lacks.acts (hl : Lacks id s) (h : Acts s now e t) (he : ¬e.isCommand) : Lacks id t := by
  intro row hrow actor hactor
  obtain ⟨r,hr,hauth,hrights⟩ := h.rows he hrow
  obtain ⟨right,hneeds,hgone⟩ := hl r hr actor (hauth.trans hactor)
  exact ⟨right,hrights actor ▸ hneeds,fun hheld => hgone (h.held he hheld)⟩

/-- A step that gives no missing right of the Forward back: a command leaves one missing. -/
def Unrestored (id : ForwardId) (s : State) (e : Nat×Event) (t : State) : Prop :=
  Step s e t ∧ (e.2.isCommand→Lacks id t)

theorem Lacks.unrestored {e : Nat×Event} (hl : Lacks id s) (hs : s.ValidSpecs)
    (h : Unrestored id s e t) : Lacks id t := by
  by_cases he : e.2.isCommand
  · exact h.2 he
  · exact Lacks.acts (s := s.atTime e.1) hl (step_acts hs h.1) he

theorem unrestored_unchanged (hs : Leasing s) (hl : Lacks id s) (h : Run (Unrestored id) s l t)
    (hx : x.forwardId=id) : t.leases.lookup key=some x ↔ s.leases.lookup key=some x := by
  have hall : Leasing t ∧ Lacks id t ∧
      (t.leases.lookup key=some x ↔ s.leases.lookup key=some x) := by
    induction h with
    | refl => exact ⟨hs,hl,Iff.rfl⟩
    | @snoc _ _ _ e _ hstep ih =>
      obtain ⟨ha,hna,hsame⟩ := ih
      have hnow := hna.not_executes ha.deployed.specs e.1
      exact ⟨ha.step hstep.1,hna.unrestored ha.deployed.specs hstep,
        (ha.unchanged hstep.1 hnow hx).trans hsame⟩
  exact hall.2.2

/-- Once a command has taken a right away that a Forward needs, no lease of the Forward is made or
extended until a command leaves its authorizer with every right it needs. -/
theorem withdrawn_right_stops_leases {w : World} {l k : List (Nat×Event)} {a : State}
    {m : Management} {r : AccessResult} {right : Right} {row : ForwardRow} {actor : ActorId}
    (h : Run Step (State.initial w) l a) (hm : Managed a now m s r) (hright : m.withdraws right)
    (hrow : s.forwards.lookup id=some row) (hactor : row.authorizer=some actor)
    (hneeds : right∈rightsOf actor row) (hrun : Run (Unrestored id) s k t) (key : LeaseKey)
    (x : Lease) (hx : x.forwardId=id) :
    t.leases.lookup key=some x ↔ a.leases.lookup key=some x := by
  have ha := run_leasing h
  obtain ⟨hstep,hrec⟩ := hm.run ha.deployed.specs
  have hmid := ha.step hstep
  obtain ⟨-,-,hworld,hleases,-⟩ := hrec.keeps hmid.deployed.specs
  have hs : Leasing s := by
    obtain ⟨m,hrun',-⟩ := hrec
    exact hrun'.invariant Leasing (fun _ _ _ hab hb => hb.step hab) hmid
  have hgone : ¬right.held s.world := by
    rw [hworld]
    exact withdraws_gone _ hright
  have hlacks : Lacks id s := by
    intro row' hrow' actor' hactor'
    cases hrow.symm.trans hrow'
    cases hactor.symm.trans hactor'
    exact ⟨right,hneeds,hgone⟩
  rw [unrestored_unchanged hs hlacks hrun hx,hleases]
  rfl

/-- A direct Forward is published on Node 0. -/
def leasedRun : List (Nat×Event) :=
  startRun++[(1,.create 7 0 1 (directSpec 100)),(2,.claim 0 1),(3,.issue 0 false none none)]

/-- Actor 7 becomes a viewer and the next publication of the Node withdraws the Forward; a Node and
a command that keeps the rights as they are follow. -/
theorem withdrawn_right_stops_leases_viewer : ∃a s t r x,
    Run Step (State.initial openWorld) leasedRun a ∧
      Managed a 4 (.member 0 7 .viewer true) s r ∧
      Run (Unrestored 1) s [(5,.issue 0 false none none),(6,.provision 9),
        (7,.administer s.world)] t ∧ (t.snapshots.lookup (0,2)).isSome ∧
      a.leases.lookup ⟨⟨0,⟨0,1,.tcp,.direct⟩,1,1⟩,1⟩=some x ∧
      t.leases.lookup ⟨⟨0,⟨0,1,.tcp,.direct⟩,1,1⟩,1⟩=some x := by
  have hrun : ((performs (State.initial openWorld) leasedRun).bind fun a =>
      ((a.atTime 4).manage 4 (.member 0 7 .viewer true)).toOption.bind fun s =>
        (perform s.1 (5,.issue 0 false none none)).bind fun u =>
        (perform u (6,.provision 9)).bind fun v =>
        (perform v (7,.administer s.1.world)).bind fun t =>
          (s.1.forwards.lookup 1).bind fun row => (t.forwards.lookup 1).bind fun row' =>
          (a.leases.lookup ⟨⟨0,⟨0,1,.tcp,.direct⟩,1,1⟩,1⟩).map fun x =>
            (decide (row.authorizer=some 7 ∧ row.scopeId=0),decide (row'=row),
              t.world.executing 7 0,(t.snapshots.lookup (0,2)).isSome,decide (x.forwardId=1)))=
      some (true,true,false,true,true) := by
    decide +kernel
  simp only [do_some,decide_eq_true_eq,toOption_ok] at hrun
  obtain ⟨a,ha,⟨s,r⟩,hs,u,hu,v,hv,t,ht,row,hrow,row',hrow',x,hx,⟨hactor,hscope⟩,hsame,hnot,hnext,
    hforward⟩ := hrun
  have hneeds : Right.member 7 0∈rightsOf 7 row := mem_rightsOf.mpr (.inl (by rw [hscope]))
  rw [hsame] at hrow'
  have hlacks : Lacks 1 t := by
    intro row'' hrow'' actor hactor'
    cases hrow'.symm.trans hrow''
    cases hactor.symm.trans hactor'
    exact ⟨.member 7 0,hneeds,by simp [Right.held,hnot]⟩
  have hunrestored : Run (Unrestored 1) s [(5,.issue 0 false none none),(6,.provision 9),
      (7,.administer s.world)] t := by
    refine .cons ⟨perform_some hu,by simp [Event.isCommand]⟩ ?_
    refine .cons ⟨perform_some hv,by simp [Event.isCommand]⟩ ?_
    exact .single ⟨perform_some ht,fun _ => hlacks⟩
  refine ⟨a,s,t,r,x,run_performs ha,hs,hunrestored,hnext,hx,?_⟩
  exact (withdrawn_right_stops_leases (run_performs ha) hs (by decide) hrow hactor hneeds
    hunrestored _ x hforward).mpr hx

end TuneX.Control
