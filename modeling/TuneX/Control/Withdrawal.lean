import TuneX.Control.Published

namespace TuneX.Control

open Framework

variable {s t u : State} {now g : Nat} {n : NodeId}

/-- What is published, and which plans are accepted, after a generation has been withdrawn. -/
structure After (s : State) (id : ForwardId) (g : Nat) (d : Deployment) (t : State) : Prop where
  stored : t.deployments.lookup (id,g)=some d
  published : ∀k p, t.snapshots.lookup k=some p→s.snapshots.lookup k=some p ∨
    ∀a∈p.assignments, a.forwardId=id→a.role≠.direct → g<a.deploymentGeneration ∧
      ∃d', t.deployments.lookup (id,a.deploymentGeneration)=some d'
  resumed : ∀g' d', t.deployments.lookup (id,g')=some d'→
    (∃d₀, s.deployments.lookup (id,g')=some d₀) ∨ g<g'

theorem After.acts {e : Nat×Event} {id : ForwardId} {d : Deployment} (hw : d.stage=.withdrawn)
    (ht : Deployed t) (h : After s id g d t) (hu : Acts t e.1 e.2 u) : After s id g d u := by
  have hr := hu.redeploy ht.specs
  have hkeep : ∀{g' d'}, t.deployments.lookup (id,g')=some d'→
      ∃d₁, u.deployments.lookup (id,g')=some d₁ := by
    intro g' d' hd'
    obtain ⟨d₁,hd₁,-⟩ := hr.lookup hd'
    exact ⟨d₁,hd₁⟩
  refine ⟨?_,?_,?_⟩
  · obtain ⟨d',hd',he⟩ := hr.lookup h.stored
    exact he hw ▸ hd'
  · intro k p hp
    obtain hp | ⟨n,row,next,-,-,hsource,-⟩ := hu.published hp
    · refine (h.published k p hp).imp_right fun ha a hm hf hrole => ?_
      obtain ⟨hg,d',hd'⟩ := ha a hm hf hrole
      exact ⟨hg,hkeep hd'⟩
    · right
      intro a hm hf hrole
      obtain ⟨d',row',hplanned⟩ := (hsource a hm).planned ht hrole
      have hl := hplanned.latest
      rw [hf] at hl
      obtain ⟨hd',hmax⟩ := latestDeployment_some hl
      refine ⟨lt_of_le_of_ne (hmax g d h.stored) ?_,hkeep hd'⟩
      intro he
      rw [← he,h.stored] at hd'
      cases hd'
      exact hplanned.live hw
  · intro g' d' hd'
    cases hr.origin hd' with
    | kept hd₀ => exact h.resumed g' _ hd₀
    | planned _ hdep acc _ _ hf hg =>
      subst hf hg
      exact .inr (acc.generation_fresh (hdep ▸ h.stored))

/-- A withdrawn generation stays withdrawn in every continuation of every run: its row never
changes, later snapshots carry only assignments of greater generations of the Forward, and every
later generation is greater and has a greater fence than any earlier one on each of its slots. -/
theorem withdrawn_generation_final {w : World} {l m : List (Nat×Event)} {s t : State}
    {id : ForwardId} {g : Nat} {d : Deployment} (hs : Run Step (State.initial w) l s)
    (hd : s.deployments.lookup (id,g)=some d) (hw : d.stage=.withdrawn) (ht : Run Step s m t) :
    t.deployments.lookup (id,g)=some d ∧
    (∀k p, t.snapshots.lookup k=some p→s.snapshots.lookup k≠some p→
      ∀a∈p.assignments, a.forwardId=id→a.role≠.direct → g<a.deploymentGeneration ∧
        ∃d', t.deployments.lookup (id,a.deploymentGeneration)=some d') ∧
    ∀g' d', t.deployments.lookup (id,g')=some d'→s.deployments.lookup (id,g')=none → g<g' ∧
      ∀g'' d'', t.deployments.lookup (id,g'')=some d'' → g''<g'→
        ∀node∈d'.plan.nodes, ∀a∈node.assignments, ∀node'∈d''.plan.nodes, ∀a'∈node'.assignments,
          a'.slotOn node'.nodeId=a.slotOn node.nodeId→a'.bindingFence<a.bindingFence := by
  have hinv : Deployed t ∧ After s id g d t := by
    refine ht.invariant (fun u => Deployed u ∧ After s id g d u) ?_ ⟨run_deployed hs,?_⟩
    · rintro a e b hab ⟨ha,hafter⟩
      exact ⟨ha.step hab,After.acts hw (ha.clock e.1)
        ⟨hafter.stored,hafter.published,hafter.resumed⟩ (step_acts ha.specs hab)⟩
    · exact ⟨hd,fun k p hp => .inl hp,fun g' d' hd' => .inl ⟨d',hd'⟩⟩
  obtain ⟨hdep,hafter⟩ := hinv
  refine ⟨hafter.stored,?_,?_⟩
  · intro k p hp hnew
    exact (hafter.published k p hp).resolve_left hnew
  · intro g' d' hd' hnew
    refine ⟨?_,?_⟩
    · obtain ⟨d₀,hd₀⟩ | hlt := hafter.resumed g' d' hd'
      · rw [hnew] at hd₀
        cases hd₀
      · exact hlt
    · intro g'' d'' hd'' hlt node hnode a ha node' hnode' a' ha' hslot
      exact hdep.ordered id g'' d'' g' d' hd'' hd' hlt node' hnode' a' ha' node hnode a ha hslot.symm

/-- A world in which everybody may do everything and credentials last. -/
def openWorld : World where
  executing := fun _ _ => true
  granted := fun _ _ => true
  facts := fun _ => ⟨0,[0],[100,200],⟨1,[1],false⟩,fun _ => true⟩
  credentialUntil := fun _ => 1000000000
  revoked := fun _ => false
  relayCredentials := fun n => [⟨n,1000000000,false⟩]
  profile := fun _ _ _ => some [.tcp,.udp]
  endpoint := fun n => some ⟨1,n,0,[300,301]⟩
  multihopEnabled := true

def fullCapabilities : List Capability :=
  [.adp3,.transport .tcp,.transport .udp,.nativeDirect,.nativeRelay,.relayWire,.multihopExecution,
    .nativeMultihop,.multihopWire]

def relaySpec (enabled : Bool) : Spec := ⟨enabled,[.tcp],0,0,100,⟨9,80⟩,[1],some ⟨1,1⟩⟩

def bothSpec (enabled : Bool) : Spec := { relaySpec enabled with protocols := [.tcp,.udp] }

/-- A Relay of two protocols and a direct Forward of its egress are published, and the Relay is then
disabled, which withdraws it. -/
def disablingRun : List (Nat×Event) :=
  [(0,.provision 0),(0,.provision 1),(0,.hello 0 1 fullCapabilities 0),
    (0,.hello 1 1 fullCapabilities 0),(1,.create 7 0 1 (bothSpec true)),
    (1,.create 7 0 2 ⟨true,[.tcp],1,0,200,⟨9,80⟩,[],none⟩),(2,.claim 0 1),(2,.claim 1 1),
    (3,.issue 1 false none none),(4,.update 7 1 1 (bothSpec false)),(5,.claim 2 1),(6,.advance 1)]

def enablingRun : List (Nat×Event) :=
  [(7,.update 7 1 2 (bothSpec true)),(8,.claim 3 1),(9,.advance 1),(10,.issue 1 false none none)]

theorem withdrawn_generation_final_enabled : ∃s t d d' p,
    Run Step (State.initial openWorld) disablingRun s ∧ Run Step s enablingRun t ∧
      s.deployments.lookup (1,1)=some d ∧ d.stage=.withdrawn ∧ t.deployments.lookup (1,1)=some d ∧
      t.deployments.lookup (1,3)=some d' ∧
      (∀node∈d'.plan.nodes, ∀a∈node.assignments, ∀node'∈d.plan.nodes, ∀a'∈node'.assignments,
        a'.slotOn node'.nodeId=a.slotOn node.nodeId→a'.bindingFence<a.bindingFence) ∧
      t.snapshots.lookup (1,2)=some p ∧ p.assignments.length=3 ∧
      ∀a∈p.assignments, a.forwardId=1→a.role≠.direct→1<a.deploymentGeneration := by
  have hrun : ((performs (State.initial openWorld) disablingRun).bind fun s =>
      (performs s enablingRun).bind fun t => (s.deployments.lookup (1,1)).bind fun d =>
        (t.deployments.lookup (1,3)).bind fun _ => (t.snapshots.lookup (1,2)).map fun p =>
          (decide (d.stage=.withdrawn),(s.deployments.lookup (1,3)).isNone,
            (s.snapshots.lookup (1,2)).isNone,p.assignments.length))=some (true,true,true,3) := by
    decide +kernel
  simp only [do_some,decide_eq_true_eq,Option.isNone_iff_eq_none] at hrun
  obtain ⟨s,hs,t,ht,d,hd,d',hd',p,hp,hw,hnew,hfresh,hlen⟩ := hrun
  obtain ⟨hkept,hsnapshots,hlater⟩ :=
    withdrawn_generation_final (run_performs hs) hd hw (run_performs ht)
  refine ⟨s,t,d,d',p,run_performs hs,run_performs ht,hd,hw,hkept,hd',
    (hlater 3 d' hd' hnew).2 1 d hkept (by decide),hp,hlen,?_⟩
  intro a ha hf hr
  exact (hsnapshots _ p hp (by simp [hfresh]) a ha hf hr).1

end TuneX.Control
