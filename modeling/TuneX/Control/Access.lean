import TuneX.Control.Sessions
import Mathlib.Data.List.Sort

namespace TuneX.Control

open Framework

inductive MemberRole
  | manager
  | viewer
  | removed
  deriving DecidableEq, Repr

/-- A change that the owner of the rights has accepted. `changed` says that the stored right was
another one; `stored` holds the revisions of the Profile that a grant opens. -/
inductive Management
  | member (scope : ScopeId) (actor : ActorId) (role : MemberRole) (changed : Bool)
  | nodeGrant (scope : ScopeId) (node : NodeId) (actor : ActorId) (allowed : Bool)
  | profileGrant (scope : ScopeId) (profile : Nat) (actor : ActorId) (allowed changed : Bool)
      (stored : ProfileRef→Option (List Protocol))
  | revokeNode (scope : ScopeId) (node : NodeId)

/-- The rights after a command; one that changes nothing leaves them. -/
def Management.rights (w : World) : Management→World
  | .member scope actor role changed =>
    { w with executing := fun a c =>
        if changed ∧ a=actor ∧ c=scope then role=.manager else w.executing a c }
  | .nodeGrant _ n actor allowed =>
    { w with granted := fun m a => if m=n ∧ a=actor then allowed else w.granted m a }
  | .profileGrant scope profile actor allowed changed stored =>
    { w with profile := fun a c ref => if changed ∧ a=actor ∧ c=scope ∧ ref.profileId=profile then
        (if allowed then stored ref else none) else w.profile a c ref }
  | .revokeNode _ n =>
    { w with
      revoked := fun m => m=n || w.revoked m
      relayCredentials := fun m => if m=n then [] else w.relayCredentials m }

/-- What a command reports: the Operations it accepted, with their Forwards. -/
structure AccessResult where
  operations : List (ForwardId×Kind)
  maximumAuthorization : Option Nat

/-- The larger of a maximum so far and a new value. -/
def later : Option Nat→Option Nat→Option Nat
  | m,none => m
  | m,some u => some (max (m.getD 0) u)

namespace State

def executionAllowed (s : State) (now : Nat) (actor : ActorId) (f : Forward) : Bool :=
  if f.spec.via.isEmpty then s.canExecuteDirect now actor f else s.canExecuteRelay now actor f

def maximumAuthorization (s : State) (n : NodeId) : Option Nat :=
  ((s.leases.rows.filter fun l => l.1.instanceKey.node=n).map (·.2.validUntil)).max?

def cutoff (s : State) (nodes : List NodeId) : Option Nat :=
  nodes.foldl (fun m n => later m (s.maximumAuthorization n)) none

/-- The Forwards with some property, in the order of their names. -/
def forwardIds (s : State) (which : ForwardRow→Bool) : List ForwardId :=
  ((s.forwards.rows.filter fun r => which r.2).map Prod.fst).insertionSort (·≤·)

def uses (row : ForwardRow) (n : NodeId) : Bool := row.spec.nodeId=n || row.spec.via.contains n

/-- What a change of access does about one Forward; `idle` asks for room for a disabled intent too. -/
def reconcile (s : State) (now : Nat) (id : ForwardId) (row : ForwardRow) (allowed idle : Bool) :
    Except Error State := do
  let t ← s.reauthorize now id allowed false
  if allowed && (idle || row.spec.enabled) then t.assertExecutionCapacity now (row.forward id)
  pure t

def outcome (allowed : Bool) : Kind := if allowed then .policy else .revoke

/-- The Nodes whose leases bound what a Forward of a member may still do. -/
def memberNodes (s : State) (f : Forward) : List NodeId :=
  if f.spec.via.isEmpty then [f.spec.nodeId] else s.nodeIDs f

/-- The Nodes that a change at one Node of a Forward affects besides. -/
def pathNodes (s : State) (f : Forward) : List NodeId :=
  if f.spec.via.isEmpty then [] else s.nodeIDs f

def memberForward (now : Nat) (actor : ActorId) (manager : Bool)
    (acc : State×List (ForwardId×Kind)×Option Nat) (id : ForwardId) :
    Except Error (State×List (ForwardId×Kind)×Option Nat) :=
  match acc.1.forwards.lookup id with
  | none => .error .notFound
  | some row =>
    if row.deleting || row.authorizer≠some actor then .ok acc else do
      let f := row.forward id
      let allowed := manager && acc.1.executionAllowed now actor f
      let t ← acc.1.reconcile now id row allowed true
      pure (t,acc.2.1++[(id,outcome allowed)],later acc.2.2 (t.cutoff (t.memberNodes f)))

/-- A Forward of a change that concerns one Node; the Nodes of its paths are affected too. -/
def nodeForward (now : Nat) (allowed : Bool) (acc : State×List (ForwardId×Kind)×List NodeId)
    (id : ForwardId) : Except Error (State×List (ForwardId×Kind)×List NodeId) :=
  match acc.1.forwards.lookup id with
  | none => .error .notFound
  | some row => do
    let affected := acc.1.pathNodes (row.forward id)
    let t ← acc.1.reconcile now id row allowed false
    pure (t,acc.2.1++[(id,outcome allowed)],acc.2.2++affected)

def profileForward (now : Nat) (actor : ActorId) (allowed : Bool)
    (acc : State×List (ForwardId×Kind)) (id : ForwardId) :
    Except Error (State×List (ForwardId×Kind)) :=
  match acc.1.forwards.lookup id with
  | none => .error .notFound
  | some row => do
    let canRun := allowed && acc.1.executionAllowed now actor (row.forward id)
    let t ← acc.1.reconcile now id row canRun false
    pure (t,acc.2++[(id,outcome canRun)])

def withRights (s : State) (m : Management) : State := { s with world := m.rights s.world }

/-- A command of the management, at a time. -/
def manage (s : State) (now : Nat) (m : Management) : Except Error (State×AccessResult) :=
  let t := s.withRights m
  match m with
  | .member scope actor role changed =>
    if changed then do
      let r ← (t.forwardIds fun row => row.scopeId=scope && row.authorizer=some actor &&
        !row.deleting).foldlM (memberForward now actor (role=.manager)) (t,[],none)
      pure (r.1,⟨r.2.1,r.2.2⟩)
    else pure (t,⟨[],none⟩)
  | .nodeGrant scope n actor allowed => do
    reject (allowed ∧ (s.world.revoked n ∨ ¬s.world.executing actor scope)) .authorizationDenied
    let concerned := if s.world.granted n actor=allowed then [] else
      t.forwardIds fun row => row.scopeId=scope && row.authorizer=some actor && !row.deleting &&
        uses row n
    let r ← concerned.foldlM (nodeForward now allowed) (t,[],[n])
    if allowed then r.1.assertCapacity now n
    pure (r.1,⟨r.2.1,r.1.cutoff r.2.2⟩)
  | .profileGrant scope profile actor allowed changed _ => do
    reject (allowed ∧ ¬s.world.executing actor scope) .authorizationDenied
    let concerned := if changed then t.forwardIds fun row => row.authorizer=some actor &&
        !row.deleting && !row.recoverySuspended && row.spec.transport.any fun p => p.profileId=profile
      else []
    let r ← concerned.foldlM (profileForward now actor allowed) (t,[])
    pure (r.1,⟨r.2,none⟩)
  | .revokeNode _ n => do
    let r ← (t.forwardIds fun row => !row.deleting && !row.recoverySuspended && uses row n).foldlM
      (nodeForward now false) (t,[],[n])
    pure (r.1,⟨r.2.1,r.1.cutoff r.2.2⟩)

end State

/-- The time of the response, by which nothing of the stopped Forwards runs. -/
def AccessResult.latestAuthorizationUntil (r : AccessResult) : Option Nat :=
  r.maximumAuthorization.bind fun u => if u=0 then none else some (u+5000)

/-- A command of the management that commits. -/
def Managed (s : State) (now : Nat) (m : Management) (t : State) (r : AccessResult) : Prop :=
  (s.atTime now).manage now m=.ok (t,r)

variable {s t u : State} {now : Nat} {id : ForwardId} {row : ForwardRow} {allowed : Bool}

/-- The Forwards concerned have been taken so far. -/
def Reconciled (now : Nat) (s t : State) : Prop :=
  ∃l, Run Step s l t ∧ ∀e∈l, ∃id allowed, e=(now,.reauthorize id allowed false)

theorem Reconciled.refl (now : Nat) (s : State) : Reconciled now s s := ⟨[],.refl,by simp⟩

variable {actor : ActorId}

theorem executionAllowed_direct {f : Forward} (hv : f.spec.via=[]) :
    s.executionAllowed now actor f=s.canExecuteDirect now actor f := by
  simp [State.executionAllowed,hv]

theorem executionAllowed_relay {f : Forward} (hv : f.spec.via≠[]) :
    s.executionAllowed now actor f=s.canExecuteRelay now actor f := by
  simp [State.executionAllowed,hv]

theorem reconcile_ok {idle : Bool} (h : s.reconcile now id row allowed idle=.ok t) :
    s.reauthorize now id allowed false=.ok t := by
  simp only [State.reconcile,bind_ok] at h
  obtain ⟨u,hu,h⟩ := h
  by_cases hroom : allowed && (idle || row.spec.enabled)
  · rw [if_pos hroom,bind_ok] at h
    obtain ⟨-,-,h⟩ := h
    cases h
    exact hu
  · rw [if_neg hroom] at h
    cases h
    exact hu

theorem reauthorize_step (hc : s.clock=now) (h : s.reauthorize now id allowed false=.ok t) :
    Step s (now,.reauthorize id allowed false) t := apply_step h hc

theorem reauthorize_frame {denied : Bool} (h : s.reauthorize now id allowed denied=.ok t) :
    t={ s with
      slots := t.slots
      deployments := t.deployments
      operations := t.operations } := by
  obtain ⟨row,u,-,-,hu,v,rfl,ht⟩ := State.reauthorize_ok h
  have hframe := (State.transitionFor_ok (fun _ => trivial) hu).frame
  generalize u.slots=slots, u.deployments=deployments at hframe
  subst hframe
  obtain rfl | ⟨-,rfl⟩ := ht
  · rfl
  · rfl

theorem Reconciled.keeps (hv : s.ValidSpecs) (h : Reconciled now s t) : t.ValidSpecs ∧
    (s.clock=now→t.clock=now) ∧ t.world=s.world ∧ t.leases=s.leases ∧ t.forwards=s.forwards := by
  obtain ⟨l,hrun,hl⟩ := h
  induction hrun with
  | refl => exact ⟨hv,fun hc => hc,rfl,rfl,rfl⟩
  | @snoc l t u e hrun hstep ih =>
    obtain ⟨htv,hclock,hworld,hleases,hforwards⟩ := ih fun e he => hl e (List.mem_append_left _ he)
    obtain ⟨id,allowed,rfl⟩ := hl e (List.mem_append_right _ (List.mem_singleton_self e))
    have hacts := step_acts htv hstep
    have hframe := reauthorize_frame (s := { t with clock := now }) hstep
    have hsame : u.world=t.world ∧ u.leases=t.leases ∧ u.forwards=t.forwards := by
      rw [hframe]
      exact ⟨rfl,rfl,rfl⟩
    exact ⟨hacts.validSpecs htv,fun _ => hacts.clock,hsame.1.trans hworld,hsame.2.1.trans hleases,
      hsame.2.2.trans hforwards⟩

theorem Reconciled.snoc (hv : s.ValidSpecs) (hc : s.clock=now) (h : Reconciled now s t)
    (ht : t.reauthorize now id allowed false=.ok u) : Reconciled now s u := by
  have hclock := (h.keeps hv).2.1 hc
  obtain ⟨l,hrun,hl⟩ := h
  refine ⟨l++[(now,.reauthorize id allowed false)],hrun.snoc (reauthorize_step hclock ht),?_⟩
  intro e he
  obtain he | he := List.mem_append.mp he
  · exact hl e he
  · exact ⟨id,allowed,List.mem_singleton.mp he⟩

theorem memberForward_ok {manager : Bool}
    {acc next : State×List (ForwardId×Kind)×Option Nat}
    (h : State.memberForward now actor manager acc id=.ok next) : next=acc ∨ ∃row allowed,
      acc.1.forwards.lookup id=some row ∧ acc.1.reauthorize now id allowed false=.ok next.1 ∧
      next.2=(acc.2.1++[(id,State.outcome allowed)],
        later acc.2.2 (next.1.cutoff (next.1.memberNodes (row.forward id)))) := by
  unfold State.memberForward at h
  cases hrow : acc.1.forwards.lookup id with
  | none => simp [hrow] at h
  | some row =>
    simp only [hrow] at h
    split_ifs at h
    · cases h
      exact .inl rfl
    · simp only [do_ok] at h
      obtain ⟨t,ht,rfl⟩ := h
      exact .inr ⟨row,_,rfl,reconcile_ok ht,rfl⟩

theorem nodeForward_ok {acc next : State×List (ForwardId×Kind)×List NodeId}
    (h : State.nodeForward now allowed acc id=.ok next) : ∃row, acc.1.forwards.lookup id=some row ∧
      acc.1.reauthorize now id allowed false=.ok next.1 ∧
      next.2=(acc.2.1++[(id,State.outcome allowed)],acc.2.2++acc.1.pathNodes (row.forward id)) := by
  unfold State.nodeForward at h
  cases hrow : acc.1.forwards.lookup id with
  | none => simp [hrow] at h
  | some row =>
    simp only [hrow,do_ok] at h
    obtain ⟨t,ht,rfl⟩ := h
    exact ⟨row,rfl,reconcile_ok ht,rfl⟩

theorem profileForward_ok {acc next : State×List (ForwardId×Kind)}
    (h : State.profileForward now actor allowed acc id=.ok next) :
    ∃canRun, acc.1.reauthorize now id canRun false=.ok next.1 := by
  unfold State.profileForward at h
  cases hrow : acc.1.forwards.lookup id with
  | none => simp [hrow] at h
  | some row =>
    simp only [hrow,do_ok] at h
    obtain ⟨t,ht,rfl⟩ := h
    exact ⟨_,reconcile_ok ht⟩

theorem manage_reconciled {m : Management} {r : AccessResult} (hv : s.ValidSpecs)
    (hc : s.clock=now) (h : s.manage now m=.ok (t,r)) : Reconciled now (s.withRights m) t := by
  have hstart : Reconciled now (s.withRights m) (s.withRights m) := .refl now _
  have hsnoc : ∀{a b : State} {id : ForwardId} {allowed : Bool}, Reconciled now (s.withRights m) a→
      a.reauthorize now id allowed false=.ok b→Reconciled now (s.withRights m) b :=
    fun ha hb => ha.snoc hv hc hb
  cases m with
  | member scope actor role changed =>
    simp only [State.manage] at h
    split_ifs at h
    · simp only [do_ok,Prod.mk.injEq] at h
      obtain ⟨acc,hacc,rfl,-⟩ := h
      refine foldlM_ok (fun b => Reconciled now _ b.1) ?_ hstart hacc
      intro b id c _ hb hf
      obtain rfl | ⟨row,allowed,-,hr,-⟩ := memberForward_ok hf
      · exact hb
      · exact hsnoc hb hr
    · cases h
      exact hstart
  | nodeGrant scope n actor allowed =>
    simp only [State.manage,do_ok] at h
    obtain ⟨-,acc,hacc,h⟩ := h
    have ht : acc.1=t := by
      by_cases hroom : allowed
      · rw [if_pos hroom,bind_ok] at h
        obtain ⟨-,-,h⟩ := h
        cases h
        rfl
      · rw [if_neg hroom] at h
        cases h
        rfl
    subst ht
    refine foldlM_ok (fun b => Reconciled now _ b.1) ?_ hstart hacc
    intro b id c _ hb hf
    obtain ⟨row,-,hr,-⟩ := nodeForward_ok hf
    exact hsnoc hb hr
  | profileGrant scope profile actor allowed changed stored =>
    simp only [State.manage,do_ok,Prod.mk.injEq] at h
    obtain ⟨-,acc,hacc,rfl,-⟩ := h
    refine foldlM_ok (fun b => Reconciled now _ b.1) ?_ hstart hacc
    intro b id c _ hb hf
    obtain ⟨canRun,hr⟩ := profileForward_ok hf
    exact hsnoc hb hr
  | revokeNode scope n =>
    simp only [State.manage,do_ok,Prod.mk.injEq] at h
    obtain ⟨acc,hacc,rfl,-⟩ := h
    refine foldlM_ok (fun b => Reconciled now _ b.1) ?_ hstart hacc
    intro b id c _ hb hf
    obtain ⟨row,-,hr,-⟩ := nodeForward_ok hf
    exact hsnoc hb hr

theorem Managed.run {m : Management} {r : AccessResult} (hv : s.ValidSpecs)
    (h : Managed s now m t r) : Step s (now,.administer (m.rights s.world)) ((s.atTime now).withRights m) ∧
      Reconciled now ((s.atTime now).withRights m) t :=
  ⟨rfl,manage_reconciled (s := s.atTime now) hv rfl h⟩

end TuneX.Control
