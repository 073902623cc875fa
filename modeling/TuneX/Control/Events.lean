import TuneX.Control.Slots

namespace TuneX.Control

open Framework

variable {s t u : State} {f : Forward} {now g : Nat} {n : NodeId} {e : Event}

theorem quarantineNode_frame (l : List (NodeId×RuntimeNode)) (s : State) :
    l.foldl State.quarantineNode s={ s with
      retirements := (l.foldl State.quarantineNode s).retirements } := by
  refine List.foldlRecOn _ State.quarantineNode (b := s)
    (motive := fun t => t={ s with retirements := t.retirements }) rfl ?_
  intro b hb r _
  unfold State.quarantineNode
  cases b.snapshots.lookup (r.1,r.2.snapshotGeneration) with
  | none => exact hb
  | some p =>
    refine List.foldlRecOn _ (State.quarantineOne r.1 p.snapshotGeneration) (b := b)
      (motive := fun t => t={ s with retirements := t.retirements }) hb ?_
    intro c hc a _
    unfold State.quarantineOne
    cases c.latest a.forwardId with
    | none => exact hc
    | some op =>
      dsimp only
      rw [hc]

theorem quarantineRecovery_frame (s : State) : s.quarantineRecovery={ s with
    world := { s.world with revoked := fun _ => true }
    operations := s.operations.map fun o => { o with recoveryInvalidated := true, claim := none }
    retirements := s.quarantineRecovery.retirements
    nodes := s.nodes.alter fun _ r => { r with lastReport := none, receivedAt := none }
    deployments := s.deployments.alter fun _ d => { d with stage := .withdrawn }
    forwards := s.forwards.alter fun _ r => { r with recoverySuspended := true } } :=
  quarantineNode_frame _ _

theorem State.claim_frame {id token : Nat} (h : s.claim now id token=.ok t) :
    t={ s with operations := t.operations } := by
  simp only [State.claim,do_ok] at h
  rw [← h.2]
  rfl

theorem State.Commanded.frame (c : s.Commanded now e t) : t={ s with
    slots := t.slots, deployments := t.deployments, forwards := t.forwards
    operations := t.operations } := by
  obtain ⟨f,kind,row,before,reserved,-,-,hr,-,-,ht⟩ := c
  rw [ht,hr.frame]

/-- What a committed event does. -/
inductive Acts (s : State) (now : Nat) : Event→State→Prop
  | idle (e : Event) : Acts s now e s
  | administer (w : World) : Acts s now (.administer w) { s with world := w }
  | provision {n : NodeId} (hn : s.nodes.lookup n=none) : Acts s now (.provision n)
      { s with nodes := s.nodes.insert n ⟨0,none,0,0,none,none,[]⟩ }
  | hello {n : NodeId} {boot lastStored : Nat} {c : List Capability} {row : RuntimeNode}
      (hn : s.nodes.lookup n=some row) (hb : s.boots.lookup (n,boot)=none)
      (hc : State.helloCapabilities c=.ok ()) : Acts s now (.hello n boot c lastStored)
      { s with
        boots := s.boots.insert (n,boot) (row.sessionEpoch+1)
        nodes := s.nodes.insert n (row.booted boot c) }
  | command {e : Event} {t : State} (c : s.Commanded now e t) : Acts s now e t
  | expire : Acts s now .expire (s.expire now)
  | claim {id token : Nat} {t : State} (h : s.claim now id token=.ok t) : Acts s now (.claim id token) t
  | turn {id : ForwardId} {g : Nat} {d : Deployment} {op : Operation} {row : ForwardRow} {t : State}
      (hd : s.latestDeployment id=some (g,d)) (ho : s.latest id=some op)
      (hrow : s.forwards.lookup id=some row) (ha : op.advances)
      (h : State.Turn s now (row.forward id) row op g d t) : Acts s now (.advance id) t
  | issue {n : NodeId} {awaiting : Bool} {claim : Option (Nat×Claim)} {credential : Option Nat}
      {row : RuntimeNode} {next : List Assignment} {t : State} (hrow : s.nodes.lookup n=some row)
      (hnext : next=[] ∨ s.assignments now n false=.ok next) (i : State.Issued s now n row next t) :
      Acts s now (.issue n awaiting claim credential) t
  | complete (n : NodeId) : Acts s now (.complete n) (s.complete now n none)
  | report {n : NodeId} {r : Report} {t : State} (h : State.Taken s now n r t) :
      Acts s now (.report n r) t
  | quarantine : Acts s now .quarantine s.quarantineRecovery

theorem apply_acts (hv : s.ValidSpecs) (h : apply s now e=.ok t) : Acts s now e t := by
  cases e with
  | administer w =>
    cases h
    exact .administer w
  | provision n =>
    simp only [apply,State.provision,do_ok] at h
    obtain ⟨hn,rfl⟩ := h
    exact .provision (Option.not_isSome_iff_eq_none.mp hn)
  | hello n boot c lastStored =>
    obtain ⟨rfl,-⟩ | ⟨row,hn,hb,hc,rfl⟩ := State.hello_ok h
    · exact .idle _
    · exact .hello hn hb hc
  | create =>
    obtain ⟨c⟩ := State.create_commanded h
    exact .command c
  | update =>
    obtain ⟨rfl,-⟩ | ⟨⟨c⟩⟩ := State.update_commanded h
    · exact .idle _
    · exact .command c
  | remove =>
    obtain ⟨c⟩ := State.remove_commanded hv h
    exact .command c
  | retry =>
    obtain ⟨c⟩ := State.retry_commanded hv h
    exact .command c
  | reauthorize =>
    obtain ⟨c⟩ := State.reauthorize_commanded hv h
    exact .command c
  | expire =>
    cases h
    exact .expire
  | claim => exact .claim h
  | advance id =>
    obtain rfl | ⟨g,d,op,row,hd,ho,hrow,ha,ht⟩ := State.advance_ok h
    · exact .idle _
    · exact .turn hd ho hrow ha ht
  | issue =>
    obtain ⟨rfl,-⟩ | ⟨row,next,hrow,hnext,⟨i⟩⟩ := State.issue_ok h
    · exact .idle _
    · exact .issue hrow hnext i
  | complete n =>
    cases h
    exact .complete n
  | report n r =>
    obtain rfl | ⟨⟨h⟩⟩ := State.report_ok h
    · exact .idle _
    · exact .report h
  | quarantine =>
    cases h
    exact .quarantine

theorem Acts.issued (h : Acts s now e t) : (t.snapshots=s.snapshots ∧ t.leases=s.leases) ∨
    ∃n row next, s.nodes.lookup n=some row ∧ (next=[] ∨ s.assignments now n false=.ok next) ∧
      Nonempty (State.Issued s now n row next t) := by
  cases h with
  | idle | administer | provision | hello | expire => exact .inl ⟨rfl,rfl⟩
  | command c =>
    left
    rw [c.frame]
    exact ⟨rfl,rfl⟩
  | claim h =>
    left
    rw [State.claim_frame h]
    exact ⟨rfl,rfl⟩
  | turn _ _ _ _ h =>
    left
    rw [State.turn_frame h]
    exact ⟨rfl,rfl⟩
  | issue hrow hnext i => exact .inr ⟨_,_,_,hrow,hnext,⟨i⟩⟩
  | complete =>
    left
    rw [State.complete_frame]
    exact ⟨rfl,rfl⟩
  | report h =>
    left
    rw [h.frame]
    exact ⟨rfl,rfl⟩
  | quarantine =>
    left
    rw [quarantineRecovery_frame]
    exact ⟨rfl,rfl⟩

variable {row : RuntimeNode} {next : List Assignment}

theorem State.Issued.frame
    (i : State.Issued s now n row next t) : t={ s with
      operations := t.operations
      retirements := t.retirements
      snapshots := t.snapshots
      nodes := t.nodes
      leases := t.leases } := by
  obtain ⟨retired,until_,p,-,hr,-,-,rfl⟩ := i
  rw [State.recordLeases_frame]
  unfold State.store
  rw [State.retireChanged_frame hr]

theorem State.Issued.snapshot_fields
    (i : State.Issued s now n row next t) : i.snapshot.nodeId=n ∧
      i.snapshot.sessionEpoch=row.sessionEpoch ∧
      i.snapshot.snapshotGeneration=row.snapshotGeneration+1 ∧
      i.snapshot.assignments=next ∧ i.snapshot.validUntil≤now+leaseMillis := by
  obtain ⟨-,h2,-,-,-,-,he⟩ := State.compileSnapshot_ok.mp i.snapshot_eq
  rw [he]
  exact ⟨rfl,rfl,rfl,rfl,h2⟩

theorem State.Issued.snapshots
    (i : State.Issued s now n row next t) :
    t.snapshots=s.snapshots.insert (n,row.snapshotGeneration+1) i.snapshot := by
  obtain ⟨hn,-,hg,-,-⟩ := i.snapshot_fields
  have hr : i.retired.snapshots=s.snapshots := by
    rw [State.retireChanged_frame i.retired_eq]
  refine (congrArg State.snapshots i.result).trans ?_
  rw [State.recordLeases_frame]
  change i.retired.snapshots.insert (i.snapshot.nodeId,i.snapshot.snapshotGeneration) i.snapshot=_
  rw [hn,hg,hr]

theorem State.Issued.nodes
    (i : State.Issued s now n row next t) :
    t.nodes=s.nodes.insert n { row with snapshotGeneration := row.snapshotGeneration+1 } := by
  obtain ⟨hn,-,hg,-,-⟩ := i.snapshot_fields
  have hr : i.retired.nodes=s.nodes := by
    rw [State.retireChanged_frame i.retired_eq]
  refine (congrArg State.nodes i.result).trans ?_
  rw [State.recordLeases_frame]
  change i.retired.nodes.insert i.snapshot.nodeId
    { row with snapshotGeneration := i.snapshot.snapshotGeneration }=_
  rw [hn,hg,hr]

theorem Acts.forwards (h : Acts s now e t) : t.forwards=s.forwards ∨
    (e=.quarantine ∧ t.forwards=s.forwards.alter fun _ r => { r with recoverySuspended := true }) ∨
    Nonempty (s.Commanded now e t) := by
  cases h with
  | idle | administer | provision | hello | expire => exact .inl rfl
  | command c => exact .inr (.inr ⟨c⟩)
  | claim h =>
    left
    rw [State.claim_frame h]
  | turn _ _ _ _ h =>
    left
    rw [State.turn_frame h]
  | issue _ _ i =>
    left
    rw [i.frame]
  | complete =>
    left
    rw [State.complete_frame]
  | report h =>
    left
    rw [h.frame]
  | quarantine =>
    refine .inr (.inl ⟨rfl,?_⟩)
    rw [quarantineRecovery_frame]

theorem Acts.validSpecs (h : Acts s now e t) (hs : s.ValidSpecs) : t.ValidSpecs := by
  intro id row hrow
  obtain hf | ⟨-,hf⟩ | ⟨⟨c⟩⟩ := h.forwards
  · exact hs id row (hf ▸ hrow)
  · rw [hf,Table.lookup_alter_some] at hrow
    obtain ⟨r,hr,rfl⟩ := hrow
    exact hs id r hr
  · rw [c.forwards] at hrow
    split_ifs at hrow with hid
    · cases hrow
      rw [c.spec]
      exact c.valid
    · exact hs id row hrow

theorem Acts.nodes_mono (h : Acts s now e t) (hrow : s.nodes.lookup n=some row) :
    ∃row', t.nodes.lookup n=some row' ∧ row.sessionEpoch ≤ row'.sessionEpoch ∧
      row.snapshotGeneration ≤ row'.snapshotGeneration := by
  have hkeep : ∀v : State, v.nodes=s.nodes→∃row', v.nodes.lookup n=some row' ∧
      row.sessionEpoch ≤ row'.sessionEpoch ∧ row.snapshotGeneration ≤ row'.snapshotGeneration :=
    fun v hv => ⟨row,hv ▸ hrow,le_rfl,le_rfl⟩
  have hinsert : ∀(v : State) (m : NodeId) (a b : RuntimeNode), s.nodes.lookup m=some a→
      v.nodes=s.nodes.insert m b→a.sessionEpoch≤b.sessionEpoch→
      a.snapshotGeneration≤b.snapshotGeneration→∃row', v.nodes.lookup n=some row' ∧
      row.sessionEpoch ≤ row'.sessionEpoch ∧ row.snapshotGeneration ≤ row'.snapshotGeneration := by
    intro v m a b ha hv he hg
    rw [hv,Table.lookup_insert_eq]
    split_ifs with hn
    · subst hn
      rw [hrow] at ha
      cases ha
      exact ⟨b,rfl,he,hg⟩
    · exact ⟨row,hrow,le_rfl,le_rfl⟩
  cases h with
  | idle | administer | expire => exact hkeep _ rfl
  | @provision m hm =>
    have hne : n≠m := by
      intro he
      rw [he,hm] at hrow
      cases hrow
    refine ⟨row,?_,le_rfl,le_rfl⟩
    exact (AList.lookup_insert_ne hne).trans hrow
  | hello hm => exact hinsert _ _ _ _ hm rfl (Nat.le_succ _) le_rfl
  | command c => exact hkeep _ (by rw [c.frame])
  | claim h => exact hkeep _ (by rw [State.claim_frame h])
  | turn _ _ _ _ h => exact hkeep _ (by rw [State.turn_frame h])
  | issue hm _ i => exact hinsert _ _ _ _ hm i.nodes le_rfl (Nat.le_succ _)
  | complete => exact hkeep _ (by rw [State.complete_frame])
  | report h =>
    obtain ⟨r,hr,ht⟩ := h.nodes
    exact hinsert _ _ _ _ hr ht le_rfl le_rfl
  | quarantine =>
    refine ⟨{ row with lastReport := none, receivedAt := none },?_,le_rfl,le_rfl⟩
    rw [quarantineRecovery_frame,Table.lookup_alter,hrow]
    rfl

theorem step_acts {e : Nat×Event} (hs : s.ValidSpecs) (h : Step s e t) :
    Acts { s with clock := e.1 } e.1 e.2 t := apply_acts (s := { s with clock := e.1 }) hs h

theorem run_validSpecs {w : World} {l : List (Nat×Event)} (h : Run Step (State.initial w) l s) :
    s.ValidSpecs := by
  refine h.invariant State.ValidSpecs ?_ ?_
  · intro a e b hab ha
    exact (step_acts ha hab).validSpecs ha
  · intro id row hrow
    simp [State.initial] at hrow

theorem Acts.world (h : Acts s now e t) : t.world=s.world ∨ e=.administer t.world ∨
    e=.quarantine := by
  cases h with
  | idle | provision | hello | expire => exact .inl rfl
  | administer w => exact .inr (.inl rfl)
  | command c => exact .inl (by rw [c.frame])
  | claim h => exact .inl (by rw [State.claim_frame h])
  | turn _ _ _ _ h => exact .inl (by rw [State.turn_frame h])
  | issue _ _ i => exact .inl (by rw [i.frame])
  | complete => exact .inl (by rw [State.complete_frame])
  | report h => exact .inl (by rw [h.frame])
  | quarantine => exact .inr (.inr rfl)

theorem run_world {w : World} {l : List (Nat×Event)} (h : Run Step (State.initial w) l s)
    (hl : ∀e∈l, (∀w', e.2≠.administer w') ∧ e.2≠.quarantine) : s.world=w := by
  have hinv : s.ValidSpecs ∧ s.world=w := by
    refine h.history (fun l u => (∀e∈l, (∀w', e.2≠Event.administer w') ∧ e.2≠.quarantine)→
      u.ValidSpecs ∧ u.world=w) ?_ (fun _ => ⟨run_validSpecs .refl,rfl⟩) hl
    intro l a e b _ hstep ih hl
    obtain ⟨hv,hw⟩ := ih fun x hx => hl x (List.mem_append_left _ hx)
    have hacts := step_acts hv hstep
    refine ⟨hacts.validSpecs hv,?_⟩
    obtain hworld | hadmin | hquarantine := hacts.world
    · exact hworld.trans hw
    · exact absurd hadmin ((hl e (by simp)).1 _)
    · exact absurd hquarantine (hl e (by simp)).2
  exact hinv.2

end TuneX.Control
