import TuneX.Agent.JournalStore

namespace TuneX.Agent

open Framework

/-- The snapshots accepted in a history, oldest first. -/
def acceptedSnapshots (l : List JournalEvent) : List Snapshot :=
  l.filterMap fun
    | .accept _ snapshot _ => some snapshot
    | _ => none

/-- The assignments of all snapshots accepted in a history. -/
def accepted (l : List JournalEvent) : List Assignment :=
  (acceptedSnapshots l).flatMap Snapshot.assignments

/-- No two different snapshots of a history have one digest. -/
def CollisionFree (lib : Library) (l : List JournalEvent) : Prop :=
  ∀s∈acceptedSnapshots l, ∀t∈acceptedSnapshots l,
    lib.digest (.snapshot s.body)=lib.digest (.snapshot t.body)→s.body=t.body

@[simp] theorem acceptedSnapshots_append (l m : List JournalEvent) :
    acceptedSnapshots (l++m)=acceptedSnapshots l++acceptedSnapshots m := by
  simp [acceptedSnapshots]

@[simp] theorem accepted_append (l m : List JournalEvent) :
    accepted (l++m)=accepted l++accepted m := by
  simp [accepted]

@[simp] theorem accepted_load (r : RuntimeJournal) : accepted [.load r]=[] := rfl

@[simp] theorem accepted_enable (transit : Option TransitJournal) (o : Outcome) :
    accepted [.enable transit o]=[] := rfl

@[simp] theorem accepted_accept (current : RuntimeJournal) (s : Snapshot) (o : Outcome) :
    accepted [.accept current s o]=s.assignments := by
  simp [accepted,acceptedSnapshots]

theorem CollisionFree.mono {lib : Library} {l m : List JournalEvent}
    (h : CollisionFree lib (l++m)) : CollisionFree lib l := by
  intro s hs t ht
  apply h
  · simp [hs]
  · simp [ht]

/-- The identity under which a slot and fence are held. -/
def SameOwner (a b : Assignment) : Prop :=
  a.assignmentId=b.assignmentId ∧ a.forwardId=b.forwardId ∧
    a.deploymentGeneration=b.deploymentGeneration ∧ a.role=b.role ∧ a.driver.id=b.driver.id

def Phase.rank : Phase→Nat
  | .prepared => 0
  | .active => 1
  | .draining => 2

theorem continues_rank {a b : Assignment} (h : RuntimeJournal.Continues a b) :
    a.phase.rank≤b.phase.rank := by
  obtain ⟨-,hd,hp⟩ := h
  cases ha : a.phase <;> cases hb : b.phase <;> simp_all [Phase.rank]

/-- The invariant of a journal history: the store is coherent, its snapshot is one of those
accepted, its marks settle every assignment ever accepted, and each slot and fence has had
one owner. -/
structure Sound (lib : Library) (l : List JournalEvent) (s : Store) : Prop where
  coherent : Coherent lib s
  logged : 0<s.file.generation→∃snapshot∈acceptedSnapshots l, s.file.snapshot=some snapshot
  settled : FenceTable.Settled Assignment.slot Assignment.bindingFence
    RuntimeJournal.Continues s.file.table s.file.live (accepted l)
  owners : ∀a∈accepted l, ∀b∈accepted l, a.slot=b.slot→a.bindingFence=b.bindingFence→
    SameOwner a b

theorem sound_start (lib : Library) (node : String) : Sound lib [] (Store.start node) := by
  refine ⟨coherent_start lib node,fun h => absurd h (Nat.lt_irrefl 0),?_,?_⟩
  · intro a ha
    simp [accepted,acceptedSnapshots] at ha
  · intro a ha
    simp [accepted,acceptedSnapshots] at ha

theorem body_inj {s t : Snapshot} (hb : s.body=t.body)
    (hd : s.snapshotDigest=t.snapshotDigest) : s=t := by
  cases s
  cases t
  simp only [Snapshot.body,Snapshot.mk.injEq] at hb hd
  simp_all

section Steps

variable {lib : TransitLibrary} {node : String} {l : List JournalEvent} {s t : Store}
  {current : RuntimeJournal} {snapshot : Snapshot} {o : Outcome} {transit : Option TransitJournal}

theorem repeats_snapshot (hs : Sound lib.toLibrary l s)
    (hc : CollisionFree lib.toLibrary (l++[.accept current snapshot o]))
    (h : Repeats lib.toLibrary s snapshot t) : snapshot.assignments=s.file.live := by
  have hpos : 0<s.file.generation := by
    have hv := (RuntimeJournal.valid_generation h.valid).1
    have hg := h.generation
    omega
  obtain ⟨stored,hm,hst⟩ := hs.logged hpos
  obtain ⟨stored',hst',-,hsd,hsv⟩ := hs.coherent.stored hpos
  have hsame : stored'=stored := Option.some.inj (hst'.symm.trans hst)
  rw [hsame] at hsd hsv
  have hdig : snapshot.snapshotDigest=stored.snapshotDigest := h.digest.trans hsd.symm
  have heq : snapshot=stored := by
    apply body_inj _ hdig
    apply hc
    · simp [acceptedSnapshots]
    · simp [hm]
    · rw [h.valid.digest,hsv.digest,hdig]
  rw [RuntimeJournal.live_of_snapshot hpos hst,heq]

theorem advances_consistent (h : Advances lib.toLibrary s snapshot t) :
    FenceTable.Consistent Assignment.slot Assignment.bindingFence RuntimeJournal.Continues
      s.file.live snapshot.assignments := by
  intro old hold a ha hslot hfence
  exact (RuntimeJournal.compare_none (h.compared a ha old hold) hslot).1 hfence

section

variable (hs : Sound lib.toLibrary l s)
include hs

theorem advances_settled (h : Advances lib.toLibrary s snapshot t) :
    FenceTable.Settled Assignment.slot Assignment.bindingFence RuntimeJournal.Continues
      t.file.table t.file.live (accepted l++snapshot.assignments) := by
  have hg := h.grants
  obtain ⟨before,hagree,hadmits,htable⟩ := h.table
  rw [h.live,htable] at hg ⊢
  exact FenceTable.settled_advance (FenceTable.settled_congr hagree hs.settled) hadmits
    h.valid.slots RuntimeJournal.continues_trans RuntimeJournal.continues_refl
    (advances_consistent h) hg

theorem accept_related (hc : CollisionFree lib.toLibrary (l++[.accept current snapshot o]))
    (h : Store.Step lib node s (.accept current snapshot o) t) :
    FenceTable.Consistent Assignment.slot Assignment.bindingFence RuntimeJournal.Continues
      (accepted l) snapshot.assignments := by
  rcases accept_step hs.coherent h with ⟨hrep,-⟩|⟨hadv,-⟩
  · rw [repeats_snapshot hs hc hrep]
    exact FenceTable.settled_present hs.settled hs.coherent.grants
  · exact FenceTable.settled_related hs.settled hadv.admits RuntimeJournal.continues_trans
      (advances_consistent hadv)

theorem accept_owners (hc : CollisionFree lib.toLibrary (l++[.accept current snapshot o]))
    (h : Store.Step lib node s (.accept current snapshot o) t) :
    ∀a∈accepted l++snapshot.assignments, ∀b∈accepted l++snapshot.assignments,
      a.slot=b.slot→a.bindingFence=b.bindingFence→SameOwner a b := by
  have hrel := accept_related hs hc h
  have hslots := (RuntimeJournal.accept_cases h.2.1).2.2.1.slots
  intro a ha b hb hslot hfence
  rcases List.mem_append.mp ha with ha|ha <;> rcases List.mem_append.mp hb with hb|hb
  · exact hs.owners a ha b hb hslot hfence
  · exact (hrel a ha b hb hslot hfence).1
  · obtain ⟨h₁,h₂,h₃,h₄,h₅⟩ := (hrel b hb a ha hslot.symm hfence.symm).1
    exact ⟨h₁.symm,h₂.symm,h₃.symm,h₄.symm,h₅.symm⟩
  · have heq := List.inj_on_of_nodup_map hslots ha hb hslot
    exact heq ▸ (RuntimeJournal.continues_refl a).1

theorem sound_accept (hc : CollisionFree lib.toLibrary (l++[.accept current snapshot o]))
    (h : Store.Step lib node s (.accept current snapshot o) t) :
    Sound lib.toLibrary (l++[.accept current snapshot o]) t := by
  have hlog : acceptedSnapshots (l++[.accept current snapshot o])=
      acceptedSnapshots l++[snapshot] := by simp [acceptedSnapshots]
  have hacc : accepted (l++[.accept current snapshot o])=accepted l++snapshot.assignments := by
    simp
  refine ⟨coherent_accept hs.coherent h,?_,?_,?_⟩
  · rw [hlog]
    intro hpos
    rcases accept_step hs.coherent h with ⟨hrep,-⟩|⟨hadv,-⟩
    · rw [hrep.file] at hpos ⊢
      obtain ⟨stored,hm,hst⟩ := hs.logged hpos
      exact ⟨stored,by simp [hm],hst⟩
    · exact ⟨snapshot,by simp,hadv.stored.1⟩
  · rw [hacc]
    rcases accept_step hs.coherent h with ⟨hrep,-⟩|⟨hadv,-⟩
    · rw [hrep.file,repeats_snapshot hs hc hrep]
      exact FenceTable.settled_append hs.settled
        (FenceTable.settled_self hs.coherent.grants RuntimeJournal.continues_refl)
    · exact advances_settled hs hadv
  · rw [hacc]
    exact accept_owners hs hc h

theorem sound_enable (h : Store.Step lib node s (.enable transit o) t) :
    Sound lib.toLibrary (l++[.enable transit o]) t := by
  obtain ⟨hgen,hsnap,-,-,htable⟩ := enable_step h
  have hlive : t.file.live=s.file.live := RuntimeJournal.live_congr hgen hsnap
  have hlog : acceptedSnapshots (l++[.enable transit o])=acceptedSnapshots l := by
    simp [acceptedSnapshots]
  have hacc : accepted (l++[.enable transit o])=accepted l := by simp
  refine ⟨coherent_enable hs.coherent h,?_,?_,hacc ▸ hs.owners⟩
  · rw [hgen,hsnap,hlog]
    exact hs.logged
  · rw [hlive,hacc]
    rcases htable with ht|⟨legacy,-,ht⟩
    · rw [ht]
      exact hs.settled
    · rw [ht]
      exact FenceTable.settled_absorb hs.settled legacy

theorem sound_load {record : RuntimeJournal} (h : Store.Step lib node s (.load record) t) :
    Sound lib.toLibrary (l++[.load record]) t := by
  have hlog : acceptedSnapshots (l++[.load record])=acceptedSnapshots l := by
    simp [acceptedSnapshots]
  have hacc : accepted (l++[.load record])=accepted l := by simp
  have hfile : t.file=s.file := by rw [h.2]
  refine ⟨coherent_load hs.coherent h,?_,?_,hacc ▸ hs.owners⟩
  · rw [hfile,hlog]
    exact hs.logged
  · rw [hfile,hacc]
    exact hs.settled

end

/-- What a step adds to the history before it: the marks only rise, the generation rises
with every new snapshot, and what is accepted lies above the retired marks. -/
structure Rises (s : Store) (e : JournalEvent) (t : Store) : Prop where
  generation : s.file.generation≤t.file.generation
  snapshot : t.file.snapshot≠s.file.snapshot→s.file.generation<t.file.generation
  fences : ∀k, s.file.fences.read k≤t.file.fences.read k
  retired : ∀k, s.file.retired.read k≤t.file.retired.read k
  above : ∀a∈accepted [e], s.file.retired.read a.slot<a.bindingFence

theorem rises_accept (hs : Sound lib.toLibrary l s)
    (hc : CollisionFree lib.toLibrary (l++[.accept current snapshot o]))
    (h : Store.Step lib node s (.accept current snapshot o) t) :
    Rises s (.accept current snapshot o) t := by
  rcases accept_step hs.coherent h with ⟨hrep,-⟩|⟨hadv,-⟩
  · have hfile := hrep.file
    refine ⟨hfile ▸ le_rfl,fun hne => absurd (hfile ▸ rfl) hne,?_,?_,?_⟩
    · exact fun k => hfile ▸ le_rfl
    · exact fun k => hfile ▸ le_rfl
    · intro a ha
      rw [accepted_accept,repeats_snapshot hs hc hrep] at ha
      exact (hs.coherent.grants.held _ _ (FenceTable.mem_grantsOf ha)).2
  · obtain ⟨before,hagree,hadmits,htable⟩ := hadv.table
    refine ⟨hadv.generation.le,fun _ => hadv.generation,?_,?_,?_⟩
    · intro k
      change s.file.table.fences.read k≤t.file.table.fences.read k
      rw [hagree.1,htable]
      exact FenceTable.advance_fences_mono hadmits hadv.keys _ k
    · intro k
      change s.file.table.retired.read k≤t.file.table.retired.read k
      rw [hagree.2,htable]
      exact FenceTable.advance_retired_mono _ _ _ k
    · intro a ha
      rw [accepted_accept] at ha
      exact (hadv.admits _ _ (FenceTable.mem_grantsOf ha)).2

theorem rises_enable (h : Store.Step lib node s (.enable transit o) t) :
    Rises s (.enable transit o) t := by
  obtain ⟨hgen,hsnap,-,-,htable⟩ := enable_step h
  refine ⟨hgen.ge,fun hne => absurd hsnap hne,?_,?_,by simp⟩
  · intro k
    change s.file.table.fences.read k≤t.file.table.fences.read k
    rcases htable with ht|⟨legacy,-,ht⟩
    · rw [ht]
    · rw [ht]
      exact FenceTable.absorb_fences_mono _ _ k
  · intro k
    change s.file.table.retired.read k≤t.file.table.retired.read k
    rcases htable with ht|⟨legacy,-,ht⟩
    · rw [ht]
    · rw [ht]
      exact FenceTable.absorb_retired_mono _ _ k

variable {e : JournalEvent} {l₁ l₂ : List JournalEvent} {s₁ s₂ : Store}

theorem step_rises (hs : Sound lib.toLibrary l s) (hc : CollisionFree lib.toLibrary (l++[e]))
    (h : Store.Step lib node s e t) : Rises s e t := by
  cases e with
  | load record =>
    obtain ⟨-,rfl⟩ := h
    exact ⟨le_rfl,fun hne => absurd rfl hne,fun _ => le_rfl,fun _ => le_rfl,by simp⟩
  | accept current snapshot o => exact rises_accept hs hc h
  | enable transit o => exact rises_enable h

/-- What a run adds to the history before it. -/
structure Follows (l₁ : List JournalEvent) (s₁ : Store) (l₂ : List JournalEvent)
    (s₂ : Store) : Prop where
  generation : s₁.file.generation ≤ s₂.file.generation
  snapshot : s₂.file.snapshot≠s₁.file.snapshot→s₁.file.generation<s₂.file.generation
  fences : ∀k, s₁.file.fences.read k ≤ s₂.file.fences.read k
  retired : ∀k, s₁.file.retired.read k ≤ s₂.file.retired.read k
  above : ∀a∈accepted l₂, s₁.file.retired.read a.slot<a.bindingFence
  related : FenceTable.Consistent Assignment.slot Assignment.bindingFence
    RuntimeJournal.Continues (accepted l₁) (accepted l₂)

theorem Follows.snoc {s₃ : Store} (h : Follows l₁ s₁ l₂ s₂) (hr : Rises s₂ e s₃)
    (hrel : FenceTable.Consistent Assignment.slot Assignment.bindingFence
      RuntimeJournal.Continues (accepted l₁) (accepted [e])) : Follows l₁ s₁ (l₂++[e]) s₃ := by
  have hsplit : ∀a∈accepted (l₂++[e]), a∈accepted l₂ ∨ a∈accepted [e] := by
    intro a ha
    rw [accepted_append] at ha
    exact List.mem_append.mp ha
  refine ⟨h.generation.trans hr.generation,?_,?_,?_,?_,?_⟩
  · intro hne
    by_cases hmid : s₂.file.snapshot=s₁.file.snapshot
    · exact h.generation.trans_lt (hr.snapshot (fun heq => hne (heq.trans hmid)))
    · exact (h.snapshot hmid).trans_le hr.generation
  · exact fun k => (h.fences k).trans (hr.fences k)
  · exact fun k => (h.retired k).trans (hr.retired k)
  · intro a ha
    rcases hsplit a ha with ha|ha
    · exact h.above a ha
    · exact (h.retired a.slot).trans_lt (hr.above a ha)
  · intro a ha b hb
    rcases hsplit b hb with hb|hb
    · exact h.related a ha b hb
    · exact hrel a ha b hb

theorem run_follows (hs : Sound lib.toLibrary l₁ s₁) (hc : CollisionFree lib.toLibrary (l₁++l₂))
    (h : Run (Store.Step lib node) s₁ l₂ s₂) :
    Sound lib.toLibrary (l₁++l₂) s₂ ∧ Follows l₁ s₁ l₂ s₂ := by
  have key := h.history
    (fun l s => CollisionFree lib.toLibrary (l₁++l)→
      Sound lib.toLibrary (l₁++l) s ∧ Follows l₁ s₁ l s)
    (by
      intro l a e b _ hstep ih hc
      rw [← List.append_assoc] at hc ⊢
      obtain ⟨hsa,hf⟩ := ih hc.mono
      have hr := step_rises hsa hc hstep
      cases e with
      | load record => exact ⟨sound_load hsa hstep,hf.snoc hr (by simp [FenceTable.Consistent])⟩
      | enable transit o =>
        exact ⟨sound_enable hsa hstep,hf.snoc hr (by simp [FenceTable.Consistent])⟩
      | accept current snapshot o =>
        refine ⟨sound_accept hsa hc hstep,hf.snoc hr ?_⟩
        have hrel := accept_related hsa hc hstep
        intro x hx y hy
        rw [accepted_accept] at hy
        exact hrel x (by simp [hx]) y hy)
    (by
      intro _
      rw [List.append_nil]
      exact ⟨hs,le_rfl,fun hne => absurd rfl hne,fun _ => le_rfl,fun _ => le_rfl,
        by simp [accepted,acceptedSnapshots],
        by simp [FenceTable.Consistent,accepted,acceptedSnapshots]⟩)
  exact key hc

theorem run_sound (hc : CollisionFree lib.toLibrary l)
    (h : Run (Store.Step lib node) (Store.start node) l s) : Sound lib.toLibrary l s :=
  (run_follows (sound_start _ _) hc h).1

end Steps

/-- Over every history of one journal: the generation rises with every stored change, no
mark falls, nothing retired is accepted again, a slot and fence has one owner for ever, and
its phase never moves back. -/
theorem fence_history (lib : TransitLibrary) (node : String) (l₁ l₂ : List JournalEvent)
    (s₁ s₂ : Store) (hc : CollisionFree lib.toLibrary (l₁++l₂))
    (h₁ : Run (Store.Step lib node) (Store.start node) l₁ s₁)
    (h₂ : Run (Store.Step lib node) s₁ l₂ s₂) :
    (s₁.file.generation ≤ s₂.file.generation ∧
      (s₂.file.snapshot≠s₁.file.snapshot→s₁.file.generation<s₂.file.generation) ∧
      ∀current snapshot o, l₂=[.accept current snapshot o]→s₂.file≠s₁.file→
        s₁.file.generation<s₂.file.generation) ∧
    (∀slot, s₁.file.fences.read slot ≤ s₂.file.fences.read slot ∧
      s₁.file.retired.read slot ≤ s₂.file.retired.read slot) ∧
    (∀a∈accepted l₂, ∀fence ≤ s₁.file.retired.read a.slot, a.bindingFence≠fence) ∧
    (∀a∈accepted (l₁++l₂), ∀b∈accepted (l₁++l₂),
      a.slot=b.slot→a.bindingFence=b.bindingFence→
        a.assignmentId=b.assignmentId ∧ a.forwardId=b.forwardId ∧
        a.deploymentGeneration=b.deploymentGeneration ∧ a.role=b.role ∧
        a.driver.id=b.driver.id) ∧
    (∀a∈accepted l₁, ∀b∈accepted l₂, a.slot=b.slot→a.bindingFence=b.bindingFence→
      a.phase.rank≤b.phase.rank) := by
  have hs₁ := run_sound hc.mono h₁
  obtain ⟨hs₂,hf⟩ := run_follows hs₁ hc h₂
  refine ⟨⟨hf.generation,hf.snapshot,?_⟩,fun slot => ⟨hf.fences slot,hf.retired slot⟩,?_,?_,?_⟩
  · rintro current snapshot o rfl hne
    obtain ⟨u,hu,hstep⟩ := Run.snoc_inv (l := []) h₂
    obtain rfl := hu.nil_inv
    rcases accept_step hs₁.coherent hstep with ⟨hrep,-⟩|⟨hadv,-⟩
    · exact absurd hrep.file hne
    · exact hadv.generation
  · intro a ha fence hle heq
    have habove := hf.above a ha
    omega
  · exact hs₂.owners
  · exact fun a ha b hb hslot hfence => continues_rank (hf.related a ha b hb hslot hfence)

namespace Sample

def hash (n : Nat) : String :=
  "sha256:000000000000000000000000000000000000000000000000000000000000000"++
    String.ofList [Nat.digitChar (n%16)]

/-- Libraries that agree with the real ones on the literals below: every host and address
there is a canonical IPv4 literal and every CIDR a masked network. -/
def library : TransitLibrary where
  digest
    | .snapshot body => hash body.snapshotGeneration
    | _ => hash 0
  ipFormat _ := true
  dateTime _ := true
  parseAddr text := some ⟨"",false,text⟩
  parsePrefix _ := some ⟨true,""⟩
  utcInstant text := some (if text="2026-01-01T00:00:00Z" then 0 else 60,[])
  parseIntent _ := .ok ()
  intentSize _ := 2
  intentDigest _ := hash 0
  snapshotDigest s := hash s.snapshotGeneration
  journalDigest _ := hash 0
  journalDigest_format _ := by decide
  parseTime _ := some 0

def direct (port : Nat) (phase : Phase) : Assignment :=
  ⟨"a1","f1",1,1,1,.direct,.tcp,phase,
    ⟨.direct,1,hash 0,.direct ⟨⟨"10.0.0.1",80⟩,1,false,["10.0.0.0/8"]⟩⟩,30,
    ⟨"127.0.0.1",port,.tcp⟩⟩

def snapshot (generation : Nat) (a : Assignment) : Snapshot :=
  ⟨3,"n1",1,generation,true,"2026-01-01T00:00:00Z","2026-01-01T00:01:00Z",hash generation,
    [a],[],none⟩

def journal₀ : RuntimeJournal := RuntimeJournal.initial "n1"

/-- The journal after its first snapshot, one prepared Direct assignment on TCP port 100. -/
def journal₁ : RuntimeJournal :=
  journal₀.succeed (snapshot 1 (direct 100 .prepared))
    ((∅ : Counters Slot).insert ⟨.tcp,100⟩ 1)

def first : JournalEvent :=
  .accept journal₀ (snapshot 1 (direct 100 .prepared)) (.saved journal₁)

theorem run_first :
    Run (Store.Step library "n1") (Store.start "n1") [.load journal₀,first]
      ⟨journal₁,[journal₁,journal₀]⟩ :=
  (Run.single (R := Store.Step library "n1") (e := JournalEvent.load journal₀)
    (t := ⟨journal₀,[journal₀]⟩) ⟨rfl,rfl⟩).snoc ⟨List.mem_cons_self,rfl,rfl⟩

/-- The journal after that assignment is accepted as active in the next snapshot. -/
def activated : RuntimeJournal :=
  journal₁.succeed (snapshot 2 (direct 100 .active)) ((∅ : Counters Slot).insert ⟨.tcp,100⟩ 1)

def activation : JournalEvent :=
  .accept journal₁ (snapshot 2 (direct 100 .active)) (.saved activated)

theorem step_activated : Store.Step library "n1" ⟨journal₁,[journal₁,journal₀]⟩ activation
    ⟨activated,[activated,journal₁,journal₀]⟩ :=
  ⟨List.mem_cons_self,rfl,rfl⟩

theorem collisionFree_activation :
    CollisionFree library.toLibrary ([.load journal₀,first]++[activation]) := by
  have hne : hash 1≠hash 2 := by decide
  intro s hs t ht hd
  simp only [acceptedSnapshots,first,activation,List.cons_append,List.nil_append,
    List.filterMap_cons,List.filterMap_nil,mem_list] at hs ht
  rcases hs with rfl|rfl <;> rcases ht with rfl|rfl
  · rfl
  · exact absurd hd hne
  · exact absurd hd hne.symm
  · rfl

end Sample

open Sample in
/-- A prepared assignment is accepted as active in the next snapshot. -/
theorem fence_history_activation :
    Run (Store.Step library "n1") (Store.start "n1") ([.load journal₀,first]++[activation])
      ⟨activated,[activated,journal₁,journal₀]⟩ ∧
    journal₁.live=[direct 100 .prepared] ∧ activated.live=[direct 100 .active] ∧
    journal₁.generation<activated.generation ∧
    journal₁.fences.read ⟨.tcp,100⟩≤activated.fences.read ⟨.tcp,100⟩ ∧
    (∀fence≤journal₁.retired.read ⟨.tcp,100⟩, (direct 100 .active).bindingFence≠fence) ∧
    (direct 100 .prepared).phase.rank≤(direct 100 .active).phase.rank := by
  obtain ⟨⟨-,-,hgen⟩,hmarks,hret,-,hphase⟩ := fence_history library "n1" _ _ _ _
    collisionFree_activation run_first (Run.single step_activated)
  refine ⟨run_first.snoc step_activated,rfl,rfl,hgen _ _ _ rfl (by decide),(hmarks _).1,?_,?_⟩
  · exact hret (direct 100 .active) (by simp [accepted,acceptedSnapshots,activation,snapshot])
  · exact hphase (direct 100 .prepared) (by simp [accepted,acceptedSnapshots,first,snapshot])
      (direct 100 .active) (by simp [accepted,acceptedSnapshots,activation,snapshot]) rfl rfl

end TuneX.Agent
