import TuneX.Control.Fences
import TuneX.Control.Retirements
import Mathlib.Data.List.Chain
import Mathlib.Data.String.Basic

namespace TuneX.Control

open Framework

variable {s t u : State} {now g : Nat} {n : NodeId} {e : Event} {i j : Instance}

/-- A retirement is of an assignment in a stored snapshot, as of the generation after it. The
generation after the last one is the last one itself. -/
inductive Filed (s : State) (i : Instance) (r : Retirement) : Prop
  | intro {g : Nat} {p : Snapshot} (stored : s.snapshots.lookup (i.node,g)=some p)
      (body : r.body∈p.assignments) (named : r.body.instanceOn i.node=i)
      (generation : r.retirementGeneration=g+1 ∨ maxCounter≤g)

variable {r : Retirement}

theorem Filed.mono (h : Filed s i r)
    (hp : ∀key p, s.snapshots.lookup key=some p→t.snapshots.lookup key=some p) : Filed t i r := by
  obtain ⟨stored,body,named,generation⟩ := h
  exact ⟨hp _ _ stored,body,named,generation⟩

/-- A retirement of which only the state has changed, or a new one. -/
def FiledBy (s : State) (i : Instance) (x : Retirement) : Prop :=
  (∃r, s.retirements.lookup i=some r ∧ x.body=r.body ∧
    x.retirementGeneration=r.retirementGeneration) ∨ Filed s i x

variable {p : Snapshot} {x : Retirement} {a : Assignment} {key : NodeId×Nat} {β : Type}

theorem quarantineOne_filed (hp : s.snapshots.lookup (n,p.snapshotGeneration)=some p)
    (ha : a∈p.assignments) (ht : ∀j y, t.retirements.lookup j=some y→FiledBy s j y)
    (hx : (State.quarantineOne n p.snapshotGeneration t a).retirements.lookup i=some x) :
    FiledBy s i x := by
  unfold State.quarantineOne at hx
  cases hop : t.latest a.forwardId with
  | none =>
    rw [hop] at hx
    exact ht i x hx
  | some op =>
    rw [hop] at hx
    rw [Table.lookup_insert_some] at hx
    obtain ⟨hi,hx⟩ | ⟨-,hx⟩ := hx
    · subst hi
      cases hold : t.retirements.lookup (a.instanceOn n) with
      | some r =>
        rw [hold] at hx
        subst hx
        obtain hkept | hnew := ht _ r hold
        · exact .inl hkept
        · obtain ⟨stored,body,named,generation⟩ := hnew
          exact .inr ⟨stored,body,named,generation⟩
      | none =>
        rw [hold] at hx
        subst hx
        refine .inr ⟨hp,ha,rfl,?_⟩
        dsimp only
        omega
    · exact ht i x hx

theorem quarantineNodes_filed (hcat : Catalog s) (l : List (NodeId×RuntimeNode))
    (hsnap : t.snapshots=s.snapshots) (ht : ∀j y, t.retirements.lookup j=some y→FiledBy s j y) :
    ∀j y, (l.foldl State.quarantineNode t).retirements.lookup j=some y→FiledBy s j y := by
  induction l generalizing t with
  | nil => exact ht
  | cons r l ih =>
    have hframe := congrArg State.snapshots (quarantineNode_frame [r] t)
    refine ih (hframe.trans hsnap) ?_
    unfold State.quarantineNode
    cases hp : t.snapshots.lookup (r.1,r.2.snapshotGeneration) with
    | none => exact ht
    | some p =>
      rw [hsnap] at hp
      obtain ⟨-,hgen,-⟩ := hcat.key _ _ p hp
      refine List.foldlRecOn p.assignments _
        (motive := fun d : State => ∀j y, d.retirements.lookup j=some y→FiledBy s j y) ht ?_
      intro d hd a ha j y hy
      exact quarantineOne_filed (hgen ▸ hp) ha hd hy

theorem quarantine_filed (hcat : Catalog s)
    (hx : s.quarantineRecovery.retirements.lookup i=some x) : FiledBy s i x := by
  unfold State.quarantineRecovery at hx
  dsimp only at hx
  refine quarantineNodes_filed hcat _ ?_ ?_ i x hx
  · rfl
  · intro j y hy
    obtain ⟨r,hr,rfl⟩ := Table.lookup_alter_some.mp hy
    exact .inl ⟨r,hr,rfl,rfl⟩

theorem Dropped.filed (h : Dropped s i x) : Filed s i x := by
  obtain ⟨row,p,-,hp,hbody,hgen⟩ := h.current
  exact ⟨hp,hbody,h.named,.inl hgen⟩

theorem Acts.filed (hcat : Catalog s) (h : Acts s now e t)
    (hx : t.retirements.lookup i=some x) : FiledBy s i x := by
  have hretires : Retires s now t→FiledBy s i x := by
    intro hr
    obtain ⟨r,hr,hc⟩ | hd := hr.origin i x hx
    · exact .inl ⟨r,hr,hc.body,hc.generation⟩
    · exact .inr hd.filed
  by_cases he : e=.quarantine
  · subst he
    cases h with
    | idle => exact hretires (.of_eq rfl)
    | command c => exact hretires (.of_eq (by rw [c.frame]))
    | quarantine => exact quarantine_filed hcat hx
  · exact hretires (h.retires he)

theorem Acts.snapshot_slots (h : Acts s now e t) (hp : t.snapshots.lookup key=some p) :
    s.snapshots.lookup key=some p ∨
      (p.assignments.map (·.slotOn p.nodeId)).Nodup := by
  obtain ⟨hs,-⟩ | ⟨n,row,next,-,hnext,⟨issued⟩⟩ := h.issued
  · exact .inl (hs ▸ hp)
  · rw [issued.snapshots,Table.lookup_insert_some] at hp
    obtain ⟨-,rfl⟩ | ⟨-,hp⟩ := hp
    · right
      obtain ⟨hnode,-,-,hassign,-⟩ := issued.snapshot_fields
      rw [hnode,hassign]
      obtain rfl | hnext := hnext
      · exact List.nodup_nil
      · simp only [State.assignments,do_ok,not_or,not_not] at hnext
        obtain ⟨direct,-,relay,-,⟨-,-,hslots⟩,rfl⟩ := hnext
        exact hslots
    · exact .inl hp

/-- What the tombstones of a Node rest on. -/
structure Retirements (s : State) : Prop where
  catalog : Catalog s
  fenced : Fenced s
  filed : ∀i r, s.retirements.lookup i=some r→Filed s i r
  slots : ∀key p, s.snapshots.lookup key=some p→(p.assignments.map (·.slotOn p.nodeId)).Nodup

theorem Retirements.initial (w : World) : Retirements (State.initial w) := by
  refine ⟨.initial w,.initial w,?_,?_⟩
  all_goals simp [State.initial]

theorem Retirements.acts {e : Nat×Event} (hs : Retirements s) (h : Acts s e.1 e.2 t) :
    Retirements t := by
  have hlater := h.later hs.catalog
  refine ⟨hs.catalog.acts h,hs.fenced.acts hs.catalog.deployed h,?_,?_⟩
  · intro i x hx
    obtain ⟨r,hr,hbody,hgen⟩ | hnew := h.filed hs.catalog hx
    · obtain ⟨stored,body,named,generation⟩ := hs.filed i r hr
      exact ⟨hlater.snapshots _ _ stored,hbody ▸ body,hbody ▸ named,hgen ▸ generation⟩
    · exact hnew.mono hlater.snapshots
  · intro key p hp
    obtain hp | hnew := h.snapshot_slots hp
    · exact hs.slots key p hp
    · exact hnew

theorem Known.clock (c : Nat) {k : SlotKey} (h : Known { s with clock := c } i k) : Known s i k := by
  cases h with
  | direct hrow hv hq ho => exact .direct hrow hv hq ho
  | planned hd hn ha => exact .planned hd hn ha
  | published hp ha => exact .published hp ha

theorem Retirements.step {e : Nat×Event} (hs : Retirements s) (h : Step s e t) : Retirements t := by
  have hfenced : Fenced { s with clock := e.1 } :=
    ⟨fun i k hk => hs.fenced.below i k (hk.clock e.1),
      fun i j k hi hj => hs.fenced.single i j k (hi.clock e.1) (hj.clock e.1),
      fun i k hk => hs.fenced.physical i k (hk.clock e.1)⟩
  have hfiled : ∀i r, s.retirements.lookup i=some r→Filed { s with clock := e.1 } i r :=
    fun i r hr => (hs.filed i r hr).mono fun _ _ hp => hp
  exact Retirements.acts (s := { s with clock := e.1 })
    ⟨hs.catalog.clock e.1,hfenced,hfiled,hs.slots⟩ (step_acts hs.catalog.deployed.specs h)

theorem run_retirements {w : World} {l : List (Nat×Event)} (h : Run Step (State.initial w) l s) :
    Retirements s :=
  h.invariant Retirements (fun _ _ _ hab ha => ha.step hab) (.initial w)

def protocolText : Protocol→String
  | .tcp => "tcp"
  | .udp => "udp"

/-- What fences a tombstone off: a socket up to a fence. -/
def Tombstone.socket (t : Tombstone) : Protocol×Nat×Nat := (t.physicalProtocol,t.port,t.bindingFence)

/-- The order of the tombstones in a snapshot; `name` spells the digest that is an assignment's name. -/
def Tombstone.order (name : AssignmentId→String) : Tombstone→Tombstone→Ordering :=
  compareLex (compareOn fun t => protocolText t.physicalProtocol) (compareLex
    (compareOn fun t => t.port) (compareLex (compareOn fun t => t.retirementGeneration)
      (compareOn fun t => name t.assignmentId)))

def sortTombstones (name : AssignmentId→String) (l : List Tombstone) : List Tombstone :=
  l.mergeSort fun a b => (Tombstone.order name a b).isLE

/-- The loop of `validateRuntimeSnapshot` over the tombstones, without the live assignments. -/
def checkTombstones (name : AssignmentId→String) (generation : Nat) :
    Option Tombstone→List (Protocol×Nat×Nat)→List Tombstone→Except Error Unit
  | _,_,[] => .ok ()
  | prior,retired,t::l => do
    reject (t.physicalProtocol≠physicalProtocol t.role t.protocol) .resourceConflict
    reject (t.socket∈retired ∨ generation<t.retirementGeneration) .invalidConfig
    reject (∃q∈prior, Tombstone.order name q t≠.lt) .invalidConfig
    checkTombstones name generation (some t) (t.socket::retired) l

structure ValidTombstones (name : AssignmentId→String) (generation : Nat) (l : List Tombstone) :
    Prop where
  physical : ∀t∈l, t.physicalProtocol=physicalProtocol t.role t.protocol
  bounded : ∀t∈l, t.retirementGeneration≤generation
  sockets : (l.map Tombstone.socket).Nodup
  sorted : l.Pairwise fun a b => Tombstone.order name a b=.lt

variable {name : AssignmentId→String} {l : List Tombstone}

theorem checkTombstones_of (prior : Option Tombstone)
    (retired : List (Protocol×Nat×Nat)) (h : ValidTombstones name g l)
    (hprior : ∀q∈prior, ∀t∈l, Tombstone.order name q t=.lt) (hretired : ∀t∈l, t.socket∉retired) :
    checkTombstones name g prior retired l=.ok () := by
  induction l generalizing prior retired with
  | nil => rfl
  | cons t l ih =>
    obtain ⟨hphysical,hbounded,hsockets,hsorted⟩ := h
    rw [List.map_cons,List.nodup_cons] at hsockets
    rw [List.pairwise_cons] at hsorted
    have hrest : ValidTombstones name g l :=
      ⟨fun x hx => hphysical x (List.mem_cons_of_mem t hx),
        fun x hx => hbounded x (List.mem_cons_of_mem t hx),hsockets.2,hsorted.2⟩
    simp only [checkTombstones,do_ok,not_or,not_not,not_lt,not_exists,not_and]
    refine ⟨hphysical t List.mem_cons_self,
      ⟨hretired t List.mem_cons_self,hbounded t List.mem_cons_self⟩,
      fun q hq => hprior q hq t List.mem_cons_self,ih (some t) _ hrest ?_ ?_⟩
    · intro q hq x hx
      cases hq
      exact hsorted.1 x hx
    · intro x hx hmem
      obtain heq | hmem := List.mem_cons.mp hmem
      · exact hsockets.1 (heq ▸ List.mem_map_of_mem hx)
      · exact hretired x (List.mem_cons_of_mem t hx) hmem

/-- Where a tombstone stands in the order; its name is never needed to tell two of them apart. -/
def Tombstone.place (t : Tombstone) : Protocol×Nat×Nat :=
  (t.physicalProtocol,t.port,t.retirementGeneration)

theorem order_place {a b : Tombstone} (h : Tombstone.order name a b=.eq) : a.place=b.place := by
  simp only [Tombstone.order,compareLex,compareOn,Ordering.then_eq_eq,compare_eq_iff_eq] at h
  obtain ⟨hprotocol,hport,hgen,-⟩ := h
  have hphysical : a.physicalProtocol=b.physicalProtocol := by
    cases ha : a.physicalProtocol <;> cases hb : b.physicalProtocol
    all_goals simp_all [protocolText]
  simp only [Tombstone.place,hphysical,hport,hgen]

theorem sortTombstones_valid
    (hphysical : ∀t∈l, t.physicalProtocol=physicalProtocol t.role t.protocol)
    (hbounded : ∀t∈l, t.retirementGeneration≤g) (hsockets : (l.map Tombstone.socket).Nodup)
    (hplaces : (l.map Tombstone.place).Nodup) : ValidTombstones name g (sortTombstones name l) := by
  have hperm : (sortTombstones name l).Perm l := List.mergeSort_perm l _
  refine ⟨fun t ht => hphysical t (hperm.mem_iff.mp ht),fun t ht => hbounded t (hperm.mem_iff.mp ht),
    (hperm.map Tombstone.socket).nodup_iff.mpr hsockets,?_⟩
  have hle : (sortTombstones name l).Pairwise fun a b => (Tombstone.order name a b).isLE := by
    refine List.pairwise_mergeSort ?_ ?_ l
    · intro a b c hab hbc
      unfold Tombstone.order at hab hbc ⊢
      exact Std.TransCmp.isLE_trans hab hbc
    · intro a b
      have hswap : Tombstone.order name a b=(Tombstone.order name b a).swap := by
        unfold Tombstone.order
        exact Std.OrientedCmp.eq_swap
      rw [hswap]
      cases Tombstone.order name b a
      all_goals rfl
  have hne : (sortTombstones name l).Pairwise fun a b => a.place≠b.place := by
    rw [← List.pairwise_map]
    exact (hperm.map Tombstone.place).nodup_iff.mpr hplaces
  refine (hle.and hne).imp ?_
  intro a b hab
  cases ho : Tombstone.order name a b with
  | lt => rfl
  | eq => exact absurd (order_place ho) hab.2
  | gt =>
    rw [ho] at hab
    cases hab.1

/-- The generation of the next snapshot of a Node. -/
def State.nextSnapshot (s : State) (n : NodeId) : Nat :=
  ((s.nodes.lookup n).map (·.snapshotGeneration)).getD 0+1

theorem Catalog.before_next (hs : Catalog s) (hp : s.snapshots.lookup (n,g)=some p) :
    g < s.nextSnapshot n := by
  obtain ⟨-,-,-,row,hrow,hle,-⟩ := hs.key n g p hp
  simp only [State.nextSnapshot,hrow,Option.map_some,Option.getD_some]
  omega

theorem Filed.known (hcat : Catalog s) (h : Filed s i r) : Known s i (r.body.slotOn i.node) := by
  obtain ⟨stored,body,named,-⟩ := h
  obtain ⟨hnode,-⟩ := hcat.key _ _ _ stored
  have hk := Known.published stored body
  rw [hnode,named] at hk
  exact hk

theorem Filed.generation (hcat : Catalog s) (hg : s.nextSnapshot i.node ≤ maxCounter)
    (h : Filed s i r) : ∃g p, s.snapshots.lookup (i.node,g)=some p ∧ r.body∈p.assignments ∧
      r.retirementGeneration=g+1 ∧ g < s.nextSnapshot i.node := by
  obtain ⟨stored,body,-,generation⟩ := h
  have hlt := hcat.before_next stored
  exact ⟨_,_,stored,body,generation.resolve_right (by omega),hlt⟩

theorem Filed.fence (h : Filed s i r) : i.fence=r.body.bindingFence := by
  obtain ⟨-,-,named,-⟩ := h
  exact (congrArg Instance.fence named).symm

theorem Retirements.same_socket {r' : Retirement} (hs : Retirements s) (hi : Filed s i r)
    (hj : Filed s j r') (hslot : r.body.slotOn i.node=r'.body.slotOn j.node)
    (hfence : r.body.bindingFence=r'.body.bindingFence) : i=j := by
  have hj' := hj.known hs.catalog
  rw [← hslot] at hj'
  exact hs.fenced.single i j _ (hi.known hs.catalog) hj' (hi.fence.trans (hfence.trans hj.fence.symm))

theorem Retirements.same_place {r' : Retirement} (hs : Retirements s)
    (hg : s.nextSnapshot i.node ≤ maxCounter) (hi : Filed s i r) (hj : Filed s j r')
    (hslot : r.body.slotOn i.node=r'.body.slotOn j.node)
    (hgen : r.retirementGeneration=r'.retirementGeneration) : i=j := by
  have hn : i.node=j.node := congrArg SlotKey.node hslot
  obtain ⟨g,p,hp,hbody,hr,-⟩ := hi.generation hs.catalog hg
  obtain ⟨g',p',hp',hbody',hr',-⟩ := hj.generation hs.catalog (hn ▸ hg)
  have hgg : g=g' := by omega
  subst hgg
  rw [← hn,hp] at hp'
  cases hp'
  obtain ⟨hnode,-⟩ := hs.catalog.key _ _ p hp
  have hsame : r.body=r'.body := by
    refine List.inj_on_of_nodup_map (hs.slots _ p hp) hbody hbody' ?_
    rw [hnode,hslot,hn]
  obtain ⟨-,-,named,-⟩ := hi
  obtain ⟨-,-,named',-⟩ := hj
  rw [← named,← named',hsame,hn]

theorem Retirements.physical (hs : Retirements s) (hp : s.snapshots.lookup key=some p)
    (ha : a∈p.assignments) : a.resource.protocol=physicalProtocol a.role a.protocol := by
  have hk := hs.fenced.physical _ _ (.published hp ha)
  have hname : Named p.nodeId a := hs.catalog.named key p hp a ha
  simp only [Assignment.slotOn,Assignment.instanceOn] at hk
  rw [hname] at hk
  exact hk

theorem mem_tombstones {x : Tombstone} (hx : x∈u.tombstones n g) :
    ∃i r, u.retirements.lookup i=some r ∧ i.node=n ∧ x=State.tombstone g r := by
  obtain ⟨⟨i,r⟩,hrow,rfl⟩ := List.mem_map.mp hx
  rw [List.mem_filter,Table.mem_rows] at hrow
  exact ⟨i,r,hrow.1,of_decide_eq_true hrow.2,rfl⟩

theorem tombstones_nodup (part : Tombstone→β)
    (hpart : ∀i r j r', u.retirements.lookup i=some r→u.retirements.lookup j=some r'→i.node=n→
      j.node=n→part (State.tombstone g r)=part (State.tombstone g r')→i=j) :
    ((u.tombstones n g).map part).Nodup := by
  unfold State.tombstones
  rw [List.map_map]
  refine List.Nodup.map_on ?_ ((Table.rows_nodup u.retirements).filter _)
  rintro ⟨i,r⟩ hi ⟨j,r'⟩ hj hsame
  rw [List.mem_filter,Table.mem_rows] at hi hj
  have hij := hpart i r j r' hi.1 hj.1 (of_decide_eq_true hi.2) (of_decide_eq_true hj.2) hsame
  subst hij
  rw [hi.1] at hj
  cases hj.1
  rfl

theorem Retirements.tombstones_parts (hs : Retirements s) (hg : s.nextSnapshot n ≤ maxCounter)
    (hbound : s.nextSnapshot n≤g) (hfiled : ∀i r, u.retirements.lookup i=some r→Filed s i r) :
    (∀x∈u.tombstones n g, x.physicalProtocol=physicalProtocol x.role x.protocol) ∧
      (∀x∈u.tombstones n g, x.retirementGeneration≤g) ∧
      ((u.tombstones n g).map Tombstone.socket).Nodup ∧
      ((u.tombstones n g).map Tombstone.place).Nodup := by
  have hslot : ∀{i j : Instance} {r r' : Retirement}, i.node=n→j.node=n→
      r.body.resource.protocol=r'.body.resource.protocol → r.body.resource.port=r'.body.resource.port→
      r.body.slotOn i.node=r'.body.slotOn j.node := by
    intro i j r r' hi hj hprotocol hport
    simp only [Assignment.slotOn,hi,hj,hprotocol,hport]
  refine ⟨?_,?_,tombstones_nodup _ ?_,tombstones_nodup _ ?_⟩
  · intro x hx
    obtain ⟨i,r,hr,-,rfl⟩ := mem_tombstones hx
    obtain ⟨stored,body,-,-⟩ := hfiled i r hr
    exact hs.physical stored body
  · intro x hx
    obtain ⟨i,r,-,-,rfl⟩ := mem_tombstones hx
    exact min_le_right _ _
  · intro i r j r' hi hj hin hjn hsame
    simp only [Tombstone.socket,State.tombstone,Prod.mk.injEq] at hsame
    obtain ⟨hprotocol,hport,hfence⟩ := hsame
    exact hs.same_socket (hfiled i r hi) (hfiled j r' hj) (hslot hin hjn hprotocol hport) hfence
  · intro i r j r' hi hj hin hjn hsame
    simp only [Tombstone.place,State.tombstone,Prod.mk.injEq] at hsame
    obtain ⟨hprotocol,hport,hgen⟩ := hsame
    -- The bound of the list is above every generation in it.
    obtain ⟨gi,-,-,-,hgi,hlti⟩ := (hfiled i r hi).generation hs.catalog (hin ▸ hg)
    obtain ⟨gj,-,-,-,hgj,hltj⟩ := (hfiled j r' hj).generation hs.catalog (hjn ▸ hg)
    rw [hin] at hlti
    rw [hjn] at hltj
    have hgens : r.retirementGeneration=r'.retirementGeneration := by omega
    exact hs.same_place (hin ▸ hg) (hfiled i r hi) (hfiled j r' hj) (hslot hin hjn hprotocol hport)
      hgens

theorem latestSnapshot_some (hcat : Catalog s) (h : s.latestSnapshot n=some p) :
    s.snapshots.lookup (n,p.snapshotGeneration)=some p ∧
      ∀g q, s.snapshots.lookup (n,g)=some q → g ≤ p.snapshotGeneration := by
  obtain ⟨⟨⟨m,g⟩,q⟩,hr,rfl⟩ := List.mem_map.mp (first_mem h)
  rw [List.mem_filter,Table.mem_rows,decide_eq_true_eq] at hr
  obtain ⟨hq,rfl⟩ := hr
  obtain ⟨-,hgen,-⟩ := hcat.key m g q hq
  refine ⟨hgen ▸ hq,?_⟩
  intro g' q' hq'
  have hin : q'∈(s.snapshots.rows.filter fun r => r.1.1=m).map Prod.snd := by
    refine List.mem_map.mpr ⟨((m,g'),q'),List.mem_filter.mpr ⟨Table.mem_rows.mpr hq',?_⟩,rfl⟩
    simp
  have hle := first_before (fun a b c hab hbc => by
      simp only [decide_eq_true_eq] at *
      exact hbc.trans hab) (fun a b => by
      simp only [decide_eq_true_eq]
      exact le_total b.snapshotGeneration a.snapshotGeneration) h q' hin
  obtain ⟨-,hgen',-⟩ := hcat.key m g' q' hq'
  rw [← hgen']
  exact of_decide_eq_true hle

/-- The tombstone of an assignment that the next snapshot would leave out. -/
def droppedTombstone (a : Assignment) : Tombstone :=
  State.tombstone maxCounter ⟨a.forwardId,a,none,maxCounter,false⟩

theorem expectedTombstones_eq (s : State) (n : NodeId) (l : List Assignment) :
    ∃m : List Assignment, s.expectedTombstones n l=s.tombstones n maxCounter++m.map droppedTombstone ∧
      (m=[] ∨ ∃p, s.latestSnapshot n=some p ∧ List.Sublist m p.assignments ∧
        ∀a∈m, ∀x∈s.tombstones n maxCounter, ¬(x.assignmentId=a.assignmentId ∧
          x.bindingFence=a.bindingFence ∧ x.port=a.resource.port ∧ x.protocol=a.protocol)) := by
  unfold State.expectedTombstones
  dsimp only
  refine ⟨_,rfl,?_⟩
  cases hp : s.latestSnapshot n with
  | none => exact .inl rfl
  | some p =>
    refine .inr ⟨p,rfl,List.filter_sublist,?_⟩
    intro a ha x hx hsame
    have hkept := (List.mem_filter.mp ha).2
    simp only [Bool.and_eq_true,Bool.not_eq_true'] at hkept
    have hany : (s.tombstones n maxCounter).any (fun t => t.assignmentId=a.assignmentId &&
        t.bindingFence=a.bindingFence && t.port=a.resource.port && t.protocol=a.protocol)=true := by
      refine List.any_eq_true.mpr ⟨x,hx,?_⟩
      simp [hsame]
    rw [hany] at hkept
    cases hkept.2

theorem Retirements.tombstone_of (hs : Retirements s) (hp : s.snapshots.lookup (n,g)=some p)
    (ha : a∈p.assignments) (hr : s.retirements.lookup (a.instanceOn n)=some r)
    (hslot : r.body.slotOn n=a.slotOn n) :
    ∃x∈s.tombstones n maxCounter, x.assignmentId=a.assignmentId ∧ x.bindingFence=a.bindingFence ∧
      x.port=a.resource.port ∧ x.protocol=a.protocol := by
  obtain ⟨stored,body,named,-⟩ := hs.filed _ r hr
  have hnode : p.nodeId=n := (hs.catalog.key _ _ p hp).1
  have hnode' := (hs.catalog.key _ _ _ stored).1
  have hname : Named n a := hnode ▸ hs.catalog.named _ p hp a ha
  have hname' : Named n r.body := by
    have hn := hs.catalog.named _ _ stored _ body
    rw [hnode'] at hn
    exact hn
  have hids : r.body.assignmentId=a.assignmentId := congrArg Instance.assignmentId named
  have hmem : State.tombstone maxCounter r∈s.tombstones n maxCounter := by
    refine List.mem_map.mpr ⟨(a.instanceOn n,r),List.mem_filter.mpr ⟨Table.mem_rows.mpr hr,?_⟩,rfl⟩
    simp [Assignment.instanceOn]
  refine ⟨_,hmem,hids,congrArg Instance.fence named,congrArg SlotKey.port hslot,?_⟩
  rw [hname,hname'] at hids
  exact congrArg AssignmentId.protocol hids

theorem appended_nodup (part : Tombstone→β) {m : List Assignment} (hl : (l.map part).Nodup)
    (hm : m.Nodup) (hinj : ∀a∈m, ∀b∈m,
      part (droppedTombstone a)=part (droppedTombstone b)→a=b)
    (hdisjoint : ∀x∈l, ∀a∈m, part x≠part (droppedTombstone a)) :
    ((l++m.map droppedTombstone).map part).Nodup := by
  rw [List.map_append,List.map_map,List.nodup_append]
  refine ⟨hl,hm.map_on hinj,?_⟩
  intro y hy z hz
  obtain ⟨x,hx,rfl⟩ := List.mem_map.mp hy
  obtain ⟨a,ha,rfl⟩ := List.mem_map.mp hz
  exact hdisjoint x hx a ha

theorem Retirements.expected_parts (hs : Retirements s) (hg : s.nextSnapshot n ≤ maxCounter)
    (l : List Assignment) :
    (∀x∈s.expectedTombstones n l, x.physicalProtocol=physicalProtocol x.role x.protocol) ∧
      (∀x∈s.expectedTombstones n l, x.retirementGeneration ≤ maxCounter) ∧
      ((s.expectedTombstones n l).map Tombstone.socket).Nodup ∧
      ((s.expectedTombstones n l).map Tombstone.place).Nodup := by
  obtain ⟨hphysical,hbounded,hsockets,hplaces⟩ := hs.tombstones_parts hg hg hs.filed
  obtain ⟨m,heq,hm⟩ := expectedTombstones_eq s n l
  rw [heq]
  obtain rfl | ⟨p,hp,hsub,hnone⟩ := hm
  · rw [List.map_nil,List.append_nil]
    exact ⟨hphysical,hbounded,hsockets,hplaces⟩
  obtain ⟨hstored,hlatest⟩ := latestSnapshot_some hs.catalog hp
  have hnode : p.nodeId=n := (hs.catalog.key _ _ p hstored).1
  have hslots := hs.slots _ p hstored
  rw [hnode] at hslots
  have hinj : ∀a∈m, ∀b∈m, a.resource.protocol=b.resource.protocol→a.resource.port=b.resource.port→
      a=b := by
    intro a ha b hb hprotocol hport
    refine List.inj_on_of_nodup_map hslots (hsub.subset ha) (hsub.subset hb) ?_
    simp only [Assignment.slotOn,hprotocol,hport]
  have hnodup : m.Nodup := hslots.of_map.sublist hsub
  have hfresh : ∀i r a, s.retirements.lookup i=some r→a∈m → r.body.slotOn n=a.slotOn n→
      i≠a.instanceOn n := by
    intro i r a hr ha hslot hia
    subst hia
    obtain ⟨x,hx,hsame⟩ := hs.tombstone_of hstored (hsub.subset ha) hr hslot
    exact hnone a ha x hx hsame
  have hslot : ∀{a b : Assignment}, a.resource.protocol=b.resource.protocol→
      a.resource.port=b.resource.port→a.slotOn n=b.slotOn n := by
    intro a b hprotocol hport
    simp only [Assignment.slotOn,hprotocol,hport]
  refine ⟨?_,?_,appended_nodup _ hsockets hnodup ?_ ?_,appended_nodup _ hplaces hnodup ?_ ?_⟩
  · intro x hx
    obtain hx | hx := List.mem_append.mp hx
    · exact hphysical x hx
    · obtain ⟨a,ha,rfl⟩ := List.mem_map.mp hx
      exact hs.physical hstored (hsub.subset ha)
  · intro x hx
    obtain hx | hx := List.mem_append.mp hx
    · exact hbounded x hx
    · obtain ⟨a,ha,rfl⟩ := List.mem_map.mp hx
      exact min_le_right _ _
  · intro a ha b hb hsame
    simp only [Tombstone.socket,droppedTombstone,State.tombstone,Prod.mk.injEq] at hsame
    exact hinj a ha b hb hsame.1 hsame.2.1
  · intro x hx a ha hsame
    obtain ⟨i,r,hr,hin,rfl⟩ := mem_tombstones hx
    simp only [Tombstone.socket,droppedTombstone,State.tombstone,Prod.mk.injEq] at hsame
    obtain ⟨hprotocol,hport,hfence⟩ := hsame
    have hk := (hs.filed i r hr).known hs.catalog
    have ha' := Known.published hstored (hsub.subset ha)
    rw [hin,hslot hprotocol hport] at hk
    rw [hnode] at ha'
    refine hfresh i r a hr ha (hslot hprotocol hport) (hs.fenced.single _ _ _ hk ha' ?_)
    rw [(hs.filed i r hr).fence,hfence]
    rfl
  · intro a ha b hb hsame
    simp only [Tombstone.place,droppedTombstone,State.tombstone,Prod.mk.injEq] at hsame
    exact hinj a ha b hb hsame.1 hsame.2.1
  · intro x hx a ha hsame
    obtain ⟨i,r,hr,hin,rfl⟩ := mem_tombstones hx
    simp only [Tombstone.place,droppedTombstone,State.tombstone,Prod.mk.injEq,min_self] at hsame
    obtain ⟨hprotocol,hport,hgen⟩ := hsame
    -- A stored tombstone of the last generation is of the latest snapshot.
    obtain ⟨g,q,hq,hbody,hr',hlt⟩ := (hs.filed i r hr).generation hs.catalog (hin ▸ hg)
    rw [hin] at hq hlt
    have hle := hlatest g q hq
    have hbefore := hs.catalog.before_next hstored
    have hsame : g=p.snapshotGeneration := by omega
    rw [hsame,hstored] at hq
    cases hq
    have hbodies := List.inj_on_of_nodup_map hslots hbody (hsub.subset ha) (hslot hprotocol hport)
    obtain ⟨-,-,named,-⟩ := hs.filed i r hr
    refine hfresh i r a hr ha (hslot hprotocol hport) ?_
    rw [← named,hin,hbodies]

theorem Retirements.retireChanged {row : RuntimeNode} {next : List Assignment} (hs : Retirements s)
    (h : s.retireChanged n (s.snapshots.lookup (n,row.snapshotGeneration)) next
      (row.snapshotGeneration+1)=.ok u) (hr : u.retirements.lookup i=some r) :
    Filed s i r := by
  obtain hr | ⟨a,ha,-,rfl,rfl⟩ := (retireChanged_retired _ h).origin i r hr
  · exact hs.filed i r hr
  · cases hp : s.snapshots.lookup (n,row.snapshotGeneration) with
    | none => simp [hp] at ha
    | some p =>
      rw [hp] at ha
      exact ⟨hp,ha,rfl,.inl rfl⟩

theorem tombstones_valid {w : World} {l : List (Nat×Event)} (h : Run Step (State.initial w) l s)
    (name : AssignmentId→String) (n : NodeId) (hg : s.nextSnapshot n ≤ maxCounter) :
    (∀stones, (stones=s.tombstones n (s.nextSnapshot n) ∨ ∃row next u, s.nodes.lookup n=some row ∧
        s.retireChanged n (s.snapshots.lookup (n,row.snapshotGeneration)) next
          (s.nextSnapshot n)=.ok u ∧ stones=u.tombstones n (s.nextSnapshot n))→
      ValidTombstones name (s.nextSnapshot n) (sortTombstones name stones) ∧
        checkTombstones name (s.nextSnapshot n) none [] (sortTombstones name stones)=.ok ()) ∧
    ∀assignments, ValidTombstones name maxCounter
        (sortTombstones name (s.expectedTombstones n assignments)) ∧
      checkTombstones name maxCounter none []
        (sortTombstones name (s.expectedTombstones n assignments))=.ok () := by
  have hs := run_retirements h
  have hcheck : ∀{g : Nat} {stones : List Tombstone}, ValidTombstones name g stones→
      checkTombstones name g none [] stones=.ok () := by
    intro g stones hv
    exact checkTombstones_of none [] hv (by simp) (by simp)
  have hvalid : ∀u : State, (∀i r, u.retirements.lookup i=some r→Filed s i r)→
      ValidTombstones name (s.nextSnapshot n) (sortTombstones name (u.tombstones n (s.nextSnapshot n))) := by
    intro u hfiled
    obtain ⟨hphysical,hbounded,hsockets,hplaces⟩ := hs.tombstones_parts hg le_rfl hfiled
    exact sortTombstones_valid hphysical hbounded hsockets hplaces
  refine ⟨?_,?_⟩
  · intro stones hstones
    have hv : ValidTombstones name (s.nextSnapshot n) (sortTombstones name stones) := by
      obtain rfl | ⟨row,next,u,hrow,hu,rfl⟩ := hstones
      · exact hvalid s hs.filed
      · have hnext : s.nextSnapshot n=row.snapshotGeneration+1 := by
          simp [State.nextSnapshot,hrow]
        rw [hnext] at hu
        exact hvalid u fun i r hr => hs.retireChanged hu hr
    exact ⟨hv,hcheck hv⟩
  · intro assignments
    obtain ⟨hphysical,hbounded,hsockets,hplaces⟩ := hs.expected_parts hg assignments
    have hv : ValidTombstones name maxCounter
        (sortTombstones name (s.expectedTombstones n assignments)) :=
      sortTombstones_valid hphysical hbounded hsockets hplaces
    exact ⟨hv,hcheck hv⟩

/-- A Relay of two protocols is published and disabled, and its egress is retired before a recovery
retires the direct Forward beside it. -/
theorem tombstones_valid_recovered : ∃s, Run Step (State.initial openWorld)
    (disablingRun++[(7,.issue 1 false none none),(8,.quarantine)]) s ∧ s.nextSnapshot 1=3 ∧
      (s.tombstones 1 3).map (fun x => (x.port,x.protocol,x.retirementGeneration))=
        [(200,.tcp,3),(301,.udp,2),(300,.tcp,2)] ∧
      checkTombstones (fun a => a.forward.repr) 3 none []
        (sortTombstones (fun a => a.forward.repr) (s.tombstones 1 3))=.ok () := by
  have hrun : ((performs (State.initial openWorld)
      (disablingRun++[(7,.issue 1 false none none),(8,.quarantine)])).map fun s =>
        (s.nextSnapshot 1,
          (s.tombstones 1 3).map fun x => (x.port,x.protocol,x.retirementGeneration)))=
            some (3,[(200,.tcp,3),(301,.udp,2),(300,.tcp,2)]) := by
    decide +kernel
  simp only [do_some] at hrun
  obtain ⟨s,hs,hnext,hstones⟩ := hrun
  have hle : s.nextSnapshot 1 ≤ maxCounter := by
    rw [hnext]
    decide
  have hvalid := (tombstones_valid (run_performs hs) (fun a => a.forward.repr) 1 hle).1 _ (.inl rfl)
  rw [hnext] at hvalid
  exact ⟨s,run_performs hs,hnext,hstones,hvalid.2⟩

end TuneX.Control
