import TuneX.Agent.RuntimeJournal

namespace TuneX.Agent

open Framework

/-- The journal file and every record its readers and writers have handed to callers. -/
structure Store where
  file : RuntimeJournal
  handed : List RuntimeJournal

inductive JournalEvent
  | load (record : RuntimeJournal)
  | accept (current : RuntimeJournal) (snapshot : Snapshot) (outcome : Outcome)
  | enable (transit : Option TransitJournal) (outcome : Outcome)

namespace Store

def start (node : String) : Store := ⟨RuntimeJournal.initial node,[]⟩

def after (s : Store) (o : Outcome) : Store := ⟨o.file s.file,o.record::s.handed⟩

/-- One successful call on the journal of a Node. An acceptance is given a record that
some earlier call handed out, however old it is. -/
def Step (lib : TransitLibrary) (node : String) (s : Store) : JournalEvent→Store→Prop
  | .load record,t =>
    RuntimeJournal.load lib.toLibrary node s.file=.ok record ∧ t=⟨s.file,record::s.handed⟩
  | .accept current snapshot o,t =>
    current∈s.handed ∧ RuntimeJournal.accept lib.toLibrary s.file current snapshot=.ok o ∧
      t=s.after o
  | .enable transit o,t => RuntimeJournal.enable lib node s.file transit=.ok o ∧ t=s.after o

end Store

abbrev grants (l : List Assignment) : List (Slot×Nat) :=
  FenceTable.grantsOf Assignment.slot Assignment.bindingFence l

/-- The invariant of the store: the maps grant exactly the stored assignments, the record
repeats generation and digest of the valid snapshot it holds, and a handed-out record of
the present generation carries that snapshot. -/
structure Coherent (lib : Library) (s : Store) : Prop where
  grants : s.file.table.Grants (grants s.file.live)
  stored : 0<s.file.generation→∃snapshot, s.file.snapshot=some snapshot ∧
    snapshot.snapshotGeneration=s.file.generation ∧
    snapshot.snapshotDigest=s.file.digest ∧ ValidSnapshot lib snapshot
  handed : ∀r∈s.handed, r.generation ≤ s.file.generation ∧
    (r.generation=s.file.generation → r.snapshot=s.file.snapshot)

theorem coherent_start (lib : Library) (node : String) : Coherent lib (Store.start node) := by
  constructor
  · constructor
    · simp [Store.start,RuntimeJournal.live,RuntimeJournal.initial,grants,FenceTable.grantsOf]
    · intro k n hk
      simp [Store.start,RuntimeJournal.live,RuntimeJournal.initial,grants,
        FenceTable.grantsOf] at hk
    · intro k _
      exact Nat.zero_le _
  · exact fun h => absurd h (Nat.lt_irrefl 0)
  · intro r hr
    simp [Store.start] at hr

namespace RuntimeJournal

theorem current_agrees {file current : RuntimeJournal} (h : Current file current) :
    file.table.Agrees current.table :=
  ⟨Counters.same_read h.2.2.2.2.2.1,Counters.same_read h.2.2.2.2.2.2⟩

theorem live_congr {j j' : RuntimeJournal} (hg : j.generation=j'.generation)
    (hs : j.snapshot=j'.snapshot) : j.live=j'.live := by
  simp only [live,hg,hs]

theorem live_of_snapshot {j : RuntimeJournal} {s : Snapshot} (hg : 0<j.generation)
    (hs : j.snapshot=some s) : j.live=s.assignments := by
  simp [live,hg,hs]

theorem valid_generation {lib : Library} {s : Snapshot} (h : ValidSnapshot lib s) :
    0<s.snapshotGeneration ∧ s.snapshotGeneration ≤ maxCounter := by
  have hs := h.schema
  simp only [snapshotOk,counterOk,bool_ok] at hs
  exact ⟨by omega,by omega⟩

theorem valid_below {lib : Library} {s : Snapshot} (h : ValidSnapshot lib s) :
    FenceTable.Below (s.tombstones.map fun t => (t.slot,t.bindingFence))
      (grants s.assignments) := by
  intro k c n hc hn
  obtain ⟨t,ht,hte⟩ := List.mem_map.mp hc
  obtain ⟨a,ha,hae⟩ := List.mem_map.mp hn
  cases hte
  have hslot : a.slot=t.slot := congrArg Prod.fst hae
  have hfence : a.bindingFence=n := congrArg Prod.snd hae
  exact hfence ▸ h.retired t ht a ha hslot

end RuntimeJournal

/-- What an acceptance that writes the file does to the store. -/
structure Advances (lib : Library) (s : Store) (snapshot : Snapshot) (t : Store) : Prop where
  valid : ValidSnapshot lib snapshot
  admits : s.file.table.Admits (grants snapshot.assignments)
  compared : ∀a∈snapshot.assignments, ∀old∈s.file.live, RuntimeJournal.compare a old=none
  generation : s.file.generation<t.file.generation
  record : ∃current, RuntimeJournal.Current s.file current ∧ current.nodeId=s.file.nodeId ∧
    (snapshot.executionExtension≠none→current.executionExtension≠none) ∧
    current.nodeId=snapshot.nodeId ∧
    t.file=current.succeed snapshot (current.fences.writeAll (grants snapshot.assignments))
  handed : t.handed=t.file::s.handed

/-- What an acceptance of the stored generation does: nothing but handing out a record. -/
structure Repeats (lib : Library) (s : Store) (snapshot : Snapshot) (t : Store) : Prop where
  valid : ValidSnapshot lib snapshot
  generation : snapshot.snapshotGeneration=s.file.generation
  digest : snapshot.snapshotDigest=s.file.digest
  file : t.file=s.file
  handed : ∃current∈s.handed, t.handed=current::s.handed

section Steps

variable {lib : TransitLibrary} {node : String} {s t : Store}
  {current : RuntimeJournal} {snapshot : Snapshot} {o : Outcome} {transit : Option TransitJournal}

theorem accept_step (hs : Coherent lib.toLibrary s)
    (h : Store.Step lib node s (.accept current snapshot o) t) :
    Repeats lib.toLibrary s snapshot t ∧ o=.unchanged current ∨
      Advances lib.toLibrary s snapshot t ∧ o=.saved t.file := by
  obtain ⟨hmem,hacc,rfl⟩ := h
  obtain ⟨hload,hcur,hvalid,hext,hnode,hcase⟩ := RuntimeJournal.accept_cases hacc
  have hgen : s.file.generation=current.generation := hcur.2.2.2.1
  have hdig : s.file.digest=current.digest := hcur.2.2.2.2.1
  have hsnap := (hs.handed current hmem).2 hgen.symm
  have hlive := RuntimeJournal.live_congr hgen hsnap.symm
  rcases hcase with ⟨hsame,hdigest,rfl⟩|⟨hlt,fences,hadm,rfl⟩
  · exact .inl ⟨⟨hvalid,hsame.trans hgen.symm,hdigest.trans hdig.symm,rfl,current,hmem,rfl⟩,rfl⟩
  · obtain ⟨rfl,hadmits,hverdict⟩ := FenceTable.admitAll_ok _ _ _ hvalid.slots hadm
    have hagree := RuntimeJournal.current_agrees hcur
    have hid := (RuntimeJournal.load_eq hload).2.2
    refine .inr ⟨⟨hvalid,?_,?_,?_,⟨current,hcur,hid.symm,hext,hnode,rfl⟩,rfl⟩,rfl⟩
    · intro k n hk
      have had := hadmits k n hk
      rw [hagree.1,hagree.2]
      exact had
    · intro a ha
      rw [hlive]
      exact RuntimeJournal.verdict_none (hverdict a ha)
    · exact hgen ▸ hlt

section

variable (h : Advances lib.toLibrary s snapshot t)
include h

theorem Advances.stored :
    t.file.snapshot=some snapshot ∧ t.file.generation=snapshot.snapshotGeneration ∧
      t.file.digest=snapshot.snapshotDigest := by
  obtain ⟨current,-,-,-,-,hfile⟩ := h.record
  rw [hfile]
  exact ⟨rfl,rfl,rfl⟩

theorem Advances.table :
    ∃before, s.file.table.Agrees before ∧ before.Admits (grants snapshot.assignments) ∧
      t.file.table=before.advance (grants snapshot.assignments)
        (snapshot.tombstones.map fun r => (r.slot,r.bindingFence)) := by
  obtain ⟨current,hcur,-,-,-,hfile⟩ := h.record
  have hagree := RuntimeJournal.current_agrees hcur
  refine ⟨current.table,hagree,?_,by rw [hfile]; rfl⟩
  intro k n hk
  rw [← hagree.1,← hagree.2]
  exact h.admits k n hk

theorem Advances.live : t.file.live=snapshot.assignments := by
  have hpos := (RuntimeJournal.valid_generation h.valid).1
  exact RuntimeJournal.live_of_snapshot (h.stored.2.1 ▸ hpos) h.stored.1

theorem Advances.keys : ((TuneX.Agent.grants snapshot.assignments).map Prod.fst).Nodup := by
  rw [FenceTable.grantsOf_keys]
  exact h.valid.slots

theorem Advances.grants : t.file.table.Grants (grants t.file.live) := by
  obtain ⟨before,-,hadmits,htable⟩ := h.table
  rw [h.live,htable]
  exact FenceTable.advance_grants hadmits h.keys (RuntimeJournal.valid_below h.valid)

end

/-- A migration leaves snapshot and generation alone and either keeps both maps or takes
over a history that lies below every stored assignment. -/
theorem enable_step (h : Store.Step lib node s (.enable transit o) t) :
    t.file.generation=s.file.generation ∧ t.file.snapshot=s.file.snapshot ∧
    t.file.digest=s.file.digest ∧ t.handed=t.file::s.handed ∧
    (t.file.table=s.file.table ∨ ∃legacy, FenceTable.Below legacy (grants s.file.live) ∧
      t.file.table=s.file.table.absorb legacy) := by
  obtain ⟨hen,rfl⟩ := h
  obtain ⟨-,hcase⟩ := RuntimeJournal.enable_cases hen
  rcases hcase with ⟨-,rfl⟩|rfl|⟨j,-,-,hbelow,rfl⟩
  · exact ⟨rfl,rfl,rfl,rfl,.inl rfl⟩
  · exact ⟨rfl,rfl,rfl,rfl,.inl rfl⟩
  · refine ⟨rfl,rfl,rfl,rfl,.inr ⟨RuntimeJournal.legacy j,?_,rfl⟩⟩
    intro k c n hc hn
    obtain ⟨a,ha,hae⟩ := List.mem_map.mp hn
    have hslot : a.slot=k := congrArg Prod.fst hae
    have hfence : a.bindingFence=n := congrArg Prod.snd hae
    exact hfence ▸ hbelow (k,c) hc a ha hslot

theorem coherent_accept (hs : Coherent lib.toLibrary s)
    (h : Store.Step lib node s (.accept current snapshot o) t) : Coherent lib.toLibrary t := by
  rcases accept_step hs h with ⟨hrep,-⟩|⟨hadv,-⟩
  · obtain ⟨r,hr,hhanded⟩ := hrep.handed
    refine ⟨hrep.file ▸ hs.grants,hrep.file ▸ hs.stored,?_⟩
    intro q hq
    rw [hhanded] at hq
    rw [hrep.file]
    rcases List.mem_cons.mp hq with rfl|hq
    · exact hs.handed q hr
    · exact hs.handed q hq
  · have hsnap := hadv.stored
    refine ⟨hadv.grants,?_,?_⟩
    · exact fun _ => ⟨snapshot,hsnap.1,hsnap.2.1.symm,hsnap.2.2.symm,hadv.valid⟩
    · intro r hr
      rw [hadv.handed] at hr
      rcases List.mem_cons.mp hr with rfl|hr
      · exact ⟨le_rfl,fun _ => rfl⟩
      · have hle := (hs.handed r hr).1
        have hlt := hadv.generation
        exact ⟨by omega,fun heq => by omega⟩

theorem coherent_enable (hs : Coherent lib.toLibrary s)
    (h : Store.Step lib node s (.enable transit o) t) : Coherent lib.toLibrary t := by
  obtain ⟨hgen,hsnap,hdig,hhanded,htable⟩ := enable_step h
  have hlive : t.file.live=s.file.live := RuntimeJournal.live_congr hgen hsnap
  refine ⟨?_,?_,?_⟩
  · rw [hlive]
    rcases htable with ht|⟨legacy,hb,ht⟩
    · rw [ht]
      exact hs.grants
    · rw [ht]
      exact FenceTable.absorb_grants hs.grants hb
  · rw [hgen,hsnap,hdig]
    exact hs.stored
  · intro r hr
    rw [hhanded] at hr
    rcases List.mem_cons.mp hr with rfl|hr
    · exact ⟨le_rfl,fun _ => rfl⟩
    · rw [hgen,hsnap]
      exact hs.handed r hr

theorem coherent_load {record : RuntimeJournal} (hs : Coherent lib.toLibrary s)
    (h : Store.Step lib node s (.load record) t) : Coherent lib.toLibrary t := by
  obtain ⟨hload,rfl⟩ := h
  have hrecord := (RuntimeJournal.load_eq hload).1
  refine ⟨hs.grants,hs.stored,?_⟩
  intro r hr
  rcases List.mem_cons.mp hr with hr|hr
  · rw [hr,hrecord]
    exact ⟨le_rfl,fun _ => rfl⟩
  · exact hs.handed r hr

theorem coherent_step {e : JournalEvent} (hs : Coherent lib.toLibrary s)
    (h : Store.Step lib node s e t) : Coherent lib.toLibrary t := by
  cases e with
  | load record => exact coherent_load hs h
  | accept current snapshot o => exact coherent_accept hs h
  | enable transit o => exact coherent_enable hs h

end Steps

end TuneX.Agent
