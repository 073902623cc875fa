import TuneX.Agent.JournalHistory

namespace TuneX.Agent

open Framework

/-- Map entries the loader accepts. -/
def Recordable (k : Slot) (n : Nat) : Prop :=
  1≤k.port ∧ k.port≤65535 ∧ 1≤n ∧ n ≤ maxCounter

/-- The parts of a record the loader checks besides its snapshot and fences. -/
structure WellFormed (node : String) (j : RuntimeJournal) : Prop where
  version : j.protocolVersion=3
  identity : j.nodeId=node
  extension : j.executionExtension=none ∨ j.executionExtension=some 1
  imported : j.importedTransitDigest≠""→
    j.executionExtension≠none ∧ digestOk j.importedTransitDigest
  fences : j.fences.Every Recordable
  retired : j.retired.Every Recordable
  fresh : j.generation=0→j.digest="" ∧ j.snapshot=none ∧
    (j.importedTransitDigest=""→j.fences.pairs=[] ∧ j.retired.pairs=[])
  snapshot : 0<j.generation→∀s, j.snapshot=some s→
    s.nodeId=node ∧ (s.executionExtension≠none→j.executionExtension≠none)

namespace RuntimeJournal

theorem loadEntries_ok (l : List (Slot×Nat)) (hl : ∀e∈l, Recordable e.1 e.2) :
    loadEntries l=.ok () := by
  induction l with
  | nil => rfl
  | cons e l ih =>
    have he := hl e List.mem_cons_self
    unfold Recordable at he
    have hrest := ih fun e' he' => hl e' (List.mem_cons_of_mem _ he')
    simp only [loadEntries,loadEntry,do_ok]
    exact ⟨⟨by omega,by omega,by omega⟩,hrest⟩

variable {lib : Library} {node : String} {j : RuntimeJournal}

theorem loadSnapshot_ok {s : Snapshot} (hv : ValidSnapshot lib s) (hnode : s.nodeId=node)
    (hext : s.executionExtension≠none→j.executionExtension≠none)
    (hgen : s.snapshotGeneration=j.generation) (hdig : s.snapshotDigest=j.digest)
    (hheld : ∀a∈s.assignments, j.fences.read a.slot=a.bindingFence ∧
      j.retired.read a.slot<a.bindingFence) : loadSnapshot lib node j s=.ok () := by
  unfold loadSnapshot
  rw [hv.parses]
  simp only [Except.mapError,do_ok,Except.ok.injEq,exists_eq_left',not_and,not_or,not_not,
    not_exists]
  refine ⟨hext,⟨hnode,hgen,hdig⟩,?_⟩
  intro a ha
  have := hheld a ha
  omega

theorem load_ok (hw : WellFormed node j) (hg : j.table.Grants (grants j.live))
    (hs : 0<j.generation→∃snapshot, j.snapshot=some snapshot ∧
      snapshot.snapshotGeneration=j.generation ∧ snapshot.snapshotDigest=j.digest ∧
      ValidSnapshot lib snapshot) : load lib node j=.ok j := by
  have hentries : loadEntries (j.fences.pairs++j.retired.pairs)=.ok () := by
    apply loadEntries_ok
    intro e he
    rcases List.mem_append.mp he with he|he
    · exact Counters.every_pairs hw.fences e he
    · exact Counters.every_pairs hw.retired e he
  have hgen : j.generation ≤ maxCounter := by
    by_cases h0 : 0<j.generation
    · obtain ⟨s,-,hsg,-,hsv⟩ := hs h0
      exact hsg ▸ (valid_generation hsv).2
    · omega
  have hhistory : loadHistory lib node j=.ok () := by
    unfold loadHistory
    by_cases h0 : 0<j.generation
    · obtain ⟨s,hsnap,hsg,hsd,hsv⟩ := hs h0
      obtain ⟨hnode,hext⟩ := hw.snapshot h0 s hsnap
      rw [if_pos h0,hsnap]
      apply loadSnapshot_ok hsv hnode hext hsg hsd
      intro a ha
      rw [← live_of_snapshot h0 hsnap] at ha
      exact hg.held _ _ (FenceTable.mem_grantsOf ha)
    · rw [if_neg h0]
      rfl
  have hfresh := hw.fresh
  unfold load
  simp only [do_ok,hentries,hhistory,not_or,not_and,not_not,not_lt,and_true,true_and]
  refine ⟨⟨hw.version,hw.identity⟩,?_,?_,hgen,?_⟩
  · intro hne
    exact hw.extension.resolve_left hne
  · intro hne
    exact hw.imported hne
  · intro h0
    obtain ⟨hd,hsn,hmaps⟩ := hfresh h0
    exact ⟨hd,hsn,hmaps⟩

end RuntimeJournal

theorem wellFormed_start (node : String) : WellFormed node (RuntimeJournal.initial node) := by
  refine ⟨rfl,rfl,.inl rfl,?_,Counters.every_empty,Counters.every_empty,?_,?_⟩
  · exact fun h => absurd rfl h
  · exact fun _ => ⟨rfl,rfl,fun _ => ⟨rfl,rfl⟩⟩
  · exact fun h => absurd h (Nat.lt_irrefl 0)

variable {lib : Library} {s : Snapshot}

theorem valid_recordable (h : ValidSnapshot lib s) : (∀e∈grants s.assignments, Recordable e.1 e.2) ∧
      ∀e∈s.tombstones.map (fun t => (t.slot,t.bindingFence)), Recordable e.1 e.2 := by
  have hs := h.schema
  simp only [snapshotOk,schema_ok] at hs
  obtain ⟨⟨⟨-,ha⟩,ht⟩,-⟩ := hs
  refine ⟨?_,?_⟩
  · intro e he
    obtain ⟨a,hm,rfl⟩ := List.mem_map.mp he
    have hb := ha a hm
    simp only [assignmentOk,resourceOk,portOk,counterOk,bool_ok] at hb
    change 1≤a.resource.port ∧ a.resource.port≤65535 ∧ 1≤a.bindingFence ∧
      a.bindingFence ≤ maxCounter
    tauto
  · intro e he
    obtain ⟨t,hm,rfl⟩ := List.mem_map.mp he
    have hb := ht t hm
    simp only [tombstoneOk,portOk,counterOk,bool_ok] at hb
    change 1≤t.port ∧ t.port≤65535 ∧ 1≤t.bindingFence ∧ t.bindingFence ≤ maxCounter
    tauto

theorem valid_extension (h : ValidSnapshot lib s) :
    s.executionExtension=none ∨ s.executionExtension=some 1 := by
  have hs := h.schema
  simp only [snapshotOk,Bool.and_eq_true] at hs
  cases he : s.executionExtension with
  | none => exact .inl rfl
  | some n =>
    have hn := hs.2
    rw [he] at hn
    simp only [Option.all_some,beq_iff_eq] at hn
    exact .inr (congrArg some hn)

/-- Every Transit journal a migration imports was written by the Transit writer. -/
def ImportsWritten (lib : TransitLibrary) (node : String) : JournalEvent→Prop
  | .enable (some j) _ => TransitJournal.Written lib node j
  | _ => True

def JournalEvent.saved : JournalEvent→Option RuntimeJournal
  | .accept _ _ (.saved record) => some record
  | .enable _ (.saved record) => some record
  | _ => none

theorem legacy_recordable {lib : TransitLibrary} {node : String} {j : TransitJournal}
    (h : TransitJournal.Written lib node j) :
    ∀e∈RuntimeJournal.legacy j, Recordable e.1 e.2 := by
  obtain ⟨hf,hr⟩ := TransitJournal.written_importable h
  have hlegacy := Counters.every_raiseAll _ hf (Counters.every_pairs hr)
  intro e he
  have hi := Counters.every_pairs hlegacy e he
  exact ⟨hi.2.1,hi.2.2.1,hi.2.2.2.1,hi.2.2.2.2⟩

section Steps

variable {lib : TransitLibrary} {node : String} {s t : Store} {snapshot : Snapshot}
  {o : Outcome} {transit : Option TransitJournal}

theorem wellFormed_advance (hw : WellFormed node s.file)
    (h : Advances lib.toLibrary s snapshot t) : WellFormed node t.file := by
  have hpos := (RuntimeJournal.valid_generation h.valid).1
  obtain ⟨current,hcur,hid,hext,hnode,hfile⟩ := h.record
  obtain ⟨hversion,hcext,himp,-,-,hsf,hsr⟩ := hcur
  obtain ⟨hlive,htomb⟩ := valid_recordable h.valid
  have hfences := Counters.same_every (Counters.same_symm hsf) hw.fences
  have hretired := Counters.same_every (Counters.same_symm hsr) hw.retired
  have hnext : t.file.executionExtension=
      snapshot.executionExtension.or s.file.executionExtension := by
    rw [hfile,hcext]
    rfl
  have hwritten := Counters.every_writeAll _ hfences hlive
  rw [hfile]
  refine ⟨hversion.symm.trans hw.version,hid.trans hw.identity,?_,?_,hwritten,?_,?_,?_⟩
  · rw [← hfile,hnext]
    rcases valid_extension h.valid with he|he
    · rw [he]
      exact hw.extension
    · rw [he]
      exact .inr rfl
  · intro hne
    have hi := hw.imported (himp ▸ hne)
    refine ⟨?_,himp ▸ hi.2⟩
    rw [← hfile,hnext]
    cases snapshot.executionExtension with
    | none => exact hi.1
    | some n => simp
  · exact FenceTable.retired_every hwritten hretired htomb
  · intro h0
    exact absurd h0 hpos.ne'
  · intro _ stored hstored
    obtain rfl : snapshot=stored := Option.some.inj hstored
    refine ⟨hnode.symm.trans (hid.trans hw.identity),?_⟩
    intro hne
    rw [← hfile,hnext]
    cases hs : snapshot.executionExtension with
    | none => exact absurd hs hne
    | some n => simp

theorem wellFormed_enable (hw : WellFormed node s.file)
    (hi : ImportsWritten lib node (.enable transit o))
    (h : Store.Step lib node s (.enable transit o) t) : WellFormed node t.file := by
  obtain ⟨hen,rfl⟩ := h
  obtain ⟨-,hcase⟩ := RuntimeJournal.enable_cases hen
  rcases hcase with ⟨-,rfl⟩|rfl|⟨j,rfl,himp,-,rfl⟩
  · refine ⟨hw.version,hw.identity,.inr rfl,?_,hw.fences,hw.retired,hw.fresh,?_⟩
    · exact fun hne => ⟨by simp [Store.after,Outcome.file],(hw.imported hne).2⟩
    · exact fun h0 stored hs => ⟨(hw.snapshot h0 stored hs).1,fun _ => by
        simp [Store.after,Outcome.file]⟩
  · exact hw
  · have hlegacy := legacy_recordable hi
    have hdigest := lib.journalDigest_format j
    refine ⟨hw.version,hw.identity,.inr rfl,?_,?_,?_,?_,?_⟩
    · exact fun _ => ⟨by simp [Store.after,Outcome.file],hdigest⟩
    · exact Counters.every_raiseAll _ hw.fences hlegacy
    · exact Counters.every_raiseAll _ hw.retired hlegacy
    · intro h0
      obtain ⟨hd,hs,-⟩ := hw.fresh h0
      refine ⟨hd,hs,?_⟩
      intro hempty
      have hempty' : lib.journalDigest j="" := hempty
      rw [hempty'] at hdigest
      exact absurd hdigest (by decide)
    · exact fun h0 stored hs => ⟨(hw.snapshot h0 stored hs).1,fun _ => by
        simp [Store.after,Outcome.file]⟩

variable {e : JournalEvent}

theorem wellFormed_step (hs : Coherent lib.toLibrary s) (hw : WellFormed node s.file)
    (hi : ImportsWritten lib node e) (h : Store.Step lib node s e t) : WellFormed node t.file := by
  cases e with
  | load record =>
    have hfile : t.file=s.file := by rw [h.2]
    rw [hfile]
    exact hw
  | accept current snapshot o =>
    rcases accept_step hs h with ⟨hrep,-⟩|⟨hadv,-⟩
    · rw [hrep.file]
      exact hw
    · exact wellFormed_advance hw hadv
  | enable transit o => exact wellFormed_enable hw hi h

theorem saved_file {r : RuntimeJournal} (h : Store.Step lib node s e t) (hr : e.saved=some r) :
    t.file=r := by
  cases e with
  | load record => cases hr
  | accept current snapshot o =>
    obtain ⟨-,-,rfl⟩ := h
    cases o with
    | unchanged record => cases hr
    | saved record => exact Option.some.inj hr
  | enable transit o =>
    obtain ⟨-,rfl⟩ := h
    cases o with
    | unchanged record => cases hr
    | saved record => exact Option.some.inj hr

end Steps

/-- Whatever a call on a reachable journal persists passes the loader and comes back as the
record the call returned. -/
theorem saved_record_reloads (lib : TransitLibrary) (node : String) (l : List JournalEvent)
    (s t : Store) (e : JournalEvent) (r : RuntimeJournal)
    (h : Run (fun s e t => Store.Step lib node s e t ∧ ImportsWritten lib node e)
      (Store.start node) l s)
    (hstep : Store.Step lib node s e t) (himport : ImportsWritten lib node e)
    (hr : e.saved=some r) : RuntimeJournal.load lib.toLibrary node t.file=.ok r := by
  have hinv := h.invariant (fun s => Coherent lib.toLibrary s ∧ WellFormed node s.file)
    (fun a e b hab ha => ⟨coherent_step ha.1 hab.1,wellFormed_step ha.1 ha.2 hab.2 hab.1⟩)
    ⟨coherent_start _ _,wellFormed_start node⟩
  have hcoh := coherent_step hinv.1 hstep
  have hwf := wellFormed_step hinv.1 hinv.2 himport hstep
  have hload := RuntimeJournal.load_ok hwf hcoh.grants hcoh.stored
  rw [saved_file hstep hr] at hload ⊢
  exact hload

open Sample in
/-- The journal of one accepted snapshot, migrated with an empty Transit journal. -/
theorem saved_record_reloads_migrated :
    RuntimeJournal.load library.toLibrary "n1"
      {journal₁ with importedTransitDigest := hash 0, executionExtension := some 1}=
      .ok {journal₁ with importedTransitDigest := hash 0, executionExtension := some 1} := by
  have hwritten : TransitJournal.Written library "n1" (TransitJournal.initial "n1") :=
    ⟨[],.refl⟩
  have hfirst : Run (fun s e t => Store.Step library "n1" s e t ∧ ImportsWritten library "n1" e)
      (Store.start "n1") [.load journal₀,first] ⟨journal₁,[journal₁,journal₀]⟩ :=
    (Run.single (R := fun s e t => Store.Step library "n1" s e t ∧
        ImportsWritten library "n1" e) (e := JournalEvent.load journal₀)
      (t := ⟨journal₀,[journal₀]⟩) ⟨⟨rfl,rfl⟩,trivial⟩).snoc
      ⟨⟨List.mem_cons_self,rfl,rfl⟩,trivial⟩
  exact saved_record_reloads library "n1" _ _
    (Store.after ⟨journal₁,[journal₁,journal₀]⟩ (.saved
      {journal₁ with importedTransitDigest := hash 0, executionExtension := some 1}))
    (.enable (some (TransitJournal.initial "n1")) (.saved
      {journal₁ with importedTransitDigest := hash 0, executionExtension := some 1})) _ hfirst
    ⟨rfl,rfl⟩ hwritten rfl

end TuneX.Agent
