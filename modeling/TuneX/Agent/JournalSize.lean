import TuneX.Agent.JournalReload
import TuneX.Agent.RelayLimits
import Mathlib.Data.List.Dedup
import Mathlib.Data.Nat.Find

namespace TuneX.Agent

open Framework Framework.Json

def directConfigSize (c : DirectConfig) : Nat :=
  objectSize [("target",targetSize c.target),
    ("egressPolicyRevision",numberSize c.egressPolicyRevision),
    ("allowMetadataTargets",boolSize c.allowMetadataTargets),
    ("allowedDestinationCidrs",listSize (c.allowedDestinationCidrs.map textSize))]

def hopNodeSize (n : HopNode) : Nat :=
  objectSize [("nodeId",textSize n.nodeId),("assignmentId",textSize n.assignmentId),
    ("sessionEpoch",numberSize n.sessionEpoch),("bindingFence",numberSize n.bindingFence),
    ("peerFingerprint",textSize n.peerFingerprint),("listenAddress",textSize n.listenAddress),
    ("host",textSize n.host),("port",numberSize n.port)]

def hopConfigSize (h : HopConfig) : Nat :=
  objectSize [("scopeId",textSize h.scopeId),("forwardId",textSize h.forwardId),
    ("forwardRevision",numberSize h.forwardRevision),
    ("deploymentGeneration",numberSize h.deploymentGeneration),
    ("profileId",textSize h.profileId),("profileRevision",numberSize h.profileRevision),
    ("profileDigest",textSize h.profileDigest),("pathDigest",textSize h.pathDigest),
    ("protocol",textSize h.protocol.text),("hopIndex",numberSize h.hopIndex),
    ("path",listSize (h.path.map hopNodeSize)),("profile",profileSize h.profile),
    ("target",targetSize h.target),("egressPolicyRevision",numberSize h.egressPolicyRevision),
    ("allowedDestinationCidrs",listSize (h.allowedDestinationCidrs.map textSize)),
    ("allowMetadataTargets",boolSize h.allowMetadataTargets)]

def runtimeConfigSize : RuntimeConfig→Nat
  | .direct c => directConfigSize c
  | .relay c => relayConfigSize c
  | .multihop h => objectSize [("hop",hopConfigSize h)]

def driverSize (d : Driver) : Nat :=
  objectSize [("id",textSize d.id.text),("schemaVersion",numberSize d.schemaVersion),
    ("configDigest",textSize d.configDigest),("config",runtimeConfigSize d.config)]

def assignmentSize (a : Assignment) : Nat :=
  objectSize [("assignmentId",textSize a.assignmentId),("forwardId",textSize a.forwardId),
    ("forwardRevision",numberSize a.forwardRevision),
    ("deploymentGeneration",numberSize a.deploymentGeneration),
    ("bindingFence",numberSize a.bindingFence),("role",textSize a.role.text),
    ("protocol",textSize a.protocol.text),("phase",textSize a.phase.text),
    ("driver",driverSize a.driver),("drainTimeoutSeconds",numberSize a.drainTimeoutSeconds),
    ("resource",resourceSize a.resource)]

def tombstoneSize (t : Tombstone) : Nat :=
  objectSize [("assignmentId",textSize t.assignmentId),("forwardId",textSize t.forwardId),
    ("protocol",textSize t.protocol.text),("port",numberSize t.port),
    ("bindingFence",numberSize t.bindingFence),
    ("retirementGeneration",numberSize t.retirementGeneration),
    ("physicalProtocol",textSize t.physicalProtocol.text),("role",textSize t.role.text)]

/-- A counter that is left out of the object when it is absent. -/
def counterMember (key : String) (n : Option Nat) : List (String×Nat) :=
  (n.map fun x => (key,numberSize x)).toList

def snapshotSize (s : Snapshot) : Nat :=
  objectSize ([("protocolVersion",numberSize s.protocolVersion),("nodeId",textSize s.nodeId),
    ("sessionEpoch",numberSize s.sessionEpoch),
    ("snapshotGeneration",numberSize s.snapshotGeneration),("complete",boolSize s.complete),
    ("issuedAt",textSize s.issuedAt),("validUntil",textSize s.validUntil),
    ("snapshotDigest",textSize s.snapshotDigest),
    ("assignments",listSize (s.assignments.map assignmentSize)),
    ("tombstones",listSize (s.tombstones.map tombstoneSize))]++
    counterMember "executionExtension" s.executionExtension)

/-- A slot is written as its protocol, a slash and its port. -/
def slotSize (k : Slot) : Nat := 2+4+numberSize k.port

def mapSize (m : Counters Slot) : Nat :=
  listSize (m.pairs.map fun e => slotSize e.1+1+numberSize e.2)

/-- A `Journal` around a snapshot text of the given size. -/
def journalSize (j : RuntimeJournal) (text : Nat) : Nat :=
  objectSize [("snapshot",text),("generation",numberSize j.generation),
    ("digest",textSize j.digest),("fences",mapSize j.fences),("retired",mapSize j.retired)]

/-- The text of a `RuntimeJournal`, whose absent parts are left out. -/
def recordSize (j : RuntimeJournal) : Nat :=
  objectSize ([("protocolVersion",numberSize j.protocolVersion),("nodeId",textSize j.nodeId),
    ("journal",journalSize j (j.snapshot.elim 4 snapshotSize))]++
    counterMember "executionExtension" j.executionExtension++
    if j.importedTransitDigest="" then []
    else [("importedTransitDigest",textSize j.importedTransitDigest)])

/-- The envelope that `saveRuntimeJournal` writes: the record once more inside a `Journal` with
the same maps, and a MAC of 64 digits. -/
def fileSize (j : RuntimeJournal) : Nat :=
  objectSize [("payload",journalSize j (recordSize j)),("mac",66)]

def maxFileBytes : Nat := 6291456
def maxPayloadBytes : Nat := 4194304+1048576
def maxSnapshotBytes : Nat := 4194304

namespace RuntimeJournal

/-- `LoadRuntimeJournal`, with the limits on what it reads. -/
def loadFile (lib : Library) (node : String) (j : RuntimeJournal) : Except String RuntimeJournal := do
  reject (maxFileBytes<fileSize j) "INTEGRITY_FAILURE: invalid Runtime journal envelope"
  reject (maxPayloadBytes < recordSize j) "INTEGRITY_FAILURE: invalid Runtime journal payload"
  let record ← load lib node j
  reject (0<j.generation ∧ ∃s∈j.snapshot, maxSnapshotBytes<snapshotSize s)
    "INTEGRITY_FAILURE: invalid persisted Snapshot"
  pure record

/-- `AcceptRuntimeSnapshot`, with the limits on the file and on the snapshot. -/
def acceptFile (lib : Library) (file current : RuntimeJournal) (s : Snapshot) :
    Except String Outcome := do
  let durable ← loadFile lib current.nodeId file
  reject (¬Current durable current) "INTEGRITY_FAILURE: Caller Runtime state is stale"
  reject (maxSnapshotBytes<snapshotSize s) "RESOURCE_LIMIT: JSON body too large"
  accept lib file current s

/-- `EnableRuntimeExecution`, with the limits on the file. -/
def enableFile (lib : TransitLibrary) (node : String) (file : RuntimeJournal)
    (transit : Option TransitJournal) : Except String Outcome := do
  let _ ← loadFile lib.toLibrary node file
  enable lib node file transit

/-- Both limits of the loader are kept. -/
def Fits (j : RuntimeJournal) : Prop := fileSize j ≤ maxFileBytes ∧ recordSize j ≤ maxPayloadBytes

end RuntimeJournal

/-- One successful call on a journal file whose size the loader checks. -/
def Store.FileStep (lib : TransitLibrary) (node : String) (s : Store) : JournalEvent→Store→Prop
  | .load record,t =>
    RuntimeJournal.loadFile lib.toLibrary node s.file=.ok record ∧ t=⟨s.file,record::s.handed⟩
  | .accept current snapshot o,t =>
    current∈s.handed ∧ RuntimeJournal.acceptFile lib.toLibrary s.file current snapshot=.ok o ∧
      t=s.after o
  | .enable transit o,t => RuntimeJournal.enableFile lib node s.file transit=.ok o ∧ t=s.after o

/-- The physical slots a call brings to the journal. -/
def JournalEvent.slots : JournalEvent→List Slot
  | .accept _ snapshot _ =>
    snapshot.assignments.map Assignment.slot++snapshot.tombstones.map Tombstone.slot
  | .enable (some transit) _ => (RuntimeJournal.legacy transit).map Prod.fst
  | _ => []

section Calls

variable {lib : TransitLibrary} {node : String} {s t : Store} {e : JournalEvent}
  {j : RuntimeJournal} {snapshot : Snapshot} {l : List Slot}

theorem loadFile_ok {lib : Library} {record : RuntimeJournal} :
    RuntimeJournal.loadFile lib node j=.ok record ↔
      j.Fits ∧ RuntimeJournal.load lib node j=.ok record ∧
        ¬(0<j.generation ∧ ∃s∈j.snapshot, maxSnapshotBytes<snapshotSize s) := by
  unfold RuntimeJournal.loadFile RuntimeJournal.Fits
  simp only [do_ok,not_lt,and_assoc]
  constructor
  · rintro ⟨hf,hp,r,hr,hs,h⟩
    cases h
    exact ⟨hf,hp,hr,hs⟩
  · rintro ⟨hf,hp,hr,hs⟩
    exact ⟨hf,hp,record,hr,hs,rfl⟩

theorem acceptFile_ok {lib : Library} {file current : RuntimeJournal} {o : Outcome}
    (h : RuntimeJournal.acceptFile lib file current snapshot=.ok o) :
    file.Fits ∧ snapshotSize snapshot ≤ maxSnapshotBytes ∧
      RuntimeJournal.accept lib file current snapshot=.ok o := by
  unfold RuntimeJournal.acceptFile at h
  simp only [do_ok] at h
  obtain ⟨durable,hload,-,hsize,haccept⟩ := h
  exact ⟨(loadFile_ok.mp hload).1,not_lt.mp hsize,haccept⟩

/-- The snapshot of an acceptance keeps the limit of its parser. -/
def JournalEvent.Bounded : JournalEvent→Prop
  | .accept _ snapshot _ => snapshotSize snapshot ≤ maxSnapshotBytes
  | _ => True

theorem fileStep_step (h : Store.FileStep lib node s e t) :
    Store.Step lib node s e t ∧ s.file.Fits ∧ e.Bounded := by
  cases e with
  | load record =>
    obtain ⟨hfits,hload,-⟩ := loadFile_ok.mp h.1
    exact ⟨⟨hload,h.2⟩,hfits,trivial⟩
  | accept current snapshot o =>
    obtain ⟨hfits,hsize,haccept⟩ := acceptFile_ok h.2.1
    exact ⟨⟨h.1,haccept,h.2.2⟩,hfits,hsize⟩
  | enable transit o =>
    obtain ⟨r,hload,henable⟩ := (bind_ok _ _ _).mp h.1
    exact ⟨⟨henable,h.2⟩,(loadFile_ok.mp hload).1,trivial⟩

/-- The maps name slots of a list only, and the stored snapshot kept the limit of its parser. -/
structure Named (l : List Slot) (j : RuntimeJournal) : Prop where
  fences : j.fences.Every fun k _ => k∈l
  retired : j.retired.Every fun k _ => k∈l
  snapshot : ∀s∈j.snapshot, snapshotSize s ≤ maxSnapshotBytes

theorem Named.mono {m : List Slot} (h : Named l j) (hlm : l⊆m) : Named m j :=
  ⟨fun k n hk => hlm (h.fences k n hk),fun k n hk => hlm (h.retired k n hk),h.snapshot⟩

theorem Named.advance (h : Named l s.file) (hadv : Advances lib.toLibrary s snapshot t)
    (hl : ∀k∈snapshot.assignments.map Assignment.slot++snapshot.tombstones.map Tombstone.slot, k∈l)
    (hsize : snapshotSize snapshot ≤ maxSnapshotBytes) : Named l t.file := by
  obtain ⟨current,hcur,-,-,-,hfile⟩ := hadv.record
  obtain ⟨-,-,-,-,-,hsf,hsr⟩ := hcur
  have hfences := Counters.same_every (Counters.same_symm hsf) h.fences
  have hretired := Counters.same_every (Counters.same_symm hsr) h.retired
  have hlive : ∀e∈grants snapshot.assignments, e.1∈l := by
    intro e he
    obtain ⟨a,ha,rfl⟩ := List.mem_map.mp he
    exact hl _ (List.mem_append_left _ (List.mem_map_of_mem ha))
  have hgone : ∀e∈snapshot.tombstones.map (fun t => (t.slot,t.bindingFence)), e.1∈l := by
    intro e he
    obtain ⟨x,hx,rfl⟩ := List.mem_map.mp he
    exact hl _ (List.mem_append_right _ (List.mem_map_of_mem hx))
  have hwritten := Counters.every_writeAll _ hfences hlive
  rw [hfile]
  refine ⟨hwritten,FenceTable.retired_every hwritten hretired hgone,?_⟩
  intro x hx
  obtain rfl : snapshot=x := Option.some.inj hx
  exact hsize

theorem Named.step (hs : Coherent lib.toLibrary s) (h : Named l s.file)
    (hstep : Store.Step lib node s e t) (hsize : e.Bounded) (hl : ∀k∈e.slots, k∈l) :
    Named l t.file := by
  cases e with
  | load record =>
    obtain ⟨-,rfl⟩ := hstep
    exact h
  | accept current snapshot o =>
    rcases accept_step hs hstep with ⟨hrep,-⟩|⟨hadv,-⟩
    · rw [hrep.file]
      exact h
    · exact h.advance hadv hl hsize
  | enable transit o =>
    obtain ⟨hen,rfl⟩ := hstep
    obtain ⟨-,hcase⟩ := RuntimeJournal.enable_cases hen
    rcases hcase with ⟨-,rfl⟩|rfl|⟨j,rfl,-,-,rfl⟩
    · exact ⟨h.fences,h.retired,h.snapshot⟩
    · exact h
    · have hlegacy : ∀e∈RuntimeJournal.legacy j, e.1∈l := fun e he =>
        hl _ (List.mem_map_of_mem he)
      exact ⟨Counters.every_raiseAll _ h.fences hlegacy,
        Counters.every_raiseAll _ h.retired hlegacy,h.snapshot⟩

end Calls

section Bounds

variable {node : String} {j : RuntimeJournal} {m : Counters Slot} {l : List Slot} {n : Nat}

theorem pairs_length_le (hm : m.Every fun k _ => k∈l) (hl : l.dedup.length≤n) :
    m.pairs.length≤n := by
  have hkeys : m.keys⊆l.dedup := by
    intro k hk
    obtain ⟨v,hv⟩ := Option.isSome_iff_exists.mp (AList.lookup_isSome.mpr hk)
    exact List.mem_dedup.mpr (hm k v hv)
  have hlen := (List.subperm_of_subset m.keys_nodup hkeys).length_le
  have hpairs : m.pairs.length=m.keys.length := by
    simp [Counters.pairs,AList.keys,List.keys]
  omega

theorem mapSize_le (hr : m.Every Recordable) (hn : m.pairs.length≤n) : mapSize m≤2+29*n := by
  have hentry : ∀i∈m.pairs.map (fun e => slotSize e.1+1+numberSize e.2), i≤28 := by
    intro i hi
    obtain ⟨e,he,rfl⟩ := List.mem_map.mp hi
    obtain ⟨-,hport,-,hfence⟩ := Counters.every_pairs hr e he
    have hp : numberSize e.1.port≤5 := numberSize_le (by omega)
    have hf : numberSize e.2≤16 := by
      apply numberSize_le
      unfold maxCounter at hfence
      omega
    unfold slotSize
    omega
  unfold mapSize
  rcases Nat.eq_zero_or_pos m.pairs.length with h0|hpos
  · rw [List.eq_nil_of_length_eq_zero h0]
    show 2≤2+29*n
    omega
  · have h := listSize_le (k := n) (by rwa [List.length_map]) (by rwa [List.length_map]) hentry
    omega

theorem journalSize_le {text size : Nat} (hg : j.generation ≤ maxCounter)
    (hd : textSize j.digest≤73) (hf : mapSize j.fences ≤ size) (hr : mapSize j.retired ≤ size) :
    journalSize j text≤text+2*size+147 := by
  have hg : numberSize j.generation≤16 := by
    apply numberSize_le
    unfold maxCounter at hg
    omega
  unfold journalSize
  refine (objectSize_le [("snapshot",text),("generation",16),("digest",73),("fences",size),
    ("retired",size)] ?_ (by simp) rfl).trans ?_
  · simp only [List.forall₂_cons,List.forall₂_nil_left_iff,and_true,true_and]
    exact ⟨le_refl _,hg,hd,hf,hr⟩
  · have h₁ : "snapshot".length=8 := rfl
    have h₂ : "generation".length=10 := rfl
    have h₃ : "digest".length=6 := rfl
    have h₄ : "fences".length=6 := rfl
    have h₅ : "retired".length=7 := rfl
    simp only [List.map_cons,List.map_nil,List.sum_cons,List.sum_nil,h₁,h₂,h₃,h₄,h₅]
    omega

theorem recordSize_le {size : Nat} (hv : j.protocolVersion=3) (hnode : textSize j.nodeId≤130)
    (he : j.executionExtension=none ∨ j.executionExtension=some 1)
    (hi : textSize j.importedTransitDigest≤73)
    (hj : journalSize j (j.snapshot.elim 4 snapshotSize) ≤ size) : recordSize j ≤ size+293 := by
  have hone : numberSize 1=1 := rfl
  have hthree : numberSize 3=1 := rfl
  have h₁ : "protocolVersion".length=15 := rfl
  have h₂ : "nodeId".length=6 := rfl
  have h₃ : "journal".length=7 := rfl
  have h₄ : "executionExtension".length=18 := rfl
  have h₅ : "importedTransitDigest".length=21 := rfl
  unfold recordSize
  rw [hv]
  rcases he with he|he
  all_goals
    rw [he]
    split_ifs
    all_goals
      simp [objectSize,listSize,counterMember,hone,hthree,h₁,h₂,h₃,h₄,h₅]
      omega

theorem fileSize_eq (j : RuntimeJournal) : fileSize j=journalSize j (recordSize j)+85 := by
  have h₁ : "payload".length=7 := rfl
  have h₂ : "mac".length=3 := rfl
  simp [fileSize,objectSize,listSize,h₁,h₂]
  omega

/-- The most slots the maps may name for a record of any snapshot to fit. -/
def maxSlots : Nat := 18000

theorem fits_of_named (hw : WellFormed node j) (hnode : idOk node) (hg : j.generation ≤ maxCounter)
    (hd : textSize j.digest≤73) (hn : Named l j) (hl : l.dedup.length ≤ maxSlots) : j.Fits := by
  have hfences := mapSize_le hw.fences (pairs_length_le hn.fences hl)
  have hretired := mapSize_le hw.retired (pairs_length_le hn.retired hl)
  have htext : j.snapshot.elim 4 snapshotSize ≤ maxSnapshotBytes := by
    cases hs : j.snapshot with
    | none =>
      show 4≤4194304
      omega
    | some x => exact hn.snapshot x hs
  have himported : textSize j.importedTransitDigest≤73 := by
    by_cases hempty : j.importedTransitDigest=""
    · rw [hempty]
      decide
    · exact digestOk_size (hw.imported hempty).2
  have hjournal (n : Nat) : journalSize j n≤n+2*(2+29*maxSlots)+147 :=
    journalSize_le hg hd hfences hretired
  have hrecord := recordSize_le hw.version (hw.identity ▸ idOk_size hnode) hw.extension himported
    (hjournal _)
  have houter := hjournal (recordSize j)
  unfold RuntimeJournal.Fits
  rw [fileSize_eq]
  unfold maxFileBytes maxPayloadBytes
  unfold maxSnapshotBytes at htext
  unfold maxSlots at hrecord houter
  omega

end Bounds

/-- A successful call that imports no Transit history but one its writer left. -/
def Store.WrittenStep (lib : TransitLibrary) (node : String) (s : Store) (e : JournalEvent)
    (t : Store) : Prop :=
  Store.FileStep lib node s e t ∧ ImportsWritten lib node e

section Runs

variable {lib : TransitLibrary} {node : String} {s : Store} {l : List JournalEvent}

theorem run_named (h : Run (Store.WrittenStep lib node) (Store.start node) l s) :
    Coherent lib.toLibrary s ∧ WellFormed node s.file ∧
      Named (l.flatMap JournalEvent.slots) s.file := by
  induction h with
  | refl => exact ⟨coherent_start _ _,wellFormed_start node,Counters.every_empty,
      Counters.every_empty,nofun⟩
  | snoc _ hstep ih =>
    obtain ⟨hcoherent,hformed,hnamed⟩ := ih
    obtain ⟨hcall,-,hbounded⟩ := fileStep_step hstep.1
    refine ⟨coherent_step hcoherent hcall,wellFormed_step hcoherent hformed hstep.2 hcall,?_⟩
    rw [List.flatMap_append]
    refine (hnamed.mono (List.subset_append_left _ _)).step hcoherent hcall hbounded ?_
    intro k hk
    simpa using .inr hk

theorem stored_bounds (hs : Coherent lib.toLibrary s) (hw : WellFormed node s.file) :
    s.file.generation ≤ maxCounter ∧ textSize s.file.digest≤73 := by
  rcases Nat.eq_zero_or_pos s.file.generation with h0|hpos
  · rw [h0,(hw.fresh h0).1]
    decide
  · obtain ⟨snapshot,-,hgen,hdigest,hvalid⟩ := hs.stored hpos
    have hschema := hvalid.schema
    simp only [snapshotOk,Bool.and_eq_true] at hschema
    rw [← hgen,← hdigest]
    exact ⟨(RuntimeJournal.valid_generation hvalid).2,digestOk_size hschema.1.1.1.1.1.2⟩

theorem run_loads (h : Run (Store.WrittenStep lib node) (Store.start node) l s)
    (hfits : s.file.Fits) : RuntimeJournal.loadFile lib.toLibrary node s.file=.ok s.file := by
  obtain ⟨hcoherent,hformed,hnamed⟩ := run_named h
  have hload := RuntimeJournal.load_ok hformed hcoherent.grants hcoherent.stored
  refine loadFile_ok.mpr ⟨hfits,hload,?_⟩
  rintro ⟨-,x,hx,hlarge⟩
  exact absurd (hnamed.snapshot x hx) (not_le.mpr hlarge)

/-- While the history names at most `maxSlots` physical slots, the file keeps both limits and the
loader takes it back. -/
theorem journal_fits (hnode : idOk node)
    (h : Run (Store.WrittenStep lib node) (Store.start node) l s)
    (hl : (l.flatMap JournalEvent.slots).dedup.length ≤ maxSlots) :
    s.file.Fits ∧ RuntimeJournal.loadFile lib.toLibrary node s.file=.ok s.file := by
  obtain ⟨hcoherent,hformed,hnamed⟩ := run_named h
  obtain ⟨hg,hd⟩ := stored_bounds hcoherent hformed
  have hfits := fits_of_named hformed hnode hg hd hnamed hl
  exact ⟨hfits,run_loads h hfits⟩

end Runs

namespace Sample

def slotAt (i : Nat) : Slot := if i<65535 then ⟨.tcp,i+1⟩ else ⟨.udp,i-65534⟩

def retiredAt (i : Nat) : Tombstone :=
  ⟨"a1","f1",(slotAt i).protocol,(slotAt i).port,maxCounter,1,(slotAt i).protocol,.direct⟩

def retirement (i : Nat) : Snapshot :=
  ⟨3,"n1",1,i+1,true,"2026-01-01T00:00:00Z","2026-01-01T00:01:00Z",hash (i+1),[],[retiredAt i],none⟩

def history : Nat→RuntimeJournal
  | 0 => journal₀
  | n+1 => (history n).succeed (retirement n) ∅

variable {i n : Nat}

theorem slotAt_port (hi : i<131070) : portOk (slotAt i).port := by
  unfold slotAt
  split_ifs with h
  · simp [portOk]
    omega
  · simp [portOk]
    omega

theorem slotAt_inj {k : Nat} (h : slotAt i=slotAt k) : i=k := by
  unfold slotAt at h
  split_ifs at h with hi hk hk
  · simpa using h
  · simp at h
  · simp at h
  · simp only [Slot.mk.injEq,true_and] at h
    omega

theorem digestOk_concat {a : String} {c : Char} {l : List Char} (ha : a.toList="sha256:".toList++l)
    (hl : l.length=63) (hall : l.all hexLower) (hc : hexLower c) :
    digestOk (a++String.ofList [c]) := by
  have hlist : (a++String.ofList [c]).toList="sha256:".toList++(l++[c]) := by
    have hc : (String.ofList [c]).toList=[c] := String.toList_ofList
    rw [String.toList_append,ha,hc,List.append_assoc]
  have hlength : "sha256:".toList.length=7 := rfl
  unfold digestOk
  rw [hlist,← hlength,List.take_left,List.drop_left]
  simp [hl,hc]
  exact List.all_eq_true.mp hall

theorem hash_digest (n : Nat) : digestOk (hash n) := by
  have hdigit : ∀k<16, hexLower (Nat.digitChar k) := by decide
  have hzeros : (List.replicate 63 '0').all hexLower := by decide
  have hlast := hdigit _ (Nat.mod_lt n (by decide))
  exact digestOk_concat (by decide) List.length_replicate hzeros hlast

theorem retirement_parses (hi : i<131070) :
    parse library.toLibrary (retirement i)=.ok (retirement i) := by
  have hport := slotAt_port hi
  have hgeneration : counterOk (i+1) := by
    simp [counterOk,maxCounter]
    omega
  have hok : snapshotOk library.toLibrary (retirement i) := by
    have hdigest := hash_digest (i+1)
    have hid : idOk "n1" ∧ idOk "a1" ∧ idOk "f1" := by decide
    have hcounter : counterOk 1 ∧ counterOk maxCounter := by decide
    simp [snapshotOk,retirement,retiredAt,tombstoneOk,timeOk,roleOk,library,hport,hgeneration,
      hdigest,hid,hcounter]
  have htombstones : validateTombstones (retirement i) [] none [retiredAt i]=.ok () := by
    simp [validateTombstones,retirement,retiredAt,Tombstone.physical]
  have htimes : library.toLibrary.compareTimes "2026-01-01T00:00:00Z" "2026-01-01T00:01:00Z"=
      some .lt := by decide
  have hvalid : validateSnapshot library.toLibrary (retirement i)=.ok () := by
    have hdigest : library.digest (.snapshot (retirement i).body)=(retirement i).snapshotDigest :=
      rfl
    unfold validateSnapshot
    rw [if_neg fun h => h hdigest]
    simp only [retirement,validateAssignments,htimes,ne_eq,not_true_eq_false,if_false]
    exact htombstones
  unfold parse
  rw [hvalid,hok]
  rfl

theorem retirement_size (hi : i<131070) : snapshotSize (retirement i) ≤ maxSnapshotBytes := by
  have hport := portOk_size (slotAt_port hi)
  have hprotocol := protocol_size (slotAt i).protocol
  have hgeneration : numberSize (i+1)≤6 := numberSize_le (by omega)
  have hdigest := digestOk_size (hash_digest (i+1))
  have htombstone : tombstoneSize (retiredAt i)≤200 := by
    refine (objectSize_le [("assignmentId",4),("forwardId",4),("protocol",5),("port",5),
      ("bindingFence",16),("retirementGeneration",1),("physicalProtocol",5),("role",8)] ?_
      (by simp) rfl).trans (by decide)
    simp only [List.forall₂_cons,List.forall₂_nil_left_iff,and_true,true_and,retiredAt]
    exact ⟨by decide,by decide,hprotocol,hport,by decide,by decide,hprotocol,by decide⟩
  have htombstones : listSize ((retirement i).tombstones.map tombstoneSize)≤202 := by
    show 2+(tombstoneSize (retiredAt i)+0)+0≤202
    omega
  refine (objectSize_le [("protocolVersion",1),("nodeId",4),("sessionEpoch",1),
    ("snapshotGeneration",6),("complete",4),("issuedAt",22),("validUntil",22),
    ("snapshotDigest",73),("assignments",2),("tombstones",202)] ?_ (by simp) rfl).trans (by decide)
  simp only [retirement,counterMember,Option.map_none,Option.toList_none,List.append_nil,
    List.forall₂_cons,List.forall₂_nil_left_iff,and_true,true_and]
  exact ⟨by decide,by decide,by decide,hgeneration,by decide,by decide,by decide,hdigest,by decide,
    htombstones⟩

/-- The parts of the history that its next acceptance looks at. -/
structure AtStep (j : RuntimeJournal) (n : Nat) : Prop where
  version : j.protocolVersion=3
  node : j.nodeId="n1"
  generation : j.generation=n
  fences : j.fences=∅
  extension : j.executionExtension=none
  epoch : ∀s∈j.snapshot, s.sessionEpoch=1

theorem history_atStep (n : Nat) : AtStep (history n) n := by
  induction n with
  | zero => exact ⟨rfl,rfl,rfl,rfl,rfl,nofun⟩
  | succ n ih =>
    refine ⟨ih.version,ih.node,rfl,rfl,ih.extension,?_⟩
    intro s hs
    obtain rfl : retirement n=s := Option.some.inj hs
    rfl

theorem history_accept (hn : n<131070)
    (hload : RuntimeJournal.load library.toLibrary "n1" (history n)=.ok (history n)) :
    RuntimeJournal.accept library.toLibrary (history n) (history n) (retirement n)=
      .ok (.saved (history (n+1))) := by
  have h := history_atStep n
  have hcurrent : RuntimeJournal.Current (history n) (history n) :=
    ⟨rfl,rfl,rfl,rfl,rfl,Counters.same_refl _,Counters.same_refl _⟩
  unfold RuntimeJournal.accept
  simp only [do_ok,h.node,hload,Except.ok.injEq,exists_eq_left',retirement_parses hn,not_not]
  refine ⟨hcurrent,?_,?_,?_⟩
  · rintro ⟨hextended,-⟩
    exact hextended rfl
  · simp [h.version,h.generation,retirement]
  · have hnew : ¬(retirement n).snapshotGeneration=(history n).generation := by
      rw [h.generation]
      exact Nat.succ_ne_self n
    rw [if_neg hnew]
    simp only [do_ok]
    refine ⟨?_,∅,?_,?_⟩
    · rintro ⟨-,prior,hprior,hlt⟩
      rw [h.epoch prior hprior] at hlt
      exact absurd hlt (Nat.lt_irrefl 1)
    · rw [h.fences]
      rfl
    · rfl

def retirements (n : Nat) : List JournalEvent :=
  .load journal₀::(List.range n).map fun i =>
    .accept (history i) (retirement i) (.saved (history (i+1)))

theorem retirements_succ (n : Nat) : retirements (n+1)=retirements n++
    [.accept (history n) (retirement n) (.saved (history (n+1)))] := by
  simp [retirements,List.range_succ]

theorem history_acceptFile (hn : n<131070)
    (hfile : RuntimeJournal.loadFile library.toLibrary "n1" (history n)=.ok (history n)) :
    RuntimeJournal.acceptFile library.toLibrary (history n) (history n) (retirement n)=
      .ok (.saved (history (n+1))) := by
  unfold RuntimeJournal.acceptFile
  simp only [do_ok,(history_atStep n).node,hfile,Except.ok.injEq,exists_eq_left',not_not]
  exact ⟨⟨rfl,rfl,rfl,rfl,rfl,Counters.same_refl _,Counters.same_refl _⟩,
    not_lt.mpr (retirement_size hn),history_accept hn (loadFile_ok.mp hfile).2.1⟩

theorem history_run (n : Nat) (hn : n≤131070) (hfits : ∀i≤n, i=0 ∨ i<n→(history i).Fits) :
    ∃handed, history n∈handed ∧
      Run (Store.WrittenStep library "n1") (Store.start "n1") (retirements n)
        ⟨history n,handed⟩ := by
  induction n with
  | zero =>
    refine ⟨[journal₀],List.mem_singleton_self _,Run.single ⟨⟨?_,rfl⟩,trivial⟩⟩
    exact loadFile_ok.mpr ⟨hfits 0 (le_rfl) (.inl rfl),rfl,fun h => absurd h.1 (by decide)⟩
  | succ n ih =>
    obtain ⟨handed,hmem,hrun⟩ := ih (by omega) fun i hi h => hfits i (by omega) (by omega)
    have hfile := run_loads hrun (hfits n (by omega) (by omega))
    refine ⟨history (n+1)::handed,List.mem_cons_self,?_⟩
    rw [retirements_succ]
    exact hrun.snoc ⟨⟨hmem,history_acceptFile (by omega) hfile,rfl⟩,trivial⟩

theorem history_retired (n : Nat) :
    (history (n+1)).retired=(history n).retired.raise (slotAt n) maxCounter := rfl

theorem history_read (hi : i<n) : 0<(history n).retired.read (slotAt i) := by
  induction n with
  | zero => exact absurd hi (Nat.not_lt_zero i)
  | succ n ih =>
    rw [history_retired]
    rcases Nat.lt_succ_iff_lt_or_eq.mp hi with hlt|rfl
    · exact (ih hlt).trans_le (Counters.read_le_raise _ _ _ _)
    · rw [Counters.read_raise_self]
      exact lt_of_lt_of_le (by decide) (le_max_right _ _)

theorem history_values (n : Nat) :
    (history n).retired.Every fun _ v => v=maxCounter := by
  induction n with
  | zero => exact Counters.every_empty
  | succ n ih =>
    rw [history_retired]
    exact Counters.every_raise ih rfl

theorem history_length (n : Nat) : n≤(history n).retired.pairs.length := by
  have hsub : (List.range n).map slotAt⊆(history n).retired.keys := by
    intro k hk
    obtain ⟨i,hi,rfl⟩ := List.mem_map.mp hk
    have hread := history_read (List.mem_range.mp hi)
    have hlookup := Counters.lookup_of_read_pos hread
    exact AList.lookup_isSome.mp (by rw [hlookup]; rfl)
  have hnodup : ((List.range n).map slotAt).Nodup :=
    List.nodup_range.map fun _ _ => slotAt_inj
  have hlen := (List.subperm_of_subset hnodup hsub).length_le
  simpa [Counters.pairs,AList.keys,List.keys] using hlen

end Sample

theorem le_mapSize {m : Counters Slot} (hm : m.Every fun _ v => v=maxCounter) :
    25*m.pairs.length ≤ mapSize m := by
  have hcounter : numberSize maxCounter=16 := by decide
  have hsum (l : List (Slot×Nat)) (hl : ∀e∈l, e.2=maxCounter) :
      24*l.length≤(l.map fun e => slotSize e.1+1+numberSize e.2).sum := by
    induction l with
    | nil => exact Nat.zero_le _
    | cons e l ih =>
      have hrest := ih fun x hx => hl x (List.mem_cons_of_mem _ hx)
      have hfirst : numberSize e.2=16 := by rw [hl e List.mem_cons_self,hcounter]
      rw [List.length_cons,List.map_cons,List.sum_cons]
      unfold slotSize numberSize at *
      omega
  have hentries := hsum m.pairs (Counters.every_pairs hm)
  unfold mapSize listSize
  rw [List.length_map]
  omega

theorem le_journalSize (j : RuntimeJournal) (text : Nat) :
    text+mapSize j.retired ≤ journalSize j text := by
  simp [journalSize,objectSize,listSize]
  omega

theorem le_recordSize (j : RuntimeJournal) : mapSize j.retired ≤ recordSize j := by
  have h := le_journalSize j (j.snapshot.elim 4 snapshotSize)
  simp [recordSize,objectSize,listSize]
  omega

theorem le_fileSize (j : RuntimeJournal) : 2*mapSize j.retired ≤ fileSize j := by
  have hinner := le_recordSize j
  have houter := le_journalSize j (recordSize j)
  rw [fileSize_eq]
  omega

open Sample in
theorem history_outgrows : ¬(history 131070).Fits := by
  intro h
  have hlength := history_length 131070
  have hmap := le_mapSize (history_values 131070)
  have hfile := le_fileSize (history 131070)
  have hfits := h.1
  unfold maxFileBytes at hfits
  omega

open Sample in
theorem history_starts : (history 0).Fits := by
  unfold RuntimeJournal.Fits
  decide

open Sample in
theorem history_turns : ∃n<131070, (∀i≤n, (history i).Fits) ∧ ¬(history (n+1)).Fits := by
  classical
  have hex : ∃n, n≤131070 ∧ ¬(history n).Fits := ⟨131070,le_rfl,history_outgrows⟩
  obtain ⟨hn,hlarge⟩ := Nat.find_spec hex
  have hsmall (i : Nat) (hi : i<Nat.find hex) : (history i).Fits := by
    by_contra hi'
    exact Nat.find_min hex hi ⟨by omega,hi'⟩
  obtain ⟨n,hfind⟩ : ∃n, Nat.find hex=n+1 := by
    refine Nat.exists_eq_succ_of_ne_zero ?_
    intro h0
    rw [h0] at hlarge
    exact hlarge history_starts
  rw [hfind] at hn hlarge
  exact ⟨n,by omega,fun i hi => hsmall i (by omega),hlarge⟩

open Sample in
/-- Snapshots that retire a slot each, every one of them accepted, leave a file that no later call
can load. -/
theorem journal_outgrows :
    ∃l s, Run (Store.WrittenStep library "n1") (Store.start "n1") l s ∧ ¬s.file.Fits ∧
      (∀record, RuntimeJournal.loadFile library.toLibrary "n1" s.file≠.ok record) ∧
      ∀current snapshot o, RuntimeJournal.acceptFile library.toLibrary s.file current snapshot≠.ok o := by
  obtain ⟨n,hn,hfits,hlarge⟩ := history_turns
  obtain ⟨handed,-,hrun⟩ := history_run (n+1) (by omega) fun i _ h => hfits i (by omega)
  refine ⟨_,_,hrun,hlarge,?_,?_⟩
  · exact fun record h => hlarge (loadFile_ok.mp h).1
  · exact fun current snapshot o h => hlarge (acceptFile_ok h).1

open Sample in
/-- One slot retired by the first snapshot. -/
theorem journal_fits_retirement :
    ∃l s, Run (Store.WrittenStep library "n1") (Store.start "n1") l s ∧
      s.file.retired.read ⟨.tcp,1⟩=maxCounter ∧ s.file.Fits ∧
      RuntimeJournal.loadFile library.toLibrary "n1" s.file=.ok s.file := by
  obtain ⟨handed,-,hrun⟩ := history_run 1 (by omega) fun i hi h => by
    obtain rfl : i=0 := by omega
    exact history_starts
  have hslots : (retirements 1).flatMap JournalEvent.slots=[⟨.tcp,1⟩] := rfl
  have hnode : idOk "n1" := by decide
  have hl : ((retirements 1).flatMap JournalEvent.slots).dedup.length ≤ maxSlots := by
    rw [hslots]
    simp [maxSlots]
  exact ⟨_,_,hrun,rfl,journal_fits hnode hrun hl⟩

end TuneX.Agent
