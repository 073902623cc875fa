import TuneX.Control.Withdrawal

namespace TuneX.Control

open Framework

abbrev DatabaseId := Nat
abbrev TrustDigest := Nat
abbrev RecoveryId := Nat

/-- The signed record beside the databases. -/
structure AuthorityRecord where
  sequence : Nat
  database : DatabaseId
  trustDigest : TrustDigest
  maintenance : Bool
  latestValidUntil : Option Nat
  maxLeaseSeconds : Nat
  maxClockSkewSeconds : Nat
  maintenanceSince : Option Nat
  recoveryId : Option RecoveryId
  deriving DecidableEq, Repr

inductive Refusal
  | sequenceExhausted
  | invalidBound
  | maintenance
  | maintenanceRequired
  | notExpired
  | sameTrust
  | reviewRequired
  deriving DecidableEq, Repr

namespace AuthorityRecord

/-- What `initialize` writes for a fresh deployment. -/
def fresh (database : DatabaseId) (ca : TrustDigest) : AuthorityRecord :=
  ⟨1,database,ca,false,none,0,0,none,none⟩

/-- A change of the record under its lock file. -/
def mutate (r : AuthorityRecord) (change : AuthorityRecord→Except Refusal AuthorityRecord) :
    Except Refusal AuthorityRecord := do
  reject (r.sequence≥maxCounter) .sequenceExhausted
  let next ← change r
  pure { next with sequence := r.sequence+1 }

/-- The checks of `issue` before the lock; they read the clock twice. -/
def issueBound (first second validUntil leaseSeconds skewSeconds : Nat) : Except Refusal Unit :=
  reject (maxCounter<validUntil ∨ validUntil≤first ∨ leaseSeconds<1 ∨ 300<leaseSeconds ∨
    skewSeconds<1 ∨ 5<skewSeconds ∨ second+leaseSeconds*1000<validUntil) .invalidBound

def issue (r : AuthorityRecord) (validUntil leaseSeconds skewSeconds : Nat) :
    Except Refusal AuthorityRecord :=
  r.mutate fun record => do
    reject record.maintenance .maintenance
    pure { record with
      latestValidUntil := some (max (record.latestValidUntil.getD 0) validUntil)
      maxLeaseSeconds := max record.maxLeaseSeconds leaseSeconds
      maxClockSkewSeconds := max record.maxClockSkewSeconds skewSeconds }

def maintain (r : AuthorityRecord) (now : Nat) : Except Refusal AuthorityRecord :=
  r.mutate fun record => pure { record with
    maintenance := true
    maintenanceSince := some (record.maintenanceSince.getD now) }

def rebind (r : AuthorityRecord) (now : Nat) (database : DatabaseId) (ca : TrustDigest)
    (recoveryId : RecoveryId) : Except Refusal AuthorityRecord :=
  r.mutate fun record => do
    reject (¬record.maintenance) .maintenanceRequired
    reject (record.latestValidUntil.any fun u => now<u+record.maxClockSkewSeconds*1000) .notExpired
    reject (record.trustDigest=ca) .sameTrust
    pure { record with
      database := database
      trustDigest := ca
      recoveryId := some recoveryId }

def resume (r : AuthorityRecord) (reviewed : Option RecoveryId) : Except Refusal AuthorityRecord :=
  r.mutate fun record => do
    reject (record.recoveryId.isSome ∧ reviewed≠record.recoveryId) .reviewRequired
    pure { record with maintenance := false, maintenanceSince := none }

/-- A later record covers every validity and bound of an earlier one. -/
structure Covers (r r' : AuthorityRecord) : Prop where
  latest : ∀u, r.latestValidUntil=some u→∃u', r'.latestValidUntil=some u' ∧ u≤u'
  lease : r.maxLeaseSeconds ≤ r'.maxLeaseSeconds
  skew : r.maxClockSkewSeconds ≤ r'.maxClockSkewSeconds

variable {r r' : AuthorityRecord} {now : Nat}

theorem Covers.of_eq (h1 : r'.latestValidUntil=r.latestValidUntil)
    (h2 : r'.maxLeaseSeconds=r.maxLeaseSeconds)
    (h3 : r'.maxClockSkewSeconds=r.maxClockSkewSeconds) : Covers r r' :=
  ⟨fun u hu => ⟨u,h1.trans hu,le_rfl⟩,h2.ge,h3.ge⟩

theorem Covers.refl (r : AuthorityRecord) : Covers r r := .of_eq rfl rfl rfl

theorem issue_ok {v lease skew : Nat} (h : r.issue v lease skew=.ok r') :
    r.maintenance=false ∧ r'.maintenance=false ∧ Covers r r' ∧
      ∃u, r'.latestValidUntil=some u ∧ v≤u := by
  simp only [issue,mutate,do_ok] at h
  obtain ⟨-,next,⟨hm,rfl⟩,rfl⟩ := h
  have hoff : r.maintenance=false := by simpa using hm
  refine ⟨hoff,hoff,⟨?_,le_max_left _ _,le_max_left _ _⟩,_,rfl,le_max_right _ _⟩
  intro u hu
  refine ⟨_,rfl,?_⟩
  rw [hu]
  exact le_max_left _ _

theorem maintain_ok (h : r.maintain now=.ok r') : r'.maintenance=true ∧ Covers r r' := by
  simp only [maintain,mutate,do_ok] at h
  obtain ⟨-,next,rfl,rfl⟩ := h
  exact ⟨rfl,.of_eq rfl rfl rfl⟩

theorem rebind_ok {database : DatabaseId} {ca : TrustDigest} {id : RecoveryId}
    (h : r.rebind now database ca id=.ok r') : r.maintenance=true ∧ Covers r r' ∧
      ∀u, r.latestValidUntil=some u→u+r.maxClockSkewSeconds*1000≤now := by
  simp only [rebind,mutate,do_ok] at h
  obtain ⟨-,next,⟨hm,hexpired,-,rfl⟩,rfl⟩ := h
  refine ⟨by simpa using hm,.of_eq rfl rfl rfl,?_⟩
  intro u hu
  rw [hu] at hexpired
  simpa using hexpired

theorem resume_ok {reviewed : Option RecoveryId} (h : r.resume reviewed=.ok r') :
    r'.maintenance=false ∧ Covers r r' := by
  simp only [resume,mutate,do_ok] at h
  obtain ⟨-,next,⟨-,rfl⟩,rfl⟩ := h
  exact ⟨rfl,.of_eq rfl rfl rfl⟩

end AuthorityRecord

inductive PublicationStage
  | compiled
  | checked
  | recorded
  | allowed
  deriving DecidableEq, Repr

/-- An open transaction that has compiled a new snapshot. -/
structure Publication where
  database : DatabaseId
  snapshot : Snapshot
  leaseSeconds : Nat
  skewSeconds : Nat
  stage : PublicationStage

/-- The record, the databases under it and the publications in flight. The snapshots that were
ever committed are collected for the statements only. -/
structure Site where
  clock : Nat
  authority : AuthorityRecord
  databases : Table DatabaseId State
  publications : Table Nat Publication
  committed : List Snapshot

inductive SiteEvent
  | wait (now : Nat)
  | compile (id : Nat) (p : Publication)
  | check (id first : Nat)
  | record (id : Nat)
  | allow (id : Nat)
  | commit (id : Nat)
  | rollback (id : Nat)
  | transaction (d : DatabaseId) (e : Nat×Event)
  | restore (d : DatabaseId) (s : State)
  | maintain
  | rebind (database : DatabaseId) (ca : TrustDigest) (recoveryId : RecoveryId)
  | resume (reviewed : Option RecoveryId)

namespace Site

def start (database : DatabaseId) (ca : TrustDigest) : Site :=
  ⟨0,.fresh database ca,∅,∅,[]⟩

def setStage (σ : Site) (id : Nat) (p : Publication) (stage : PublicationStage) : Site :=
  { σ with publications := σ.publications.insert id { p with stage := stage } }

def drop (σ : Site) (id : Nat) : Site := { σ with publications := σ.publications.erase id }

/-- One step of a party. A crash or a lost lock is a rollback of what was open: the record is
replaced by one rename, so a change of it has either happened or not. -/
inductive Step (σ : Site) : SiteEvent→Site→Prop
  | wait {now : Nat} (h : σ.clock≤now) : Step σ (.wait now) { σ with clock := now }
  | compile {id : Nat} {p : Publication} (hid : σ.publications.lookup id=none)
      (hp : p.stage=.compiled) :
      Step σ (.compile id p) { σ with publications := σ.publications.insert id p }
  | check {id first : Nat} {p : Publication} (hid : σ.publications.lookup id=some p)
      (hp : p.stage=.compiled) (hf : first≤σ.clock)
      (h : AuthorityRecord.issueBound first σ.clock p.snapshot.validUntil p.leaseSeconds
        p.skewSeconds=.ok ()) : Step σ (.check id first) (σ.setStage id p .checked)
  | record {id : Nat} {p : Publication} {r : AuthorityRecord}
      (hid : σ.publications.lookup id=some p) (hp : p.stage=.checked)
      (h : σ.authority.issue p.snapshot.validUntil p.leaseSeconds p.skewSeconds=.ok r) :
      Step σ (.record id) { σ.setStage id p .recorded with authority := r }
  | allow {id : Nat} {p : Publication} (hid : σ.publications.lookup id=some p)
      (hp : p.stage=.recorded) (h : σ.authority.maintenance=false) :
      Step σ (.allow id) (σ.setStage id p .allowed)
  | commit {id now : Nat} {p : Publication} {s t : State} {n : NodeId} {row : RuntimeNode}
      {next : List Assignment} (hid : σ.publications.lookup id=some p) (hp : p.stage=.allowed)
      (hs : σ.databases.lookup p.database=some s) (hrow : s.nodes.lookup n=some row)
      (i : State.Issued s now n row next t) (hi : i.snapshot=p.snapshot) :
      Step σ (.commit id) { σ.drop id with
        databases := σ.databases.insert p.database t
        committed := p.snapshot::σ.committed }
  | rollback (id : Nat) : Step σ (.rollback id) (σ.drop id)
  | transaction {d : DatabaseId} {e : Nat×Event} {s t : State} (hs : σ.databases.lookup d=some s)
      (h : Control.Step s e t) (ht : t.snapshots=s.snapshots) :
      Step σ (.transaction d e) { σ with databases := σ.databases.insert d t }
  | restore {d : DatabaseId} {s : State}
      (h : ∀k p, s.snapshots.lookup k=some p→p∈σ.committed) :
      Step σ (.restore d s) { σ with databases := σ.databases.insert d s }
  | maintain {r : AuthorityRecord} (h : σ.authority.maintain σ.clock=.ok r) :
      Step σ .maintain { σ with authority := r }
  | rebind {database : DatabaseId} {ca : TrustDigest} {recoveryId : RecoveryId}
      {r : AuthorityRecord} (h : σ.authority.rebind σ.clock database ca recoveryId=.ok r) :
      Step σ (.rebind database ca recoveryId) { σ with authority := r }
  | resume {reviewed : Option RecoveryId} {r : AuthorityRecord}
      (h : σ.authority.resume reviewed=.ok r) : Step σ (.resume reviewed) { σ with authority := r }

variable {σ τ : Site} {e : SiteEvent} {l : List SiteEvent} {database : DatabaseId} {ca : TrustDigest}

theorem Step.covers (h : Step σ e τ) : σ.authority.Covers τ.authority := by
  cases h with
  | record _ _ h => exact (AuthorityRecord.issue_ok h).2.2.1
  | maintain h => exact (AuthorityRecord.maintain_ok h).2
  | rebind h => exact (AuthorityRecord.rebind_ok h).2.1
  | resume h => exact (AuthorityRecord.resume_ok h).2
  | wait | compile | check | allow | commit | rollback | transaction | restore => exact .refl _

/-- The record names a validity that is at least the given one. -/
def Recorded (σ : Site) (v : Nat) : Prop := ∃u, σ.authority.latestValidUntil=some u ∧ v≤u

theorem Step.recorded {v : Nat} (h : Step σ e τ) (hv : σ.Recorded v) : τ.Recorded v := by
  obtain ⟨u,hu,hle⟩ := hv
  obtain ⟨u',hu',hle'⟩ := h.covers.latest u hu
  exact ⟨u',hu',hle.trans hle'⟩

/-- A publication that is past its recording. -/
def Publication.Passed (p : Publication) : Prop := p.stage=.recorded ∨ p.stage=.allowed

/-- Everything committed or about to be committed is covered by the record. -/
structure Covered (σ : Site) : Prop where
  committed : ∀p∈σ.committed, σ.Recorded p.validUntil
  passed : ∀id p, σ.publications.lookup id=some p→Publication.Passed p→
    σ.Recorded p.snapshot.validUntil
  stored : ∀d s, σ.databases.lookup d=some s→∀k p, s.snapshots.lookup k=some p→p∈σ.committed

theorem Covered.keep (hc : σ.Covered) (h : Step σ e τ) (hd : τ.databases=σ.databases)
    (hm : τ.committed=σ.committed)
    (hp : ∀id p, τ.publications.lookup id=some p→Publication.Passed p→
      τ.Recorded p.snapshot.validUntil ∨ ∃q, σ.publications.lookup id=some q ∧
        Publication.Passed q ∧ q.snapshot=p.snapshot) : τ.Covered := by
  refine ⟨?_,?_,?_⟩
  · intro p hmem
    rw [hm] at hmem
    exact h.recorded (hc.committed p hmem)
  · intro id p hid hpass
    obtain hr | ⟨q,hq,hqpass,he⟩ := hp id p hid hpass
    · exact hr
    · rw [← he]
      exact h.recorded (hc.passed id q hq hqpass)
  · rw [hd,hm]
    exact hc.stored

theorem not_passed_compiled {p : Publication} (h : p.stage=.compiled) : ¬Publication.Passed p := by
  simp [Publication.Passed,h]

theorem Covered.replace {d : DatabaseId} {s : State} (hc : σ.Covered) (h : Step σ e τ)
    (hd : τ.databases=σ.databases.insert d s) (hm : σ.committed⊆τ.committed)
    (hnew : ∀p∈τ.committed, p∈σ.committed ∨ τ.Recorded p.validUntil)
    (hs : ∀k p, s.snapshots.lookup k=some p→p∈τ.committed)
    (hp : ∀id p, τ.publications.lookup id=some p→σ.publications.lookup id=some p) : τ.Covered := by
  refine ⟨?_,?_,?_⟩
  · intro p hmem
    obtain hold | hr := hnew p hmem
    · exact h.recorded (hc.committed p hold)
    · exact hr
  · intro id p hid hpass
    exact h.recorded (hc.passed id p (hp id p hid) hpass)
  · intro c u hu k p hk
    rw [hd,Table.lookup_insert_eq] at hu
    split_ifs at hu with he
    · cases hu
      exact hs k p hk
    · exact hm (hc.stored c u hu k p hk)

theorem Step.covered (h : Step σ e τ) (hc : σ.Covered) : τ.Covered := by
  have hsame : ∀id p, σ.publications.lookup id=some p→Publication.Passed p→
      τ.Recorded p.snapshot.validUntil ∨ ∃q, σ.publications.lookup id=some q ∧
        Publication.Passed q ∧ q.snapshot=p.snapshot := fun id p hid hp => .inr ⟨p,hid,hp,rfl⟩
  have hstep := h
  cases h with
  | wait | maintain | rebind | resume => exact hc.keep hstep rfl rfl hsame
  | @compile id p hid hp =>
    refine hc.keep hstep rfl rfl (Table.forall_insert ?_ hsame)
    exact fun hpass => absurd hpass (not_passed_compiled hp)
  | @check id first p hid hp =>
    refine hc.keep hstep rfl rfl (Table.forall_insert ?_ hsame)
    exact fun hpass => by simp [Publication.Passed] at hpass
  | @record id p r hid hp hr =>
    refine hc.keep hstep rfl rfl (Table.forall_insert ?_ hsame)
    exact fun _ => .inl (AuthorityRecord.issue_ok hr).2.2.2
  | @allow id p hid hp =>
    refine hc.keep hstep rfl rfl (Table.forall_insert ?_ hsame)
    exact fun _ => .inr ⟨p,hid,.inl hp,rfl⟩
  | @commit id now p s t n row next hid hp hs hrow i hi =>
    have hrec := hstep.recorded (hc.passed id p hid (.inr hp))
    refine hc.replace hstep rfl (List.subset_cons_self _ _) ?_ ?_ ?_
    · intro q hq
      obtain rfl | hold := List.mem_cons.mp hq
      · exact .inr hrec
      · exact .inl hold
    · intro k q hk
      rw [i.snapshots,Table.lookup_insert_eq] at hk
      split_ifs at hk with he
      · cases hk
        rw [hi]
        exact List.mem_cons_self
      · exact List.mem_cons_of_mem _ (hc.stored _ s hs k q hk)
    · intro j q hq
      exact (Table.lookup_erase_some.mp hq).2
  | rollback id =>
    refine hc.keep hstep rfl rfl fun j q hq hpass => ?_
    exact hsame j q (Table.lookup_erase_some.mp hq).2 hpass
  | @transaction d ev s t hs _ ht =>
    refine hc.replace hstep rfl (List.Subset.refl _) (fun q hq => .inl hq) ?_ (fun _ _ hq => hq)
    intro k q hk
    rw [ht] at hk
    exact hc.stored d s hs k q hk
  | restore hk =>
    exact hc.replace hstep rfl (List.Subset.refl _) (fun q hq => .inl hq) hk (fun _ _ hq => hq)

theorem run_covered (h : Run Step (start database ca) l σ) : σ.Covered := by
  refine h.invariant Covered (fun a e b hab ha => hab.covered ha) ⟨?_,?_,?_⟩
  · simp [start]
  · simp [start]
  · simp [start]

/-- A publication past its recording was recorded at some earlier step of the run. -/
def RecordedBefore (database : DatabaseId) (ca : TrustDigest) (l : List SiteEvent) (id : Nat)
    (p : Publication) : Prop :=
  ∃l₁ l₂ ρ ρ' q, l=l₁++.record id::l₂ ∧ Run Step (start database ca) l₁ ρ ∧
    Step ρ (.record id) ρ' ∧ ρ.publications.lookup id=some q ∧ q.snapshot=p.snapshot ∧
    ρ.authority.maintenance=false ∧ ρ'.Recorded p.snapshot.validUntil

theorem RecordedBefore.snoc {id : Nat} {p : Publication} (e : SiteEvent)
    (h : RecordedBefore database ca l id p) : RecordedBefore database ca (l++[e]) id p := by
  obtain ⟨l₁,l₂,ρ,ρ',q,rfl,hrest⟩ := h
  exact ⟨l₁,l₂++[e],ρ,ρ',q,by simp,hrest⟩

theorem RecordedBefore.congr {id : Nat} {p q : Publication} (he : q.snapshot=p.snapshot)
    (h : RecordedBefore database ca l id p) : RecordedBefore database ca l id q := by
  obtain ⟨l₁,l₂,ρ,ρ',r,hl,hr,hs,hid,hsnap,hrest⟩ := h
  rw [← he] at hsnap hrest
  exact ⟨l₁,l₂,ρ,ρ',r,hl,hr,hs,hid,hsnap,hrest⟩

theorem run_recorded (h : Run Step (start database ca) l σ) :
    ∀id p, σ.publications.lookup id=some p→Publication.Passed p→
      RecordedBefore database ca l id p := by
  refine h.history (fun l σ => ∀id p, σ.publications.lookup id=some p→Publication.Passed p→
    RecordedBefore database ca l id p) ?_ ?_
  · intro l σ e τ hrun hstep ih
    have hkeep : ∀id p, σ.publications.lookup id=some p→Publication.Passed p→
        RecordedBefore database ca (l++[e]) id p := fun id p hid hp => (ih id p hid hp).snoc e
    have hs := hstep
    cases hstep with
    | @compile id p hid hp =>
      exact Table.forall_insert (fun hpass => absurd hpass (not_passed_compiled hp)) hkeep
    | @check id first p hid hp =>
      exact Table.forall_insert (fun hpass => by simp [Publication.Passed] at hpass) hkeep
    | @record id p r hid hp hr =>
      obtain ⟨hoff,-,-,hrec⟩ := AuthorityRecord.issue_ok hr
      exact Table.forall_insert (fun _ => ⟨l,[],σ,_,p,by simp,hrun,hs,hid,rfl,hoff,hrec⟩) hkeep
    | @allow id p hid hp =>
      exact Table.forall_insert (fun _ => (hkeep id p hid (.inl hp)).congr rfl) hkeep
    | commit | rollback => exact fun j q hq => hkeep j q (Table.lookup_erase_some.mp hq).2
    | wait | transaction | restore | maintain | rebind | resume => exact hkeep
  · simp [start]

/-- Whatever the parties do, a successful rebind comes after the end of every validity that was
ever committed, the record never forgets, a commit follows its recording and nothing is recorded
in maintenance. -/
theorem recovery_after_authority (h : Run Step (start database ca) l σ) (hs : Step σ e τ) :
    (∀d c id, e=.rebind d c id→∀p∈σ.committed,
      p.validUntil+σ.authority.maxClockSkewSeconds*1000≤τ.clock) ∧
    (∀d s k p, τ.databases.lookup d=some s→s.snapshots.lookup k=some p→p∈τ.committed) ∧
    σ.committed⊆τ.committed ∧
    σ.authority.Covers τ.authority ∧
    (∀id, e=.commit id→∃p, σ.publications.lookup id=some p ∧
      τ.committed=p.snapshot::σ.committed ∧ RecordedBefore database ca l id p) ∧
    (∀id, e=.record id→σ.authority.maintenance=false) := by
  have hc := run_covered h
  refine ⟨?_,?_,?_,hs.covers,?_,?_⟩
  · rintro d c id rfl p hp
    cases hs with
    | rebind hr =>
      obtain ⟨u,hu,hle⟩ := hc.committed p hp
      have hpast := (AuthorityRecord.rebind_ok hr).2.2 u hu
      exact (Nat.add_le_add_right hle _).trans hpast
  · intro d s k p hd hk
    exact (hs.covered hc).stored d s hd k p hk
  · cases hs with
    | commit => exact List.subset_cons_self _ _
    | _ => exact List.Subset.refl _
  · rintro id rfl
    cases hs with
    | commit hid hp => exact ⟨_,hid,rfl,run_recorded h id _ hid (.inr hp)⟩
  · rintro id rfl
    cases hs with
    | record _ _ hr => exact (AuthorityRecord.issue_ok hr).1

def greetedNode : RuntimeNode := ⟨1,some 1,0,0,none,none,fullCapabilities⟩

/-- A database with two Nodes in their first sessions. -/
def greeted : State := { State.initial openWorld with
  nodes := ((∅ : Table NodeId RuntimeNode).insert 0 greetedNode).insert 1 greetedNode }

def emptySnapshot (n : NodeId) (now validUntil : Nat) : Snapshot := ⟨n,1,1,now,validUntil,[],[]⟩

def emptyIssued (s : State) (n : NodeId) (now validUntil : Nat)
    (hr : s.retireChanged n (s.snapshots.lookup (n,0)) [] 1=.ok s)
    (hp : compileSnapshot n 1 1 now validUntil [] (s.tombstones n 1)=
      .ok (emptySnapshot n now validUntil)) : State.Issued s now n greetedNode []
    ((s.store greetedNode (emptySnapshot n now validUntil)).recordLeases
      (emptySnapshot n now validUntil)) :=
  ⟨s,validUntil,_,by decide,hr,hp,rfl,rfl⟩

def emptyPublication (d : DatabaseId) (p : Snapshot) : Publication := ⟨d,p,300,5,.compiled⟩

/-- Of two recorded snapshots one is committed in maintenance, and a rebind follows at their end.
Under the new trust a third one is committed before the next maintenance. -/
theorem recovery_after_authority_rotated : ∃l σ τ, Run Step (start 0 0) l σ ∧
    Step σ (.rebind 2 2 8) τ ∧ σ.authority.trustDigest=1 ∧
    σ.committed=[emptySnapshot 0 305000 600000,emptySnapshot 1 0 200000,emptySnapshot 0 0 300000] ∧
    ∀p∈σ.committed, p.validUntil+σ.authority.maxClockSkewSeconds*1000≤τ.clock := by
  have hnone : ∀(σ : Site) k p, greeted.snapshots.lookup k=some p→p∈σ.committed := by
    simp [greeted,State.initial]
  have go {l σ τ} (h : Run Step (start 0 0) l σ) (e : SiteEvent) (hs : Step σ e τ) :
      Run Step (start 0 0) (l++[e]) τ := h.snoc hs
  have h := go .refl (.restore 0 greeted) (.restore (hnone _))
  have h := go h (.compile 0 (emptyPublication 0 (emptySnapshot 0 0 300000)))
    (.compile rfl rfl)
  have h := go h (.compile 1 (emptyPublication 0 (emptySnapshot 1 0 200000)))
    (.compile rfl rfl)
  have h := go h (.check 0 0) (.check rfl rfl le_rfl rfl)
  have h := go h (.record 0) (.record rfl rfl rfl)
  have h := go h (.check 1 0) (.check rfl rfl le_rfl rfl)
  have h := go h (.record 1) (.record rfl rfl rfl)
  have h := go h (.allow 1) (.allow rfl rfl rfl)
  have h := go h (.allow 0) (.allow rfl rfl rfl)
  have h := go h (.commit 0) (.commit rfl rfl rfl rfl (emptyIssued _ 0 0 300000 rfl rfl) rfl)
  have h := go h .maintain (.maintain rfl)
  have h := go h (.commit 1) (.commit rfl rfl rfl rfl (emptyIssued _ 1 0 200000 rfl rfl) rfl)
  have h := go h (.wait 305000) (.wait (Nat.zero_le _))
  have h := go h (.rebind 1 1 7) (.rebind rfl)
  have h := go h (.resume (some 7)) (.resume rfl)
  have h := go h (.restore 1 greeted) (.restore (hnone _))
  have h := go h (.compile 2 (emptyPublication 1 (emptySnapshot 0 305000 600000)))
    (.compile rfl rfl)
  have h := go h (.check 2 305000) (.check rfl rfl le_rfl rfl)
  have h := go h (.record 2) (.record rfl rfl rfl)
  have h := go h (.allow 2) (.allow rfl rfl rfl)
  have h := go h (.commit 2) (.commit rfl rfl rfl rfl (emptyIssued _ 0 305000 600000 rfl rfl) rfl)
  have h := go h .maintain (.maintain rfl)
  have h := go h (.wait 605000) (.wait (by decide))
  refine ⟨_,_,_,h,.rebind rfl,rfl,rfl,?_⟩
  exact (recovery_after_authority h (.rebind rfl)).1 2 2 8 rfl

end Site

end TuneX.Control
