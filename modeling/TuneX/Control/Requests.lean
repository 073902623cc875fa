import TuneX.Control.Events
import TuneX.Framework.Keyed

namespace TuneX.Control

open Framework

structure PathSelection where
  templateId : Nat
  revision : Nat
  configDigest : Nat
  deriving DecidableEq, Repr

structure PathBindingReceipt where
  selection : PathSelection
  sequence : Nat
  forwardRevision : Nat
  changed : Bool
  deriving DecidableEq, Repr

structure ForwardAccepted where
  status : Nat
  forwardId : ForwardId
  revision : Nat
  operationId : Option Nat
  sourceOperationId : Option Nat
  pathBinding : Option PathBindingReceipt
  deriving DecidableEq, Repr

/-- The commands under a key. The last kind stands for those of the other modules. -/
inductive Command (ω : Type)
  | create (spec : Spec)
  | update (id : ForwardId) (expected : Nat) (spec : Spec)
  | applyPath (id : ForwardId) (expected : Nat) (selection : PathSelection)
  | remove (id : ForwardId) (expected : Nat)
  | retry (operation expected : Nat)
  | other (c : ω)
  deriving DecidableEq

inductive Method
  | post
  | put
  | delete
  deriving DecidableEq

inductive Path (ω : Type)
  | forwards (scope : ScopeId)
  | forward (scope : ScopeId) (id : ForwardId)
  | pathBinding (scope : ScopeId) (id : ForwardId)
  | retry (scope : ScopeId) (operation : Nat)
  | other (c : ω)
  deriving DecidableEq

inductive Body (ω : Type)
  | spec (spec : Spec)
  | replace (expected : Nat) (spec : Spec)
  | template (expected : Nat) (selection : PathSelection)
  | expected (expected : Nat)
  | other (c : ω)
  deriving DecidableEq

/-- The value whose digest names a request. -/
structure Content (ω : Type) where
  method : Method
  path : Path ω
  input : Body ω
  deriving DecidableEq

variable {β ω ρ δ : Type}

def Command.content (scope : ScopeId) : Command ω → Content ω
  | .create spec => ⟨.post,.forwards scope,.spec spec⟩
  | .update id expected spec => ⟨.put,.forward scope id,.replace expected spec⟩
  | .applyPath id expected selection => ⟨.put,.pathBinding scope id,.template expected selection⟩
  | .remove id expected => ⟨.delete,.forward scope id,.expected expected⟩
  | .retry operation expected => ⟨.post,.retry scope operation,.expected expected⟩
  | .other c => ⟨.put,.other c,.other c⟩

def isCounter (n : Nat) : Bool := 1≤n && n ≤ maxCounter

/-- The checks of a request before its transaction. -/
def Command.wellFormed : Command ω→Bool
  | .create spec => spec.valid
  | .update _ expected spec => isCounter expected && spec.valid
  | .applyPath _ expected selection => isCounter expected && isCounter selection.revision
  | .remove _ expected => isCounter expected
  | .retry _ expected => isCounter expected
  | .other _ => true

/-- A request, with the identity that a new Forward would get and the time of its transaction. -/
structure Attempt (ω : Type) where
  actor : ActorId
  scope : ScopeId
  key : Nat
  command : Command ω
  newId : ForwardId
  now : Nat

/-- The tables that Forward commands read and write, and those of the path bindings. -/
structure Store (β : Type) where
  state : State
  member : ActorId→ScopeId→Bool
  revisions : Table (ForwardId×Nat) Spec
  bindings : β

def Event.background : Event→Bool
  | .create .. => false
  | .update .. => false
  | .remove .. => false
  | .retry .. => false
  | _ => true

/-- The other transactions: parts that are no Forward command, members of scopes and templates. -/
inductive Background : Store β→Store β→Prop
  | refl (st : Store β) : Background st st
  | event {st u : Store β} {now : Nat} {e : Event} {t : State} (he : e.background)
      (h : Step st.state (now,e) t) (hu : Background { st with state := t } u) : Background st u
  | members {st u : Store β} (m : ActorId→ScopeId→Bool) (hu : Background { st with member := m } u) :
      Background st u
  | bindings {st u : Store β} (b : β) (hu : Background { st with bindings := b } u) : Background st u

/-- What Forward commands use of the other modules. -/
structure Ports (β ω ρ δ : Type) where
  digest : Content ω→δ
  resolve : β→State→ActorId→Forward→PathSelection→Except Error Spec
  preserve : β→Forward→Forward→Except Error β
  accept : β→Nat→ActorId→Forward→PathSelection→Except Error (β×PathBindingReceipt)
  enter : Attempt ω→ω→Store β→Except Error Unit
  exec : Attempt ω→ω→Store β→Except Error (Store β×ρ)
  exec_background : ∀a c st t r, exec a c st=.ok (t,r)→Background st t

namespace Store

def scope (st : Store β) (actor : ActorId) (scopeId : ScopeId) (manage : Bool) : Except Error Unit := do
  reject (¬st.member actor scopeId) .notFound
  reject (manage ∧ ¬st.state.world.executing actor scopeId) .authorizationDenied

def record (st : Store β) (scopeId : ScopeId) (id : ForwardId) : Except Error ForwardRow :=
  match st.state.forwards.lookup id with
  | none => .error .notFound
  | some row => do
    reject (row.scopeId≠scopeId) .notFound
    pure row

def currentForUpdate (st : Store β) (scopeId : ScopeId) (id : ForwardId) : Except Error ForwardRow := do
  let row ← st.record scopeId id
  reject row.deleting .notFound
  pure row

/-- One part of the transaction, at the time of the request. -/
def act (st : Store β) (now : Nat) (e : Event) : Except Error (Store β) := do
  let t ← apply { st.state with clock := now } now e
  pure { st with state := t }

/-- A revision is a new row: the table has one row for each key. -/
def insertRevision (st : Store β) (id : ForwardId) (revision : Nat) (spec : Spec) :
    Except Error (Store β) := do
  reject (st.revisions.lookup (id,revision)).isSome .resourceConflict
  pure { st with revisions := st.revisions.insert (id,revision) spec }

def create (st : Store β) (now : Nat) (actor : ActorId) (scopeId : ScopeId) (id : ForwardId)
    (spec : Spec) : Except Error (Store β×ForwardAccepted) := do
  let t ← st.act now (.create actor scopeId id spec)
  let u ← t.insertRevision id 1 spec
  pure (u,⟨202,id,1,some st.state.operations.length,none,none⟩)

/-- The revision of a changed intent. A command that selects no path keeps or drops the binding. -/
def recordUpdate (p : Ports β ω ρ δ) (st : Store β) (current next : Forward)
    (selection : Option PathSelection) : Except Error (Store β) :=
  if next.revision=current.revision then pure st else do
    let t ← st.insertRevision next.id next.revision next.spec
    match selection with
    | some _ => pure t
    | none => do
      let b ← p.preserve t.bindings current next
      pure { t with bindings := b }

def bindPath (p : Ports β ω ρ δ) (st : Store β) (now : Nat) (actor : ActorId) (next : Forward) :
    Option PathSelection→Except Error (Store β×Option PathBindingReceipt)
  | none => pure (st,none)
  | some selection => do
    let b ← p.accept st.bindings now actor next selection
    pure ({ st with bindings := b.1 },some b.2)

def acceptUpdate (p : Ports β ω ρ δ) (st : Store β) (now : Nat) (actor : ActorId)
    (current next : Forward) (selection : Option PathSelection) :
    Except Error (Store β×ForwardAccepted) := do
  let t ← st.act now (.update actor current.id current.revision next.spec)
  let u ← t.recordUpdate p current next selection
  let v ← u.bindPath p now actor next selection
  let operation := if next.revision=current.revision then none else some st.state.operations.length
  pure (v.1,⟨if operation.isSome then 202 else 200,next.id,next.revision,operation,none,v.2⟩)

def update (p : Ports β ω ρ δ) (st : Store β) (now : Nat) (actor : ActorId) (scopeId : ScopeId)
    (id : ForwardId) (expected : Nat) (spec : Spec) : Except Error (Store β×ForwardAccepted) := do
  let row ← st.currentForUpdate scopeId id
  let next ← decideForwardChange (row.forward id) expected spec
  st.acceptUpdate p now actor (row.forward id) next none

def applyPath (p : Ports β ω ρ δ) (st : Store β) (now : Nat) (actor : ActorId) (scopeId : ScopeId)
    (id : ForwardId) (expected : Nat) (selection : PathSelection) :
    Except Error (Store β×ForwardAccepted) := do
  let row ← st.currentForUpdate scopeId id
  reject (row.revision≠expected ∨ row.recoverySuspended) .revisionConflict
  let spec ← p.resolve st.bindings st.state actor (row.forward id) selection
  let next ← decideForwardChange (row.forward id) expected spec
  st.acceptUpdate p now actor (row.forward id) next (some selection)

def remove (st : Store β) (now : Nat) (actor : ActorId) (scopeId : ScopeId) (id : ForwardId)
    (expected : Nat) : Except Error (Store β×ForwardAccepted) := do
  let row ← st.currentForUpdate scopeId id
  let t ← st.act now (.remove actor id expected)
  let u ← t.insertRevision id (row.revision+1) row.spec
  pure (u,⟨202,id,row.revision+1,some st.state.operations.length,none,none⟩)

def retry (st : Store β) (now : Nat) (actor : ActorId) (scopeId : ScopeId) (operation expected : Nat) :
    Except Error (Store β×ForwardAccepted) :=
  match st.state.operations.find? fun o => o.id=operation with
  | none => .error .notFound
  | some op => do
    let row ← st.currentForUpdate scopeId op.forwardId
    let t ← st.act now (.retry actor operation expected)
    pure (t,⟨202,op.forwardId,row.revision,some st.state.operations.length,some op.id,none⟩)

end Store

abbrev Response (ρ : Type) := ForwardAccepted⊕ρ

/-- The checks of a request before its key is read. -/
def Ports.admits (p : Ports β ω ρ δ) (a : Attempt ω) (st : Store β) : Except Error Unit := do
  reject (¬a.command.wellFormed) .invalidConfig
  match a.command with
  | .applyPath .. => st.scope a.actor a.scope true
  | .other c => p.enter a c st
  | _ => st.scope a.actor a.scope false

/-- A recorded creation is returned only while its Forward can be read. -/
def resumes (a : Attempt ω) (r : Response ρ) (st : Store β) : Except Error Unit :=
  match a.command,r with
  | .create _,.inl accepted => do
    let _ ← st.record a.scope accepted.forwardId
    pure ()
  | _,_ => pure ()

/-- A Forward command after its key was claimed. -/
def Ports.execute (p : Ports β ω ρ δ) (a : Attempt ω) (st : Store β) :
    Except Error (Store β×Response ρ) :=
  match a.command with
  | .create spec => do
    st.scope a.actor a.scope true
    let r ← st.create a.now a.actor a.scope a.newId spec
    pure (r.1,.inl r.2)
  | .update id expected spec => do
    st.scope a.actor a.scope true
    let r ← st.update p a.now a.actor a.scope id expected spec
    pure (r.1,.inl r.2)
  | .applyPath id expected selection => do
    let r ← st.applyPath p a.now a.actor a.scope id expected selection
    pure (r.1,.inl r.2)
  | .remove id expected => do
    st.scope a.actor a.scope true
    let r ← st.remove a.now a.actor a.scope id expected
    pure (r.1,.inl r.2)
  | .retry operation expected => do
    st.scope a.actor a.scope true
    let r ← st.retry a.now a.actor a.scope operation expected
    pure (r.1,.inl r.2)
  | .other c => do
    let r ← p.exec a c st
    pure (r.1,.inr r.2)

/-- The commands as a service of keyed requests. -/
def Ports.service (p : Ports β ω ρ δ) :
    KeyedService (Store β) (ScopeId×ActorId×Nat) δ (Response ρ) (Attempt ω) Error where
  key a := (a.scope,a.actor,a.key)
  digest a := p.digest (a.command.content a.scope)
  enter := p.admits
  resume := resumes
  exec := p.execute
  env := Background
  conflict := .idempotencyConflict
  review := .recoveryReplayRequiresReview

abbrev Database (β ω ρ δ : Type) :=
  KeyedStore (Store β) (ScopeId×ActorId×Nat) δ (Response ρ) (Attempt ω)

def Database.initial (w : World) (m : ActorId→ScopeId→Bool) (b : β) : Database β ω ρ δ :=
  ⟨⟨State.initial w,m,∅,b⟩,∅,∅⟩

/-- The part of a Forward that commands change. -/
structure Intent where
  scopeId : ScopeId
  revision : Nat
  spec : Spec
  deleting : Bool
  deriving DecidableEq, Repr

def ForwardRow.intent (r : ForwardRow) : Intent := ⟨r.scopeId,r.revision,r.spec,r.deleting⟩

def State.intent (s : State) (id : ForwardId) : Option Intent :=
  (s.forwards.lookup id).map ForwardRow.intent

variable {s : State} {id : ForwardId} {now expected : Nat} {actor : ActorId} {spec : Spec}
  {row : ForwardRow}

theorem State.intent_some {i : Intent} :
    s.intent id=some i ↔ ∃row, s.forwards.lookup id=some row ∧ row.intent=i := Option.map_eq_some_iff

theorem State.intent_congr {t : State} (h : t.forwards=s.forwards) (id : ForwardId) :
    t.intent id=s.intent id := by
  unfold State.intent
  rw [h]

theorem State.Commanded.intents {t : State} {e : Event} (c : s.Commanded now e t) (id : ForwardId) :
    t.intent id=if id=c.f.id then some c.row.intent else s.intent id := by
  unfold State.intent
  rw [c.forwards]
  split_ifs with h
  · rfl
  · rfl

theorem State.Commanded.create_intents {t : State} {scope : ScopeId}
    (c : s.Commanded now (.create actor scope id spec) t) :
    s.intent id=none ∧ ∀j, t.intent j=if j=id then some ⟨scope,1,spec,false⟩ else s.intent j := by
  have hi := c.intents
  have hcause := c.cause
  generalize c.f=f,c.row=row,c.kind=kind at hi hcause
  cases hcause with
  | create hn =>
    have hnone : s.intent id=none := by
      unfold State.intent
      rw [hn]
      rfl
    exact ⟨hnone,hi⟩

theorem State.Commanded.update_intents {t : State}
    (c : s.Commanded now (.update actor id expected spec) t) (hrow : s.forwards.lookup id=some row) :
    row.spec≠spec ∧
      ∀j, t.intent j=if j=id then some ⟨row.scopeId,row.revision+1,spec,false⟩ else s.intent j := by
  have hi := c.intents
  have hcause := c.cause
  generalize c.f=f,c.row=next,c.kind=kind at hi hcause
  cases hcause with
  | update hold _ hs =>
    rw [hrow] at hold
    cases hold
    exact ⟨hs,hi⟩

theorem State.Commanded.remove_intents {t : State}
    (c : s.Commanded now (.remove actor id expected) t) (hrow : s.forwards.lookup id=some row) :
    row.revision=expected ∧
      ∀j, t.intent j=if j=id then some ⟨row.scopeId,row.revision+1,row.spec,true⟩ else s.intent j := by
  have hi := c.intents
  have hcause := c.cause
  generalize c.f=f,c.row=next,c.kind=kind at hi hcause
  cases hcause with
  | remove hold =>
    rw [hrow] at hold
    cases hold
    exact ⟨rfl,hi⟩

theorem State.Commanded.retry_intents {t : State} {operation : Nat}
    (c : s.Commanded now (.retry actor operation expected) t) (id : ForwardId) :
    t.intent id=s.intent id := by
  have hi := c.intents id
  have hcause := c.cause
  generalize c.f=f,c.row=next,c.kind=kind at hi hcause
  cases hcause with
  | @retry _ _ _ j row hrow =>
    rw [hi]
    split_ifs with hid
    · unfold State.intent
      rw [hid,ForwardRow.forward,hrow]
      rfl
    · rfl

theorem Acts.intents {t : State} {e : Event} (h : Acts s now e t) (he : e.background)
    (id : ForwardId) : t.intent id=s.intent id := by
  obtain hf | ⟨-,hf⟩ | ⟨⟨c⟩⟩ := h.forwards
  · exact State.intent_congr hf id
  · unfold State.intent
    rw [hf,Table.lookup_alter]
    cases s.forwards.lookup id with
    | none | some row => rfl
  · rw [c.intents]
    split_ifs with hid
    · have hcause := c.cause
      generalize c.f=f,c.row=row,c.kind=kind at hid hcause
      cases hcause with
      | reauthorize _ hrow => 
        unfold State.intent
        rw [hid,ForwardRow.forward,hrow]
        rfl
      | _ => cases he
    · rfl

/-- No intent and no revision is written. -/
structure Kept (st t : Store β) : Prop where
  intents : ∀id, t.state.intent id=st.state.intent id
  revisions : t.revisions=st.revisions

/-- One intent is written, with the row of its revision. -/
structure Revised (st : Store β) (id : ForwardId) (next : Intent) (t : Store β) : Prop where
  fresh : st.revisions.lookup (id,next.revision)=none
  intents : ∀j, t.state.intent j=if j=id then some next else st.state.intent j
  revisions : t.revisions=st.revisions.insert (id,next.revision) next.spec

/-- An update of an unchanged intent leaves the intents, the revisions and the Operations as they
were; any other one writes the next revision. -/
def Updated (st : Store β) (now : Nat) (id : ForwardId) (row : ForwardRow) (spec : Spec)
    (t : Store β) : Prop :=
  (row.spec=spec ∧ t.state={ st.state with clock := now } ∧ t.revisions=st.revisions) ∨
  (row.spec≠spec ∧ Revised st id ⟨row.scopeId,row.revision+1,spec,false⟩ t)

variable {st t u : Store β} {p : Ports β ω ρ δ}

theorem Background.kept (h : Background st t) (hs : st.state.ValidSpecs) :
    t.state.ValidSpecs ∧ Kept st t := by
  induction h with
  | refl st => exact ⟨hs,fun _ => rfl,rfl⟩
  | event he h _ ih =>
    have hacts := step_acts hs h
    obtain ⟨hv,hk⟩ := ih (hacts.validSpecs hs)
    refine ⟨hv,fun id => ?_,hk.revisions⟩
    rw [hk.intents]
    exact hacts.intents he id
  | members m _ ih | bindings b _ ih =>
    obtain ⟨hv,hk⟩ := ih hs
    exact ⟨hv,hk.intents,hk.revisions⟩

namespace Store

variable {scopeId : ScopeId} {r : ForwardAccepted}

theorem act_ok {e : Event} (h : st.act now e=.ok t) :
    ∃u, Step st.state (now,e) u ∧ t={ st with state := u } := by
  simp only [act,do_ok] at h
  obtain ⟨u,hu,rfl⟩ := h
  exact ⟨u,hu,rfl⟩

theorem insertRevision_ok {n : Nat} (h : st.insertRevision id n spec=.ok t) :
    st.revisions.lookup (id,n)=none ∧
      t={ st with revisions := st.revisions.insert (id,n) spec } := by
  simp only [insertRevision,do_ok,Option.not_isSome_iff_eq_none] at h
  exact ⟨h.1,h.2.symm⟩

variable {next : Forward}

theorem currentForUpdate_ok (h : st.currentForUpdate scopeId id=.ok row) :
    st.state.forwards.lookup id=some row ∧ row.scopeId=scopeId ∧ ¬row.deleting := by
  simp only [currentForUpdate,record,do_ok] at h
  obtain ⟨row',h,hd,rfl⟩ := h
  cases hrow : st.state.forwards.lookup id with
  | none => simp [hrow] at h
  | some row =>
    simp only [hrow,do_ok,not_not] at h
    obtain ⟨hs,rfl⟩ := h
    exact ⟨rfl,hs,hd⟩

theorem create_revised (h : st.create now actor scopeId id spec=.ok (t,r)) :
    st.state.intent id=none ∧ Revised st id ⟨scopeId,1,spec,false⟩ t := by
  simp only [create,do_ok,Prod.mk.injEq] at h
  obtain ⟨v,hv,u,hu,rfl,-⟩ := h
  obtain ⟨w,hw,rfl⟩ := act_ok hv
  obtain ⟨hfresh,rfl⟩ := insertRevision_ok hu
  obtain ⟨c⟩ := State.create_commanded hw
  obtain ⟨hnone,hi⟩ := c.create_intents
  exact ⟨hnone,hfresh,hi,rfl⟩

theorem remove_revised (hs : st.state.ValidSpecs)
    (h : st.remove now actor scopeId id expected=.ok (t,r)) : ∃row,
      st.state.forwards.lookup id=some row ∧ ¬row.deleting ∧ row.revision=expected ∧
      Revised st id ⟨row.scopeId,row.revision+1,row.spec,true⟩ t := by
  simp only [remove,do_ok,Prod.mk.injEq] at h
  obtain ⟨row,hrow,v,hv,u,hu,rfl,-⟩ := h
  obtain ⟨hlookup,-,hd⟩ := currentForUpdate_ok hrow
  obtain ⟨w,hw,rfl⟩ := act_ok hv
  obtain ⟨hfresh,rfl⟩ := insertRevision_ok hu
  have hspecs : State.ValidSpecs { st.state with clock := now } := hs
  obtain ⟨c⟩ := State.remove_commanded hspecs hw
  obtain ⟨he,hi⟩ := c.remove_intents hlookup
  exact ⟨row,hlookup,hd,he,hfresh,hi,rfl⟩

variable {selection : Option PathSelection}

theorem bindPath_ok {o : Option PathBindingReceipt}
    (h : st.bindPath p now actor next selection=.ok (t,o)) :
    t.state=st.state ∧ t.revisions=st.revisions := by
  cases selection with
  | none =>
    cases h
    exact ⟨rfl,rfl⟩
  | some selection =>
    simp only [bindPath,do_ok,Prod.mk.injEq] at h
    obtain ⟨b,-,rfl,-⟩ := h
    exact ⟨rfl,rfl⟩

theorem recordUpdate_ok {current : Forward} (h : st.recordUpdate p current next selection=.ok t) :
    (next.revision=current.revision ∧ t=st) ∨ (next.revision≠current.revision ∧
      st.revisions.lookup (next.id,next.revision)=none ∧ t.state=st.state ∧
      t.revisions=st.revisions.insert (next.id,next.revision) next.spec) := by
  unfold recordUpdate at h
  split_ifs at h with hn
  · cases h
    exact .inl ⟨hn,rfl⟩
  · simp only [bind_ok] at h
    obtain ⟨u,hu,h⟩ := h
    obtain ⟨hfresh,rfl⟩ := insertRevision_ok hu
    refine .inr ⟨hn,hfresh,?_⟩
    cases selection with
    | some selection =>
      cases h
      exact ⟨rfl,rfl⟩
    | none =>
      simp only [do_ok] at h
      obtain ⟨b,-,rfl⟩ := h
      exact ⟨rfl,rfl⟩

theorem acceptUpdate_revised (hrow : st.state.forwards.lookup id=some row)
    (hnext : decideForwardChange (row.forward id) expected spec=.ok next)
    (h : st.acceptUpdate p now actor (row.forward id) next selection=.ok (t,r)) :
    row.revision=expected ∧ Updated st now id row spec t := by
  simp only [acceptUpdate,do_ok,Prod.mk.injEq] at h
  obtain ⟨v,hv,u,hu,o,ho,rfl,-⟩ := h
  obtain ⟨x,hx,rfl⟩ := act_ok hv
  obtain ⟨hstate,hrev⟩ := bindPath_ok ho
  obtain ⟨he,-,⟨hs,rfl⟩ | ⟨hs,rfl⟩⟩ := State.decideForwardChange_ok hnext
  · refine ⟨he,.inl ⟨hs,?_,?_⟩⟩
    · obtain ⟨-,rfl⟩ | ⟨hne,-⟩ := recordUpdate_ok hu
      · obtain ⟨rfl,-⟩ | ⟨⟨c⟩⟩ := State.update_commanded hx
        · exact hstate
        · exact absurd rfl (c.update_intents hrow).1
      · exact absurd rfl hne
    · obtain ⟨-,rfl⟩ | ⟨hne,-⟩ := recordUpdate_ok hu
      · exact hrev
      · exact absurd rfl hne
  · refine ⟨he,.inr ⟨hs,?_⟩⟩
    obtain ⟨hsame,-⟩ | ⟨-,hfresh,hstate',hrev'⟩ := recordUpdate_ok hu
    · exact absurd hsame (Nat.succ_ne_self _)
    · obtain ⟨-,row',hrow',hs'⟩ | ⟨⟨c⟩⟩ := State.update_commanded hx
      · have hsame := hrow'.symm.trans hrow
        cases hsame
        exact absurd hs' hs
      · refine ⟨hfresh,?_,hrev.trans hrev'⟩
        rw [hstate,hstate']
        exact (c.update_intents hrow).2

theorem update_revised (h : st.update p now actor scopeId id expected spec=.ok (t,r)) : ∃row,
    st.state.forwards.lookup id=some row ∧ ¬row.deleting ∧ row.revision=expected ∧
    Updated st now id row spec t := by
  simp only [update,bind_ok] at h
  obtain ⟨row,hrow,next,hnext,h⟩ := h
  obtain ⟨hlookup,-,hd⟩ := currentForUpdate_ok hrow
  obtain ⟨he,hcases⟩ := acceptUpdate_revised hlookup hnext h
  exact ⟨row,hlookup,hd,he,hcases⟩

theorem applyPath_revised {selection : PathSelection}
    (h : st.applyPath p now actor scopeId id expected selection=.ok (t,r)) : ∃row spec,
    st.state.forwards.lookup id=some row ∧ ¬row.deleting ∧ row.revision=expected ∧
    p.resolve st.bindings st.state actor (row.forward id) selection=.ok spec ∧
    Updated st now id row spec t := by
  simp only [applyPath,do_ok] at h
  obtain ⟨row,hrow,-,spec,hspec,next,hnext,h⟩ := h
  obtain ⟨hlookup,-,hd⟩ := currentForUpdate_ok hrow
  obtain ⟨he,hcases⟩ := acceptUpdate_revised hlookup hnext h
  exact ⟨row,spec,hlookup,hd,he,hspec,hcases⟩

theorem retry_kept {operation : Nat} (hs : st.state.ValidSpecs)
    (h : st.retry now actor scopeId operation expected=.ok (t,r)) : Kept st t ∧ ∃op row,
      st.state.operations.find? (fun o => o.id=operation)=some op ∧
      st.state.forwards.lookup op.forwardId=some row ∧ ¬row.deleting := by
  unfold retry at h
  cases ho : st.state.operations.find? fun o => o.id=operation with
  | none => simp [ho] at h
  | some op =>
    simp only [ho,do_ok,Prod.mk.injEq] at h
    obtain ⟨row,hrow,v,hv,rfl,-⟩ := h
    obtain ⟨hlookup,-,hd⟩ := currentForUpdate_ok hrow
    obtain ⟨w,hw,rfl⟩ := act_ok hv
    have hspecs : State.ValidSpecs { st.state with clock := now } := hs
    obtain ⟨c⟩ := State.retry_commanded hspecs hw
    exact ⟨⟨c.retry_intents,rfl⟩,op,row,rfl,hlookup,hd⟩

theorem act_run {e : Event} (h : st.act now e=.ok t) : ∃l, Run Step st.state l t.state := by
  obtain ⟨u,hu,rfl⟩ := act_ok h
  exact ⟨_,.single hu⟩

theorem create_bindings (h : st.create now actor scopeId id spec=.ok (t,r)) :
    t.bindings=st.bindings ∧ ∃l, Run Step st.state l t.state := by
  simp only [create,do_ok,Prod.mk.injEq] at h
  obtain ⟨v,hv,u,hu,rfl,-⟩ := h
  have hrun := act_run hv
  obtain ⟨w,-,rfl⟩ := act_ok hv
  obtain ⟨-,rfl⟩ := insertRevision_ok hu
  exact ⟨rfl,hrun⟩

theorem remove_bindings (h : st.remove now actor scopeId id expected=.ok (t,r)) :
    t.bindings=st.bindings ∧ ∃l, Run Step st.state l t.state := by
  simp only [remove,do_ok,Prod.mk.injEq] at h
  obtain ⟨row,-,v,hv,u,hu,rfl,-⟩ := h
  have hrun := act_run hv
  obtain ⟨w,-,rfl⟩ := act_ok hv
  obtain ⟨-,rfl⟩ := insertRevision_ok hu
  exact ⟨rfl,hrun⟩

theorem retry_bindings {operation : Nat}
    (h : st.retry now actor scopeId operation expected=.ok (t,r)) :
    t.bindings=st.bindings ∧ ∃l, Run Step st.state l t.state := by
  unfold retry at h
  split at h
  · simp at h
  · simp only [do_ok,Prod.mk.injEq] at h
    obtain ⟨row,-,v,hv,rfl,-⟩ := h
    have hrun := act_run hv
    obtain ⟨w,-,rfl⟩ := act_ok hv
    exact ⟨rfl,hrun⟩

theorem acceptUpdate_run {current : Forward}
    (h : st.acceptUpdate p now actor current next selection=.ok (t,r)) :
    ∃l, Run Step st.state l t.state := by
  simp only [acceptUpdate,do_ok,Prod.mk.injEq] at h
  obtain ⟨v,hv,u,hu,o,ho,rfl,-⟩ := h
  have hrun := act_run hv
  rw [(bindPath_ok ho).1]
  obtain ⟨-,rfl⟩ | ⟨-,-,hstate,-⟩ := recordUpdate_ok hu
  · exact hrun
  · rw [hstate]
    exact hrun

end Store

theorem Background.run (h : Background st t) : ∃l, Run Step st.state l t.state := by
  induction h with
  | refl st => exact ⟨[],.refl⟩
  | event _ h _ ih =>
    obtain ⟨l,hl⟩ := ih
    exact ⟨_,.cons h hl⟩
  | members m _ ih | bindings b _ ih => exact ih

theorem Ports.execute_run {a : Attempt ω} {r : Response ρ} (h : p.execute a st=.ok (t,r)) :
    ∃l, Run Step st.state l t.state := by
  unfold execute at h
  cases hc : a.command with
  | create spec =>
    simp only [hc,do_ok,Prod.mk.injEq] at h
    obtain ⟨-,x,hx,rfl,-⟩ := h
    exact (Store.create_bindings hx).2
  | update id expected spec =>
    simp only [hc,Store.update,do_ok,Prod.mk.injEq] at h
    obtain ⟨-,x,⟨row,-,next,-,hx⟩,rfl,-⟩ := h
    exact Store.acceptUpdate_run hx
  | applyPath id expected selection =>
    simp only [hc,Store.applyPath,do_ok,Prod.mk.injEq] at h
    obtain ⟨x,⟨row,-,-,spec,-,next,-,hx⟩,rfl,-⟩ := h
    exact Store.acceptUpdate_run hx
  | remove id expected =>
    simp only [hc,do_ok,Prod.mk.injEq] at h
    obtain ⟨-,x,hx,rfl,-⟩ := h
    exact (Store.remove_bindings hx).2
  | retry operation expected =>
    simp only [hc,do_ok,Prod.mk.injEq] at h
    obtain ⟨-,x,hx,rfl,-⟩ := h
    exact (Store.retry_bindings hx).2
  | other c =>
    simp only [hc,do_ok,Prod.mk.injEq] at h
    obtain ⟨x,hx,rfl,-⟩ := h
    exact (p.exec_background a c st x.1 x.2 hx).run

variable {db db' : Database β ω ρ δ} {l : List (KeyedLabel (Attempt ω) (Response ρ) Error)}
  {e : KeyedLabel (Attempt ω) (Response ρ) Error} [DecidableEq δ]

theorem Ports.moves_run (h : p.service.Moves db e db') : ∃l, Run Step db.store.state l db'.store.state := by
  cases h with
  | commit _ h => exact execute_run h
  | other h => exact Background.run h
  | _ => exact ⟨[],.refl⟩

end TuneX.Control
