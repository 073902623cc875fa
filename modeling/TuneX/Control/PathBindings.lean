import TuneX.Control.Requests

namespace TuneX.Control

open Framework

structure TemplateConfig where
  protocols : List Protocol
  nodes : List NodeId
  endpoints : List (NodeId×Nat)
  transport : ProfileRef
  deriving DecidableEq, Repr

/-- What `parsePathTemplate` accepts, in its canonical order. -/
def TemplateConfig.valid (c : TemplateConfig) : Bool :=
  decide (c.protocols=[.tcp] ∨ c.protocols=[.udp] ∨ c.protocols=[.tcp,.udp]) &&
    decide (2 ≤ c.nodes.length ∧ c.nodes.length≤8 ∧ c.nodes.Nodup) &&
    decide (c.endpoints.map Prod.fst=c.nodes.tail) && c.endpoints.all (fun e => isCounter e.2) &&
    isCounter c.transport.configRevision

structure TemplateHead where
  currentRevision : Nat
  archived : Bool
  deriving DecidableEq, Repr

structure TemplateRevision where
  revision : Nat
  config : TemplateConfig
  profileDigest : Nat
  configDigest : Nat
  createdBy : ActorId
  createdAt : Nat
  deriving DecidableEq, Repr

/-- The part of an intent that a template decides. -/
structure Topology where
  ingressNode : NodeId
  protocols : List Protocol
  path : List NodeId
  transport : Option ProfileRef
  deriving DecidableEq, Repr

def Spec.topology (s : Spec) : Topology := ⟨s.nodeId,s.protocols,s.via,s.transport⟩

structure PathBinding (τ : Type) where
  sequence : Nat
  selection : PathSelection
  forwardRevision : Nat
  expandedSpec : Spec
  specDigest : τ
  actorId : ActorId
  createdAt : Nat

/-- The digests of template configurations, of intents and of their topologies. -/
structure PathDigests (τ : Type) where
  config : TemplateConfig→Nat→Nat
  spec : Spec→τ
  topology : Topology→τ

structure PathTables (τ : Type) where
  heads : Table (ScopeId×Nat) TemplateHead
  templates : Table (ScopeId×Nat×Nat) TemplateRevision
  history : Table ForwardId (List (PathBinding τ))
  current : Table ForwardId Nat

def PathTables.empty {τ : Type} : PathTables τ := ⟨∅,∅,∅,∅⟩

def latestTime : Nat := 8640000000000000

namespace PathTables

variable {τ : Type} [DecidableEq τ] (digests : PathDigests τ)

def bindings (b : PathTables τ) (id : ForwardId) : List (PathBinding τ) :=
  (b.history.lookup id).getD []

def currentBinding (b : PathTables τ) (id : ForwardId) : Option (PathBinding τ) :=
  (b.current.lookup id).bind fun sequence => (b.bindings id).find? (·.sequence = sequence)

def validateTemplateHead (head : TemplateHead) : Except Error Unit :=
  reject (isCounter head.currentRevision=false ∨ 64<head.currentRevision) .integrityFailure

def validateTemplateRevision (record : TemplateRevision) (number : Nat) : Except Error Unit :=
  reject (record.config.valid=false ∨ record.revision≠number ∨ isCounter number=false ∨ 64<number ∨
    latestTime < record.createdAt ∨
    record.configDigest≠digests.config record.config record.profileDigest) .integrityFailure

/-- The exact revision that a selection names. -/
def template (b : PathTables τ) (scope : ScopeId) (selection : PathSelection)
    (requireActive : Bool) : Except Error TemplateRevision :=
  match b.heads.lookup (scope,selection.templateId) with
  | none => .error .notFound
  | some head => do
    validateTemplateHead head
    reject (requireActive ∧ head.archived) .templateArchived
    match b.templates.lookup (scope,selection.templateId,selection.revision) with
    | none => .error .notFound
    | some record => do
      validateTemplateRevision digests record selection.revision
      reject (head.currentRevision < record.revision ∨ record.configDigest≠selection.configDigest)
        .revisionConflict
      pure record

end PathTables

/-- A path switch keeps the business intent and cannot move the ingress. -/
def expandPath (spec : Spec) (config : TemplateConfig) : Except Error Spec := do
  reject (some spec.nodeId≠config.nodes.head? ∨ spec.protocols.length≠config.protocols.length ∨
    ∃p∈spec.protocols, p∉config.protocols) .unsupportedCapability
  let expanded := { spec with via := config.nodes.tail, transport := some config.transport }
  reject (expanded.valid=false) .integrityFailure
  pure expanded

namespace PathTables

variable {τ : Type} [DecidableEq τ] (digests : PathDigests τ)

def parsePathSelection (s : PathSelection) : Bool := isCounter s.revision && decide (s.revision≤64)

/-- A digest whose computation must not fail; any failure of it is one of integrity. -/
def expandedDigest (spec : Spec) (config : TemplateConfig) : Except Error τ :=
  match expandPath spec config with
  | .error _ => .error .integrityFailure
  | .ok expanded => .ok (digests.spec expanded)

def checked (b : PathTables τ) (current : Forward) (binding : PathBinding τ)
    (requireCurrent : Bool) : Except Error Unit := do
  reject (parsePathSelection binding.selection=false) .integrityFailure
  reject (isCounter binding.sequence=false ∨ 64<binding.sequence ∨
    isCounter binding.forwardRevision=false ∨ current.revision<binding.forwardRevision ∨
    latestTime<binding.createdAt ∨ binding.expandedSpec.valid=false ∨
    binding.specDigest≠digests.spec binding.expandedSpec) .integrityFailure
  let record ← b.template digests current.scopeId binding.selection false
  let expanded ← expandedDigest digests binding.expandedSpec record.config
  reject (expanded≠binding.specDigest ∨ (requireCurrent ∧
    digests.topology current.spec.topology≠digests.topology binding.expandedSpec.topology))
    .integrityFailure

/-- The check of the current binding, if there is one. -/
def checkCurrent (b : PathTables τ) (current : Forward) : Except Error Unit :=
  match b.currentBinding current.id with
  | none => .ok ()
  | some old => b.checked digests current old true

/-- `validate` is what the owners of the referenced nodes and profiles answer. -/
def resolve (validate : TemplateConfig→Except Error Nat) (b : PathTables τ) (current : Forward)
    (selection : PathSelection) : Except Error Spec := do
  b.checkCurrent digests current
  let record ← b.template digests current.scopeId selection true
  let profileDigest ← validate record.config
  reject (profileDigest≠record.profileDigest) .integrityFailure
  expandPath current.spec record.config

def append (b : PathTables τ) (id : ForwardId) (selection : PathSelection) (forwardRevision : Nat)
    (spec : Spec) (actor : ActorId) (now : Nat) : Except Error (PathTables τ×PathBinding τ) := do
  let previous := ((b.bindings id).map PathBinding.sequence).foldl max 0
  reject (64≤previous) .resourceLimit
  let record : PathBinding τ :=
    ⟨previous+1,selection,forwardRevision,spec,digests.spec spec,actor,now⟩
  pure ({ b with
    history := b.history.insert id (b.bindings id++[record])
    current := b.current.insert id (previous+1) },record)

def receipt (binding : PathBinding τ) (changed : Bool) : PathBindingReceipt :=
  ⟨binding.selection,binding.sequence,binding.forwardRevision,changed⟩

/-- The binding that an application leaves in place. -/
def reuses (b : PathTables τ) (next : Forward) (selection : PathSelection) :
    Option (PathBinding τ) :=
  (b.currentBinding next.id).filter fun old => old.selection=selection ∧
    digests.topology next.spec.topology=digests.topology old.expandedSpec.topology

def accept (b : PathTables τ) (now : Nat) (actor : ActorId) (next : Forward)
    (selection : PathSelection) : Except Error (PathTables τ×PathBindingReceipt) :=
  match b.reuses digests next selection with
  | some old => do
    b.checked digests next old true
    pure (b,receipt old false)
  | none => do
    reject (latestTime<now) .integrityFailure
    let (t,record) ← b.append digests next.id selection next.revision next.spec actor now
    t.checked digests next record true
    pure (t,receipt record true)

def detach (b : PathTables τ) (id : ForwardId) : PathTables τ :=
  { b with current := b.current.erase id }

def preserve (b : PathTables τ) (current next : Forward) : Except Error (PathTables τ) :=
  match b.currentBinding current.id with
  | none => pure b
  | some binding => do
    b.checked digests current binding true
    if digests.topology current.spec.topology=digests.topology next.spec.topology then pure b
    else pure (b.detach current.id)

/-- The checks of the template's present revision. -/
def checkTemplate (head : Option TemplateHead) (old : Option TemplateRevision) (expected : Nat) :
    Except Error Unit :=
  match head,old with
  | none,_ => .ok ()
  | some _,none => .error .integrityFailure
  | some _,some r => validateTemplateRevision digests r expected

def checkHead : Option TemplateHead→Except Error Unit
  | none => .ok ()
  | some h => validateTemplateHead h

/-- `publish` of a template, with the profile digest that its owner answers. -/
def publish (b : PathTables τ) (now : Nat) (actor : ActorId) (scope : ScopeId) (id : Nat)
    (expected : Nat) (config : TemplateConfig) (profile : Except Error Nat) (count : Nat) :
    Except Error (PathTables τ) := do
  reject (config.valid=false) .invalidConfig
  let head := b.heads.lookup (scope,id)
  checkHead head
  reject ((head.map TemplateHead.currentRevision).getD 0≠expected) .revisionConflict
  reject (∃h∈head, h.archived) .templateArchived
  let old := b.templates.lookup (scope,id,expected)
  checkTemplate digests head old expected
  reject (latestTime<now) .integrityFailure
  let profileDigest ← profile
  let configDigest := digests.config config profileDigest
  if head.isSome ∧ old.map TemplateRevision.configDigest=some configDigest then pure b
  else do
    reject (64<expected+1) .resourceLimit
    reject (head.isNone ∧ 128 ≤ count) .resourceLimit
    pure { b with
      heads := b.heads.insert (scope,id) ⟨expected+1,false⟩
      templates := b.templates.insert (scope,id,expected+1)
        ⟨expected+1,config,profileDigest,configDigest,actor,now⟩ }

def archive (b : PathTables τ) (scope : ScopeId) (id : Nat) (expected : Nat) :
    Except Error (PathTables τ) :=
  match b.heads.lookup (scope,id) with
  | none => .error .notFound
  | some h => do
    validateTemplateHead h
    reject (h.currentRevision≠expected) .revisionConflict
    checkTemplate digests (some h) (b.templates.lookup (scope,id,expected)) expected
    pure { b with heads := b.heads.insert (scope,id) { h with archived := true } }

end PathTables

end TuneX.Control
