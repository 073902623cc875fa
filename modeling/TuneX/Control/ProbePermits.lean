import TuneX.Framework.Run
import TuneX.Agent.Validate

namespace TuneX.Control.Probe

open Framework
open Agent (idOk counterOk digestOk hexLower)

inductive PermitState
  | issued
  | consumed
  | revoked
  | quarantined
  deriving DecidableEq, Repr

structure ProbeBinding where
  nodeId : String
  bootId : String
  sessionEpoch : Nat
  snapshotGeneration : Nat
  assignmentId : String
  forwardId : String
  forwardRevision : Nat
  deploymentGeneration : Nat
  bindingFence : Nat
  configDigest : String
  egressPolicyRevision : Nat
  deriving DecidableEq, Repr

structure ProbePermit where
  id : String
  actorId : String
  scopeId : String
  binding : ProbeBinding
  instanceId : String
  instanceGeneration : Nat
  fingerprint : String
  timeoutMs : Nat
  issuedAt : Int
  expiresAt : Int
  state : PermitState
  closedAt : Option Int
  deriving DecidableEq, Repr

structure Withdrawal where
  permitId : String
  withdrawnAt : Int
  deriving DecidableEq, Repr

inductive ProbeStatus
  | connected
  | unreachable
  deriving DecidableEq, Repr

inductive ProbeCode
  | tcpConnected
  | tcpConnectFailed
  deriving DecidableEq, Repr

/-- A reported result without its request identifier and the constant fields. -/
structure ResultBody where
  nodeId : String
  bootId : String
  sessionEpoch : Nat
  instanceId : String
  instanceGeneration : Nat
  permitId : String
  binding : ProbeBinding
  timeoutMs : Nat
  issuedAt : String
  expiresAt : String
  consumedAt : String
  measuredAt : String
  validUntil : String
  elapsedMs : Nat
  status : ProbeStatus
  code : ProbeCode
  deriving DecidableEq, Repr

/-- The dates of the platform: the schema's format, `Date.parse` and `toISOString`. A text of the
format that is no date, such as a leap second, parses to `none`. -/
structure Dates where
  format : String→Bool
  parse : String→Option Int
  toISOString : Int→String

structure ResultRecord where
  body : ResultBody
  resultDigest : String
  acceptedAt : Int
  deriving DecidableEq, Repr

/-- A command on it is one transaction under the lock of the budget row; every clock sample that it
takes is one of its arguments. -/
structure Store where
  observedAt : Int
  records : List ProbePermit
  withdrawals : List Withdrawal
  results : List ResultRecord
  deriving DecidableEq

def Store.empty : Store := ⟨0,[],[],[]⟩

def maxSafe : Int := 9007199254740991
def maxDate : Int := 8640000000000000

def hex (s : String) : Bool := decide (s.length=64) && s.toList.all hexLower

def validProbeBinding (b : ProbeBinding) : Bool :=
  [b.nodeId,b.bootId,b.assignmentId,b.forwardId].all idOk &&
  [b.sessionEpoch,b.snapshotGeneration,b.forwardRevision,b.deploymentGeneration,b.bindingFence,
    b.egressPolicyRevision].all counterOk && digestOk b.configDigest

def safe (n : Int) : Bool := decide (-maxSafe≤n) && decide (n ≤ maxSafe)

def validProbePermit (p : ProbePermit) : Bool :=
  [p.id,p.actorId,p.scopeId].all idOk && validProbeBinding p.binding && hex p.instanceId &&
  hex p.fingerprint && counterOk p.instanceGeneration && decide (100≤p.timeoutMs) &&
  decide (p.timeoutMs≤2000) && safe p.issuedAt && decide (0≤p.issuedAt) && safe p.expiresAt &&
  decide (p.issuedAt < p.expiresAt) && decide (p.expiresAt-p.issuedAt≤2000) &&
  match p.state,p.closedAt with
  | .issued,none => true
  | .issued,some _ => false
  | _,none => false
  | _,some at_ => safe at_ && decide (0≤at_)

namespace Store

def find (s : Store) (id : String) : Option ProbePermit := s.records.find? (·.id == id)

def withdrawn (s : Store) (id : String) : Bool := s.withdrawals.any (·.permitId == id)

def now (floor sample : Int) : Except String Int := do
  reject (safe floor=false ∨ floor<0 ∨ safe sample=false ∨ sample<floor ∨ maxDate-3000<sample)
    "CLOCK_UNCERTAIN"
  pure sample

/-- The withdrawals that contradict the permits. -/
def unsound (s : Store) (w : Withdrawal) : Bool :=
  !idOk w.permitId || !safe w.withdrawnAt ||
    match s.find w.permitId with
    | none => true
    | some p =>
      match p.state,p.closedAt with
      | .consumed,some closed => decide (w.withdrawnAt < max closed p.issuedAt)
      | _,_ => true

def budget (s : Store) (sample : Int) : Except String Int := do
  reject (256<s.records.length ∨ ∃p∈s.records, validProbePermit p=false) "PROBE_PERMIT_CORRUPT"
  reject (¬(s.records.map ProbePermit.id).Nodup ∨ 256<s.withdrawals.length ∨
      ¬(s.withdrawals.map Withdrawal.permitId).Nodup ∨ ∃w∈s.withdrawals, s.unsound w)
    "PROBE_PERMIT_CORRUPT"
  let n ← now s.observedAt sample
  reject ((∃p∈s.records, n<p.issuedAt) ∨ ∃w∈s.withdrawals, n<w.withdrawnAt) "CLOCK_UNCERTAIN"
  pure n

/-- `DELETE`, which takes withdrawals and results of the deleted permits along. -/
def prune (s : Store) (expiredBefore : Int) : Store :=
  if expiredBefore<0 then s
  else
    let kept := s.records.filter fun p => expiredBefore<p.expiresAt
    { s with
      records := kept
      withdrawals := s.withdrawals.filter fun w => kept.any (·.id == w.permitId)
      results := s.results.filter fun r => kept.any (·.id == r.body.permitId) }

def clock (s : Store) (n : Int) : Except String Store := do
  reject (n<s.observedAt) "CLOCK_UNCERTAIN"
  pure { s with observedAt := n }

def finish (s : Store) (n : Int) : Except String Store := (s.prune (n-1000)).clock n

/-- `UPDATE … WHERE state='issued'` on the permits that `p` selects. -/
def closeAll (s : Store) (p : ProbePermit→Bool) (state : PermitState) (at_ : Int) : Store :=
  { s with records := s.records.map fun r =>
      if r.state=.issued ∧ p r then { r with state := state, closedAt := some at_ } else r }

def close (s : Store) (id : String) (state : PermitState) (at_ : Int) : Except String Store := do
  reject (safe at_=false ∨ at_<0) "PROBE_PERMIT_CORRUPT"
  reject (¬∃r∈s.records, r.id=id ∧ r.state=.issued) "PROBE_PERMIT_UNAVAILABLE"
  pure (s.closeAll (·.id == id) state at_)

def withdraw (s : Store) (id : String) (at_ : Int) : Except String Store := do
  reject (safe at_=false ∨ at_<0) "PROBE_PERMIT_CORRUPT"
  reject (s.withdrawn id ∨ ¬∃r∈s.records, r.id=id ∧ r.state=.consumed ∧
    ∃c∈r.closedAt, r.issuedAt ≤ c ∧ c≤at_) "PROBE_PERMIT_UNAVAILABLE"
  pure { s with withdrawals := s.withdrawals++[⟨id,at_⟩] }

def insert (s : Store) (p : ProbePermit) : Except String Store := do
  reject (validProbePermit p=false ∨ p.state≠.issued) "PROBE_PERMIT_CORRUPT"
  reject (∃r∈s.records, r.id=p.id) "DUPLICATE_KEY"
  pure { s with records := s.records++[p] }

def result (s : Store) (id : String) : Option ResultRecord := s.results.find? (·.body.permitId == id)

def recordResult (s : Store) (r : ResultRecord) : Except String Store := do
  reject (∃q∈s.results, q.body.permitId=r.body.permitId) "DUPLICATE_KEY"
  pure { s with results := s.results++[r] }

/-- `quarantineRecovery`, with the two samples of the wall clock it takes. The columns hold no
negative times. -/
def quarantineRecovery (s : Store) (first second : Int) : Except String Store := do
  reject (first<0 ∧ ∃r∈s.records, r.state=.issued) "OUT_OF_RANGE"
  let closed := s.closeAll (fun _ => true) .quarantined first
  let more := (closed.records.filter fun r => r.state=.consumed ∧ !closed.withdrawn r.id).map
    fun r => Withdrawal.mk r.id (max second (r.closedAt.getD 0))
  pure { closed with withdrawals := closed.withdrawals++more }

end Store

structure Plan where
  scopeId : String
  timeoutMs : Nat
  binding : ProbeBinding
  expiresAt : Option Int
  deriving DecidableEq

structure Slot where
  nodeId : String
  fingerprint : String
  registered : Bool
  instanceId : String
  generation : Nat
  bootId : String
  sessionEpoch : Nat
  registeredAt : Int
  expiresAt : Int
  deriving DecidableEq

structure MachineEvidence where
  nodeId : String
  bootId : String
  sessionEpoch : Nat
  revoked : Bool
  credentialRevoked : Bool
  nodeCredentialUntil : Int
  credentialUntil : Int
  retireAfter : Option Int
  capabilities : List String
  deriving DecidableEq

/-- What the other owners answer within the transaction. -/
structure Owners where
  scope : Except String Unit
  plan : Except String Plan
  slot : Option Slot
  machine : Option MachineEvidence

/-- A machine's command on a permit. -/
structure MachineCommand where
  node : String
  fingerprint : String
  epoch : Nat
  permitId : String
  bootId : String
  instanceId : String
  instanceGeneration : Nat
  deriving DecidableEq

def unavailable : String := "PROBE_PERMIT_UNAVAILABLE"

def machineCommand (c : MachineCommand) (withPermit : Bool) : Except String Unit :=
  reject (idOk c.node=false ∨ idOk c.bootId=false ∨ (withPermit ∧ idOk c.permitId=false) ∨
    hex c.fingerprint=false ∨ hex c.instanceId=false ∨ counterOk c.epoch=false ∨
    counterOk c.instanceGeneration=false) "INVALID_CONFIG"

/-- The earliest end of the machine's credentials. -/
def MachineEvidence.until (m : MachineEvidence) : Int :=
  let both := min m.nodeCredentialUntil m.credentialUntil
  match m.retireAfter with
  | none => both
  | some retire => min both retire

def requireProbeMachine (machine : Option MachineEvidence) (nodeId bootId : String) (epoch : Nat)
    (n : Int) : Except String MachineEvidence :=
  match machine with
  | none => .error "SESSION_SUPERSEDED"
  | some m => do
    reject (m.nodeId≠nodeId ∨ m.sessionEpoch≠epoch ∨ m.bootId≠bootId) "SESSION_SUPERSEDED"
    reject (m.revoked ∨ m.credentialRevoked ∨ safe m.nodeCredentialUntil=false ∨
      m.nodeCredentialUntil≤n ∨ safe m.credentialUntil=false ∨ m.credentialUntil≤n ∨
      ∃retire∈m.retireAfter, safe retire=false ∨ retire≤n) "AUTHORIZATION_DENIED"
    reject (∃c∈["adp.3","native.direct.v1","tcp"], c∉m.capabilities) "UNSUPPORTED_CAPABILITY"
    pure m

/-- The registered instance, of the given fingerprint when there is one. -/
def registered (slot : Option Slot) (nodeId bootId : String) (epoch : Nat) (instanceId : String)
    (generation : Nat) (fingerprint : Option String) : Except String Slot :=
  match slot with
  | none => .error unavailable
  | some s => do
    reject (s.nodeId≠nodeId ∨ hex s.fingerprint=false ∨ s.registered=false ∨
      s.instanceId≠instanceId ∨ s.generation≠generation ∨ s.bootId≠bootId ∨ s.sessionEpoch≠epoch ∨
      safe s.registeredAt=false ∨ safe s.expiresAt=false ∨ s.registeredAt<0 ∨
      s.expiresAt ≤ s.registeredAt ∨ 30000<s.expiresAt-s.registeredAt ∨
      ∃f∈fingerprint, s.fingerprint≠f) unavailable
    pure s

def current (slot : Option Slot) (b : ProbeBinding) (instanceId : String) (generation : Nat)
    (fingerprint : Option String) : Except String Slot := do
  reject (validProbeBinding b=false) unavailable
  registered slot b.nodeId b.bootId b.sessionEpoch instanceId generation fingerprint

def sameProbeBinding (a b : ProbeBinding) : Bool :=
  validProbeBinding a && validProbeBinding b && decide (a=b)

/-- The smallest of the ends that `expiresAt` must not pass, and whether it is a safe integer. -/
def upper (plan : Option Int) (slot machine : Int) : Option Int :=
  match plan with
  | none => none
  | some end_ =>
    let least := min (min end_ slot) machine
    if safe least then some least else none

namespace Store

def authorize (floor sample : Int) (p : ProbePermit) (owners : Owners) : Except String Int := do
  let plan ← owners.plan
  reject (plan.scopeId≠p.scopeId ∨ plan.timeoutMs≠p.timeoutMs ∨
    sameProbeBinding plan.binding p.binding=false) unavailable
  let slot ← current owners.slot p.binding p.instanceId p.instanceGeneration (some p.fingerprint)
  let n ← now floor sample
  let evidence ← requireProbeMachine owners.machine p.binding.nodeId p.binding.bootId
    p.binding.sessionEpoch n
  reject (n<p.issuedAt ∨ (∃c∈p.closedAt, c<p.issuedAt ∨ n<c) ∨ p.expiresAt≤n ∨
    n<slot.registeredAt ∨ slot.expiresAt≤n ∨
    ¬∃u∈upper plan.expiresAt slot.expiresAt evidence.until, p.expiresAt≤u) unavailable
  pure n

/-- `issueIn`, with the identifier that `randomUUID` gives and the instance the caller names, if it
does not take the current one. -/
def issue (s : Store) (id actor scope forward : String) (revision timeoutMs : Nat)
    (named : Option (String×Nat)) (owners : Owners) (n₁ n₂ : Int) :
    Except String (Store×ProbePermit) := do
  reject ((∃name∈[actor,scope,forward], idOk name=false) ∨ counterOk revision=false ∨
    (∃pair∈named, hex pair.1=false ∨ counterOk pair.2=false) ∨ timeoutMs<100 ∨ 2000<timeoutMs)
    "INVALID_CONFIG"
  owners.scope
  let floor ← s.budget n₁
  let plan ← owners.plan
  reject (plan.scopeId≠scope ∨ plan.binding.forwardId≠forward ∨
    plan.binding.forwardRevision≠revision ∨ plan.timeoutMs≠timeoutMs) unavailable
  match named <|> owners.slot.map fun slot => (slot.instanceId,slot.generation) with
  | none => .error unavailable
  | some (instanceId,generation) => do
    reject (hex instanceId=false ∨ counterOk generation=false) unavailable
    let slot ← current owners.slot plan.binding instanceId generation none
    let n ← now floor n₂
    let evidence ← requireProbeMachine owners.machine plan.binding.nodeId plan.binding.bootId
      plan.binding.sessionEpoch n
    reject (n<slot.registeredAt ∨ slot.expiresAt≤n) unavailable
    let retained := s.records.filter fun p => n<p.expiresAt+1000
    reject (256 ≤ retained.length ∨ 4≤(retained.filter fun p => n<p.expiresAt).length ∨
      ∃p∈retained, p.actorId=actor ∨ p.binding.nodeId=plan.binding.nodeId) "PROBE_PERMIT_LIMIT"
    match upper (plan.expiresAt.map (min (n+2000))) slot.expiresAt evidence.until with
    | none => .error unavailable
    | some expiresAt => do
      reject (expiresAt≤n) unavailable
      let p : ProbePermit := ⟨id,actor,scope,plan.binding,instanceId,generation,slot.fingerprint,
        timeoutMs,n,expiresAt,.issued,none⟩
      reject (validProbePermit p=false) unavailable
      let pruned ← s.finish n
      let t ← pruned.insert p
      pure (t,p)

/-- The permit a machine's command names, in the given state. -/
def named (s : Store) (c : MachineCommand) (state : PermitState) : Except String ProbePermit :=
  match s.find c.permitId with
  | none => .error unavailable
  | some p => do
    reject (p.state≠state ∨ p.binding.nodeId≠c.node ∨ p.binding.bootId≠c.bootId ∨
      p.binding.sessionEpoch≠c.epoch ∨ p.fingerprint≠c.fingerprint ∨ p.instanceId≠c.instanceId ∨
      p.instanceGeneration≠c.instanceGeneration) unavailable
    pure p

def consume (s : Store) (c : MachineCommand) (owners : Owners) (n₁ n₂ : Int) :
    Except String (Store×ProbePermit) := do
  machineCommand c true
  let floor ← s.budget n₁
  let p ← s.named c .issued
  let n ← authorize floor n₂ p owners
  let closed ← s.close p.id .consumed n
  let t ← closed.finish n
  pure (t,{ p with state := .consumed, closedAt := some n })

/-- Bounded discovery, which reserves nothing. -/
def offer (s : Store) (c : MachineCommand) (owners : Owners) (n₁ n₂ n₃ : Int) :
    Except String (Int×Option ProbePermit) := do
  machineCommand c false
  let floor ← s.budget n₁
  let slot ← registered owners.slot c.node c.bootId c.epoch c.instanceId c.instanceGeneration
    (some c.fingerprint)
  let n ← now floor n₂
  let _ ← requireProbeMachine owners.machine c.node c.bootId c.epoch n
  reject (n<slot.registeredAt ∨ slot.expiresAt≤n) unavailable
  let candidates := s.records.filter fun p => p.state=.issued ∧ n<p.expiresAt ∧
    p.binding.nodeId=c.node ∧ p.binding.bootId=c.bootId ∧ p.binding.sessionEpoch=c.epoch ∧
    p.fingerprint=c.fingerprint ∧ p.instanceId=c.instanceId ∧
    p.instanceGeneration=c.instanceGeneration
  match candidates with
  | [] => pure (n,none)
  | [p] => do
    let m ← authorize n n₃ p owners
    pure (m,some p)
  | _ => .error "PROBE_PERMIT_CORRUPT"

/-- The current authority of a consumed permit, which the answer does not extend. -/
def check (s : Store) (c : MachineCommand) (owners : Owners) (n₁ n₂ : Int) :
    Except String (Int×ProbePermit) := do
  machineCommand c true
  let floor ← s.budget n₁
  reject (s.withdrawn c.permitId) unavailable
  let p ← s.named c .consumed
  let n ← authorize floor n₂ p owners
  pure (n,p)

end Store

/-- `a < b` on the numbers of `Date.parse`, false when either is none. -/
def before (a b : Option Int) : Bool :=
  match a,b with
  | some a,some b => decide (a<b)
  | _,_ => false

/-- `parseProbeResult('Request', …)`: the schema and the relations between the fields. -/
def parseProbeResult (dates : Dates) (b : ResultBody) : Bool :=
  [b.nodeId,b.bootId,b.permitId].all idOk && validProbeBinding b.binding &&
  [b.sessionEpoch,b.instanceGeneration].all counterOk && hex b.instanceId &&
  decide (100≤b.timeoutMs) && decide (b.timeoutMs≤2000) && decide (b.elapsedMs≤2000) &&
  [b.issuedAt,b.expiresAt,b.consumedAt,b.measuredAt,b.validUntil].all dates.format &&
  decide (b.binding.nodeId=b.nodeId) && decide (b.binding.bootId=b.bootId) &&
  decide (b.binding.sessionEpoch=b.sessionEpoch) &&
  !before (dates.parse b.issuedAt) (some 0) &&
  !before (dates.parse b.consumedAt) (dates.parse b.issuedAt) &&
  !before (dates.parse b.measuredAt) (dates.parse b.consumedAt) &&
  !before (dates.parse b.validUntil) ((dates.parse b.measuredAt).map (·+1)) &&
  !before (dates.parse b.expiresAt) (dates.parse b.validUntil) &&
  !before ((dates.parse b.issuedAt).map (·+2000)) (dates.parse b.expiresAt) &&
  decide (b.elapsedMs≤b.timeoutMs) &&
  decide ((b.status=.connected) ↔ (b.code=.tcpConnected))

/-- The answer to a reported result. -/
structure Receipt where
  resultDigest : String
  acceptedAt : Int
  checkedAt : Int
  duplicate : Bool
  deriving DecidableEq

/-- The measurement is not in the future and not yet invalid at `n`. -/
def timely (dates : Dates) (b : ResultBody) (n : Int) : Bool :=
  !before (some n) (dates.parse b.measuredAt) &&
  !before (dates.parse b.validUntil) (some (n+1))

namespace Store

section
variable (dates : Dates) (digest : ResultBody→String)

/-- A body that names the permit as it is stored. -/
def describes (p : ProbePermit) (fingerprint : String) (b : ResultBody) : Bool :=
  decide (p.state=.consumed) && decide (p.fingerprint=fingerprint) &&
  decide (p.instanceId=b.instanceId) && decide (p.instanceGeneration=b.instanceGeneration) &&
  sameProbeBinding p.binding b.binding && decide (p.timeoutMs=b.timeoutMs) &&
  decide (dates.toISOString p.issuedAt=b.issuedAt) &&
  decide (dates.toISOString p.expiresAt=b.expiresAt) &&
  match p.closedAt with
  | none => false
  | some at_ => decide (dates.toISOString at_=b.consumedAt)

/-- The checks of `receiveResult` before it looks at the recorded result: the permit and the
sample taken after the locks. -/
def admitted (s : Store) (node fingerprint : String) (epoch : Nat) (b : ResultBody)
    (owners : Owners) (n₁ n₂ n₃ : Int) : Except String (ProbePermit×Int) := do
  reject (parseProbeResult dates b=false) "INVALID_CONFIG"
  reject (b.nodeId≠node ∨ b.sessionEpoch≠epoch) "SESSION_SUPERSEDED"
  machineCommand ⟨node,fingerprint,epoch,b.permitId,b.bootId,b.instanceId,b.instanceGeneration⟩ true
  let floor ← s.budget n₁
  match s.find b.permitId with
  | none => .error unavailable
  | some p => do
    reject (s.withdrawn b.permitId ∨ describes dates p fingerprint b=false) unavailable
    let n ← authorize floor n₂ p owners
    let n ← now n n₃
    reject (timely dates b n=false ∨ p.expiresAt≤n) unavailable
    pure (p,n)

/-- A recorded result that the program cannot have recorded. -/
def corrupt (p : ProbePermit) (n : Int) (r : ResultRecord) : Bool :=
  !parseProbeResult dates r.body || decide (digest r.body≠r.resultDigest) ||
  decide (r.body.permitId≠p.id) || !safe r.acceptedAt || !timely dates r.body r.acceptedAt ||
  decide (n < r.acceptedAt)

def receiveResult (s : Store) (node fingerprint : String) (epoch : Nat) (b : ResultBody)
    (owners : Owners) (n₁ n₂ n₃ n₄ : Int) : Except String (Store×Receipt) := do
  let (p,n) ← s.admitted dates node fingerprint epoch b owners n₁ n₂ n₃
  match s.result p.id with
  | some previous => do
    reject (corrupt dates digest p n previous) "PROBE_RESULT_CORRUPT"
    reject (previous.resultDigest≠digest b) "PROBE_RESULT_CONFLICT"
    pure (s,⟨digest b,previous.acceptedAt,n,true⟩)
  | none => do
    let recorded ← s.recordResult ⟨b,digest b,n⟩
    let t ← recorded.clock n
    let checkedAt ← now n n₄
    reject (before (dates.parse b.validUntil) (some (checkedAt+1)) ∨ p.expiresAt ≤ checkedAt) unavailable
    pure (t,⟨digest b,n,checkedAt,false⟩)

end

def revoke (s : Store) (actor scope id : String) (owners : Owners) (n₁ n₂ : Int) :
    Except String Store := do
  reject (∃name∈[actor,scope,id], idOk name=false) "INVALID_CONFIG"
  owners.scope
  let floor ← s.budget n₁
  match s.records.find? fun p => p.id == id && p.scopeId == scope with
  | none => .error "NOT_FOUND"
  | some p => do
    let n ← now floor n₂
    match p.state with
    | .consumed =>
      if s.withdrawn id then pure s
      else do
        reject (¬∃c∈p.closedAt, p.issuedAt ≤ c ∧ c≤n) unavailable
        let t ← s.withdraw id n
        t.finish n
    | .issued => do
      let t ← s.close p.id .revoked n
      t.finish n
    | _ => pure s

end Store

theorem safe_iff (n : Int) : safe n ↔ -9007199254740991 ≤ n ∧ n≤9007199254740991 := by
  rw [safe,Bool.and_eq_true,decide_eq_true_eq,decide_eq_true_eq]
  rfl

namespace Store

theorem now_ok (floor sample n : Int) :
    now floor sample=.ok n ↔ n=sample ∧ 0≤floor ∧ floor ≤ sample ∧ sample ≤ maxDate-3000 := by
  have hf : safe floor=false ↔ ¬(-9007199254740991 ≤ floor ∧ floor≤9007199254740991) := by
    rw [← safe_iff,Bool.not_eq_true]
  have hs : safe sample=false ↔ ¬(-9007199254740991 ≤ sample ∧ sample≤9007199254740991) := by
    rw [← safe_iff,Bool.not_eq_true]
  simp only [now,do_ok,hf,hs,maxDate]
  omega

/-- A time that the clock of a command has given. -/
def Sampled (s : Store) (n : Int) : Prop := 0 ≤ s.observedAt ∧ s.observedAt ≤ n ∧ n ≤ maxDate-3000

variable {sample n at_ n₁ n₂ : Int} {id actor scope : String} {state : PermitState}

theorem budget_ok {s : Store} (h : s.budget sample=.ok n) :
    s.Sampled n ∧ (∀p∈s.records, p.issuedAt≤n) ∧ ∀w∈s.withdrawals, w.withdrawnAt≤n := by
  simp only [budget,do_ok,now_ok] at h
  obtain ⟨-,-,m,⟨rfl,h0,hf,hm⟩,hlate,rfl⟩ := h
  simp only [not_or,not_exists,not_and,Int.not_lt] at hlate
  exact ⟨⟨h0,hf,hm⟩,hlate⟩

theorem Sampled.now {s : Store} {m : Int} (h : s.Sampled m) (hn : Store.now m sample=.ok n) :
    s.Sampled n ∧ m≤n := by
  obtain ⟨rfl,-,hm,hlast⟩ := (now_ok _ _ _).mp hn
  exact ⟨⟨h.1,h.2.1.trans hm,hlast⟩,hm⟩

variable {p : ProbePermit} {owners : Owners}

theorem authorize_ok {floor : Int} (h : authorize floor sample p owners=.ok n) :
    now floor sample=.ok n ∧ p.issuedAt ≤ n ∧ n<p.expiresAt := by
  simp only [authorize,do_ok] at h
  obtain ⟨plan,-,-,slot,-,m,hm,machine,-,hp,rfl⟩ := h
  simp only [not_or,Int.not_lt,Int.not_le] at hp
  exact ⟨hm,hp.1,hp.2.2.1⟩

theorem find_some {s : Store} (h : s.find id=some p) : p∈s.records ∧ p.id=id := by
  have hid := List.find?_some h
  exact ⟨List.mem_of_find?_eq_some h,by simpa using hid⟩

variable {c : MachineCommand}

theorem named_ok {s : Store} (h : s.named c state=.ok p) :
    p∈s.records ∧ p.id=c.permitId ∧ p.state=state := by
  unfold named at h
  split at h
  · simp at h
  · rename_i q hq
    simp only [do_ok,not_or,not_not] at h
    obtain ⟨hs,rfl⟩ := h
    have hfound := find_some hq
    exact ⟨hfound.1,hfound.2,hs.1⟩

@[simp] theorem prune_observedAt (s : Store) (n : Int) : (s.prune n).observedAt=s.observedAt := by
  unfold prune
  split <;> rfl

theorem finish_ok (s t : Store) (n : Int) :
    s.finish n=.ok t ↔ s.observedAt ≤ n ∧ t={ s.prune (n-1000) with observedAt := n } := by
  simp only [finish,clock,do_ok,prune_observedAt,Int.not_lt]
  exact and_congr_right fun _ => eq_comm

variable {s t : Store}

theorem close_ok (h : s.close id state at_=.ok t) :
    0≤at_ ∧ t=s.closeAll (·.id == id) state at_ := by
  simp only [close,do_ok,not_or,Int.not_lt] at h
  exact ⟨h.1.2,h.2.2.symm⟩

theorem withdraw_ok (h : s.withdraw id at_=.ok t) :
    s.withdrawn id=false ∧ (∃r∈s.records, r.id=id ∧ r.state=.consumed ∧
      ∃c∈r.closedAt, r.issuedAt ≤ c ∧ c≤at_) ∧
    t={ s with withdrawals := s.withdrawals++[⟨id,at_⟩] } := by
  simp only [withdraw,do_ok,not_or,not_not,Bool.not_eq_true] at h
  exact ⟨h.2.1.1,h.2.1.2,h.2.2.symm⟩

/-- What an accepted issue has found and written. -/
structure Issued (s : Store) (id actor : String) (p : ProbePermit) (t : Store) : Prop where
  sampled : s.Sampled p.issuedAt
  name : p.id=id
  actor : p.actorId=actor
  opened : p.state=.issued ∧ p.closedAt=none
  valid : validProbePermit p
  room : (s.records.filter fun r => p.issuedAt < r.expiresAt+1000).length<256
  unexpired : ((s.records.filter fun r => p.issuedAt < r.expiresAt+1000).filter
    fun r => p.issuedAt < r.expiresAt).length<4
  alone : ∀r∈s.records, p.issuedAt < r.expiresAt+1000→
    r.actorId≠p.actorId ∧ r.binding.nodeId≠p.binding.nodeId
  written : t={ s.prune (p.issuedAt-1000) with
    observedAt := p.issuedAt, records := (s.prune (p.issuedAt-1000)).records++[p] }

theorem issue_ok {forward : String} {revision timeoutMs : Nat} {chosen : Option (String×Nat)}
    (h : s.issue id actor scope forward revision timeoutMs chosen owners n₁ n₂=.ok (t,p)) :
    s.Issued id actor p t := by
  simp only [issue,bind_ok] at h
  obtain ⟨-,-,-,-,floor,hfloor,plan,-,-,-,h⟩ := h
  split at h
  · simp at h
  simp only [do_ok] at h
  obtain ⟨-,slot,-,n,hn,evidence,-,-,hlimit,h⟩ := h
  split at h
  · simp at h
  simp only [do_ok,finish_ok,insert] at h
  obtain ⟨-,hvalid,pruned,⟨-,rfl⟩,t,⟨-,-,rfl⟩,heq⟩ := h
  obtain ⟨rfl,rfl⟩ := Prod.mk.inj heq
  simp only [not_or,Nat.not_le,not_exists,not_and,List.mem_filter,decide_eq_true_eq] at hlimit
  have hsampled := ((budget_ok hfloor).1.now hn).1
  exact {
    sampled := hsampled
    name := rfl
    actor := rfl
    opened := ⟨rfl,rfl⟩
    valid := by simpa using hvalid
    room := hlimit.1
    unexpired := hlimit.2.1
    alone := fun r hr hlate => hlimit.2.2 r ⟨hr,hlate⟩
    written := rfl }

theorem consume_ok (h : s.consume c owners n₁ n₂=.ok (t,p)) :
    ∃q∈s.records, ∃n, q.state=.issued ∧ s.Sampled n ∧ q.issuedAt ≤ n ∧ n<q.expiresAt ∧
      p={ q with state := .consumed, closedAt := some n } ∧
      t={ (s.closeAll (·.id == q.id) .consumed n).prune (n-1000) with observedAt := n } := by
  simp only [consume,do_ok] at h
  obtain ⟨-,floor,hfloor,q,hq,n,hn,closed,hclosed,t,ht,heq⟩ := h
  obtain ⟨rfl,rfl⟩ := Prod.mk.inj heq
  obtain ⟨hmem,-,hstate⟩ := named_ok hq
  obtain ⟨hnow,hissued,hlast⟩ := authorize_ok hn
  obtain ⟨-,rfl⟩ := close_ok hclosed
  obtain ⟨-,rfl⟩ := (finish_ok _ _ _).mp ht
  have hsampled := ((budget_ok hfloor).1.now hnow).1
  exact ⟨q,hmem,n,hstate,hsampled,hissued,hlast,rfl,rfl⟩

theorem check_ok (h : s.check c owners n₁ n₂=.ok (n,p)) :
    s.withdrawn c.permitId=false ∧ p∈s.records ∧ p.id=c.permitId := by
  simp only [check,do_ok,Bool.not_eq_true] at h
  obtain ⟨-,floor,-,hw,q,hq,m,-,heq⟩ := h
  obtain ⟨rfl,rfl⟩ := Prod.mk.inj heq
  have hnamed := named_ok hq
  exact ⟨hw,hnamed.1,hnamed.2.1⟩

section
variable {dates : Dates} {digest : ResultBody→String}
  {node fingerprint : String} {epoch : Nat} {b : ResultBody} {n₃ : Int}

theorem admitted_ok (h : s.admitted dates node fingerprint epoch b owners n₁ n₂ n₃=.ok (p,n)) :
    s.Sampled n ∧ p∈s.records ∧ p.id=b.permitId ∧ s.withdrawn b.permitId=false ∧
    parseProbeResult dates b ∧ timely dates b n := by
  simp only [admitted,do_ok] at h
  obtain ⟨hparse,-,-,floor,hfloor,h⟩ := h
  split at h
  · simp at h
  rename_i q hq
  simp only [do_ok,not_or,Bool.not_eq_true,Bool.not_eq_false] at h
  obtain ⟨hw,m₁,hm₁,m₂,hm₂,htimely,heq⟩ := h
  obtain ⟨rfl,rfl⟩ := Prod.mk.inj heq
  obtain ⟨hnow,-,-⟩ := authorize_ok hm₁
  have hsampled := (((budget_ok hfloor).1.now hnow).1.now hm₂).1
  have hfound := find_some hq
  exact ⟨hsampled,hfound.1,hfound.2,hw.1,by simpa using hparse,htimely.1⟩

theorem receiveResult_ok {n₄ : Int} {receipt : Receipt}
    (h : s.receiveResult dates digest node fingerprint epoch b owners n₁ n₂ n₃ n₄=
      .ok (t,receipt)) : ∃p n, s.admitted dates node fingerprint epoch b owners n₁ n₂ n₃=.ok (p,n) ∧
      ((∃r, s.result p.id=some r ∧ r.resultDigest=digest b ∧ t=s ∧
        receipt=⟨digest b,r.acceptedAt,n,true⟩) ∨
      (s.result p.id=none ∧ receipt.duplicate=false ∧ receipt.acceptedAt=n ∧
        t={ s with observedAt := n, results := s.results++[⟨b,digest b,n⟩] })) := by
  simp only [receiveResult,bind_ok] at h
  obtain ⟨⟨p,n⟩,hadmitted,h⟩ := h
  refine ⟨p,n,hadmitted,?_⟩
  simp only at h
  split at h
  · rename_i r hr
    simp only [do_ok,not_not] at h
    obtain ⟨-,hd,heq⟩ := h
    obtain ⟨rfl,rfl⟩ := Prod.mk.inj heq
    exact .inl ⟨r,hr,hd,rfl,rfl⟩
  · rename_i hr
    simp only [do_ok,recordResult,clock] at h
    obtain ⟨recorded,⟨-,rfl⟩,t,⟨-,rfl⟩,checked,-,-,heq⟩ := h
    obtain ⟨rfl,rfl⟩ := Prod.mk.inj heq
    exact .inr ⟨hr,rfl,rfl,rfl⟩

end

theorem revoke_ok (h : s.revoke actor scope id owners n₁ n₂=.ok t) : t=s ∨ ∃n, s.Sampled n ∧
      ((s.withdrawn id=false ∧ (∃r∈s.records, r.id=id ∧ r.state=.consumed ∧
          ∃c∈r.closedAt, r.issuedAt ≤ c ∧ c≤n) ∧
        t={ Store.prune { s with withdrawals := s.withdrawals++[⟨id,n⟩] } (n-1000) with
          observedAt := n }) ∨
      t={ (s.closeAll (·.id == id) .revoked n).prune (n-1000) with observedAt := n }) := by
  simp only [revoke,do_ok] at h
  obtain ⟨-,-,floor,hfloor,h⟩ := h
  split at h
  · simp at h
  rename_i p hp
  simp only [bind_ok] at h
  obtain ⟨n,hn,h⟩ := h
  have hsampled := ((budget_ok hfloor).1.now hn).1
  split at h
  · split_ifs at h
    · exact .inl ((pure_ok _ _).mp h).symm
    simp only [do_ok] at h
    obtain ⟨-,u,hu,ht⟩ := h
    obtain ⟨hw,hr,rfl⟩ := withdraw_ok hu
    obtain ⟨-,rfl⟩ := (finish_ok _ _ _).mp ht
    exact .inr ⟨n,hsampled,.inl ⟨hw,hr,rfl⟩⟩
  · simp only [bind_ok] at h
    obtain ⟨u,hu,ht⟩ := h
    obtain ⟨-,rfl⟩ := close_ok hu
    obtain ⟨-,rfl⟩ := (finish_ok _ _ _).mp ht
    have hid : p.id=id := by
      have hfound := List.find?_some hp
      simp only [schema_ok] at hfound
      exact hfound.1
    exact .inr ⟨n,hsampled,.inr (by rw [hid])⟩
  · exact .inl ((pure_ok _ _).mp h).symm

end Store

end TuneX.Control.Probe
