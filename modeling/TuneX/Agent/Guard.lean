import TuneX.Framework.GoTime

namespace TuneX.Agent.Authorization

open Framework

/-- One clock reading: wall time and monotonic uptime. -/
@[ext] structure Sample where
  wall : Int
  uptime : Int
  deriving DecidableEq, Repr

inductive Fault
  | invalidTiming
  | clockUnavailable
  | invalidSample
  | clockReadFailed
  | historyDiverged
  | credentialExpired
  | serverSkew
  | expiredExecution
  | invalidWindow
  | noRemaining
  | noAuthorization
  | authorizationEnded
  deriving DecidableEq, Repr

/-- The timing policy a guard is built with; a guard with another one cannot exist. -/
structure Timing where
  skew : Int
  maximum : Int
  skew_pos : 0<skew
  skew_lt_maximum : skew < maximum
  deriving DecidableEq

structure Guard where
  timing : Timing
  origin : Sample
  last : Sample
  /-- Zero when the credential carries no expiry. -/
  credentialUntil : Int
  failed : Option Fault
  currentUntil : Int
  hasCurrent : Bool
  deriving DecidableEq

@[ext] structure Ticket where
  until_ : Int
  wallUntil : Int
  deriving DecidableEq, Repr

/-- `New`: the clock is read once, and that reading is the origin of every later comparison. -/
def new (reading : Option Sample) (skew maximum credentialUntil : Int) : Except Fault Guard :=
  if h : 0<skew ∧ skew < maximum then
    match reading with
    | none => .error .clockUnavailable
    | some sample =>
      if sample.uptime<0 ∨ sample.wall=0 then .error .invalidSample
      else .ok ⟨⟨skew,maximum,h.1,h.2⟩,sample,sample,credentialUntil,none,0,false⟩
  else .error .invalidTiming

namespace Guard

def fail {α : Type} (guard : Guard) (fault : Fault) : Guard×Except Fault α :=
  ({guard with failed := some fault},.error fault)

/-- Drift of the wall clock against uptime since the origin, in 64-bit arithmetic. -/
def delta (guard : Guard) (sample : Sample) : Int :=
  wrap (instantSub sample.wall guard.origin.wall-wrap (sample.uptime-guard.origin.uptime))

/-- `sampleLocked`. A failed guard no longer reads the clock. -/
def sampleLocked (guard : Guard) (reading : Option Sample) : Guard×Except Fault Sample :=
  match guard.failed with
  | some fault => (guard,.error fault)
  | none =>
    match reading with
    | none => guard.fail .clockReadFailed
    | some sample =>
      if sample.uptime<guard.last.uptime ∨ sample.wall<guard.last.wall-guard.timing.skew ∨
          guard.timing.skew<guard.delta sample ∨ guard.delta sample< -guard.timing.skew then
        guard.fail .historyDiverged
      else
        let guard := {guard with last := sample}
        if guard.credentialUntil≠0 ∧ guard.credentialUntil ≤ sample.wall then
          guard.fail .credentialExpired
        else (guard,.ok sample)

def check (guard : Guard) (reading : Option Sample) : Guard×Except Fault Unit :=
  match guard.sampleLocked reading with
  | (guard,.error fault) => (guard,.error fault)
  | (guard,.ok _) => (guard,.ok ())

def validateServerTime (guard : Guard) (reading : Option Sample) (server : Int) :
    Guard×Except Fault Unit :=
  match guard.sampleLocked reading with
  | (guard,.error fault) => (guard,.error fault)
  | (guard,.ok sample) =>
    let delta := instantSub sample.wall server
    if guard.timing.skew<delta ∨ delta< -guard.timing.skew then guard.fail .serverSkew
    else (guard,.ok ())

def credential (guard : Guard) (reading : Option Sample) (until_ : Int) :
    Guard×Except Fault Unit :=
  match guard.sampleLocked reading with
  | (guard,.error fault) => (guard,.error fault)
  | (guard,.ok _) => ({guard with credentialUntil := until_},.ok ())

/-- Wall instant at which an accepted window ends: skew before its end, or the
credential's expiry when that is earlier. -/
def cutoff (guard : Guard) (valid : Int) : Int :=
  if guard.credentialUntil≠0 ∧ guard.credentialUntil<valid-guard.timing.skew then
    guard.credentialUntil
  else valid-guard.timing.skew

def accept (guard : Guard) (reading : Option Sample) (issued valid : Int) :
    Guard×Except Fault Ticket :=
  match guard.sampleLocked reading with
  | (guard,.error fault) => (guard,.error fault)
  | (guard,.ok sample) =>
    if guard.hasCurrent ∧ guard.currentUntil ≤ sample.uptime then (guard,.error .expiredExecution)
    else if sample.wall+guard.timing.skew < issued ∨ valid ≤ issued ∨
        guard.timing.maximum < instantSub valid issued then (guard,.error .invalidWindow)
    else
      let remaining := instantSub (guard.cutoff valid) sample.wall
      if remaining≤0 then (guard,.error .noRemaining)
      else
        let currentUntil := wrap (sample.uptime+min remaining guard.timing.maximum)
        ({guard with currentUntil := currentUntil, hasCurrent := true},
          .ok ⟨currentUntil,guard.cutoff valid⟩)

/-- `Allow`; the absent ticket is the nil receiver, for which the clock is not read. -/
def allow (guard : Guard) (reading : Option Sample) (ticket : Option Ticket) :
    Guard×Except Fault Unit :=
  match ticket with
  | none => (guard,.error .noAuthorization)
  | some ticket =>
    match guard.sampleLocked reading with
    | (guard,.error fault) => (guard,.error fault)
    | (guard,.ok sample) =>
      if ticket.until_ ≤ sample.uptime ∨ ticket.wallUntil ≤ sample.wall then
        (guard,.error .authorizationEnded)
      else (guard,.ok ())

end Guard

namespace Ticket

/-- The samples at which a ticket has not ended: before both of its deadlines. -/
def Covers (ticket : Ticket) (sample : Sample) : Prop :=
  sample.uptime<ticket.until_ ∧ sample.wall<ticket.wallUntil

/-- A ticket that ends no later than another one on either clock. -/
def Within (child parent : Ticket) : Prop :=
  child.until_≤parent.until_ ∧ child.wallUntil≤parent.wallUntil

theorem Covers.mono {child parent : Ticket} {sample : Sample} (hc : child.Covers sample)
    (hw : child.Within parent) : parent.Covers sample :=
  ⟨hc.1.trans_le hw.1,hc.2.trans_le hw.2⟩

theorem Within.trans {a b c : Ticket} (hab : a.Within b) (hbc : b.Within c) : a.Within c :=
  ⟨hab.1.trans hbc.1,hab.2.trans hbc.2⟩

end Ticket

namespace Guard

def minTime (a b : Int) : Int := if a<b then a else b

/-- `Drain` always returns a ticket; after a failed sample it is one that has already ended. -/
def drain (guard : Guard) (reading : Option Sample) (ticket : Ticket) (duration : Int) :
    Guard×Ticket :=
  match guard.sampleLocked reading with
  | (guard,.error _) => (guard,⟨0,0⟩)
  | (guard,.ok sample) =>
    (guard,⟨min ticket.until_ (wrap (sample.uptime+duration)),
      minTime ticket.wallUntil (sample.wall+duration)⟩)

/-- What one call may do to a guard: a failed guard is frozen, and a guard that has not
failed keeps its last sample or moves it to the reading, never back in uptime. -/
structure Sampled (guard : Guard) (reading : Option Sample) (guard' : Guard) : Prop where
  timing : guard'.timing=guard.timing
  frozen : guard.failed≠none → guard'=guard
  live : guard'.failed=none → guard.failed=none
  last : guard'.failed=none → guard'.last=guard.last ∨
    reading=some guard'.last ∧ guard.last.uptime≤guard'.last.uptime

variable {guard guard' : Guard} {reading : Option Sample}

theorem sampleLocked_ok {sample : Sample} (h : guard.sampleLocked reading=(guard',.ok sample)) :
    guard.failed=none ∧ reading=some sample ∧ guard.last.uptime ≤ sample.uptime ∧
      (guard.credentialUntil≠0→sample.wall<guard.credentialUntil) ∧
      guard'={guard with last := sample} := by
  unfold sampleLocked at h
  split at h
  · simp at h
  · rename_i hf
    split at h
    · simp [fail] at h
    · dsimp only at h
      split_ifs at h with hd hc
      · simp [fail] at h
      · simp [fail] at h
      · obtain ⟨rfl,hs⟩ := Prod.mk.inj h
        obtain rfl := Except.ok.inj hs
        simp only [not_or,not_lt] at hd
        exact ⟨hf,rfl,hd.1,fun h0 => not_le.mp fun hle => hc ⟨h0,hle⟩,rfl⟩

theorem sampleLocked_error {fault : Fault}
    (h : guard.sampleLocked reading=(guard',.error fault)) :
    guard'.failed=some fault ∧ guard'.timing=guard.timing ∧
      (guard.failed≠none → guard'=guard) := by
  unfold sampleLocked at h
  split at h
  · rename_i f hf
    obtain ⟨rfl,hs⟩ := Prod.mk.inj h
    obtain rfl := Except.error.inj hs
    exact ⟨hf,rfl,fun _ => rfl⟩
  · rename_i hf
    split at h
    · obtain ⟨rfl,hs⟩ := Prod.mk.inj h
      obtain rfl := Except.error.inj hs
      exact ⟨rfl,rfl,fun hn => absurd hf hn⟩
    · dsimp only at h
      split_ifs at h
      · obtain ⟨rfl,hs⟩ := Prod.mk.inj h
        obtain rfl := Except.error.inj hs
        exact ⟨rfl,rfl,fun hn => absurd hf hn⟩
      · obtain ⟨rfl,hs⟩ := Prod.mk.inj h
        obtain rfl := Except.error.inj hs
        exact ⟨rfl,rfl,fun hn => absurd hf hn⟩
      · simp at h

theorem Sampled.of_ok {sample : Sample} {next : Guard}
    (h : guard.sampleLocked reading=(guard',.ok sample)) (ht : next.timing=guard'.timing)
    (hl : next.last=guard'.last) : Sampled guard reading next := by
  obtain ⟨hf,hr,hu,-,rfl⟩ := sampleLocked_ok h
  refine ⟨ht,fun hn => absurd hf hn,fun _ => hf,fun _ => .inr ?_⟩
  rw [hl]
  exact ⟨hr,hu⟩

theorem Sampled.of_error {fault : Fault}
    (h : guard.sampleLocked reading=(guard',.error fault)) : Sampled guard reading guard' := by
  obtain ⟨hf,ht,hz⟩ := sampleLocked_error h
  refine ⟨ht,hz,fun hn => ?_,fun hn => ?_⟩ <;> simp [hf] at hn

theorem Sampled.refl (guard : Guard) (reading : Option Sample) : Sampled guard reading guard :=
  ⟨rfl,fun _ => rfl,id,fun _ => .inl rfl⟩

theorem check_sampled (guard : Guard) (reading : Option Sample) :
    Sampled guard reading (guard.check reading).1 := by
  unfold check
  split
  · next h => exact Sampled.of_error h
  · next h => exact Sampled.of_ok h rfl rfl

theorem validateServerTime_sampled (guard : Guard) (reading : Option Sample) (server : Int) :
    Sampled guard reading (guard.validateServerTime reading server).1 := by
  unfold validateServerTime
  split
  · next h => exact Sampled.of_error h
  · next h =>
    dsimp only
    split_ifs <;> exact Sampled.of_ok h rfl rfl

theorem credential_sampled (guard : Guard) (reading : Option Sample) (until_ : Int) :
    Sampled guard reading (guard.credential reading until_).1 := by
  unfold credential
  split
  · next h => exact Sampled.of_error h
  · next h => exact Sampled.of_ok h rfl rfl

theorem accept_sampled (guard : Guard) (reading : Option Sample) (issued valid : Int) :
    Sampled guard reading (guard.accept reading issued valid).1 := by
  unfold accept
  split
  · next h => exact Sampled.of_error h
  · next h =>
    dsimp only
    split_ifs <;> exact Sampled.of_ok h rfl rfl

theorem allow_sampled (guard : Guard) (reading : Option Sample) (ticket : Option Ticket) :
    Sampled guard reading (guard.allow reading ticket).1 := by
  unfold allow
  split
  · exact Sampled.refl _ _
  · split
    · next h => exact Sampled.of_error h
    · split_ifs <;> exact Sampled.of_ok ‹_› rfl rfl

theorem drain_sampled (guard : Guard) (reading : Option Sample) (ticket : Ticket)
    (duration : Int) : Sampled guard reading (guard.drain reading ticket duration).1 := by
  unfold drain
  split
  · next h => exact Sampled.of_error h
  · next h => exact Sampled.of_ok h rfl rfl

theorem cutoff_le (guard : Guard) (valid : Int) :
    guard.cutoff valid≤valid-guard.timing.skew := by
  unfold cutoff
  split_ifs <;> omega

theorem cutoff_le_credential (guard : Guard) (valid : Int) (hc : guard.credentialUntil≠0) :
    guard.cutoff valid≤guard.credentialUntil := by
  unfold cutoff
  split_ifs <;> omega

theorem accept_ok {issued valid : Int} {ticket : Ticket}
    (h : guard.accept reading issued valid=(guard',.ok ticket)) :
    ∃sample, guard.sampleLocked reading=({guard with last := sample},.ok sample) ∧
      guard'.failed=none ∧ ticket.wallUntil=guard.cutoff valid ∧
      0 < instantSub (guard.cutoff valid) sample.wall ∧
      ticket.until_=wrap (sample.uptime+
        min (instantSub (guard.cutoff valid) sample.wall) guard.timing.maximum) := by
  unfold accept at h
  split at h
  · simp at h
  · next mid sample hs =>
    obtain ⟨hf,-,-,-,rfl⟩ := sampleLocked_ok hs
    dsimp only at h
    split_ifs at h with h₁ h₂ h₃
    · simp at h
    · simp at h
    · simp at h
    · obtain ⟨rfl,ht⟩ := Prod.mk.inj h
      obtain rfl := Except.ok.inj ht
      exact ⟨sample,hs,hf,rfl,not_le.mp h₃,rfl⟩

theorem accept_failed (hf : guard.failed≠none) (reading : Option Sample) (issued valid : Int) :
    ∃fault, (guard.accept reading issued valid).2=.error fault := by
  unfold accept
  split
  · next fault _ => exact ⟨fault,rfl⟩
  · next h => exact absurd (sampleLocked_ok h).1 hf

theorem allow_eq_ok (guard : Guard) (reading : Option Sample) (ticket : Option Ticket) :
    (guard.allow reading ticket).2=.ok () ↔
      ∃t sample, ticket=some t ∧
        guard.sampleLocked reading=({guard with last := sample},.ok sample) ∧
        t.Covers sample := by
  unfold allow
  split
  · simp
  · next t =>
    split
    · next h => simp [h]
    · next g sample h =>
      obtain ⟨-,-,-,-,rfl⟩ := sampleLocked_ok h
      split_ifs with hc
      · constructor
        · intro hr
          cases hr
        · rintro ⟨t',sample',ht,hs,hcov⟩
          obtain rfl := Option.some.inj ht
          obtain rfl := Except.ok.inj (Prod.mk.inj (h.symm.trans hs)).2
          unfold Ticket.Covers at hcov
          omega
      · simp only [not_or,not_le] at hc
        exact ⟨fun _ => ⟨t,sample,rfl,h,hc⟩,fun _ => rfl⟩

theorem allow_failed (hf : guard.failed≠none) (ticket : Option Ticket) :
    (guard.allow reading ticket).2≠.ok () := by
  intro h
  obtain ⟨t,sample,-,hs,-⟩ := (allow_eq_ok guard reading ticket).mp h
  exact hf (sampleLocked_ok hs).1

theorem drain_within {ticket : Ticket} {duration : Int}
    (hf : (guard.drain reading ticket duration).1.failed=none) :
    (guard.drain reading ticket duration).2.Within ticket := by
  unfold drain at *
  split at hf
  · next h => simp [(sampleLocked_error h).1] at hf
  · unfold Ticket.Within minTime
    dsimp only
    split_ifs <;> omega

end Guard

end TuneX.Agent.Authorization
