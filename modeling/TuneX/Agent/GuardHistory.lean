import TuneX.Agent.Guard
import TuneX.Framework.Run

namespace TuneX.Agent.Authorization

open Framework

/-- A ticket handed out, with the ticket it was drained from if there is one. -/
structure Issued where
  ticket : Ticket
  parent : Option Nat
  deriving DecidableEq, Repr

/-- One guard with the tickets it has handed out, oldest first. -/
structure Session where
  guard : Guard
  tickets : List Issued
  deriving DecidableEq

inductive Call
  | check
  | validateServerTime (server : Int)
  | credential (until_ : Int)
  | accept (issued valid : Int)
  | allow (ticket : Nat)
  | drain (ticket : Nat) (duration : Int)
  deriving DecidableEq, Repr

inductive Reply
  | done
  | denied (fault : Fault)
  | ticket (index : Nat)
  deriving DecidableEq, Repr

structure Event where
  call : Call
  reading : Option Sample
  reply : Reply
  deriving DecidableEq, Repr

def Reply.ofResult : Except Fault Unit→Reply
  | .ok _ => .done
  | .error fault => .denied fault

namespace Session

def start (guard : Guard) : Session := ⟨guard,[]⟩

def ticket (s : Session) (i : Nat) : Option Ticket := s.tickets[i]?.map Issued.ticket

/-- One call under the guard's lock, with the reading its clock would give. An index
without a ticket is a nil ticket: it may be asked for permission but not drained. -/
def exec (s : Session) (reading : Option Sample) : Call→Option (Session×Reply)
  | .check =>
    some (⟨(s.guard.check reading).1,s.tickets⟩,.ofResult (s.guard.check reading).2)
  | .validateServerTime server =>
    some (⟨(s.guard.validateServerTime reading server).1,s.tickets⟩,
      .ofResult (s.guard.validateServerTime reading server).2)
  | .credential until_ =>
    some (⟨(s.guard.credential reading until_).1,s.tickets⟩,
      .ofResult (s.guard.credential reading until_).2)
  | .accept issued valid =>
    match s.guard.accept reading issued valid with
    | (guard,.error fault) => some (⟨guard,s.tickets⟩,.denied fault)
    | (guard,.ok ticket) => some (⟨guard,s.tickets++[⟨ticket,none⟩]⟩,.ticket s.tickets.length)
  | .allow i =>
    some (⟨(s.guard.allow reading (s.ticket i)).1,s.tickets⟩,
      .ofResult (s.guard.allow reading (s.ticket i)).2)
  | .drain i duration =>
    (s.ticket i).map fun parent =>
      (⟨(s.guard.drain reading parent duration).1,
        s.tickets++[⟨(s.guard.drain reading parent duration).2,some i⟩]⟩,
        .ticket s.tickets.length)

def Step (s : Session) (e : Event) (t : Session) : Prop :=
  s.exec e.reading e.call=some (t,e.reply)

instance (s : Session) (e : Event) (t : Session) : Decidable (s.Step e t) :=
  inferInstanceAs (Decidable (_=_))

/-- The ticket itself or one obtained from it by any number of drains. -/
inductive DrainedFrom (s : Session) (i : Nat) : Nat→Prop
  | self : DrainedFrom s i i
  | drain {j k : Nat} {child : Ticket} :
      DrainedFrom s i j→s.tickets[k]?=some ⟨child,some j⟩→DrainedFrom s i k

/-- Uptime readings are not negative, and while the guard has not failed every
drained ticket ends no later than its parent. -/
structure Valid (s : Session) : Prop where
  uptime : s.guard.failed=none→0 ≤ s.guard.last.uptime
  drained : s.guard.failed=none→∀(k : Nat) (child : Ticket) (p : Nat),
    s.tickets[k]?=some ⟨child,some p⟩→∃parent, s.ticket p=some parent ∧ child.Within parent

variable {s t : Session} {e : Event}

theorem step_sampled (h : s.Step e t) : s.guard.Sampled e.reading t.guard := by
  obtain ⟨call,reading,reply⟩ := e
  unfold Step exec at h
  cases call with
  | check => obtain ⟨rfl,-⟩ := Prod.mk.inj (Option.some.inj h); exact Guard.check_sampled _ _
  | validateServerTime server =>
    obtain ⟨rfl,-⟩ := Prod.mk.inj (Option.some.inj h)
    exact Guard.validateServerTime_sampled _ _ _
  | credential until_ =>
    obtain ⟨rfl,-⟩ := Prod.mk.inj (Option.some.inj h)
    exact Guard.credential_sampled _ _ _
  | accept issued valid =>
    have hs := Guard.accept_sampled s.guard reading issued valid
    dsimp only at h
    split at h <;> rename_i ha <;> obtain ⟨rfl,-⟩ := Prod.mk.inj (Option.some.inj h) <;>
      rwa [ha] at hs
  | allow i =>
    obtain ⟨rfl,-⟩ := Prod.mk.inj (Option.some.inj h)
    exact Guard.allow_sampled _ _ _
  | drain i duration =>
    obtain ⟨parent,-,hp⟩ := Option.map_eq_some_iff.mp h
    obtain ⟨rfl,-⟩ := Prod.mk.inj hp
    exact Guard.drain_sampled _ _ _ _

variable {reading : Option Sample}
  {issued valid duration skew maximum credentialUntil : Int} {k i : Nat} {reply : Reply}
  {guard : Guard}

theorem accept_inv (h : s.Step ⟨.accept issued valid,reading,.ticket k⟩ t) :
    ∃ticket, s.guard.accept reading issued valid=(t.guard,.ok ticket) ∧
      k=s.tickets.length ∧ t.tickets=s.tickets++[⟨ticket,none⟩] := by
  unfold Step exec at h
  dsimp only at h
  split at h
  · cases (Prod.mk.inj (Option.some.inj h)).2
  · next guard ticket ha =>
    obtain ⟨rfl,hk⟩ := Prod.mk.inj (Option.some.inj h)
    obtain rfl := Reply.ticket.inj hk
    exact ⟨ticket,ha,rfl,rfl⟩

theorem drain_inv (h : s.Step ⟨.drain i duration,reading,reply⟩ t) :
    ∃parent, s.ticket i=some parent ∧ t.guard=(s.guard.drain reading parent duration).1 ∧
      t.tickets=s.tickets++[⟨(s.guard.drain reading parent duration).2,some i⟩] ∧
      reply=.ticket s.tickets.length := by
  obtain ⟨parent,hi,hp⟩ := Option.map_eq_some_iff.mp h
  obtain ⟨rfl,rfl⟩ := Prod.mk.inj hp
  exact ⟨parent,hi,rfl,rfl,rfl⟩

theorem allow_inv (h : s.Step ⟨.allow i,reading,reply⟩ t) :
    t.guard=(s.guard.allow reading (s.ticket i)).1 ∧
      reply=.ofResult (s.guard.allow reading (s.ticket i)).2 := by
  obtain ⟨rfl,hr⟩ := Prod.mk.inj (Option.some.inj h)
  exact ⟨rfl,hr.symm⟩

theorem step_tickets (h : s.Step e t) :
    t.tickets=s.tickets ∨ (∃ticket, t.tickets=s.tickets++[⟨ticket,none⟩]) ∨
      ∃i duration, e.call=.drain i duration := by
  obtain ⟨call,reading,reply⟩ := e
  cases call with
  | check => obtain ⟨rfl,-⟩ := Prod.mk.inj (Option.some.inj h); exact .inl rfl
  | validateServerTime server | credential until_ | allow i =>
    obtain ⟨rfl,-⟩ := Prod.mk.inj (Option.some.inj h)
    exact .inl rfl
  | accept issued valid =>
    unfold Step exec at h
    dsimp only at h
    split at h <;> obtain ⟨rfl,-⟩ := Prod.mk.inj (Option.some.inj h)
    · exact .inl rfl
    · exact .inr (.inl ⟨_,rfl⟩)
  | drain i duration => exact .inr (.inr ⟨i,duration,rfl⟩)

theorem step_extends (h : s.Step e t) : s.tickets<+:t.tickets := by
  rcases step_tickets h with ht|⟨ticket,ht⟩|⟨i,duration,hc⟩
  · exact ht ▸ List.prefix_rfl
  · rw [ht]
    exact List.prefix_append _ _
  · obtain ⟨call,reading,reply⟩ := e
    obtain rfl : call=.drain i duration := hc
    obtain ⟨parent,-,-,ht,-⟩ := drain_inv h
    rw [ht]
    exact List.prefix_append _ _

theorem issued_of_extends {l m : List Issued} (h : l<+:m) {issued : Issued} (hi : l[i]?=some issued) :
    m[i]?=some issued := by
  obtain ⟨r,rfl⟩ := h
  rw [List.getElem?_append_left (List.getElem?_eq_some_iff.mp hi).1]
  exact hi

theorem ticket_of_extends (h : s.tickets<+:t.tickets) {ticket : Ticket}
    (hi : s.ticket i=some ticket) : t.ticket i=some ticket := by
  obtain ⟨issued,hs,rfl⟩ := Option.map_eq_some_iff.mp hi
  unfold Session.ticket
  rw [issued_of_extends h hs]
  rfl

theorem start_valid (h : new reading skew maximum credentialUntil=.ok guard) :
    (start guard).Valid := by
  refine ⟨fun _ => ?_,fun _ k child p hk => ?_⟩
  · unfold new at h
    split_ifs at h
    split at h
    · cases h
    · split_ifs at h with hs
      obtain rfl := Except.ok.inj h
      exact not_lt.mp fun hn => hs (.inl hn)
  · simp [start] at hk

theorem step_uptime (h : s.Step e t) (hv : s.Valid) (hf : t.guard.failed=none) :
    0≤t.guard.last.uptime := by
  have hs := step_sampled h
  have h0 := hv.uptime (hs.live hf)
  rcases hs.last hf with hl|⟨-,hu⟩
  · rw [hl]
    exact h0
  · exact h0.trans hu

theorem step_valid (h : s.Step e t) (hv : s.Valid) : t.Valid := by
  refine ⟨step_uptime h hv,fun hf k child p hk => ?_⟩
  have hfs := (step_sampled h).live hf
  have hp := step_extends h
  -- A new entry at the end is the only one the old session does not already account for.
  have old : s.tickets[k]?=some ⟨child,some p⟩→
      ∃parent, t.ticket p=some parent ∧ child.Within parent := by
    intro hs
    obtain ⟨parent,hpar,hw⟩ := hv.drained hfs k child p hs
    exact ⟨parent,ticket_of_extends hp hpar,hw⟩
  rcases step_tickets h with ht|⟨ticket,ht⟩|⟨i,duration,hc⟩
  · exact old (ht ▸ hk)
  · rw [ht,List.getElem?_append] at hk
    split_ifs at hk
    · exact old hk
    · simp [List.getElem?_singleton] at hk
  · obtain ⟨call,reading,reply⟩ := e
    obtain rfl : call=.drain i duration := hc
    obtain ⟨parent,hi,hg,ht,-⟩ := drain_inv h
    rw [ht,List.getElem?_append] at hk
    split_ifs at hk
    · exact old hk
    · rw [List.getElem?_singleton] at hk
      split_ifs at hk
      obtain ⟨rfl,hip⟩ := Issued.mk.inj (Option.some.inj hk)
      obtain rfl := Option.some.inj hip
      exact ⟨parent,ticket_of_extends hp hi,Guard.drain_within (hg ▸ hf)⟩

variable {l : List Event}

theorem run_valid (h : Run Step s l t) (hv : s.Valid) : t.Valid :=
  h.invariant Valid (fun _ _ _ => step_valid) hv

theorem run_extends (h : Run Step s l t) : s.tickets<+:t.tickets :=
  h.invariant (fun u => s.tickets<+:u.tickets) (fun _ _ _ hs hp => hp.trans (step_extends hs))
    List.prefix_rfl

theorem run_timing (h : Run Step s l t) : t.guard.timing=s.guard.timing :=
  h.invariant (fun u => u.guard.timing=s.guard.timing)
    (fun _ _ _ hs ht => (step_sampled hs).timing.trans ht) rfl

theorem run_frozen (h : Run Step s l t) (hf : s.guard.failed≠none) : t.guard=s.guard :=
  h.invariant (fun u => u.guard=s.guard)
    (fun _ _ _ hs hu => ((step_sampled hs).frozen (hu ▸ hf)).trans hu) rfl

theorem run_live (h : Run Step s l t) (hf : t.guard.failed=none) : s.guard.failed=none := by
  by_contra hn
  exact hn (run_frozen h hn ▸ hf)

theorem new_timing (h : new reading skew maximum credentialUntil=.ok guard) :
    guard.timing.skew=skew ∧ guard.timing.maximum=maximum := by
  unfold new at h
  split_ifs at h
  split at h
  · cases h
  · split_ifs at h
    obtain rfl := Except.ok.inj h
    exact ⟨rfl,rfl⟩

theorem allow_done (h : s.Step ⟨.allow i,reading,.done⟩ t) :
    ∃ticket sample, s.ticket i=some ticket ∧
      s.guard.sampleLocked reading=({s.guard with last := sample},.ok sample) ∧
      ticket.Covers sample := by
  refine (Guard.allow_eq_ok s.guard reading (s.ticket i)).mp ?_
  have hr := (allow_inv h).2
  cases ha : (s.guard.allow reading (s.ticket i)).2 with
  | ok => rfl
  | error fault =>
    rw [ha] at hr
    cases hr

/-- The deadlines fixed at acceptance, read as exact integer bounds: an uptime sum that
leaves the 64-bit range wraps to a deadline that has already passed. -/
theorem accept_deadlines (hv : s.Valid) (h : s.Step ⟨.accept issued valid,reading,.ticket k⟩ t) :
    ∃ticket sample, reading=some sample ∧ t.ticket k=some ticket ∧
      ticket.wallUntil≤valid-s.guard.timing.skew ∧
      (s.guard.credentialUntil≠0→ticket.wallUntil ≤ s.guard.credentialUntil) ∧
      ticket.until_ ≤ sample.uptime+
        min s.guard.timing.maximum (valid-s.guard.timing.skew-sample.wall) := by
  obtain ⟨ticket,ha,rfl,ht⟩ := accept_inv h
  obtain ⟨sample,hs,hf,hw,hr,hu⟩ := Guard.accept_ok ha
  obtain ⟨hf,rfl,hup,-,-⟩ := Guard.sampleLocked_ok hs
  have h0 := hv.uptime hf
  have hmax := s.guard.timing.skew_pos.trans s.guard.timing.skew_lt_maximum
  obtain ⟨-,hsub⟩ := instantSub_pos _ _ hr
  have hcut := s.guard.cutoff_le valid
  refine ⟨ticket,sample,rfl,?_,hw ▸ hcut,fun hc => hw ▸ s.guard.cutoff_le_credential valid hc,?_⟩
  · unfold Session.ticket
    rw [ht]
    simp
  · rw [hu]
    refine (wrap_le _ ?_).trans ?_
    · unfold minDuration
      omega
    · omega

theorem drained_allowed {j : Nat} {reading' : Option Sample} {u v : Session}
    (hd : s.Step ⟨.drain i duration,reading,.ticket j⟩ t) (hr : Run Step t l u)
    (hj : u.Step ⟨.allow j,reading',.done⟩ v) : u.Step ⟨.allow i,reading',.done⟩ v := by
  obtain ⟨parent,hi,hg,ht,hj'⟩ := drain_inv hd
  obtain rfl := Reply.ticket.inj hj'
  obtain ⟨child,sample,hc,hs,hcov⟩ := allow_done hj
  have hft := run_live hr (Guard.sampleLocked_ok hs).1
  have hw := Guard.drain_within (hg ▸ hft)
  have hchild : t.ticket s.tickets.length=some (s.guard.drain reading parent duration).2 := by
    unfold Session.ticket
    rw [ht]
    simp
  have hpar := ticket_of_extends ((step_extends hd).trans (run_extends hr)) hi
  obtain rfl := Option.some.inj ((ticket_of_extends (run_extends hr) hchild).symm.trans hc)
  have hok : ∀(k : Nat) (ticket : Ticket), u.ticket k=some ticket→ticket.Covers sample→
      u.guard.allow reading' (u.ticket k)=({u.guard with last := sample},.ok ()) := by
    intro k ticket hk hcov
    unfold Guard.allow
    rw [hk]
    dsimp only
    rw [hs]
    exact if_neg (by unfold Ticket.Covers at hcov; omega)
  unfold Step exec at hj ⊢
  dsimp only at hj ⊢
  rw [hok i parent hpar (hcov.mono hw)]
  rw [hok _ _ hc hcov] at hj
  exact hj

theorem failed_denied (h : s.Step e t) (hf : s.guard.failed≠none) :
    (∀i, e.call=.allow i→∃fault, e.reply=.denied fault) ∧
      ∀issued valid, e.call=.accept issued valid→∃fault, e.reply=.denied fault := by
  obtain ⟨call,reading,reply⟩ := e
  refine ⟨?_,?_⟩
  · rintro i rfl
    obtain ⟨-,rfl⟩ := allow_inv h
    cases ha : (s.guard.allow reading (s.ticket i)).2 with
    | ok => exact absurd ha (Guard.allow_failed hf _)
    | error fault => exact ⟨fault,rfl⟩
  · rintro issued valid rfl
    obtain ⟨fault,ha⟩ := Guard.accept_failed hf reading issued valid
    unfold Step exec at h
    dsimp only at h
    split at h
    · next f _ => exact ⟨f,(Prod.mk.inj (Option.some.inj h)).2.symm⟩
    · next ho =>
      rw [ho] at ha
      cases ha

/-- Tickets bound authority over every history of one guard: what an allowed sample must
satisfy, that a drained ticket grants nothing its parent would not, and that failure is final. -/
theorem ticket_authority_bounded (reading : Option Sample) (skew maximum credentialUntil : Int)
    (guard : Guard) (hnew : new reading skew maximum credentialUntil=.ok guard) :
    (∀(l₁ l₂ : List Event) (s₁ s₂ s₃ s₄ : Session) (issued valid : Int)
        (r₁ r₂ : Option Sample) (k : Nat),
      Run Step (start guard) l₁ s₁→s₁.Step ⟨.accept issued valid,r₁,.ticket k⟩ s₂→
      Run Step s₂ l₂ s₃→s₃.Step ⟨.allow k,r₂,.done⟩ s₄→
      ∃a b, r₁=some a ∧ r₂=some b ∧
        (∀(l l' : List Event) (t : Session), Run Step (start guard) l t→Run Step t l' s₃→
          t.guard.failed=none) ∧
        b.wall<valid-skew ∧
        (s₁.guard.credentialUntil≠0→b.wall<s₁.guard.credentialUntil) ∧
        (s₃.guard.credentialUntil≠0→b.wall<s₃.guard.credentialUntil) ∧
        b.uptime<a.uptime+min maximum (valid-skew-a.wall)) ∧
    (∀(l₁ l₂ : List Event) (s₁ s₂ s₃ s₄ : Session) (duration : Int)
        (r₁ r₂ : Option Sample) (i j : Nat),
      Run Step (start guard) l₁ s₁→s₁.Step ⟨.drain i duration,r₁,.ticket j⟩ s₂→
      Run Step s₂ l₂ s₃→s₃.Step ⟨.allow j,r₂,.done⟩ s₄→s₃.Step ⟨.allow i,r₂,.done⟩ s₄) ∧
    (∀(l₁ l₂ : List Event) (s t u : Session) (e : Event),
      Run Step (start guard) l₁ s→s.guard.failed≠none→Run Step s l₂ t→t.Step e u→
      (∀i, e.call=.allow i→∃fault, e.reply=.denied fault) ∧
        ∀issued valid, e.call=.accept issued valid→∃fault, e.reply=.denied fault) := by
  have hv := start_valid hnew
  obtain ⟨hskew,hmax⟩ := new_timing hnew
  refine ⟨?_,?_,?_⟩
  · intro l₁ l₂ s₁ s₂ s₃ s₄ issued valid r₁ r₂ k h₁ ha h₂ hd
    have htime : s₁.guard.timing=guard.timing := run_timing h₁
    obtain ⟨ticket,a,rfl,hk,hwall,hcred,huntil⟩ := accept_deadlines (run_valid h₁ hv) ha
    obtain ⟨ticket',b,hk',hs,hcov⟩ := allow_done hd
    obtain rfl := Option.some.inj ((ticket_of_extends (run_extends h₂) hk).symm.trans hk')
    obtain ⟨hf,rfl,-,hnow,-⟩ := Guard.sampleLocked_ok hs
    rw [htime,hskew] at hwall
    rw [htime,hskew,hmax] at huntil
    exact ⟨a,b,rfl,rfl,fun l l' t _ ht => run_live ht hf,hcov.2.trans_le hwall,
      fun hc => hcov.2.trans_le (hcred hc),hnow,hcov.1.trans_le huntil⟩
  · intro l₁ l₂ s₁ s₂ s₃ s₄ duration r₁ r₂ i j _ hd h₂ hj
    exact drained_allowed hd h₂ hj
  · intro l₁ l₂ s t u e _ hf h₂ he
    exact failed_denied he (run_frozen h₂ hf ▸ hf)

/-- A guard started at wall 1000 and uptime 0 with skew 5 and maximum 300. -/
def leaseGuard : Guard := ⟨⟨5,300,by decide,by decide⟩,⟨1000,0⟩,⟨1000,0⟩,0,none,0,false⟩

/-- That guard after it accepts, at its first reading, a lease that is valid until 1020. -/
def leased : Session :=
  ⟨{leaseGuard with currentUntil := 15, hasCurrent := true},[⟨⟨15,1015⟩,none⟩]⟩

def leasedAt (sample : Sample) : Guard := {leased.guard with last := sample}

theorem leased_run :
    Run Step (start leaseGuard) [⟨.accept 1000 1020,some ⟨1000,0⟩,.ticket 0⟩] leased :=
  Run.single (by decide)

theorem ticket_authority_bounded_leased :
    ((1010 : Int)<1020-5 ∧ (10 : Int)<0+min 300 (1020-5-1000)) ∧
    (⟨leasedAt ⟨1005,5⟩,leased.tickets++[⟨⟨13,1013⟩,some 0⟩]⟩ : Session).Step
      ⟨.allow 0,some ⟨1011,11⟩,.done⟩
      ⟨leasedAt ⟨1011,11⟩,leased.tickets++[⟨⟨13,1013⟩,some 0⟩]⟩ ∧
    ∃fault, (⟨.allow 0,some ⟨1001,1⟩,.denied .clockReadFailed⟩ : Event).reply=.denied fault := by
  obtain ⟨hallow,hdrain,hfail⟩ :=
    ticket_authority_bounded (some ⟨1000,0⟩) 5 300 0 leaseGuard rfl
  obtain ⟨a,b,ha,hb,-,hwall,-,-,hup⟩ := hallow [] [] (start leaseGuard) leased leased
    ⟨leasedAt ⟨1010,10⟩,leased.tickets⟩ 1000 1020 (some ⟨1000,0⟩) (some ⟨1010,10⟩) 0
    .refl (by decide) .refl (by decide)
  obtain rfl := Option.some.inj ha
  obtain rfl := Option.some.inj hb
  refine ⟨⟨hwall,hup⟩,?_,?_⟩
  · exact hdrain _ [] leased _ _ _ 8 (some ⟨1005,5⟩) _ 0 1 leased_run (by decide) .refl (by decide)
  · let broken : Session := ⟨{leased.guard with failed := some .clockReadFailed},leased.tickets⟩
    exact (hfail _ [] broken broken broken _
      (leased_run.snoc (e := ⟨.check,none,.denied .clockReadFailed⟩) (by decide))
      (by decide) .refl (by decide)).1 0 rfl

end Session

end TuneX.Agent.Authorization
