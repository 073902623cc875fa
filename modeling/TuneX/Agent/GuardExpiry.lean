import TuneX.Agent.GuardHistory

namespace TuneX.Agent.Authorization

open Framework

/-- The guard has failed or its last sample is past one of the ticket's deadlines. -/
def Ticket.Ended (ticket : Ticket) (guard : Guard) : Prop :=
  guard.failed≠none ∨ ticket.until_≤guard.last.uptime ∨ ticket.wallUntil≤guard.last.wall

namespace Guard

theorem allow_error {guard : Guard} {reading : Option Sample} {ticket : Ticket} {fault : Fault}
    (h : (guard.allow reading (some ticket)).2=.error fault) :
    ticket.Ended (guard.allow reading (some ticket)).1 := by
  unfold allow at *
  dsimp only at *
  split at h
  · next hs => exact .inl (by simp [(sampleLocked_error hs).1])
  · next hs =>
    obtain ⟨-,-,-,-,rfl⟩ := sampleLocked_ok hs
    split_ifs at h with hc
    rw [if_pos hc]
    exact .inr hc

end Guard

namespace Session

variable {s t u : Session} {e : Event} {i j : Nat} {ticket : Ticket}

/-- The wall clock does not return from the ticket's wall deadline to before it while the
ticket's uptime deadline is still ahead. -/
def HoldsWall (ticket : Ticket) (s : Session) (e : Event) : Prop :=
  ∀sample, e.reading=some sample→ticket.wallUntil ≤ s.guard.last.wall→
    sample.wall<ticket.wallUntil→ticket.until_ ≤ sample.uptime

theorem step_ended (h : s.Step e t) (hw : HoldsWall ticket s e) (hs : ticket.Ended s.guard) :
    ticket.Ended t.guard := by
  have hg := step_sampled h
  by_cases hf : t.guard.failed=none
  · rcases hg.last hf with hl|⟨hr,hu⟩
    · rcases hs with hs|hs
      · exact absurd (hg.live hf) hs
      · rw [← hl] at hs
        exact .inr hs
    · rcases hs with hs|hs|hs
      · exact absurd (hg.live hf) hs
      · exact .inr (.inl (hs.trans hu))
      · by_cases hlt : t.guard.last.wall<ticket.wallUntil
        · exact .inr (.inl (hw _ hr hs hlt))
        · exact .inr (.inr (not_lt.mp hlt))
  · exact .inl hf

theorem ended_denied {reading : Option Sample} {reply : Reply} {parent : Ticket}
    (h : s.Step ⟨.allow j,reading,reply⟩ t) (hp : parent.Ended s.guard)
    (hw : HoldsWall parent s ⟨.allow j,reading,reply⟩)
    (hj : s.guard.failed=none→∀child, s.ticket j=some child→child.Within parent) :
    ∃fault, reply=.denied fault := by
  obtain ⟨hg,rfl⟩ := allow_inv h
  cases ha : (s.guard.allow reading (s.ticket j)).2 with
  | error fault => exact ⟨fault,rfl⟩
  | ok =>
    obtain ⟨child,sample,hc,hs,hcov⟩ := (Guard.allow_eq_ok _ _ _).mp ha
    obtain ⟨hf,rfl,hu,-,-⟩ := Guard.sampleLocked_ok hs
    have hcov := hcov.mono (hj hf child hc)
    unfold Ticket.Covers at hcov
    rcases hp with hp|hp|hp
    · exact absurd hf hp
    · omega
    · have := hw sample rfl hp hcov.2
      omega

theorem drainedFrom_within (hv : s.Valid) (hf : s.guard.failed=none)
    (hi : s.ticket i=some ticket) (h : s.DrainedFrom i j) :
    ∃child, s.ticket j=some child ∧ child.Within ticket := by
  induction h with
  | self => exact ⟨ticket,hi,le_rfl,le_rfl⟩
  | drain _ hk ih =>
    obtain ⟨parent,hp,hw⟩ := ih
    obtain ⟨parent',hp',hw'⟩ := hv.drained hf _ _ _ hk
    obtain rfl := Option.some.inj (hp.symm.trans hp')
    refine ⟨_,?_,hw'.trans hw⟩
    unfold Session.ticket
    rw [hk]
    rfl

theorem drainedFrom_earlier (hv : s.Valid) (hf : s.guard.failed=none)
    (hp : s.tickets<+:u.tickets) (h : u.DrainedFrom i j) (hj : j<s.tickets.length) :
    s.DrainedFrom i j := by
  induction h with
  | self => exact .self
  | @drain j k child _ hk ih =>
    have hs : s.tickets[k]?=some ⟨child,some j⟩ := by
      have hget := issued_of_extends hp (List.getElem?_eq_getElem hj)
      rw [List.getElem?_eq_getElem hj]
      exact hget.symm.trans hk
    obtain ⟨parent,hpar,-⟩ := hv.drained hf k child j hs
    obtain ⟨issued,hget,-⟩ := Option.map_eq_some_iff.mp hpar
    exact .drain (ih (List.getElem?_eq_some_iff.mp hget).1) hs

/-- In a run whose steps keep the wall clock from falling back over the ticket's wall
deadline, a ticket that was denied once is denied for good, and so is all drained from it. -/
theorem denied_ticket_stays_denied (reading : Option Sample)
    (skew maximum credentialUntil : Int) (guard : Guard)
    (hnew : new reading skew maximum credentialUntil=.ok guard)
    (l₁ l₂ : List Event) (s₁ s₂ s₃ : Session) (i j : Nat) (ticket : Ticket)
    (r r' : Option Sample) (fault : Fault) (reply : Reply)
    (h₁ : Run Step (start guard) l₁ s₁) (hi : s₁.ticket i=some ticket)
    (hd : s₁.Step ⟨.allow i,r,.denied fault⟩ s₂)
    (h₂ : Run (fun s e t => s.Step e t ∧ HoldsWall ticket s e) s₂ l₂ s₃)
    (hj : s₃.DrainedFrom i j) (he : ⟨.allow j,r',reply⟩∈l₂) :
    ∃fault', reply=.denied fault' := by
  have hv₂ := step_valid hd (run_valid h₁ (start_valid hnew))
  have hended : ticket.Ended s₂.guard := by
    obtain ⟨hg,hr⟩ := allow_inv hd
    rw [hi] at hg hr
    cases ha : (s₁.guard.allow r (some ticket)).2 with
    | ok =>
      rw [ha] at hr
      cases hr
    | error => exact hg ▸ Guard.allow_error ha
  -- Cut the run at the later call: the ticket is still past a deadline there.
  obtain ⟨la,lb,t,t',-,hbefore,⟨hstep,hwall⟩,hafter⟩ := h₂.mem_inv he
  have plain : ∀⦃a e b⦄, (a.Step e b ∧ HoldsWall ticket a e)→a.Step e b := fun _ _ _ h => h.1
  have hend : ticket.Ended t.guard :=
    hbefore.invariant (fun u => ticket.Ended u.guard) (fun _ _ _ h => step_ended h.1 h.2) hended
  have hvt := run_valid (hbefore.mono plain) hv₂
  have hit : t.ticket i=some ticket :=
    ticket_of_extends ((step_extends hd).trans (run_extends (hbefore.mono plain))) hi
  have hpre : t.tickets<+:s₃.tickets :=
    (step_extends hstep).trans (run_extends (hafter.mono plain))
  refine ended_denied hstep hend hwall fun hf child hc => ?_
  obtain ⟨issued,hget,-⟩ := Option.map_eq_some_iff.mp hc
  have hdr := drainedFrom_earlier hvt hf hpre hj (List.getElem?_eq_some_iff.mp hget).1
  obtain ⟨child',hc',hw⟩ := drainedFrom_within hvt hf hit hdr
  obtain rfl := Option.some.inj (hc.symm.trans hc')
  exact hw

/-- The lease is denied at wall 1015, uptime 12; a second reading, 3 back in wall time, is
within the tolerated skew and the same ticket is allowed again. -/
theorem denied_ticket_allowed_again :
    Run Step (start leaseGuard)
      [⟨.accept 1000 1020,some ⟨1000,0⟩,.ticket 0⟩,
        ⟨.allow 0,some ⟨1015,12⟩,.denied .authorizationEnded⟩,
        ⟨.allow 0,some ⟨1012,12⟩,.done⟩]
      ⟨leasedAt ⟨1012,12⟩,leased.tickets⟩ :=
  (leased_run.snoc (u := ⟨leasedAt ⟨1015,12⟩,leased.tickets⟩) (by decide)).snoc (by decide)

/-- That lease is drained after its denial, and the wall clock falls back when its uptime is over. -/
def drainingCalls : List Event :=
  [⟨.drain 0 8,some ⟨1015,13⟩,.ticket 1⟩,⟨.allow 1,some ⟨1014,15⟩,.denied .authorizationEnded⟩]

theorem denied_ticket_stays_denied_leased :
    let s : Session := ⟨leasedAt ⟨1014,15⟩,leased.tickets++[⟨⟨15,1015⟩,some 0⟩]⟩
    Run Step (start leaseGuard)
      ([⟨.accept 1000 1020,some ⟨1000,0⟩,.ticket 0⟩,
        ⟨.allow 0,some ⟨1015,12⟩,.denied .authorizationEnded⟩]++drainingCalls) s ∧
    s.DrainedFrom 0 1 ∧
    ∀r reply, ⟨.allow 1,r,reply⟩∈drainingCalls→∃fault, reply=.denied fault := by
  let denied : Session := ⟨leasedAt ⟨1015,12⟩,leased.tickets⟩
  let drained : Session := ⟨leasedAt ⟨1015,13⟩,leased.tickets++[⟨⟨15,1015⟩,some 0⟩]⟩
  let last : Session := ⟨leasedAt ⟨1014,15⟩,leased.tickets++[⟨⟨15,1015⟩,some 0⟩]⟩
  have hdeny : leased.Step ⟨.allow 0,some ⟨1015,12⟩,.denied .authorizationEnded⟩ denied := by decide
  have hdrain : denied.Step ⟨.drain 0 8,some ⟨1015,13⟩,.ticket 1⟩ drained ∧
      HoldsWall ⟨15,1015⟩ denied ⟨.drain 0 8,some ⟨1015,13⟩,.ticket 1⟩ := by
    refine ⟨by decide,?_⟩
    rintro sample ⟨⟩ - hlt
    exact absurd hlt (by decide)
  have hallow : drained.Step ⟨.allow 1,some ⟨1014,15⟩,.denied .authorizationEnded⟩ last ∧
      HoldsWall ⟨15,1015⟩ drained ⟨.allow 1,some ⟨1014,15⟩,.denied .authorizationEnded⟩ := by
    refine ⟨by decide,?_⟩
    rintro sample ⟨⟩ - -
    decide
  have hlast : last.DrainedFrom 0 1 := .drain .self rfl
  refine ⟨((leased_run.snoc hdeny).snoc hdrain.1).snoc hallow.1,hlast,?_⟩
  intro r reply hcall
  exact denied_ticket_stays_denied (some ⟨1000,0⟩) 5 300 0 leaseGuard rfl _ _ leased denied last
    0 1 ⟨15,1015⟩ _ r _ reply leased_run (by decide) hdeny ((Run.single hdrain).snoc hallow) hlast
    hcall

end Session

end TuneX.Agent.Authorization
