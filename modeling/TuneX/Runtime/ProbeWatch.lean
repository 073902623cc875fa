import TuneX.Framework.Run
import Mathlib.Tactic.SplitIfs
import Mathlib.Algebra.Order.Group.Nat

namespace TuneX.Runtime.ProbeWatch

open Framework

def millisecond : Nat := 1000000
def probeObservationAge : Nat := 250*millisecond
def probeExchangeLimit : Nat := 200*millisecond

/-- `probeAuthorityWatch`; `err` and `canceled` tell that the error and the context's are set. -/
structure Watch where
  ready : Bool
  until_ : Nat
  freshUntil : Nat
  lastChecked : Nat
  lastServer : Nat
  err : Bool
  canceled : Bool
  deriving DecidableEq, Repr

namespace Watch

/-- The watch that `monitorConsumedProbe` starts. -/
def start (now deadline : Nat) : Watch where
  ready := false
  until_ := deadline
  freshUntil := min deadline (now+probeExchangeLimit)
  lastChecked := 0
  lastServer := 0
  err := false
  canceled := false

def fail (w : Watch) : Watch := { w with err := true, canceled := true }

def current (w : Watch) (now : Nat) : Bool :=
  !w.err && !w.canceled && w.ready && decide (now<w.freshUntil) && decide (now<w.until_)

def tighten (w : Watch) (now deadline : Nat) : Option Watch :=
  if w.err then none
  else if w.canceled ∨ deadline≤now ∨ w.until_≤now then none
  else if deadline<w.until_ then some { w with
    until_ := deadline
    freshUntil := min w.freshUntil deadline }
  else some w

def publish (w : Watch) (now fresh checked server : Nat) : Option Watch :=
  if w.err then none
  else if w.canceled ∨ w.freshUntil≤now ∨ w.until_≤now ∨ fresh≤now ∨ checked<w.lastChecked ∨
      server<w.lastServer then none
  else some { w with
    ready := true
    freshUntil := min fresh w.until_
    lastChecked := checked
    lastServer := server }

end Watch

/-- `probeFreshUntil`, on times in milliseconds that parse. -/
def probeFreshUntil (now started observed server : Nat) (guard : Bool) : Option Nat :=
  if server<observed ∨ 250<server-observed ∨ guard=false then none
  else
    let fresh := started+(probeObservationAge-(server-observed)*millisecond)
    if now<fresh then some fresh else none

/-- A call of `Check`, by the sections it has behind it; `failing` has found an error and has not
called `fail` yet. -/
inductive Call
  | entered
  | tightened
  | succeeded (at_ : Nat)
  | failing
  | failed
  deriving DecidableEq, Repr

/-- A status exchange of the watch. -/
inductive Exchange
  | idle
  | asked (request : Nat)
  | answered (fresh checked server : Nat)
  deriving DecidableEq, Repr

structure Request where
  permit : String
  sentAt : Nat
  deriving DecidableEq, Repr

/-- A check that Control completed. -/
structure Completed where
  request : Nat
  permit : String
  checkedAt : Nat
  at_ : Nat
  deriving DecidableEq, Repr

structure Response where
  request : Nat
  permit : String
  checkedAt : Nat
  serverTime : Nat
  deriving DecidableEq, Repr

/-- All instants are nanoseconds of one time line: the Agent's monotonic clock reads it, Control's clock
reads it with an offset, cut to milliseconds. -/
structure State where
  now : Nat
  watch : Watch
  exchange : Exchange
  calls : List Call
  /-- Status requests of this watch and of others. -/
  requests : List Request
  /-- The transaction that holds the budget row: its request and its clock sample. -/
  locked : Option (Nat×Nat)
  completed : List Completed
  responses : List Response
  /-- When the withdrawal of a permit was committed. -/
  withdrawn : String→Option Nat

def State.start (now deadline : Nat) : State :=
  ⟨now,.start now deadline,.idle,[],[],none,[],[],fun _ => none⟩

inductive Event
  | tick (d : Nat)
  | ask
  | other (permit : String)
  | begin_ (request : Nat) (authorized : Bool)
  | commit
  | abort
  | stamp (check : Nat)
  | withdraw (permit : String)
  | receive (response : Nat) (valid guard : Bool)
  | drop
  | publish
  | tighten (deadline : Nat)
  | cancel
  | fail
  | check
  | local_ (call deadline : Nat)
  | again (call : Nat)
  | giveUp (call : Nat)
  deriving DecidableEq

namespace State

/-- Control's clock in milliseconds. -/
def clock (offset : Nat) (s : State) : Nat := (s.now+offset)/millisecond

def send (s : State) (permit : String) : State :=
  { s with requests := s.requests++[⟨permit,s.now⟩] }

/-- The request of a status exchange; its identifier is new. -/
def ask (permit : String) (s : State) : Option State :=
  match s.exchange with
  | .idle => some { s.send permit with exchange := .asked s.requests.length }
  | _ => none

/-- `ProbePermits.check` from the lock of the budget row to the last clock sample. -/
def begin_ (offset : Nat) (s : State) (request : Nat) (authorized : Bool) : Option State :=
  match s.locked,s.requests[request]? with
  | none,some r =>
    if authorized ∧ s.withdrawn r.permit=none then
      some { s with locked := some (request,s.clock offset) }
    else some s
  | _,_ => none

def commit (s : State) : Option State :=
  match s.locked with
  | none => none
  | some (request,checkedAt) =>
    match s.requests[request]? with
    | none => none
    | some r => some { s with
        locked := none
        completed := s.completed++[⟨request,r.permit,checkedAt,s.now⟩] }

/-- The rest of `ProbeDelivery.status`: the observation is still fresh and is answered. -/
def stamp (offset : Nat) (s : State) (check : Nat) : Option State :=
  match s.completed[check]? with
  | none => none
  | some c =>
    if s.clock offset<c.checkedAt ∨ 250<s.clock offset-c.checkedAt then some s
    else some { s with
      responses := s.responses++[⟨c.request,c.permit,c.checkedAt,s.clock offset⟩] }

/-- The commit of `ProbePermits.revoke` for a consumed permit. -/
def withdraw (s : State) (permit : String) : Option State :=
  match s.locked,s.withdrawn permit with
  | none,none => some { s with
      withdrawn := fun p => if p=permit then some s.now else s.withdrawn p }
  | none,some _ => some s
  | some _,_ => none

/-- The end of an exchange up to its freshness; `valid` is what the parsers and the comparison
with the receipt say. -/
def receive (permit : String) (s : State) (response : Nat) (valid guard : Bool) : Option State :=
  match s.exchange,s.responses[response]? with
  | .asked request,some a =>
    match s.requests[request]? with
    | none => none
    | some r =>
      if a.request≠request ∨ a.permit≠permit ∨ valid=false then some { s with exchange := .idle }
      else
        match probeFreshUntil s.now r.sentAt a.checkedAt a.serverTime guard with
        | none => some { s with exchange := .idle }
        | some fresh => some { s with exchange := .answered fresh a.checkedAt a.serverTime }
  | _,_ => none

def publish (s : State) : Option State :=
  match s.exchange with
  | .answered fresh checked server =>
    some { s with
      watch := (s.watch.publish s.now fresh checked server).getD s.watch
      exchange := .idle }
  | _ => none

def setCall (s : State) (i : Nat) (c : Call) : State := { s with calls := s.calls.set i c }

/-- The first section of `Check`. -/
def check (s : State) : State :=
  { s with calls := s.calls++[if s.watch.current s.now then .entered else .failing] }

/-- `probeWatchLocal` inside `Check`. -/
def local_ (s : State) (i deadline : Nat) : Option State :=
  match s.calls[i]? with
  | some .entered =>
    match s.watch.tighten s.now deadline with
    | some w => some { s.setCall i .tightened with watch := w }
    | none => some (s.setCall i .failing)
  | _ => none

/-- The last section of `Check`. -/
def again (s : State) (i : Nat) : Option State :=
  match s.calls[i]? with
  | some .tightened =>
    some (s.setCall i (if s.watch.current s.now then .succeeded s.now else .failing))
  | _ => none

def giveUp (s : State) (i : Nat) : Option State :=
  match s.calls[i]? with
  | some .failing => some { s.setCall i .failed with watch := s.watch.fail }
  | _ => none

def step (permit : String) (offset : Nat) (s : State) : Event→Option State
  | .tick d => some { s with now := s.now+d }
  | .ask => s.ask permit
  | .other p => some (s.send p)
  | .begin_ request authorized => s.begin_ offset request authorized
  | .commit => s.commit
  | .abort => some { s with locked := none }
  | .stamp c => s.stamp offset c
  | .withdraw p => s.withdraw p
  | .receive response valid guard => s.receive permit response valid guard
  | .drop => some { s with exchange := .idle }
  | .publish => s.publish
  | .tighten deadline => some { s with watch := (s.watch.tighten s.now deadline).getD s.watch }
  | .cancel => some { s with watch := { s.watch with canceled := true } }
  | .fail => some { s with watch := s.watch.fail }
  | .check => some s.check
  | .local_ i deadline => s.local_ i deadline
  | .again i => s.again i
  | .giveUp i => s.giveUp i

end State

def Step (permit : String) (offset : Nat) (s : State) (e : Event) (t : State) : Prop :=
  s.step permit offset e=some t

section Steps

variable {permit : String} {offset : Nat} {s t : State} {e : Event}

structure Served (s : State) : Prop where
  requests : ∀r∈s.requests, r.sentAt ≤ s.now
  locked : ∀q c, s.locked=some (q,c)→∃r, s.requests[q]?=some r ∧ s.withdrawn r.permit=none
  past : ∀c∈s.completed, c.at_ ≤ s.now
  answers : ∀c∈s.completed, ∃r, s.requests[c.request]?=some r ∧ r.permit=c.permit ∧ r.sentAt ≤ c.at_
  withdrawn : ∀c∈s.completed, ∀w, s.withdrawn c.permit=some w→c.at_ ≤ w
  responses : ∀a∈s.responses, ∃c∈s.completed, c.request=a.request ∧ c.permit=a.permit

theorem Served.congr (h : Served s) (hnow : s.now ≤ t.now) (hr : t.requests=s.requests)
    (hl : t.locked=s.locked ∨ t.locked=none) (hc : t.completed=s.completed)
    (ha : t.responses=s.responses) (hw : t.withdrawn=s.withdrawn) : Served t := by
  refine ⟨?_,?_,?_,?_,?_,?_⟩
  · intro r hm
    rw [hr] at hm
    exact (h.requests r hm).trans hnow
  · intro q c hq
    rw [hr,hw]
    rcases hl with hl|hl
    · exact h.locked q c (hl ▸ hq)
    · rw [hl] at hq
      cases hq
  · intro c hm
    rw [hc] at hm
    exact (h.past c hm).trans hnow
  · rw [hc,hr]
    exact h.answers
  · rw [hc,hw]
    exact h.withdrawn
  · rw [ha,hc]
    exact h.responses

theorem Served.send (h : Served s) (p : String) : Served (s.send p) := by
  have hget {q : Nat} {r : Request} (hq : s.requests[q]?=some r) :
      (s.send p).requests[q]?=some r := by
    have hlt := (List.getElem?_eq_some_iff.mp hq).1
    show (s.requests++[⟨p,s.now⟩])[q]?=some r
    rw [List.getElem?_append_left hlt]
    exact hq
  refine ⟨?_,?_,h.past,?_,h.withdrawn,h.responses⟩
  · intro r hm
    rcases List.mem_append.mp hm with hm|hm
    · exact h.requests r hm
    · rw [List.mem_singleton.mp hm]
      exact le_refl _
  · intro q c hq
    obtain ⟨r,hr,hw⟩ := h.locked q c hq
    exact ⟨r,hget hr,hw⟩
  · intro c hm
    obtain ⟨r,hr,hp,hs⟩ := h.answers c hm
    exact ⟨r,hget hr,hp,hs⟩

theorem Served.begin_ (h : Served s) {q : Nat} {authorized : Bool}
    (ht : s.begin_ offset q authorized=some t) : Served t := by
  unfold State.begin_ at ht
  split at ht
  · next r hl hr =>
    split_ifs at ht with hok
    · cases ht
      refine ⟨h.requests,?_,h.past,h.answers,h.withdrawn,h.responses⟩
      intro q' c hq
      cases hq
      exact ⟨r,hr,hok.2⟩
    · cases ht
      exact h
  · cases ht

theorem Served.commit (h : Served s) (ht : s.commit=some t) : Served t := by
  unfold State.commit at ht
  split at ht
  · cases ht
  · next q checkedAt hl =>
    split at ht
    · cases ht
    · next r hr =>
      cases ht
      obtain ⟨r',hr',hfree⟩ := h.locked q checkedAt hl
      obtain rfl : r=r' := Option.some.inj (hr.symm.trans hr')
      have hsent := h.requests r (List.mem_of_getElem? hr)
      refine ⟨h.requests,nofun,?_,?_,?_,?_⟩
      · intro c hm
        rcases List.mem_append.mp hm with hm|hm
        · exact h.past c hm
        · rw [List.mem_singleton.mp hm]
      · intro c hm
        rcases List.mem_append.mp hm with hm|hm
        · exact h.answers c hm
        · rw [List.mem_singleton.mp hm]
          exact ⟨r,hr,rfl,hsent⟩
      · intro c hm w hw
        rcases List.mem_append.mp hm with hm|hm
        · exact h.withdrawn c hm w hw
        · rw [List.mem_singleton.mp hm] at hw
          have hw : s.withdrawn r.permit=some w := hw
          rw [hfree] at hw
          cases hw
      · intro a ha
        obtain ⟨c,hm,hc⟩ := h.responses a ha
        exact ⟨c,List.mem_append_left _ hm,hc⟩

variable {k i server fresh : Nat} {w w' : Watch} {c : Call} {guard : Bool} {l : List Event}

theorem Served.stamp (h : Served s) (ht : s.stamp offset k=some t) : Served t := by
  unfold State.stamp at ht
  split at ht
  · cases ht
  · next c hc =>
    split_ifs at ht
    · cases ht
      exact h
    · cases ht
      refine ⟨h.requests,h.locked,h.past,h.answers,h.withdrawn,?_⟩
      intro a ha
      rcases List.mem_append.mp ha with ha|ha
      · exact h.responses a ha
      · rw [List.mem_singleton.mp ha]
        exact ⟨c,List.mem_of_getElem? hc,rfl,rfl⟩

theorem Served.withdraw (h : Served s) {p : String} (ht : s.withdraw p=some t) : Served t := by
  unfold State.withdraw at ht
  split at ht
  · next hl _ =>
    cases ht
    refine ⟨h.requests,?_,h.past,h.answers,?_,h.responses⟩
    · intro q c hq
      have hq : s.locked=some (q,c) := hq
      rw [hl] at hq
      cases hq
    · intro c hm w hw
      have hw : (if c.permit=p then some s.now else s.withdrawn c.permit)=some w := hw
      split_ifs at hw with hp
      · cases hw
        exact h.past c hm
      · exact h.withdrawn c hm w hw
  · cases ht
    exact h
  · cases ht

/-- A completed check of the permit at most `probeObservationAge` before an instant. -/
def Backed (permit : String) (s : State) (deadline : Nat) : Prop :=
  ∃c∈s.completed, c.permit=permit ∧ deadline ≤ c.at_+probeObservationAge

structure Watched (permit : String) (s : State) : Prop where
  answered : ∀fresh checked server, s.exchange=.answered fresh checked server→Backed permit s fresh
  ready : s.watch.ready→Backed permit s s.watch.freshUntil
  calls : ∀n, Call.succeeded n∈s.calls→
    ∃c∈s.completed, c.permit=permit ∧ c.at_ ≤ n ∧ n<c.at_+probeObservationAge

theorem Backed.mono {d d' : Nat} (h : Backed permit s d) (hd : d'≤d)
    (hc : ∀c∈s.completed, c∈t.completed) : Backed permit t d' := by
  obtain ⟨c,hm,hp,hle⟩ := h
  exact ⟨c,hc c hm,hp,hd.trans hle⟩

theorem Watched.congr (h : Watched permit s) (hx : t.exchange=s.exchange ∨ t.exchange=.idle ∨
      ∃q, t.exchange=.asked q) (hw : t.watch=s.watch) (hk : t.calls=s.calls)
    (hc : ∀c∈s.completed, c∈t.completed) : Watched permit t := by
  refine ⟨?_,?_,?_⟩
  · intro fresh checked server ht
    rcases hx with hx|hx|⟨q,hx⟩
    · exact (h.answered fresh checked server (hx ▸ ht)).mono (le_refl _) hc
    · rw [hx] at ht
      cases ht
    · rw [hx] at ht
      cases ht
  · rw [hw]
    exact fun hr => (h.ready hr).mono (le_refl _) hc
  · rw [hk]
    intro n hn
    obtain ⟨c,hm,hrest⟩ := h.calls n hn
    exact ⟨c,hc c hm,hrest⟩

/-- A watch that is no readier and no fresher. -/
structure Narrows (w w' : Watch) : Prop where
  ready : w'.ready=w.ready
  fresh : w'.freshUntil ≤ w.freshUntil
  deadline : w'.until_ ≤ w.until_
  err : w.err→w'.err

theorem Narrows.refl (w : Watch) : Narrows w w := ⟨rfl,le_refl _,le_refl _,id⟩

variable {now deadline : Nat}

theorem tighten_narrows (h : w.tighten now deadline=some w') : Narrows w w' := by
  unfold Watch.tighten at h
  split_ifs at h with herr hbad hlt
  · cases h
    exact ⟨rfl,min_le_left _ _,hlt.le,id⟩
  · cases h
    exact .refl w

theorem tighten_getD_narrows (w : Watch) (now deadline : Nat) :
    Narrows w ((w.tighten now deadline).getD w) := by
  cases h : w.tighten now deadline with
  | none => exact .refl w
  | some w' => exact tighten_narrows h

theorem fail_narrows (w : Watch) : Narrows w w.fail := ⟨rfl,le_refl _,le_refl _,fun _ => rfl⟩

section

variable (h : Watched permit s)
include h

theorem Watched.narrow (hw : Narrows s.watch w) : Watched permit { s with watch := w } :=
  ⟨h.answered,fun hr => (h.ready (hw.ready ▸ hr)).mono hw.fresh fun _ => id,h.calls⟩

theorem Watched.setCall (i : Nat) (hc : ∀n, c≠.succeeded n) : Watched permit (s.setCall i c) := by
  refine ⟨h.answered,h.ready,?_⟩
  intro n hn
  rcases List.mem_or_eq_of_mem_set hn with hn|hn
  · exact h.calls n hn
  · exact absurd hn.symm (hc n)

theorem Watched.check : Watched permit s.check := by
  refine ⟨h.answered,h.ready,?_⟩
  intro n hn
  rcases List.mem_append.mp hn with hn|hn
  · exact h.calls n hn
  · have hn := List.mem_singleton.mp hn
    split_ifs at hn

theorem Watched.local_ (ht : s.local_ i deadline=some t) : Watched permit t := by
  unfold State.local_ at ht
  split at ht
  · split at ht
    · next w hw =>
      cases ht
      exact (h.setCall i (by simp)).narrow (tighten_narrows hw)
    · cases ht
      exact h.setCall i (by simp)
  · cases ht

theorem Watched.again (hs : Served s) (ht : s.again i=some t) : Watched permit t := by
  unfold State.again at ht
  split at ht
  · split_ifs at ht with hcurrent
    · cases ht
      refine ⟨h.answered,h.ready,?_⟩
      intro n hn
      rcases List.mem_or_eq_of_mem_set hn with hn|hn
      · exact h.calls n hn
      · cases hn
        simp only [Watch.current,Bool.and_eq_true,decide_eq_true_eq] at hcurrent
        obtain ⟨⟨⟨-,hready⟩,hfresh⟩,-⟩ := hcurrent
        obtain ⟨c,hm,hp,hle⟩ := h.ready hready
        exact ⟨c,hm,hp,hs.past c hm,lt_of_lt_of_le hfresh hle⟩
    · cases ht
      exact h.setCall i (by simp)
  · cases ht

theorem Watched.giveUp (ht : s.giveUp i=some t) : Watched permit t := by
  unfold State.giveUp at ht
  split at ht
  · cases ht
    exact (h.setCall i (by simp)).narrow (fail_narrows _)
  · cases ht

end

theorem probeFreshUntil_le {started observed : Nat}
    (h : probeFreshUntil now started observed server guard=some fresh) :
    fresh ≤ started+probeObservationAge := by
  unfold probeFreshUntil at h
  simp only at h
  split_ifs at h
  cases h
  omega

theorem Watched.receive (h : Watched permit s) (hs : Served s) {valid : Bool}
    (ht : s.receive permit k valid guard=some t) : Watched permit t := by
  have hidle : Watched permit { s with exchange := .idle } :=
    h.congr (.inr (.inl rfl)) rfl rfl fun _ => id
  unfold State.receive at ht
  split at ht
  · next q a hx ha =>
    split at ht
    · cases ht
    · next r hr =>
      split_ifs at ht with hbad
      · cases ht
        exact hidle
      · split at ht
        · cases ht
          exact hidle
        · next fresh hfresh =>
          cases ht
          refine ⟨?_,h.ready,h.calls⟩
          intro f checked server hf
          cases hf
          rw [not_or,not_or,not_not,not_not] at hbad
          obtain ⟨c,hm,hq,hp⟩ := hs.responses a (List.mem_of_getElem? ha)
          obtain ⟨r',hr',-,hsent⟩ := hs.answers c hm
          rw [hq,hbad.1,hr] at hr'
          obtain rfl : r=r' := Option.some.inj hr'
          refine ⟨c,hm,hp.trans hbad.2.1,?_⟩
          have hle := probeFreshUntil_le hfresh
          omega
  · cases ht

theorem publish_until {checked : Nat} (h : w.publish now fresh checked server=some w') :
    w'.freshUntil ≤ fresh ∧ w'.until_=w.until_ ∧ w.err=false ∧ w'.err=false := by
  unfold Watch.publish at h
  split_ifs at h with herr hbad
  cases h
  have herr := Bool.eq_false_iff.mpr herr
  exact ⟨min_le_left _ _,rfl,herr,herr⟩

theorem Watched.publish (h : Watched permit s) (ht : s.publish=some t) : Watched permit t := by
  unfold State.publish at ht
  split at ht
  · next fresh checked server hx =>
    cases ht
    refine ⟨nofun,?_,h.calls⟩
    have hfresh := h.answered fresh checked server hx
    cases hp : s.watch.publish s.now fresh checked server with
    | none => exact h.ready
    | some w => exact fun _ => hfresh.mono (publish_until hp).1 fun _ => id
  · cases ht

/-- What a step does to the deadline, the error and the outcome of the calls. -/
structure Aged (s t : State) : Prop where
  deadline : t.watch.until_ ≤ s.watch.until_
  err : s.watch.err→t.watch.err
  succeeded : s.watch.err→∀(i : Nat) n, t.calls[i]?=some (Call.succeeded n)→
    s.calls[i]?=some (Call.succeeded n)
  failed : Call.failed∈t.calls→Call.failed∈s.calls ∨ t.watch.err

theorem Aged.narrow (h : Narrows s.watch t.watch) (hc : t.calls=s.calls) : Aged s t := by
  refine ⟨h.deadline,h.err,?_,?_⟩
  · rw [hc]
    exact fun _ _ _ => id
  · rw [hc]
    exact .inl

theorem Aged.same (hw : t.watch=s.watch) (hc : t.calls=s.calls) : Aged s t :=
  .narrow (hw ▸ .refl s.watch) hc

theorem Aged.setCall (hw : Narrows s.watch t.watch) (hc : t.calls=s.calls.set i c)
    (hs : s.watch.err→∀n, c≠.succeeded n) (hf : c=.failed→t.watch.err) : Aged s t := by
  refine ⟨hw.deadline,hw.err,?_,?_⟩
  · intro herr k n hk
    rw [hc,List.getElem?_set] at hk
    split_ifs at hk
    · exact absurd (Option.some.inj hk) (hs herr n)
    · exact hk
  · intro hm
    rw [hc] at hm
    rcases List.mem_or_eq_of_mem_set hm with hm|hm
    · exact .inl hm
    · exact .inr (hf hm.symm)

theorem current_err (h : w.current now) : w.err=false := by
  simp only [Watch.current,Bool.and_eq_true,Bool.not_eq_true'] at h
  exact h.1.1.1.1

theorem check_aged (s : State) : Aged s s.check := by
  refine ⟨le_refl _,id,?_,?_⟩
  · intro herr k n hk
    rcases Nat.lt_or_ge k s.calls.length with hlt|hge
    · have hk : (s.calls++_)[k]?=_ := hk
      rw [List.getElem?_append_left hlt] at hk
      exact hk
    · have hk : (s.calls++[if s.watch.current s.now then .entered else .failing])[k]?=_ := hk
      rw [List.getElem?_append_right hge] at hk
      have hm := List.mem_singleton.mp (List.mem_of_getElem? hk)
      split_ifs at hm
  · intro hm
    rcases List.mem_append.mp hm with hm|hm
    · exact .inl hm
    · have hm := List.mem_singleton.mp hm
      split_ifs at hm

/-- What a step keeps, on the side of Control and on that of the node. -/
structure Effects (permit : String) (s t : State) : Prop where
  aged : Aged s t
  served : Served s→Served t
  watched : Served s→Watched permit s→Watched permit t

theorem Effects.control (hs : Served s→Served t) (hx : t.exchange=s.exchange)
    (hw : t.watch=s.watch) (hk : t.calls=s.calls) (hc : ∀c∈s.completed, c∈t.completed) :
    Effects permit s t :=
  ⟨.same hw hk,hs,fun _ h => h.congr (.inl hx) hw hk hc⟩

theorem Effects.node (ha : Aged s t) (hw : Served s→Watched permit s→Watched permit t)
    (ht : t={ s with exchange := t.exchange, watch := t.watch, calls := t.calls }) :
    Effects permit s t := by
  refine ⟨ha,fun h => ?_,hw⟩
  rw [ht]
  exact h.congr (le_refl _) rfl (.inl rfl) rfl rfl rfl

theorem ask_effects (ht : s.ask permit=some t) : Effects permit s t := by
  unfold State.ask at ht
  split at ht
  · cases ht
    exact ⟨.same rfl rfl,fun h => (h.send permit).congr (le_refl _) rfl (.inl rfl) rfl rfl rfl,
      fun _ h => h.congr (.inr (.inr ⟨_,rfl⟩)) rfl rfl fun _ => id⟩
  · cases ht

theorem begin_effects {request : Nat} {authorized : Bool}
    (ht : s.begin_ offset request authorized=some t) : Effects permit s t := by
  have hserved : Served s→Served t := fun h => h.begin_ ht
  unfold State.begin_ at ht
  repeat' split at ht
  all_goals
    cases ht
    try exact .control hserved rfl rfl rfl fun _ => id

theorem commit_effects (ht : s.commit=some t) : Effects permit s t := by
  have hserved : Served s→Served t := fun h => h.commit ht
  unfold State.commit at ht
  repeat' split at ht
  all_goals
    cases ht
    try exact .control hserved rfl rfl rfl fun _ => List.mem_append_left _

theorem stamp_effects (ht : s.stamp offset k=some t) : Effects permit s t := by
  have hserved : Served s→Served t := fun h => h.stamp ht
  unfold State.stamp at ht
  repeat' split at ht
  all_goals
    cases ht
    try exact .control hserved rfl rfl rfl fun _ => id

theorem withdraw_effects {p : String} (ht : s.withdraw p=some t) : Effects permit s t := by
  have hserved : Served s→Served t := fun h => h.withdraw ht
  unfold State.withdraw at ht
  repeat' split at ht
  all_goals
    cases ht
    try exact .control hserved rfl rfl rfl fun _ => id

theorem receive_effects {valid : Bool} (ht : s.receive permit k valid guard=some t) :
    Effects permit s t := by
  have hwatched : Served s→Watched permit s→Watched permit t := fun hs h => h.receive hs ht
  unfold State.receive at ht
  repeat' split at ht
  all_goals
    cases ht
    try exact .node (.same rfl rfl) hwatched rfl

theorem publish_effects (ht : s.publish=some t) : Effects permit s t := by
  have hwatched : Served s→Watched permit s→Watched permit t := fun _ h => h.publish ht
  unfold State.publish at ht
  split at ht
  · next fresh checked server hx =>
    cases ht
    refine .node ?_ hwatched rfl
    cases hp : s.watch.publish s.now fresh checked server with
    | none => exact .same (by simp) rfl
    | some w =>
      obtain ⟨-,huntil,herr,-⟩ := publish_until hp
      refine ⟨?_,?_,fun _ _ _ => id,.inl⟩
      · simp [huntil]
      · exact fun h => absurd h (by rw [herr]; exact Bool.false_ne_true)
  · cases ht

theorem local_effects (ht : s.local_ i deadline=some t) : Effects permit s t := by
  have hwatched : Served s→Watched permit s→Watched permit t := fun _ h => h.local_ ht
  unfold State.local_ at ht
  split at ht
  · split at ht
    · next w hw =>
      cases ht
      exact .node (.setCall (tighten_narrows hw) rfl (by simp) (by simp)) hwatched rfl
    · cases ht
      exact .node (.setCall (.refl _) rfl (by simp) (by simp)) hwatched rfl
  · cases ht

theorem again_effects (ht : s.again i=some t) : Effects permit s t := by
  have hwatched : Served s→Watched permit s→Watched permit t := fun hs h => h.again hs ht
  unfold State.again at ht
  split at ht
  · cases ht
    refine .node (.setCall (.refl _) rfl ?_ ?_) hwatched rfl
    · intro herr n hn
      split_ifs at hn with hcurrent
      rw [current_err hcurrent] at herr
      cases herr
    · intro hf
      split_ifs at hf
  · cases ht

theorem giveUp_effects (ht : s.giveUp i=some t) : Effects permit s t := by
  have hwatched : Served s→Watched permit s→Watched permit t := fun _ h => h.giveUp ht
  unfold State.giveUp at ht
  split at ht
  · cases ht
    exact .node (.setCall (fail_narrows _) rfl (by simp) fun _ => rfl) hwatched rfl
  · cases ht

theorem watch_effects (hw : Narrows s.watch w) : Effects permit s { s with watch := w } :=
  .node (.narrow hw rfl) (fun _ h => h.narrow hw) rfl

theorem step_effects (ht : Step permit offset s e t) : Effects permit s t := by
  cases e with
  | tick d =>
    cases ht
    exact .control (fun h => h.congr (Nat.le_add_right _ _) rfl (.inl rfl) rfl rfl rfl) rfl rfl rfl
      fun _ => id
  | ask => exact ask_effects ht
  | other p =>
    cases ht
    exact .control (fun h => h.send p) rfl rfl rfl fun _ => id
  | begin_ request authorized => exact begin_effects ht
  | commit => exact commit_effects ht
  | abort =>
    cases ht
    exact .control (fun h => h.congr (le_refl _) rfl (.inr rfl) rfl rfl rfl) rfl rfl rfl fun _ => id
  | stamp c => exact stamp_effects ht
  | withdraw p => exact withdraw_effects ht
  | receive response valid guard => exact receive_effects ht
  | drop =>
    cases ht
    exact .node (.same rfl rfl) (fun _ h => h.congr (.inr (.inl rfl)) rfl rfl fun _ => id) rfl
  | publish => exact publish_effects ht
  | tighten deadline =>
    cases ht
    exact watch_effects (tighten_getD_narrows s.watch s.now deadline)
  | cancel =>
    cases ht
    exact watch_effects ⟨rfl,le_refl _,le_refl _,id⟩
  | fail =>
    cases ht
    exact watch_effects (fail_narrows _)
  | check =>
    cases ht
    exact .node (check_aged s) (fun _ h => h.check) rfl
  | local_ i deadline => exact local_effects ht
  | again i => exact again_effects ht
  | giveUp i => exact giveUp_effects ht

/-- What holds between two states of a run. -/
structure Later (s t : State) : Prop where
  deadline : t.watch.until_ ≤ s.watch.until_
  err : s.watch.err→t.watch.err
  succeeded : s.watch.err→∀(i : Nat) n, t.calls[i]?=some (Call.succeeded n)→
    s.calls[i]?=some (Call.succeeded n)

theorem run_later (h : Run (Step permit offset) s l t) : Later s t := by
  refine h.invariant (Later s) ?_ ⟨le_refl _,id,fun _ _ _ => id⟩
  intro a e b hstep ha
  have hb := (step_effects hstep).aged
  exact ⟨hb.deadline.trans ha.deadline,fun he => hb.err (ha.err he),fun he i n hn =>
    ha.succeeded he i n (hb.succeeded (ha.err he) i n hn)⟩

theorem run_failed (h : Run (Step permit offset) (State.start now deadline) l s) :
    Call.failed∈s.calls→s.watch.err := by
  refine h.invariant (fun s => Call.failed∈s.calls→s.watch.err) ?_ nofun
  intro a e b hstep ha hb
  have hstep := (step_effects hstep).aged
  exact (hstep.failed hb).elim (fun hf => hstep.err (ha hf)) id

theorem run_linked (h : Run (Step permit offset) (State.start now deadline) l s) :
    Served s ∧ Watched permit s := by
  refine h.invariant (fun s => Served s ∧ Watched permit s) ?_ ?_
  · exact fun _ _ _ hstep hs => ⟨(step_effects hstep).served hs.1,
      (step_effects hstep).watched hs.1 hs.2⟩
  · exact ⟨⟨nofun,nofun,nofun,nofun,nofun,nofun⟩,nofun,nofun,nofun⟩

/-- A check that succeeds relies on a check of the same permit that Control completed less than
250 ms before, and so before the permit's withdrawal. Nothing succeeds after a failure, and the
overall deadline never moves later. -/
theorem probe_check_fresh {now deadline : Nat} {l : List Event}
    (h : Run (Step permit offset) (State.start now deadline) l s) :
    (∀n, Call.succeeded n∈s.calls→
      ∃c∈s.completed, c.permit=permit ∧ c.at_ ≤ n ∧ n<c.at_+250*millisecond) ∧
    (∀n w, Call.succeeded n∈s.calls→s.withdrawn permit=some w→n<w+250*millisecond) ∧
    ∀m t, Run (Step permit offset) s m t→
      t.watch.until_ ≤ s.watch.until_ ∧
      (Call.failed∈s.calls ∨ s.watch.err→∀(i : Nat) n, t.calls[i]?=some (Call.succeeded n)→
        s.calls[i]?=some (Call.succeeded n)) := by
  obtain ⟨hserved,hwatched⟩ := run_linked h
  refine ⟨hwatched.calls,?_,?_⟩
  · intro n w hn hw
    obtain ⟨c,hm,hp,-,hlt⟩ := hwatched.calls n hn
    have hbefore := hserved.withdrawn c hm w (hp ▸ hw)
    unfold probeObservationAge at hlt
    omega
  · intro m t hm
    have hlater := run_later hm
    refine ⟨hlater.deadline,?_⟩
    intro hbad i n hn
    exact hlater.succeeded (hbad.elim (run_failed h) id) i n hn

/-- An exchange of 30 ms, a check after it, the withdrawal, and a check that fails once the
observation is 250 ms old. -/
theorem probe_check_fresh_withdrawn :
    ∃s, Run (Step "p" 0) (State.start 1000000000 3000000000)
      [.ask,.tick 10000000,.begin_ 0 true,.commit,.tick 10000000,.stamp 0,.tick 10000000,
        .receive 0 true true,.publish,.check,.local_ 0 2900000000,.again 0,.withdraw "p",
        .begin_ 0 true,.tick 230000000,.check,.giveUp 1] s ∧
      s.calls=[.succeeded 1030000000,.failed] ∧ s.withdrawn "p"=some 1030000000 ∧
      1030000000<1030000000+250*millisecond := by
  refine Run.exists_of_foldlM (f := fun s : State => s.step "p" 0) (fun _ _ _ h => h) rfl
    fun hr => ?_
  exact ⟨rfl,rfl,(probe_check_fresh hr).2.1 _ _ List.mem_cons_self rfl⟩

end Steps

end TuneX.Runtime.ProbeWatch
