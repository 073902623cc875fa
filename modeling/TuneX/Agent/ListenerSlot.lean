import TuneX.Agent.Snapshot
import TuneX.Framework.Permits
import TuneX.Framework.Run
import Mathlib.Algebra.BigOperators.Group.List.Basic
import Mathlib.Algebra.GroupWithZero.Nat

namespace TuneX.Agent.Listener

open Framework

/-- Where the goroutine of an admitted client stands: `removed` is out of the map with its permit
still held, `released` has given the permit back and `finished` has left the wait group. -/
inductive Stage
  | serving
  | removed
  | released
  | finished
  deriving DecidableEq

/-- A TCP stream or a UDP association. A stream is known by its socket, an association by the
client address. -/
structure Session where
  owner : Nat
  client : Nat
  connected : Bool
  cancelled : Bool
  mapped : Bool
  stage : Stage
  deriving DecidableEq

/-- How far the first call of `Close` got; `ended` is the end of its `closeOnce` body. -/
inductive Closing
  | idle
  | cancelled
  | swept
  | ended
  deriving DecidableEq

structure Instance where
  closing : Closing
  /-- Set by the first section of `Close` when the instance still owned the listener. -/
  owned : Bool
  returned : Bool
  deriving DecidableEq

def Instance.fresh : Instance := ⟨.idle,false,false⟩

structure Limits where
  slot : Nat
  node : Nat
  maximum : Nat

structure State where
  protocol : Protocol
  current : Option Nat
  listening : Bool
  /-- The accept or receive loop has not returned. -/
  looping : Bool
  instances : List Instance
  sessions : List Session
  /-- Used permits of a TCP slot; UDP has none of its own. -/
  permits : Nat
  nodePermits : Nat
  /-- The part of the Node permits that other slots use. -/
  foreign : Nat

def State.start (protocol : Protocol) (foreign : Nat) : State :=
  ⟨protocol,some 0,true,true,[.fresh],[],0,foreign,foreign⟩

/-- Every event is one section of a mutex or one atomic operation of a goroutine. -/
inductive Event
  | arrive (client : Nat) (authorized fits : Bool)
  | stop
  | replace (k : Nat) (authorized : Bool)
  | drain (k : Nat)
  | closeStart (k : Nat)
  | closeSweep (k : Nat)
  | closeEnd (k : Nat)
  | closeReturn (k : Nat)
  | connect (i : Nat) (authorized : Bool)
  | cancel (i : Nat)
  | remove (i : Nat)
  | release (i : Nat)
  | finish (i : Nat)
  | foreign (n : Nat)
  deriving DecidableEq

namespace State

def cancelled (s : State) (k : Nat) : Bool :=
  match s.instances[k]? with
  | some x => x.closing != .idle
  | none => true

def newSession (k client : Nat) : Session := ⟨k,client,false,false,true,.serving⟩

/-- `accept` after the socket is there. -/
def acceptStream (limits : Limits) (s : State) (client : Nat) (authorized : Bool) : State :=
  match s.current with
  | none => s
  | some k =>
    if s.cancelled k || !authorized then s
    else if limits.slot ≤ s.permits then s
    else if limits.node ≤ s.nodePermits then s
    else { s with
      sessions := s.sessions++[newSession k client]
      permits := s.permits+1
      nodePermits := s.nodePermits+1 }

def entry (k client : Nat) (x : Session) : Bool := x.mapped && x.owner==k && x.client==client

/-- A cancelled association leaves the map when its client is heard of again. -/
def dropStale (k client : Nat) (x : Session) : Session :=
  if entry k client x && x.cancelled then { x with mapped := false } else x

def remaining (s : State) (k : Nat) : Nat := s.sessions.countP fun x => x.mapped && x.owner==k

/-- `receive` after the datagram is there. -/
def receiveDatagram (limits : Limits) (s : State) (client : Nat) (authorized fits : Bool) :
    State :=
  match s.current with
  | none => s
  | some k =>
    if s.cancelled k || !authorized || !fits then s
    else
      let t := { s with sessions := s.sessions.map (dropStale k client) }
      if t.sessions.any (entry k client) then t
      else if limits.maximum≤t.remaining k then t
      else if limits.node≤t.nodePermits then t
      else { t with
        sessions := t.sessions++[newSession k client]
        nodePermits := t.nodePermits+1 }

def arrive (limits : Limits) (s : State) (client : Nat) (authorized fits : Bool) : State :=
  match s.protocol with
  | .tcp => s.acceptStream limits client authorized
  | .udp => s.receiveDatagram limits client authorized fits

/-- The owned section that `Drain` and `Close` share. -/
def retire (s : State) (k : Nat) : State :=
  if s.current=some k then { s with
    current := none
    listening := false }
  else s

def setInstance (s : State) (k : Nat) (x : Instance) : State :=
  { s with instances := s.instances.set k x }

def setSession (s : State) (i : Nat) (x : Session) : State :=
  { s with sessions := s.sessions.set i x }

def replace (s : State) (k : Nat) (authorized : Bool) : State :=
  if s.current≠some k ∨ s.cancelled k ∨ !authorized then s
  else { s with
    instances := s.instances++[.fresh]
    current := some s.instances.length }

/-- `Close` cancels the associations in the map; the sockets of streams are only closed. -/
def sweep (s : State) (k : Nat) (x : Session) : Session :=
  if s.protocol=.udp ∧ x.mapped ∧ x.owner=k then { x with cancelled := true } else x

/-- One turn of `Close` on the instance `x` at `k`. -/
def closeStep (s : State) (k : Nat) (x : Instance) : Event→Option State
  | .closeStart _ =>
    if x.closing=.idle then
      some ((s.retire k).setInstance k
        { x with
          closing := .cancelled
          owned := s.current==some k })
    else none
  | .closeSweep _ =>
    if x.closing=.cancelled then
      some ({ s with sessions := s.sessions.map (s.sweep k) }.setInstance k
        { x with closing := .swept })
    else none
  | .closeEnd _ =>
    if x.closing=.swept ∧ ¬(x.owned ∧ s.looping) then
      some (s.setInstance k { x with closing := .ended })
    else none
  | .closeReturn _ =>
    if x.closing=.ended ∧ ∀y∈s.sessions, y.owner=k→y.stage=.finished then
      some (s.setInstance k { x with returned := true })
    else none
  | _ => none

/-- One turn of the goroutine of the session `x` at `i`. -/
def sessionStep (s : State) (i : Nat) (x : Session) : Event→Option State
  | .connect _ authorized =>
    if x.stage=.serving ∧ !x.cancelled ∧ !s.cancelled x.owner ∧ authorized then
      some (s.setSession i { x with connected := true })
    else none
  | .cancel _ =>
    if s.protocol=.udp ∧ x.stage=.serving then some (s.setSession i { x with cancelled := true })
    else none
  | .remove _ =>
    if x.stage≠.serving then none
    else if s.protocol=.tcp then
      some { s.setSession i { x with
          mapped := false
          stage := .released } with
        permits := s.permits-1
        nodePermits := s.nodePermits-1 }
    else if x.cancelled then
      some (s.setSession i { x with
        mapped := false
        stage := .removed })
    else none
  | .release _ =>
    if x.stage=.removed then
      some { s.setSession i { x with stage := .released } with nodePermits := s.nodePermits-1 }
    else none
  | .finish _ =>
    if x.stage=.released then some (s.setSession i { x with stage := .finished }) else none
  | _ => none

def step (limits : Limits) (s : State) (e : Event) : Option State :=
  match e with
  | .arrive client authorized fits =>
    if s.looping then some (s.arrive limits client authorized fits) else none
  | .stop => if s.looping ∧ !s.listening then some { s with looping := false } else none
  | .replace k authorized => some (s.replace k authorized)
  | .drain k => if s.protocol=.tcp then some (s.retire k) else none
  | .closeStart k | .closeSweep k | .closeEnd k | .closeReturn k =>
    (s.instances[k]?).bind fun x => s.closeStep k x e
  | .connect i _ | .cancel i | .remove i | .release i | .finish i =>
    (s.sessions[i]?).bind fun x => s.sessionStep i x e
  | .foreign n =>
    if s.nodePermits-s.foreign+n ≤ limits.node then some { s with
      nodePermits := s.nodePermits-s.foreign+n
      foreign := n }
    else none

end State

/-- The interleavings of any number of calls on one slot. -/
def Step (limits : Limits) (s : State) (e : Event) (t : State) : Prop := s.step limits e=some t

/-- The permit of a session is held until its cleanup gives it back. -/
def Session.holds (x : Session) : Bool := x.stage==.serving || x.stage==.removed

/-- What is always true of one session: it is in the map only while it is served, and an
association that is not cancelled is. Streams leave the map and give back in one section. -/
structure Session.Ok (protocol : Protocol) (x : Session) : Prop where
  left : x.stage≠.serving→x.mapped=false
  kept : x.stage=.serving→x.cancelled=false→x.mapped=true
  tcp : protocol=.tcp→x.cancelled=false ∧ x.stage≠.removed

/-- What a step does to a session that was there before: its owner stays, and what has
finished stays finished. -/
structure Session.Moves (protocol : Protocol) (x y : Session) : Prop where
  owner : y.owner=x.owner
  finished : x.stage=.finished→y.stage=.finished
  ok : x.Ok protocol→y.Ok protocol

theorem Session.Moves.refl (protocol : Protocol) (x : Session) : x.Moves protocol x :=
  ⟨rfl,id,id⟩

/-- A change of every session that moves each on and leaves it its permit. -/
structure Session.Sweep (protocol : Protocol) (f : Session→Session) : Prop where
  moves : ∀x : Session, x.Moves protocol (f x)
  holds : ∀x : Session, (f x).holds=x.holds

theorem Session.Sweep.id (protocol : Protocol) : Session.Sweep protocol id :=
  ⟨Session.Moves.refl _,fun _ => rfl⟩

namespace State

/-- The sessions after a step: those before it, moved on, and perhaps one that the current
instance admitted. -/
structure Progress (s : State) (e : Event) (t : State) : Prop where
  protocol : t.protocol=s.protocol
  before : ∀(i : Nat) (x : Session), s.sessions[i]?=some x→
    ∃y, t.sessions[i]?=some y ∧ x.Moves s.protocol y
  after : ∀(i : Nat) (y : Session), t.sessions[i]?=some y→i<s.sessions.length ∨
    i=s.sessions.length ∧ s.current=some y.owner ∧ s.cancelled y.owner=false ∧
      y=newSession y.owner y.client ∧ ∃client authorized fits, e=.arrive client authorized fits

variable {s t : State} {e : Event}

theorem Progress.of_map {f : Session→Session}
    (hp : t.protocol=s.protocol) (ht : t.sessions=s.sessions.map f)
    (hf : ∀x : Session, x.Moves s.protocol (f x)) : Progress s e t := by
  refine ⟨hp,?_,?_⟩
  · intro i x hx
    refine ⟨f x,?_,hf x⟩
    rw [ht,List.getElem?_map,hx]
    rfl
  · intro i y hy
    left
    have hlt := (List.getElem?_eq_some_iff.mp hy).1
    rwa [ht,List.length_map] at hlt

theorem Progress.of_set {i : Nat} {x y : Session}
    (hp : t.protocol=s.protocol) (hx : s.sessions[i]?=some x) (ht : t.sessions=s.sessions.set i y)
    (hxy : x.Moves s.protocol y) : Progress s e t := by
  refine ⟨hp,?_,?_⟩
  · intro j z hz
    rw [ht]
    by_cases hij : i=j
    · subst hij
      have hlt := (List.getElem?_eq_some_iff.mp hx).1
      rw [hx,Option.some.injEq] at hz
      exact ⟨y,by rw [List.getElem?_set_self hlt],hz ▸ hxy⟩
    · exact ⟨z,by rw [List.getElem?_set_ne hij,hz],Session.Moves.refl _ z⟩
  · intro j z hz
    left
    have hlt := (List.getElem?_eq_some_iff.mp hz).1
    rwa [ht,List.length_set] at hlt

theorem dropStale_sweep (protocol : Protocol) (k client : Nat) :
    Session.Sweep protocol (dropStale k client) := by
  constructor
  all_goals
    intro x
    unfold dropStale
    split_ifs with h
  · rw [Bool.and_eq_true] at h
    exact ⟨rfl,id,fun hx => ⟨fun _ => rfl,fun _ hc => by simp [h.2] at hc,hx.tcp⟩⟩
  · exact Session.Moves.refl _ x
  · rfl
  · rfl

theorem sweep_sweep (s : State) (k : Nat) : Session.Sweep s.protocol (s.sweep k) := by
  constructor
  all_goals
    intro x
    unfold sweep
    split_ifs with h
  · refine ⟨rfl,id,fun hx => ⟨hx.left,fun _ hc => by simp at hc,fun htcp => ?_⟩⟩
    rw [h.1] at htcp
    simp at htcp
  · exact Session.Moves.refl _ x
  · rfl
  · rfl

variable {limits : Limits}

/-- What a step does to the ownership of the listener and to the instances. -/
inductive Control (s : State) (e : Event) (t : State) : Prop
  | same (hc : t.current=s.current) (hl : t.listening=s.listening) (hi : t.instances=s.instances)
  | hand (k : Nat) (he : e=.replace k true) (hs : s.current=some k)
      (hc : t.current=some s.instances.length) (hl : t.listening=s.listening)
      (hi : t.instances=s.instances++[.fresh])
  | retire (k : Nat) (he : e=.drain k ∨ e=.closeStart k) (hs : s.current=some k)
      (hc : t.current=none) (hl : t.listening=false)
      (hi : t.instances=s.instances ∨ ∃x, s.instances[k]?=some x ∧ x.closing=.idle ∧
        t.instances=s.instances.set k ⟨.cancelled,true,x.returned⟩)
  | close (k : Nat) (x y : Instance) (hx : s.instances[k]?=some x)
      (hne : s.current≠some k ∨ x.closing≠.idle)
      (hc : t.current=s.current) (hl : t.listening=s.listening)
      (hi : t.instances=s.instances.set k y) (hy : y.closing≠.idle)
      (hr : y.returned=x.returned ∧ x.closing≠.ended ∨
        x.closing=.ended ∧ y.closing=.ended ∧ ∀z∈s.sessions, z.owner=k→z.stage=.finished)

/-- What a step does to the sessions and to the permits they hold: it moves all of them or one,
and an arrival may add one. -/
inductive Served (s : State) (e : Event) (t : State) : Prop
  | all (f : Session→Session) (hf : Session.Sweep s.protocol f) (hs : t.sessions=s.sessions.map f)
      (hp : t.permits=s.permits) (hn : ∀c, s.nodePermits=s.foreign+c→t.nodePermits=t.foreign+c)
  | one (i : Nat) (x y : Session) (hx : s.sessions[i]?=some x)
      (hs : t.sessions=s.sessions.set i y) (hxy : x.Moves s.protocol y) (hf : t.foreign=s.foreign)
      (hp : y.holds=x.holds ∧ t.permits=s.permits ∧ t.nodePermits=s.nodePermits ∨
        x.holds ∧ y.holds=false ∧ t.nodePermits=s.nodePermits-1 ∧
          (x.Ok s.protocol→s.protocol=.tcp→t.permits=s.permits-1))
  | admitted (f : Session→Session) (k client : Nat) (hf : Session.Sweep s.protocol f)
      (hk : s.current=some k) (hc : s.cancelled k=false)
      (hs : t.sessions=s.sessions.map f++[newSession k client])
      (he : ∃client authorized fits, e=.arrive client authorized fits) (hf' : t.foreign=s.foreign)
      (hp : s.protocol=.tcp→t.permits=s.permits+1) (hn : t.nodePermits=s.nodePermits+1)

/-- What a step does. -/
structure Stepped (s : State) (e : Event) (t : State) : Prop where
  protocol : t.protocol=s.protocol
  control : Control s e t
  served : Served s e t

theorem Served.same (hs : t.sessions=s.sessions) (hp : t.permits=s.permits)
    (hn : ∀c, s.nodePermits=s.foreign+c→t.nodePermits=t.foreign+c) : Served s e t :=
  .all id (.id _) (by rw [hs,List.map_id]) hp hn

theorem Stepped.refl (s : State) (e : Event) : Stepped s e s :=
  ⟨rfl,.same rfl rfl rfl,.same rfl rfl fun _ => id⟩

theorem acceptStream_stepped (s : State) (client : Nat) (authorized fits : Bool) :
    Stepped s (.arrive client authorized fits) (s.acceptStream limits client authorized) := by
  unfold acceptStream
  split
  · exact .refl s _
  · next k hk =>
    split_ifs with hc
    · exact .refl s _
    · exact .refl s _
    · exact .refl s _
    · simp only [Bool.or_eq_true,not_or,Bool.not_eq_true] at hc
      exact ⟨rfl,.same rfl rfl rfl,.admitted id k client (.id _) hk hc.1 (by rw [List.map_id])
        ⟨client,authorized,fits,rfl⟩ rfl (fun _ => rfl) rfl⟩

theorem receiveDatagram_stepped (hp : s.protocol=.udp) (client : Nat) (authorized fits : Bool) :
    Stepped s (.arrive client authorized fits)
      (s.receiveDatagram limits client authorized fits) := by
  unfold receiveDatagram
  split
  · exact .refl s _
  · next k hk =>
    have hsweep := dropStale_sweep s.protocol k client
    dsimp only
    split_ifs with hc
    · exact .refl s _
    · exact ⟨rfl,.same rfl rfl rfl,.all _ hsweep rfl rfl fun _ => id⟩
    · exact ⟨rfl,.same rfl rfl rfl,.all _ hsweep rfl rfl fun _ => id⟩
    · exact ⟨rfl,.same rfl rfl rfl,.all _ hsweep rfl rfl fun _ => id⟩
    · simp only [Bool.or_eq_true,not_or,Bool.not_eq_true] at hc
      exact ⟨rfl,.same rfl rfl rfl,.admitted _ k client hsweep hk hc.1.1 rfl
        ⟨client,authorized,fits,rfl⟩ rfl (by simp [hp]) rfl⟩

theorem step_cases (h : s.step limits e=some t) : Stepped s e t := by
  cases e
  all_goals
    simp only [step,closeStep,sessionStep,Option.bind_eq_some_iff,Option.ite_none_right_eq_some,
      Option.some.injEq] at h
  case arrive client authorized fits =>
    obtain ⟨-,rfl⟩ := h
    unfold arrive
    split
    · exact s.acceptStream_stepped client authorized fits
    · next hp => exact receiveDatagram_stepped hp client authorized fits
  case stop =>
    obtain ⟨-,rfl⟩ := h
    exact ⟨rfl,.same rfl rfl rfl,.same rfl rfl fun _ => id⟩
  case foreign n =>
    obtain ⟨-,rfl⟩ := h
    refine ⟨rfl,.same rfl rfl rfl,.same rfl rfl fun c hc => ?_⟩
    simp only
    omega
  case replace k authorized =>
    subst h
    unfold replace
    split_ifs with hr
    · exact .refl s _
    · simp only [not_or,Decidable.not_not,Bool.not_eq_true,Bool.not_eq_false'] at hr
      exact ⟨rfl,.hand k (by rw [hr.2.2]) hr.1 rfl rfl rfl,.same rfl rfl fun _ => id⟩
  case drain k =>
    obtain ⟨-,rfl⟩ := h
    by_cases hk : s.current=some k
    · rw [State.retire,if_pos hk]
      exact ⟨rfl,.retire k (.inl rfl) hk rfl rfl (.inl rfl),.same rfl rfl fun _ => id⟩
    · rw [State.retire,if_neg hk]
      exact .refl s _
  case closeStart k =>
    obtain ⟨x,hx,hidle,rfl⟩ := h
    by_cases hk : s.current=some k
    · rw [State.retire,if_pos hk]
      exact ⟨rfl,.retire k (.inr rfl) hk rfl rfl (.inr ⟨x,hx,hidle,by simp [setInstance,hk]⟩),
        .same rfl rfl fun _ => id⟩
    · rw [State.retire,if_neg hk]
      exact ⟨rfl,.close k x _ hx (.inl hk) rfl rfl rfl (by simp) (.inl ⟨rfl,by simp [hidle]⟩),
        .same rfl rfl fun _ => id⟩
  case closeSweep k =>
    obtain ⟨x,hx,hc,rfl⟩ := h
    exact ⟨rfl,.close k x _ hx (.inr (by simp [hc])) rfl rfl rfl (by simp) (.inl ⟨rfl,by simp [hc]⟩),
      .all _ (s.sweep_sweep k) rfl rfl fun _ => id⟩
  case closeEnd k =>
    obtain ⟨x,hx,hc,rfl⟩ := h
    exact ⟨rfl,.close k x _ hx (.inr (by simp [hc.1])) rfl rfl rfl (by simp)
      (.inl ⟨rfl,by simp [hc.1]⟩),.same rfl rfl fun _ => id⟩
  case closeReturn k =>
    obtain ⟨x,hx,hc,rfl⟩ := h
    exact ⟨rfl,.close k x _ hx (.inr (by simp [hc.1])) rfl rfl rfl (by simp [hc.1])
      (.inr ⟨hc.1,hc.1,hc.2⟩),.same rfl rfl fun _ => id⟩
  case connect i authorized =>
    obtain ⟨x,hx,-,rfl⟩ := h
    exact ⟨rfl,.same rfl rfl rfl,.one i x _ hx rfl
      ⟨rfl,id,fun hok => ⟨hok.left,hok.kept,hok.tcp⟩⟩ rfl (.inl ⟨rfl,rfl,rfl⟩)⟩
  case cancel i =>
    obtain ⟨x,hx,hc,rfl⟩ := h
    refine ⟨rfl,.same rfl rfl rfl,.one i x _ hx rfl
      ⟨rfl,id,fun hok => ⟨hok.left,fun _ hf => by simp at hf,?_⟩⟩ rfl (.inl ⟨rfl,rfl,rfl⟩)⟩
    intro htcp
    rw [hc.1] at htcp
    simp at htcp
  case remove i =>
    obtain ⟨x,hx,h⟩ := h
    split_ifs at h with hstage htcp hcancel
    all_goals
      cases h
      simp only [Decidable.not_not] at hstage
    · refine ⟨rfl,.same rfl rfl rfl,.one i x _ hx rfl
        ⟨rfl,fun hf => by simp [hstage] at hf,fun hok => ?_⟩ rfl
        (.inr ⟨by simp [Session.holds,hstage],rfl,rfl,fun _ _ => rfl⟩)⟩
      exact ⟨fun _ => rfl,fun hf => by simp at hf,fun hp => ⟨(hok.tcp hp).1,by simp⟩⟩
    · refine ⟨rfl,.same rfl rfl rfl,.one i x _ hx rfl
        ⟨rfl,fun hf => by simp [hstage] at hf,fun hok => ?_⟩ rfl
        (.inl ⟨by simp [Session.holds,hstage],rfl,rfl⟩)⟩
      exact ⟨fun _ => rfl,fun hf => by simp at hf,fun hp => absurd hp htcp⟩
  case release i =>
    obtain ⟨x,hx,hstage,rfl⟩ := h
    refine ⟨rfl,.same rfl rfl rfl,.one i x _ hx rfl
      ⟨rfl,fun hf => by simp [hstage] at hf,fun hok => ?_⟩ rfl
      (.inr ⟨by simp [Session.holds,hstage],rfl,rfl,fun hok hp => absurd hstage (hok.tcp hp).2⟩)⟩
    exact ⟨fun _ => hok.left (by simp [hstage]),fun hf => by simp at hf,
      fun hp => ⟨(hok.tcp hp).1,by simp⟩⟩
  case finish i =>
    obtain ⟨x,hx,hstage,rfl⟩ := h
    refine ⟨rfl,.same rfl rfl rfl,.one i x _ hx rfl ⟨rfl,fun _ => rfl,fun hok => ?_⟩ rfl
      (.inl ⟨by simp only [Session.holds,hstage]; rfl,rfl,rfl⟩)⟩
    exact ⟨fun _ => hok.left (by simp [hstage]),fun hf => by simp at hf,
      fun hp => ⟨(hok.tcp hp).1,by simp⟩⟩

theorem step_progress (h : s.step limits e=some t) : Progress s e t := by
  obtain ⟨hp,-,hserved⟩ := step_cases h
  cases hserved with
  | all f hf hs => exact .of_map hp hs hf.moves
  | one i x y hx hs hxy => exact .of_set hp hx hs hxy
  | admitted f k client hf hk hc hs he =>
    refine ⟨hp,?_,?_⟩
    · intro i x hx
      have hlt := (List.getElem?_eq_some_iff.mp hx).1
      refine ⟨f x,?_,hf.moves x⟩
      rw [hs,List.getElem?_append_left (by simpa using hlt),List.getElem?_map,hx]
      rfl
    · intro i y hy
      rcases Nat.lt_or_ge i s.sessions.length with hlt|hge
      · exact .inl hlt
      · right
        rw [hs,List.getElem?_append_right (by simpa using hge),List.getElem?_singleton] at hy
        split_ifs at hy with hi
        simp only [List.length_map] at hi
        cases hy
        exact ⟨by omega,hk,hc,rfl,he⟩

/-- The permits in use are those the sessions hold. -/
structure Booked (s : State) : Prop where
  node : s.nodePermits=s.foreign+s.sessions.countP Session.holds
  slot : s.protocol=.tcp→s.permits=s.sessions.countP Session.holds

theorem countP_map_holds {protocol : Protocol} {l : List Session} {f : Session→Session}
    (hf : Session.Sweep protocol f) : (l.map f).countP Session.holds=l.countP Session.holds := by
  rw [List.countP_map]
  exact List.countP_congr fun x _ => by rw [Function.comp_apply,hf.holds]

theorem Booked.step (hb : s.Booked)
    (hok : ∀x∈s.sessions, x.Ok s.protocol) (h : s.step limits e=some t) : t.Booked := by
  obtain ⟨hprotocol,-,hserved⟩ := step_cases h
  have hnode := hb.node
  have hslot := hb.slot
  cases hserved with
  | all f hf hs hp hn =>
    have hcount := countP_map_holds (l := s.sessions) hf
    exact ⟨hn _ (by rw [hs,hcount,hnode]),fun htcp => by rw [hp,hs,hcount,hslot (hprotocol ▸ htcp)]⟩
  | one i x y hx hs _ hf hp =>
    have hcount := countP_set_add (p := Session.holds) (y := y) hx
    rw [← hs] at hcount
    obtain ⟨hsame,hpermits,hn⟩ | ⟨hheld,hfree,hn,hpermits⟩ := hp
    · rw [hsame] at hcount
      refine ⟨by omega,fun htcp => ?_⟩
      have hslot := hslot (hprotocol ▸ htcp)
      omega
    · rw [if_pos hheld,hfree] at hcount
      refine ⟨by simp at hcount; omega,fun htcp => ?_⟩
      have hpermits := hpermits (hok x (List.mem_of_getElem? hx)) (hprotocol ▸ htcp)
      have hslot := hslot (hprotocol ▸ htcp)
      simp at hcount
      omega
  | admitted f k client hsweep _ _ hs _ hf hp hn =>
    have hcount : t.sessions.countP Session.holds=s.sessions.countP Session.holds+1 := by
      rw [hs,List.countP_append,countP_map_holds hsweep]
      rfl
    refine ⟨by omega,fun htcp => ?_⟩
    have hpermits := hp (hprotocol ▸ htcp)
    have hslot := hslot (hprotocol ▸ htcp)
    omega

/-- The invariant of a slot: who owns the listener has not begun to close, and an instance
whose `Close` returned has nothing left. -/
structure Sound (s : State) : Prop where
  ok : ∀x∈s.sessions, x.Ok s.protocol
  owners : ∀x∈s.sessions, x.owner<s.instances.length
  booked : s.Booked
  listening : ∀k, s.current=some k→s.listening=true
  current : ∀k, s.current=some k→s.cancelled k=false
  returned : ∀(k : Nat) (x : Instance), s.instances[k]?=some x→x.returned→
    x.closing=.ended ∧ ∀y∈s.sessions, y.owner=k→y.stage=.finished

variable {k : Nat}

theorem cancelled_false (h : s.cancelled k=false) :
    ∃x, s.instances[k]?=some x ∧ x.closing=.idle := by
  unfold cancelled at h
  split at h
  · next x hx => exact ⟨x,hx,by simpa using h⟩
  · simp at h

variable {x : Instance}

theorem cancelled_of (hx : s.instances[k]?=some x) : s.cancelled k=(x.closing != .idle) := by
  rw [cancelled,hx]

theorem Sound.start (protocol : Protocol) (foreign : Nat) : (State.start protocol foreign).Sound := by
  refine ⟨by simp [State.start],by simp [State.start],⟨rfl,fun _ => rfl⟩,fun _ _ => rfl,?_,?_⟩
  · intro k hk
    simp only [State.start,Option.some.injEq] at hk
    subst hk
    rfl
  · intro k x hx hr
    simp only [State.start,List.getElem?_singleton] at hx
    split_ifs at hx
    have hfresh := Option.some.inj hx
    subst hfresh
    simp [Instance.fresh] at hr

theorem Progress.origin (hp : Progress s e t) {y : Session}
    (hy : y∈t.sessions) :
    (∃x∈s.sessions, x.Moves s.protocol y) ∨
      s.cancelled y.owner=false ∧ y=newSession y.owner y.client := by
  obtain ⟨i,hi⟩ := List.getElem?_of_mem hy
  rcases hp.after i y hi with hlt|⟨-,-,hc,hnew,-⟩
  · have hx : s.sessions[i]?=some s.sessions[i] := List.getElem?_eq_getElem hlt
    obtain ⟨z,hz,hmoves⟩ := hp.before i _ hx
    rw [hi,Option.some.injEq] at hz
    exact .inl ⟨_,List.getElem_mem hlt,hz ▸ hmoves⟩
  · exact .inr ⟨hc,hnew⟩

theorem newSession_ok (protocol : Protocol) (k client : Nat) :
    (newSession k client).Ok protocol :=
  ⟨fun h => by simp [newSession] at h,fun _ _ => rfl,fun _ => ⟨rfl,by simp [newSession]⟩⟩

theorem Progress.finished (hp : Progress s e t)
    (hk : s.cancelled k) (hall : ∀x∈s.sessions, x.owner=k→x.stage=.finished) :
    ∀y∈t.sessions, y.owner=k→y.stage=.finished := by
  intro y hy hyk
  rcases hp.origin hy with ⟨x,hx,hmoves⟩|⟨hc,-⟩
  · exact hmoves.finished (hall x hx (hmoves.owner ▸ hyk))
  · rw [hyk,hk] at hc
    simp at hc

theorem Control.length (hc : Control s e t) : s.instances.length≤t.instances.length := by
  cases hc with
  | same _ _ hi => exact hi ▸ Nat.le_refl _
  | hand _ _ _ _ _ hi | close _ _ _ _ _ _ _ hi => simp [hi]
  | retire _ _ _ _ _ hi =>
    rcases hi with hi|⟨x,-,-,hi⟩ <;> simp [hi]

theorem Sound.kept (hs : s.Sound) (hp : Progress s e t)
    (hx : s.instances[k]?=some x) (hr : x.returned) :
    x.closing=.ended ∧ ∀y∈t.sessions, y.owner=k→y.stage=.finished := by
  have hret := hs.returned k x hx hr
  have hk : s.cancelled k := by
    rw [cancelled_of hx,hret.1]
    rfl
  exact ⟨hret.1,hp.finished hk hret.2⟩

theorem Sound.step_returned (hs : s.Sound) (hp : Progress s e t)
    (hc : Control s e t) (k : Nat) (z : Instance) (hz : t.instances[k]?=some z)
    (hr : z.returned) : z.closing=.ended ∧ ∀y∈t.sessions, y.owner=k→y.stage=.finished := by
  cases hc with
  | same _ _ hi =>
    rw [hi] at hz
    exact hs.kept hp hz hr
  | hand _ _ _ _ _ hi =>
    rw [hi,List.getElem?_append] at hz
    split_ifs at hz with hlt
    · exact hs.kept hp hz hr
    · have hfresh := List.mem_of_getElem? hz
      rw [List.mem_singleton] at hfresh
      rw [hfresh] at hr
      simp [Instance.fresh] at hr
  | retire j _ _ _ _ hi =>
    rcases hi with hi|⟨x,hx,hidle,hi⟩
    · rw [hi] at hz
      exact hs.kept hp hz hr
    · rw [hi,List.getElem?_set] at hz
      split_ifs at hz with hjk
      · obtain rfl := Option.some.inj hz
        have hended := (hs.returned j x hx hr).1
        rw [hidle] at hended
        simp at hended
      · exact hs.kept hp hz hr
  | close j x y hx _ _ _ hi _ hcases =>
    rw [hi,List.getElem?_set] at hz
    split_ifs at hz with hjk
    · subst hjk
      obtain rfl := Option.some.inj hz
      rcases hcases with ⟨hsame,hne⟩|⟨hx',hended,hall⟩
      · rw [hsame] at hr
        exact absurd (hs.returned j x hx hr).1 hne
      · have hk : s.cancelled j := by
          rw [cancelled_of hx,hx']
          rfl
        exact ⟨hended,hp.finished hk hall⟩
    · exact hs.kept hp hz hr

theorem Sound.step_current (hs : s.Sound) (hc : Control s e t) (k : Nat)
    (hk : t.current=some k) : t.listening=true ∧ t.cancelled k=false := by
  cases hc with
  | same hcur hl hi =>
    rw [hcur] at hk
    refine ⟨hl.trans (hs.listening k hk),?_⟩
    rw [cancelled,hi]
    exact hs.current k hk
  | hand j _ hj hcur hl hi =>
    rw [hcur,Option.some.injEq] at hk
    subst hk
    refine ⟨hl.trans (hs.listening j hj),?_⟩
    rw [cancelled,hi,List.getElem?_concat_length]
    rfl
  | retire _ _ _ hcur =>
    rw [hcur] at hk
    simp at hk
  | close j x y hx hne hcur hl hi =>
    rw [hcur] at hk
    have hjk : j≠k := by
      rintro rfl
      rcases hne with hne|hne
      · exact hne hk
      · have hidle := hs.current j hk
        rw [cancelled_of hx] at hidle
        simp [hne] at hidle
    refine ⟨hl.trans (hs.listening k hk),?_⟩
    rw [cancelled,hi,List.getElem?_set_ne hjk]
    exact hs.current k hk

theorem Sound.step (hs : s.Sound) (h : s.step limits e=some t) : t.Sound := by
  have hp := step_progress h
  have hc := (step_cases h).control
  refine ⟨?_,?_,hs.booked.step hs.ok h,?_,?_,hs.step_returned hp hc⟩
  · intro y hy
    rw [hp.protocol]
    rcases hp.origin hy with ⟨x,hx,hmoves⟩|⟨-,hnew⟩
    · exact hmoves.ok (hs.ok x hx)
    · rw [hnew]
      exact newSession_ok _ _ _
  · intro y hy
    have hlen := hc.length
    rcases hp.origin hy with ⟨x,hx,hmoves⟩|⟨hidle,-⟩
    · have hx := hs.owners x hx
      rw [hmoves.owner]
      omega
    · obtain ⟨x,hx,-⟩ := cancelled_false hidle
      have hlt := (List.getElem?_eq_some_iff.mp hx).1
      omega
  · exact fun k hk => (hs.step_current hc k hk).1
  · exact fun k hk => (hs.step_current hc k hk).2

theorem Sound.run {l : List Event} (hs : s.Sound) (h : Run (Step limits) s l t) : t.Sound :=
  h.invariant Sound (fun _ _ _ hstep ht => ht.step hstep) hs

theorem Control.closing (hc : Control s e t)
    (hx : s.instances[k]?=some x) (hk : x.closing≠.idle) :
    ∃y, t.instances[k]?=some y ∧ y.closing≠.idle := by
  have hset {j : Nat} {z : Instance} (hz : z.closing≠.idle) :
      ∃y, (s.instances.set j z)[k]?=some y ∧ y.closing≠.idle := by
    by_cases hjk : j=k
    · subst hjk
      exact ⟨z,List.getElem?_set_self (List.getElem?_eq_some_iff.mp hx).1,hz⟩
    · exact ⟨x,by rw [List.getElem?_set_ne hjk,hx],hk⟩
  cases hc with
  | same _ _ hi => exact ⟨x,hi ▸ hx,hk⟩
  | hand _ _ _ _ _ hi =>
    rw [hi]
    exact ⟨x,by rw [List.getElem?_append_left (List.getElem?_eq_some_iff.mp hx).1,hx],hk⟩
  | retire j _ _ _ _ hi =>
    rcases hi with hi|⟨z,-,-,hi⟩
    · exact ⟨x,hi ▸ hx,hk⟩
    · rw [hi]
      exact hset (by simp)
  | close j z y _ _ _ _ hi hy =>
    rw [hi]
    exact hset hy

/-- From a state in which an instance is closing with all its sessions finished, no run brings
one back or adds one. -/
theorem run_closed {l : List Event}
    (hx : s.instances[k]?=some x) (hk : x.closing≠.idle)
    (hall : ∀y∈s.sessions, y.owner=k→y.stage=.finished) (h : Run (Step limits) s l t) :
    (∃y, t.instances[k]?=some y ∧ y.closing≠.idle) ∧
      (∀y∈t.sessions, y.owner=k→y.stage=.finished) ∧
      ∀(i : Nat) (y : Session), t.sessions[i]?=some y→y.owner=k→i<s.sessions.length := by
  induction h with
  | refl => exact ⟨⟨x,hx,hk⟩,hall,fun i y hy _ => (List.getElem?_eq_some_iff.mp hy).1⟩
  | @snoc l u v e _ hstep ih =>
    obtain ⟨⟨z,hz,hzk⟩,hfin,hlen⟩ := ih
    have hp := step_progress hstep
    have hck : u.cancelled k := by
      rw [cancelled_of hz]
      simpa using hzk
    refine ⟨(step_cases hstep).control.closing hz hzk,hp.finished hck hfin,?_⟩
    intro i y hy hyk
    rcases hp.after i y hy with hlt|⟨-,-,hc,-,-⟩
    · have hw : u.sessions[i]?=some u.sessions[i] := List.getElem?_eq_getElem hlt
      obtain ⟨y',hy',hmoves⟩ := hp.before i _ hw
      rw [hy,Option.some.injEq] at hy'
      subst hy'
      exact hlen i _ hw (hmoves.owner ▸ hyk)
    · rw [hyk,hck] at hc
      simp at hc

/-- The live connections of all instances, as `Remaining` counts them. -/
def live (s : State) : Nat := ((List.range s.instances.length).map s.remaining).sum

theorem sum_indicator (b : Bool) (owner n : Nat) :
    ((List.range n).map fun k => if b && owner==k then 1 else 0).sum=
      if b ∧ owner<n then 1 else 0 := by
  induction n with
  | zero => simp
  | succ n ih =>
    rw [List.range_succ,List.map_append,List.sum_append,ih]
    cases b with
    | false => simp
    | true =>
      simp only [Bool.true_and,beq_iff_eq,true_and,List.map_cons,List.map_nil,List.sum_cons,
        List.sum_nil]
      split_ifs <;> omega

theorem sum_remaining {l : List Session} {n : Nat} (h : ∀x∈l, x.owner<n) :
    ((List.range n).map fun k => l.countP fun x => x.mapped && x.owner==k).sum=
      l.countP Session.mapped := by
  induction l with
  | nil => simp
  | cons x l ih =>
    rw [List.forall_mem_cons] at h
    simp only [List.countP_cons]
    rw [List.sum_map_add,ih h.2,sum_indicator]
    simp [h.1]

theorem live_eq (h : ∀x∈s.sessions, x.owner<s.instances.length) :
    s.live=s.sessions.countP Session.mapped := sum_remaining h

/-- No cleanup is in progress: every session is served and not cancelled, or finished. -/
def Quiet (s : State) : Prop :=
  ∀x∈s.sessions, x.stage=.serving ∧ x.cancelled=false ∨ x.stage=.finished

theorem Sound.live_holds (hs : s.Sound) (h : ∀x∈s.sessions, x.mapped=x.holds) :
    s.live=s.sessions.countP Session.holds := by
  rw [live_eq hs.owners]
  exact List.countP_congr fun x hx => by rw [h x hx]

theorem Sound.live_tcp (hs : s.Sound) (htcp : s.protocol=.tcp) :
    s.live=s.sessions.countP Session.holds := by
  apply hs.live_holds
  intro x hx
  have hok := hs.ok x hx
  have hx := hok.tcp htcp
  by_cases hserving : x.stage=.serving
  · rw [hok.kept hserving hx.1,Session.holds,hserving]
    rfl
  · rw [hok.left hserving,Session.holds]
    simp [hserving,hx.2]

theorem Sound.live_quiet (hs : s.Sound) (hq : s.Quiet) :
    s.live=s.sessions.countP Session.holds := by
  apply hs.live_holds
  intro x hx
  have hok := hs.ok x hx
  rcases hq x hx with ⟨hserving,hc⟩|hfin
  · rw [hok.kept hserving hc,Session.holds,hserving]
    rfl
  · rw [hok.left (by simp [hfin]),Session.holds,hfin]
    rfl

end State

/-- In every interleaving on one slot: each session belongs to the instance that was current
when it was admitted, only the current instance closes the listener, an instance whose `Close`
returned has no session and gets none, and the permits count each live session once. -/
theorem listener_slot_owned (limits : Limits) (protocol : Protocol) (foreign : Nat)
    (l : List Event) (s : State) (h : Run (Step limits) (.start protocol foreign) l s) :
    (∀e t, Step limits s e t→
      (∀(i : Nat) (x : Session), s.sessions[i]?=some x→
        ∃y, t.sessions[i]?=some y ∧ y.owner=x.owner) ∧
      (∀(i : Nat) (y : Session), t.sessions[i]?=some y→i<s.sessions.length ∨
        i=s.sessions.length ∧ s.current=some y.owner ∧
          ∃client authorized fits, e=.arrive client authorized fits) ∧
      (s.listening=true→t.listening=false→
        ∃k, s.current=some k ∧ (e=.drain k ∨ e=.closeStart k)) ∧
      ∀k, e=.drain k ∨ e=.closeStart k→s.current≠some k→
        t.listening=s.listening ∧ t.current=s.current) ∧
    (∀(k : Nat) (x : Instance), s.instances[k]?=some x→x.returned=true→
      ∀m t, Run (Step limits) s m t→∀(i : Nat) (y : Session), t.sessions[i]?=some y→y.owner=k→
        y.stage=.finished ∧ y.mapped=false ∧ i<s.sessions.length) ∧
    (s.protocol=.tcp→s.permits=s.live ∧ s.nodePermits=s.foreign+s.live) ∧
    (s.Quiet→s.nodePermits=s.foreign+s.live) := by
  have hs := (State.Sound.start protocol foreign).run h
  refine ⟨?_,?_,?_,?_⟩
  · intro e t hstep
    have hp := State.step_progress hstep
    have hc := (State.step_cases hstep).control
    refine ⟨?_,?_,?_,?_⟩
    · intro i x hx
      obtain ⟨y,hy,hmoves⟩ := hp.before i x hx
      exact ⟨y,hy,hmoves.owner⟩
    · intro i y hy
      rcases hp.after i y hy with hlt|⟨hi,hcur,-,-,he⟩
      · exact .inl hlt
      · exact .inr ⟨hi,hcur,he⟩
    · intro hopen hclosed
      cases hc with
      | same _ hl | hand _ _ _ _ hl | close _ _ _ _ _ _ hl => simp [hl,hopen] at hclosed
      | retire k he hk => exact ⟨k,hk,he⟩
    · intro k he hk
      cases hc with
      | same hcur hl | close _ _ _ _ _ hcur hl => exact ⟨hl,hcur⟩
      | hand j hj =>
        rw [hj] at he
        simp at he
      | retire j hj hcur =>
        have hjk : j=k := by
          rcases hj with hj|hj <;> rcases he with he|he <;> rw [hj] at he <;> simp at he
          · exact he
          · exact he
        exact absurd (hjk ▸ hcur) hk
  · intro k x hx hr m t hrun i y hy hyk
    have hret := hs.returned k x hx hr
    have ht := hs.run hrun
    obtain ⟨-,hfin,hlen⟩ := State.run_closed hx (by simp [hret.1]) hret.2 hrun
    have hmem := List.mem_of_getElem? hy
    have hstage := hfin y hmem hyk
    exact ⟨hstage,(ht.ok y hmem).left (by simp [hstage]),hlen i y hy hyk⟩
  · intro htcp
    rw [hs.live_tcp htcp]
    exact ⟨hs.booked.slot htcp,hs.booked.node⟩
  · intro hquiet
    rw [hs.live_quiet hquiet]
    exact hs.booked.node

/-- A stream is admitted, the slot is handed to a successor that admits another one, and the
first instance closes. -/
def handOver : List Event :=
  [.arrive 5 true true,.replace 0 true,.closeStart 0,.arrive 6 true true,.remove 0,.finish 0,
    .closeSweep 0,.closeEnd 0,.closeReturn 0]

def handedOver : State where
  protocol := .tcp
  current := some 1
  listening := true
  looping := true
  instances := [⟨.ended,false,true⟩,.fresh]
  sessions := [⟨0,5,false,false,false,.finished⟩,State.newSession 1 6]
  permits := 1
  nodePermits := 4
  foreign := 3

theorem handOver_steps :
    handOver.foldlM (State.step ⟨2,10,2⟩) (.start .tcp 3)=some handedOver := by
  rfl

theorem listener_slot_owned_handOver :
    handedOver.permits=handedOver.live ∧ handedOver.live=1 ∧
      ∀m t, Run (Step ⟨2,10,2⟩) handedOver m t→∀(i : Nat) (y : Session), t.sessions[i]?=some y→
        y.owner=0→y.stage=.finished := by
  obtain ⟨-,hclosed,htcp,-⟩ := listener_slot_owned ⟨2,10,2⟩ .tcp 3 handOver handedOver
    (Run.of_foldlM (fun _ _ _ ht => ht) handOver_steps)
  refine ⟨(htcp rfl).1,rfl,?_⟩
  intro m t hrun i y hy hyk
  exact (hclosed 0 ⟨.ended,false,true⟩ rfl rfl m t hrun i y hy hyk).1

end TuneX.Agent.Listener
