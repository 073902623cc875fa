import TuneX.Framework.Permits
import TuneX.Framework.Run

namespace TuneX.Agent.Budget

open Framework

def maxConnections : Nat := 4096

/-- Where a direct TCP connection stands: it has a permit of its listener, then one of the Node
as well, and gives them back in the opposite order. -/
inductive StreamStage
  | pending
  | live
  | ended
  | finished
  deriving DecidableEq, Repr

/-- Where a call of `acquireNode` and its release function stand: the checks and permits of the
call under the mutex, a failure that gives the first permit back, and the steps of the release. -/
inductive RelayStage
  | entered
  | tcpHeld
  | ready
  | undoing
  | failed
  | live
  | releasing
  | tcpReturned
  | udpReturned
  | released
  deriving DecidableEq, Repr

inductive Holder
  | stream (slot : Nat) (stage : StreamStage)
  | association (live : Bool)
  | relay (udp : Bool) (stage : RelayStage)
  deriving DecidableEq, Repr

structure State where
  tcp : Nat
  udp : Nat
  nodeConnections : Int
  /-- `nodeMutex` is taken by a call of `acquireNode`. -/
  locked : Bool
  /-- Used permits of each TCP listener. -/
  streams : Nat→Nat
  /-- Every connection, association and Relay call so far. -/
  holders : List Holder

def State.start : State := ⟨0,0,0,false,fun _ => 0,[]⟩

/-- Every event is one operation on a channel or one section under the mutex of the Relay count. -/
inductive Event
  | accept (slot : Nat) (authorized : Bool)
  | book (i : Nat)
  | close (i : Nat)
  | finish (i : Nat)
  | receive (authorized room : Bool)
  | expire (i : Nat)
  | acquireNode (maximum : Int) (protocol : String)
  | advance (i : Nat)
  | release (i : Nat)
  deriving DecidableEq

namespace State

def replace (s : State) (i : Nat) (h : Holder) : State := { s with holders := s.holders.set i h }

def setStream (s : State) (slot used : Nat) : State :=
  { s with streams := fun k => if k=slot then used else s.streams k }

/-- `accept`: a permit of the listener, before one of the Node. -/
def accept (capacity : Nat→Nat) (s : State) (slot : Nat) (authorized : Bool) : State :=
  if authorized ∧ s.streams slot<capacity slot then
    let t := s.setStream slot (s.streams slot+1)
    { t with holders := s.holders++[.stream slot .pending] }
  else s

/-- The Node permit of an accepted connection; without one the listener's is given back. -/
def book (s : State) (i : Nat) : Option State :=
  match s.holders[i]? with
  | some (.stream slot .pending) =>
    if s.tcp < maxConnections then some { s.replace i (.stream slot .live) with tcp := s.tcp+1 }
    else some ((s.replace i (.stream slot .finished)).setStream slot (s.streams slot-1))
  | _ => none

/-- The end of `copy`, which waits for a permit to take back. -/
def close (s : State) (i : Nat) : Option State :=
  match s.holders[i]? with
  | some (.stream slot .live) =>
    if 0<s.tcp then some { s.replace i (.stream slot .ended) with tcp := s.tcp-1 } else none
  | _ => none

def finish (s : State) (i : Nat) : Option State :=
  match s.holders[i]? with
  | some (.stream slot .ended) =>
    some ((s.replace i (.stream slot .finished)).setStream slot (s.streams slot-1))
  | _ => none

/-- `receive` for a client without an association. -/
def receive (s : State) (authorized room : Bool) : State :=
  if authorized ∧ room ∧ s.udp < maxConnections then
    { s with udp := s.udp+1, holders := s.holders++[.association true] }
  else s

def expire (s : State) (i : Nat) : Option State :=
  match s.holders[i]? with
  | some (.association true) =>
    if 0<s.udp then some { s.replace i (.association false) with udp := s.udp-1 } else none
  | _ => none

/-- `acquireNode` up to its first permit. -/
def acquireNode (s : State) (maximum : Int) (protocol : String) : Option State :=
  if s.locked then none
  else if maximum ≤ s.nodeConnections ∨ (maxConnections : Int) ≤ s.nodeConnections then
    some { s with holders := s.holders++[.relay (protocol == "udp") .failed] }
  else some { s with
    locked := true
    holders := s.holders++[.relay (protocol == "udp") .entered] }

/-- The next step of a Relay call or of its release function. -/
def advance (s : State) (i : Nat) : Option State :=
  match s.holders[i]? with
  | some (.relay udp .entered) =>
    if s.tcp < maxConnections then some { s.replace i (.relay udp .tcpHeld) with tcp := s.tcp+1 }
    else some { s.replace i (.relay udp .failed) with locked := false }
  | some (.relay false .tcpHeld) => some (s.replace i (.relay false .ready))
  | some (.relay true .tcpHeld) =>
    if s.udp < maxConnections then some { s.replace i (.relay true .ready) with udp := s.udp+1 }
    else some (s.replace i (.relay true .undoing))
  | some (.relay udp .undoing) =>
    if 0<s.tcp then
      some { s.replace i (.relay udp .failed) with tcp := s.tcp-1, locked := false }
    else none
  | some (.relay udp .ready) =>
    some { s.replace i (.relay udp .live) with
      nodeConnections := s.nodeConnections+1, locked := false }
  | some (.relay udp .releasing) =>
    if 0<s.tcp then some { s.replace i (.relay udp .tcpReturned) with tcp := s.tcp-1 } else none
  | some (.relay false .tcpReturned) => some (s.replace i (.relay false .udpReturned))
  | some (.relay true .tcpReturned) =>
    if 0<s.udp then some { s.replace i (.relay true .udpReturned) with udp := s.udp-1 } else none
  | some (.relay udp .udpReturned) =>
    if s.locked then none
    else some { s.replace i (.relay udp .released) with nodeConnections := s.nodeConnections-1 }
  | _ => none

/-- A call of a release function; only the first one does anything. -/
def release (s : State) (i : Nat) : Option State :=
  match s.holders[i]? with
  | some (.relay udp .live) => some (s.replace i (.relay udp .releasing))
  | some (.relay _ .releasing) | some (.relay _ .tcpReturned) | some (.relay _ .udpReturned)
  | some (.relay _ .released) => some s
  | _ => none

def step (capacity : Nat→Nat) (s : State) : Event→Option State
  | .accept slot authorized => some (s.accept capacity slot authorized)
  | .book i => s.book i
  | .close i => s.close i
  | .finish i => s.finish i
  | .receive authorized room => some (s.receive authorized room)
  | .expire i => s.expire i
  | .acquireNode maximum protocol => s.acquireNode maximum protocol
  | .advance i => s.advance i
  | .release i => s.release i

end State

def Step (capacity : Nat→Nat) (s : State) (e : Event) (t : State) : Prop := s.step capacity e=some t

namespace Holder

def isStream : Holder→Bool
  | stream _ .live => true
  | _ => false

def isAssociation : Holder→Bool
  | association live => live
  | _ => false

/-- A Relay holder that has not been released. -/
def isRelay : Holder→Bool
  | relay _ .live => true
  | _ => false

def isRelayUdp : Holder→Bool
  | relay udp .live => udp
  | _ => false

/-- A Relay call or release that is half done and still has a `tcp` permit. -/
def halfTcp : Holder→Bool
  | relay _ .tcpHeld | relay _ .ready | relay _ .undoing | relay _ .releasing => true
  | _ => false

def halfUdp : Holder→Bool
  | relay udp .ready | relay udp .releasing | relay udp .tcpReturned => udp
  | _ => false

/-- A Relay release that is half done and still counted. -/
def halfCounted : Holder→Bool
  | relay _ .releasing | relay _ .tcpReturned | relay _ .udpReturned => true
  | _ => false

/-- A Relay call that has the mutex. -/
def acquiring : Holder→Bool
  | relay _ .entered | relay _ .tcpHeld | relay _ .ready | relay _ .undoing => true
  | _ => false

def holdsTcp (h : Holder) : Bool := h.isStream || (h.isRelay || h.halfTcp)

def holdsUdp (h : Holder) : Bool := h.isAssociation || (h.isRelayUdp || h.halfUdp)

def counted (h : Holder) : Bool := h.isRelay || h.halfCounted

end Holder

variable {capacity : Nat→Nat} {s t : State} {e : Event} {i : Nat} {x y : Holder}

/-- One holder changes from `x` to `y`, and the counters with it. A new holder changes from an
association that has ended, which holds nothing. -/
structure Moves (s t : State) (x y : Holder) : Prop where
  holders : ∀p : Holder→Bool, p (.association false)=false→
    t.holders.countP p+(if p x then 1 else 0)=s.holders.countP p+(if p y then 1 else 0)
  tcp : t.tcp+(if x.holdsTcp then 1 else 0)=s.tcp+(if y.holdsTcp then 1 else 0)
  udp : t.udp+(if x.holdsUdp then 1 else 0)=s.udp+(if y.holdsUdp then 1 else 0)
  connections : t.nodeConnections+(if x.counted then 1 else 0)=
    s.nodeConnections+(if y.counted then 1 else 0)
  locked : (if t.locked then 1 else 0)+(if x.acquiring then 1 else 0)=
    (if s.locked then 1 else 0)+(if y.acquiring then 1 else 0)
  tcp_le : t.tcp ≤ s.tcp ∨ t.tcp ≤ maxConnections
  udp_le : t.udp ≤ s.udp ∨ t.udp ≤ maxConnections
  counted : y.counted→x.counted ∨ (s.locked ∧ ¬t.locked)
  entered : t.locked→s.locked ∨ s.nodeConnections < maxConnections

theorem replace_countP (hx : s.holders[i]?=some x) (p : Holder→Bool) :
    (s.holders.set i y).countP p+(if p x then 1 else 0)=
      s.holders.countP p+(if p y then 1 else 0) := countP_set_add hx

theorem Moves.same (s : State) : Moves s s (.association false) (.association false) :=
  ⟨fun _ _ => rfl,rfl,rfl,rfl,rfl,.inl (Nat.le_refl _),.inl (Nat.le_refl _),
    nofun,.inl⟩

theorem concat_countP (s : State) (y : Holder) (p : Holder→Bool) (hp : p (.association false)=false) :
    (s.holders++[y]).countP p+(if p (.association false) then 1 else 0)=
      s.holders.countP p+(if p y then 1 else 0) := by
  rw [hp,if_neg Bool.false_ne_true]
  exact countP_concat _ _ _

theorem accept_moves (slot : Nat) (authorized : Bool) :
    ∃x y, Moves s (s.accept capacity slot authorized) x y := by
  unfold State.accept
  split_ifs with hc
  · exact ⟨.association false,.stream slot .pending,concat_countP s _,rfl,rfl,rfl,rfl,
      .inl (Nat.le_refl _),.inl (Nat.le_refl _),nofun,.inl⟩
  · exact ⟨_,_,.same s⟩

theorem book_moves (h : s.book i=some t) : ∃x y, Moves s t x y := by
  unfold State.book at h
  split at h
  · next slot hx =>
    split_ifs at h with hroom
    · cases h
      exact ⟨_,.stream slot .live,fun p _ => replace_countP hx p,rfl,rfl,rfl,rfl,.inr hroom,
        .inl (Nat.le_refl _),nofun,.inl⟩
    · cases h
      exact ⟨_,.stream slot .finished,fun p _ => replace_countP hx p,rfl,rfl,rfl,rfl,
        .inl (Nat.le_refl _),.inl (Nat.le_refl _),nofun,.inl⟩
  · cases h

theorem close_moves (h : s.close i=some t) : ∃x y, Moves s t x y := by
  unfold State.close at h
  split at h
  · next slot hx =>
    split_ifs at h with hpos
    cases h
    exact ⟨_,.stream slot .ended,fun p _ => replace_countP hx p,Nat.sub_add_cancel hpos,rfl,rfl,rfl,
      .inl (Nat.sub_le _ _),.inl (Nat.le_refl _),nofun,.inl⟩
  · cases h

theorem finish_moves (h : s.finish i=some t) : ∃x y, Moves s t x y := by
  unfold State.finish at h
  split at h
  · next slot hx =>
    cases h
    exact ⟨_,.stream slot .finished,fun p _ => replace_countP hx p,rfl,rfl,rfl,rfl,
      .inl (Nat.le_refl _),.inl (Nat.le_refl _),nofun,.inl⟩
  · cases h

theorem receive_moves (authorized room : Bool) : ∃x y, Moves s (s.receive authorized room) x y := by
  unfold State.receive
  split_ifs with hc
  · exact ⟨.association false,.association true,concat_countP s _,rfl,rfl,rfl,rfl,
      .inl (Nat.le_refl _),.inr hc.2.2,nofun,.inl⟩
  · exact ⟨_,_,.same s⟩

theorem expire_moves (h : s.expire i=some t) : ∃x y, Moves s t x y := by
  unfold State.expire at h
  split at h
  · next hx =>
    split_ifs at h with hpos
    cases h
    exact ⟨_,.association false,fun p _ => replace_countP hx p,rfl,Nat.sub_add_cancel hpos,rfl,rfl,
      .inl (Nat.le_refl _),.inl (Nat.sub_le _ _),nofun,.inl⟩
  · cases h

variable {maximum : Int} {protocol : String} {es : List Event}

theorem acquireNode_moves (h : s.acquireNode maximum protocol=some t) : ∃x y, Moves s t x y := by
  unfold State.acquireNode at h
  split_ifs at h with hlock hfull
  · cases h
    refine ⟨.association false,.relay (protocol == "udp") .failed,concat_countP s _,rfl,?_,rfl,rfl,
      .inl (Nat.le_refl _),.inl (Nat.le_refl _),nofun,.inl⟩
    rfl
  · cases h
    have hroom : s.nodeConnections < maxConnections := by omega
    refine ⟨.association false,.relay (protocol == "udp") .entered,concat_countP s _,rfl,rfl,rfl,?_,
      .inl (Nat.le_refl _),.inl (Nat.le_refl _),nofun,
      fun _ => .inr hroom⟩
    rw [if_neg hlock]
    rfl

theorem release_moves (h : s.release i=some t) : ∃x y, Moves s t x y := by
  unfold State.release at h
  split at h
  · next udp hx =>
    cases h
    refine ⟨_,.relay udp .releasing,fun p _ => replace_countP hx p,rfl,?_,rfl,rfl,
      .inl (Nat.le_refl _),.inl (Nat.le_refl _),fun _ => .inl rfl,.inl⟩
    cases udp <;> rfl
  all_goals
    cases h
    try exact ⟨_,_,.same s⟩

/-- The calls that have the mutex are counted by it, so there is at most one. -/
def Excluded (s : State) : Prop :=
  s.holders.countP Holder.acquiring=if s.locked then 1 else 0

theorem Excluded.locked (he : Excluded s) (hx : s.holders[i]?=some x) (ha : x.acquiring) :
    s.locked := by
  have hpos := countP_pos_of_get hx ha
  rw [he] at hpos
  by_contra hl
  rw [if_neg hl] at hpos
  exact Nat.lt_irrefl 0 hpos

theorem advance_moves (he : Excluded s) (h : s.advance i=some t) : ∃x y, Moves s t x y := by
  unfold State.advance at h
  split at h
  · next udp hx =>
    have hl := he.locked hx rfl
    split_ifs at h with hroom
    · cases h
      refine ⟨_,.relay udp .tcpHeld,fun p _ => replace_countP hx p,rfl,?_,rfl,rfl,.inr hroom,
        .inl (Nat.le_refl _),nofun,.inl⟩
      cases udp <;> rfl
    · cases h
      refine ⟨_,.relay udp .failed,fun p _ => replace_countP hx p,rfl,rfl,rfl,?_,
        .inl (Nat.le_refl _),.inl (Nat.le_refl _),nofun,
        nofun⟩
      rw [if_pos hl]
      rfl
  · next hx =>
    cases h
    exact ⟨_,.relay false .ready,fun p _ => replace_countP hx p,rfl,rfl,rfl,rfl,
      .inl (Nat.le_refl _),.inl (Nat.le_refl _),nofun,.inl⟩
  · next hx =>
    split_ifs at h with hroom
    · cases h
      exact ⟨_,.relay true .ready,fun p _ => replace_countP hx p,rfl,rfl,rfl,rfl,
        .inl (Nat.le_refl _),.inr hroom,nofun,.inl⟩
    · cases h
      exact ⟨_,.relay true .undoing,fun p _ => replace_countP hx p,rfl,rfl,rfl,rfl,
        .inl (Nat.le_refl _),.inl (Nat.le_refl _),nofun,.inl⟩
  · next udp hx =>
    have hl := he.locked hx rfl
    split_ifs at h with hpos
    cases h
    refine ⟨_,.relay udp .failed,fun p _ => replace_countP hx p,Nat.sub_add_cancel hpos,rfl,rfl,?_,
      .inl (Nat.sub_le _ _),.inl (Nat.le_refl _),nofun,
      nofun⟩
    rw [if_pos hl]
    rfl
  · next udp hx =>
    have hl := he.locked hx rfl
    cases h
    refine ⟨_,.relay udp .live,fun p _ => replace_countP hx p,rfl,?_,?_,?_,
      .inl (Nat.le_refl _),.inl (Nat.le_refl _),fun _ => .inr ⟨hl,Bool.false_ne_true⟩,
      nofun⟩
    · cases udp <;> rfl
    · show s.nodeConnections+1+0=s.nodeConnections+1
      exact Int.add_zero _
    · rw [if_pos hl]
      rfl
  · next udp hx =>
    split_ifs at h with hpos
    cases h
    refine ⟨_,.relay udp .tcpReturned,fun p _ => replace_countP hx p,Nat.sub_add_cancel hpos,?_,rfl,
      rfl,.inl (Nat.sub_le _ _),.inl (Nat.le_refl _),fun _ => .inl rfl,.inl⟩
    cases udp <;> rfl
  · next hx =>
    cases h
    exact ⟨_,.relay false .udpReturned,fun p _ => replace_countP hx p,rfl,rfl,rfl,rfl,
      .inl (Nat.le_refl _),.inl (Nat.le_refl _),fun _ => .inl rfl,.inl⟩
  · next hx =>
    split_ifs at h with hpos
    cases h
    exact ⟨_,.relay true .udpReturned,fun p _ => replace_countP hx p,rfl,Nat.sub_add_cancel hpos,rfl,
      rfl,.inl (Nat.le_refl _),.inl (Nat.sub_le _ _),fun _ => .inl rfl,.inl⟩
  · next udp hx =>
    split_ifs at h with hl
    cases h
    refine ⟨_,.relay udp .released,fun p _ => replace_countP hx p,rfl,rfl,?_,rfl,
      .inl (Nat.le_refl _),.inl (Nat.le_refl _),nofun,.inl⟩
    show s.nodeConnections-1+1=s.nodeConnections+0
    omega
  · cases h

theorem step_moves (he : Excluded s) (h : Step capacity s e t) : ∃x y, Moves s t x y := by
  cases e with
  | accept slot authorized =>
    cases h
    exact accept_moves slot authorized
  | book i => exact book_moves h
  | close i => exact close_moves h
  | finish i => exact finish_moves h
  | receive authorized room =>
    cases h
    exact receive_moves authorized room
  | expire i => exact expire_moves h
  | acquireNode maximum protocol => exact acquireNode_moves h
  | advance i => exact advance_moves he h
  | release i => exact release_moves h

structure Conserved (s : State) : Prop where
  tcp : s.tcp=s.holders.countP Holder.holdsTcp
  udp : s.udp=s.holders.countP Holder.holdsUdp
  connections : s.nodeConnections=s.holders.countP Holder.counted
  excluded : Excluded s
  tcp_le : s.tcp ≤ maxConnections
  udp_le : s.udp ≤ maxConnections
  connections_le : s.nodeConnections ≤ maxConnections
  room : s.locked→s.nodeConnections < maxConnections

theorem start_conserved : Conserved State.start :=
  ⟨rfl,rfl,rfl,rfl,Nat.zero_le _,Nat.zero_le _,Int.zero_le_ofNat _,nofun⟩

theorem Conserved.moves (hs : Conserved s) (m : Moves s t x y) : Conserved t := by
  have htcp := m.holders Holder.holdsTcp rfl
  have hudp := m.holders Holder.holdsUdp rfl
  have hcounted := m.holders Holder.counted rfl
  have hacquiring := m.holders Holder.acquiring rfl
  have hexcluded := hs.excluded
  unfold Excluded at hexcluded
  have hconnections := m.connections
  refine ⟨?_,?_,?_,?_,?_,?_,?_,?_⟩
  · have := m.tcp
    have := hs.tcp
    omega
  · have := m.udp
    have := hs.udp
    omega
  · have := hs.connections
    split_ifs at hcounted hconnections <;> omega
  · have := m.locked
    unfold Excluded
    omega
  · have := m.tcp_le
    have := hs.tcp_le
    omega
  · have := m.udp_le
    have := hs.udp_le
    omega
  · have hle := hs.connections_le
    by_cases hy : y.counted
    · rw [if_pos hy] at hconnections
      rcases m.counted hy with hx | hx
      · rw [if_pos hx] at hconnections
        omega
      · have := hs.room hx.1
        split_ifs at hconnections <;> omega
    · rw [if_neg hy] at hconnections
      split_ifs at hconnections <;> omega
  · intro ht
    have hroom : s.nodeConnections < maxConnections := (m.entered ht).elim hs.room id
    by_cases hy : y.counted
    · have hx := (m.counted hy).resolve_right fun h => h.2 ht
      rw [if_pos hy,if_pos hx] at hconnections
      omega
    · rw [if_neg hy] at hconnections
      split_ifs at hconnections <;> omega

theorem Conserved.step (h : Step capacity s e t) (hs : Conserved s) : Conserved t := by
  obtain ⟨x,y,m⟩ := step_moves hs.excluded h
  exact hs.moves m

theorem run_conserved (hr : Run (Step capacity) s es t) (hs : Conserved s) : Conserved t :=
  hr.invariant Conserved (fun _ _ _ h hs => hs.step h) hs

theorem advance_holders (h : s.advance i=some t) : ∃y, t.holders=s.holders.set i y := by
  unfold State.advance at h
  split at h
  all_goals
    try split_ifs at h
    all_goals
      cases h
      try exact ⟨_,rfl⟩

theorem advances_holders {l : List Holder} (hr : Run (Step capacity) s es t)
    (hes : ∀e∈es, e=.advance l.length) (hs : s.holders=l++[x]) : ∃y, t.holders=l++[y] := by
  induction hr with
  | refl => exact ⟨x,hs⟩
  | snoc hr h ih =>
    obtain ⟨y,hy⟩ := ih fun e he => hes e (List.mem_append_left _ he)
    obtain rfl := hes _ (List.mem_append_right _ (List.mem_singleton_self _))
    obtain ⟨z,hz⟩ := advance_holders h
    refine ⟨z,?_⟩
    rw [hz,hy,List.set_append_right _ _ (Nat.le_refl _),Nat.sub_self]
    rfl

theorem acquireNode_holders (h : s.acquireNode maximum protocol=some t) :
    ∃x, t.holders=s.holders++[x] := by
  unfold State.acquireNode at h
  split_ifs at h
  all_goals
    cases h
    exact ⟨_,rfl⟩

/-- A call of `acquireNode` from its first step on, with nothing in between. -/
def Alone (capacity : Nat→Nat) (s : State) (maximum : Int) (protocol : String) (t : State) : Prop :=
  ∃es, Run (Step capacity) s (.acquireNode maximum protocol::es) t ∧
    ∀e∈es, e=.advance s.holders.length

def Holder.failed : Holder→Bool
  | relay _ .failed => true
  | _ => false

theorem failed_holds_nothing (hx : x.failed) :
    x.holdsTcp=false ∧ x.holdsUdp=false ∧ x.counted=false := by
  match x,hx with
  | .relay _ .failed,_ => exact ⟨rfl,rfl,rfl⟩

theorem Alone.unchanged (hs : Conserved s) (h : Alone capacity s maximum protocol t)
    (hx : t.holders[s.holders.length]?=some x) (hf : x.failed) :
    t.tcp=s.tcp ∧ t.udp=s.udp ∧ t.nodeConnections=s.nodeConnections := by
  obtain ⟨es,hr,hes⟩ := h
  have ht := run_conserved hr hs
  obtain ⟨u,hu,hr⟩ := hr.cons_inv
  obtain ⟨z,hz⟩ := acquireNode_holders hu
  obtain ⟨y,hy⟩ := advances_holders hr hes hz
  have hxy : y=x := by simpa [hy] using hx
  obtain ⟨htcp,hudp,hcounted⟩ := failed_holds_nothing hf
  rw [ht.tcp,ht.udp,ht.connections,hs.tcp,hs.udp,hs.connections,hy,hxy,countP_concat,countP_concat,
    countP_concat,htcp,hudp,hcounted]
  exact ⟨rfl,rfl,rfl⟩

theorem holdsTcp_countP (l : List Holder) : l.countP Holder.holdsTcp=
    l.countP Holder.isStream+(l.countP Holder.isRelay+l.countP Holder.halfTcp) := by
  have hrelay : l.countP (fun h => h.isRelay || h.halfTcp)=
      l.countP Holder.isRelay+l.countP Holder.halfTcp := by
    refine countP_split (fun _ => rfl) fun
      | .stream _ _ | .association _ => by simp [Holder.isRelay]
      | .relay _ stage => ?_
    cases stage <;> simp [Holder.isRelay,Holder.halfTcp]
  rw [← hrelay]
  refine countP_split (fun _ => rfl) fun x => ?_
  cases x <;> simp [Holder.isStream,Holder.isRelay,Holder.halfTcp]

theorem holdsUdp_countP (l : List Holder) : l.countP Holder.holdsUdp=
    l.countP Holder.isAssociation+(l.countP Holder.isRelayUdp+l.countP Holder.halfUdp) := by
  have hrelay : l.countP (fun h => h.isRelayUdp || h.halfUdp)=
      l.countP Holder.isRelayUdp+l.countP Holder.halfUdp := by
    refine countP_split (fun _ => rfl) fun
      | .stream _ _ | .association _ => by simp [Holder.isRelayUdp]
      | .relay _ stage => ?_
    cases stage <;> simp [Holder.isRelayUdp,Holder.halfUdp]
  rw [← hrelay]
  refine countP_split (fun _ => rfl) fun x => ?_
  cases x <;> simp [Holder.isAssociation,Holder.isRelayUdp,Holder.halfUdp]

theorem counted_countP (l : List Holder) : l.countP Holder.counted=
    l.countP Holder.isRelay+l.countP Holder.halfCounted := by
  refine countP_split (fun _ => rfl) fun
    | .stream _ _ | .association _ => by simp [Holder.isRelay]
    | .relay _ stage => ?_
  cases stage <;> simp [Holder.isRelay,Holder.halfCounted]

/-- A Relay call, or the release of its permits, that has begun and not ended. -/
def Holder.halfDone : Holder→Bool
  | relay _ .live | relay _ .released | relay _ .failed => false
  | relay _ _ => true
  | _ => false

theorem halfDone_of_half (hx : x.halfTcp ∨ x.halfUdp ∨ x.halfCounted) : x.halfDone := by
  match x,hx with
  | .relay _ .tcpHeld,_ | .relay _ .ready,_ | .relay _ .undoing,_ | .relay _ .releasing,_
  | .relay _ .tcpReturned,_ | .relay _ .udpReturned,_ => rfl

theorem half_zero {p : Holder→Bool} (hp : ∀x, p x→x.halfDone)
    (hq : ∀x∈s.holders, ¬x.halfDone) : s.holders.countP p=0 :=
  List.countP_eq_zero.mpr fun x hx h => hq x hx (hp x h)

/-- The permits and the count of a Node are those of the live holders and of what is half done,
at every point of every interleaving; with nothing half done they are those of the live holders.
A call that fails leaves them as it found them. -/
theorem nodeBudget_conserved {es : List Event} (hr : Run (Step capacity) State.start es s) :
    (s.tcp=s.holders.countP Holder.isStream+
        (s.holders.countP Holder.isRelay+s.holders.countP Holder.halfTcp) ∧
      s.udp=s.holders.countP Holder.isAssociation+
        (s.holders.countP Holder.isRelayUdp+s.holders.countP Holder.halfUdp) ∧
      s.nodeConnections=s.holders.countP Holder.isRelay+s.holders.countP Holder.halfCounted) ∧
    ((∀x∈s.holders, ¬x.halfDone) →
      s.tcp=s.holders.countP Holder.isStream+s.holders.countP Holder.isRelay ∧
      s.udp=s.holders.countP Holder.isAssociation+s.holders.countP Holder.isRelayUdp ∧
      s.nodeConnections=s.holders.countP Holder.isRelay) ∧
    (s.tcp ≤ maxConnections ∧ s.udp ≤ maxConnections ∧
      0 ≤ s.nodeConnections ∧ s.nodeConnections ≤ maxConnections) ∧
    ∀maximum protocol t x, Alone capacity s maximum protocol t →
      t.holders[s.holders.length]?=some x → x.failed →
      t.tcp=s.tcp ∧ t.udp=s.udp ∧ t.nodeConnections=s.nodeConnections := by
  have hs := run_conserved hr start_conserved
  have htcp := hs.tcp.trans (holdsTcp_countP _)
  have hudp := hs.udp.trans (holdsUdp_countP _)
  have hconnections : s.nodeConnections=
      s.holders.countP Holder.isRelay+s.holders.countP Holder.halfCounted := by
    rw [hs.connections,counted_countP]
    exact Int.natCast_add _ _
  refine ⟨⟨htcp,hudp,hconnections⟩,?_,⟨hs.tcp_le,hs.udp_le,?_,hs.connections_le⟩,?_⟩
  · intro hq
    have h₁ := half_zero (p := Holder.halfTcp) (fun _ h => halfDone_of_half (.inl h)) hq
    have h₂ := half_zero (p := Holder.halfUdp) (fun _ h => halfDone_of_half (.inr (.inl h))) hq
    have h₃ := half_zero (p := Holder.halfCounted)
      (fun _ h => halfDone_of_half (.inr (.inr h))) hq
    omega
  · rw [hs.connections]
    exact Int.natCast_nonneg _
  · intro maximum protocol t x ha hx hf
    exact ha.unchanged hs hx hf

/-- A direct connection, a UDP call that is released twice and one that finds no room. -/
theorem nodeBudget_conserved_released :
    ∃s, Run (Step fun _ => 2) State.start
      [.accept 0 true,.book 0,.receive true true,.acquireNode 1 "udp",.advance 2,.advance 2,
        .advance 2,.acquireNode 1 "tcp",.release 2,.release 2,.advance 2,.advance 2] s ∧
      s.tcp=1 ∧ s.nodeConnections=1 ∧ s.tcp ≤ maxConnections := by
  refine Run.exists_of_foldlM (f := fun s : State => s.step fun _ => 2) (fun _ _ _ h => h) rfl
    fun hr => ?_
  exact ⟨rfl,rfl,(nodeBudget_conserved hr).2.2.1.1⟩

end TuneX.Agent.Budget
