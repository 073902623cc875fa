import TuneX.Framework.Run
import Mathlib.Data.List.Basic
import Mathlib.Tactic.SplitIfs

namespace TuneX.Agent.IdleExpiry

open Framework

inductive Engine
  | direct
  | relay
  deriving DecidableEq

/-- `decided` is set when the reply reader has found the association idle. -/
structure Association where
  queue : List Nat
  reading : Bool
  decided : Bool
  canceled : Bool
  ended : Bool
  deriving DecidableEq

/-- Clients and their associations by number, and the datagrams dropped for capacity and for a
full queue. -/
structure State where
  associations : List Association
  sessions : List (Nat×Nat)
  capacity : Nat
  queues : Nat
  deriving DecidableEq

/-- Each section of a mutex is a step; the answers of clocks, sockets and permits are in its label. -/
inductive Event
  | receive (client datagram : Nat) (permit : Bool)
  | connect (i : Nat)
  | write (i : Nat)
  | timeout (i : Nat) (active : Bool)
  | hangUp (i : Nat)
  | leave (i : Nat)
  | remove (i : Nat)

def depth : Engine→Nat
  | .direct => 4
  | .relay => 16

namespace State

def empty : State := ⟨[],[],0,0⟩

def update (s : State) (i : Nat) (f : Association→Association) : State :=
  { s with associations := s.associations.modify i f }

/-- The association a datagram goes to. Only the direct engine asks whether it is canceled. -/
def current (engine : Engine) (s : State) (client : Nat) : Option Nat :=
  match s.sessions.lookup client with
  | none => none
  | some i => if engine=.direct ∧ s.associations[i]?.any (·.canceled) then none else some i

/-- A datagram that the owner of the socket admits. -/
def receive (engine : Engine) (maximum : Nat) (s : State) (client datagram : Nat) (permit : Bool) :
    State :=
  match s.current engine client with
  | some i =>
    if s.associations[i]?.any (fun a => depth engine ≤ a.queue.length) then
      { s with queues := s.queues+1 }
    else s.update i fun a => { a with queue := a.queue++[datagram] }
  | none =>
    let sessions := s.sessions.filter (·.1 != client)
    if maximum ≤ sessions.length ∨ !permit then
      { s with
        sessions := sessions
        capacity := s.capacity+1 }
    else
      { s with
        sessions := (client,s.associations.length)::sessions
        associations := s.associations++[⟨[datagram],false,false,false,false⟩] }

/-- The reader's section after a timeout: the direct engine cancels in it, the Relay engine when
the goroutine ends (`hangUp`). -/
def timeout (engine : Engine) (active : Bool) (a : Association) : Association :=
  if !a.reading || (active && !a.canceled) then a
  else { a with
    reading := false
    decided := true
    canceled := a.canceled || engine==.direct }

def exec (engine : Engine) (maximum : Nat) (s : State) : Event→State
  | .receive client datagram permit => s.receive engine maximum client datagram permit
  | .connect i => s.update i fun a => { a with reading := a.reading || !a.canceled && !a.decided }
  | .write i => s.update i fun a => { a with queue := a.queue.tail }
  | .timeout i active => s.update i (timeout engine active)
  | .hangUp i => s.update i fun a => { a with
      reading := false
      canceled := true }
  | .leave i => s.update i fun a => { a with
      ended := true
      canceled := true }
  | .remove i =>
    if s.associations[i]?.any (·.ended) then { s with sessions := s.sessions.filter (·.2 != i) }
    else s

end State

def Step (engine : Engine) (maximum : Nat) (s : State) (e : Event) (t : State) : Prop :=
  s.exec engine maximum e=t

theorem run_exec (engine : Engine) (maximum : Nat) (s : State) (l : List Event) :
    Run (Step engine maximum) s l (l.foldl (State.exec engine maximum) s) := by
  induction l using List.reverseRecOn with
  | nil => exact .refl
  | append_singleton l e ih =>
    rw [List.foldl_append]
    exact ih.snoc rfl

/-- Who has decided on expiry has said so. -/
def Published (s : State) : Prop := ∀a∈s.associations, a.decided→a.canceled

theorem Published.update {s : State} {f : Association→Association} (h : Published s) (i : Nat)
    (hf : ∀a, (a.decided→a.canceled)→(f a).decided→(f a).canceled) : Published (s.update i f) := by
  intro b hb
  obtain ⟨j,hj⟩ := List.mem_iff_getElem?.mp hb
  rw [State.update,List.getElem?_modify] at hj
  obtain ⟨a,ha,rfl⟩ := Option.map_eq_some_iff.mp hj
  have hold := h a (List.mem_of_getElem? ha)
  split_ifs
  · exact hf a hold
  · exact hold

theorem Published.exec {maximum : Nat} {s : State} (h : Published s) (e : Event) :
    Published (s.exec .direct maximum e) := by
  cases e with
  | receive client datagram permit =>
    simp only [State.exec,State.receive]
    split
    · split_ifs
      · exact h
      · exact h.update _ fun a ha => ha
    · split_ifs
      · exact h
      · intro a ha
        rcases List.mem_append.mp ha with ha | ha
        · exact h a ha
        · simp [List.mem_singleton.mp ha]
  | connect i | write i => exact h.update i fun a ha => ha
  | timeout i active =>
    refine h.update i fun a ha => ?_
    unfold State.timeout
    split_ifs
    · exact ha
    · simp
  | hangUp i | leave i => exact h.update i fun a ha _ => rfl
  | remove i =>
    simp only [State.exec]
    split_ifs <;> exact h

theorem run_published {maximum : Nat} {l : List Event} {s : State}
    (h : Run (Step .direct maximum) .empty l s) : Published s :=
  h.invariant Published (fun _ _ _ hs hp => by rw [← hs]; exact hp.exec _) (by simp [Published,State.empty])

/-- The datagram is kept out of an association: it starts a new one or is counted. -/
structure Spared (s t : State) (client datagram i : Nat) : Prop where
  queue : (t.associations[i]?).map (·.queue)=(s.associations[i]?).map (·.queue)
  served : t.capacity=s.capacity+1 ∨ t.sessions.lookup client=some s.associations.length ∧
    (t.associations[s.associations.length]?).map (·.queue)=some [datagram]

theorem idle_expiry_spares_iff (engine : Engine) (maximum : Nat) (l : List Event) (s : State)
    (hrun : Run (Step engine maximum) .empty l s) (client i : Nat) (a : Association)
    (hsession : s.sessions.lookup client=some i) (ha : s.associations[i]?=some a)
    (hdecided : a.decided) (datagram : Nat) (permit : Bool) :
    Spared s (s.receive engine maximum client datagram permit) client datagram i ↔
      engine=.direct := by
  have hlen : i<s.associations.length := (List.getElem?_eq_some_iff.mp ha).1
  cases engine with
  | direct =>
    have hcanceled := run_published hrun a (List.mem_of_getElem? ha) hdecided
    have hcurrent : s.current .direct client=none := by
      simp [State.current,hsession,ha,hcanceled]
    refine iff_of_true ?_ rfl
    rw [State.receive,hcurrent]
    dsimp only
    split_ifs
    · exact ⟨rfl,.inl rfl⟩
    · refine ⟨?_,.inr ⟨by simp,by simp⟩⟩
      simp [List.getElem?_append_left hlen]
  | relay =>
    have hcurrent : s.current .relay client=some i := by simp [State.current,hsession]
    refine iff_of_false ?_ (by simp)
    rw [State.receive,hcurrent]
    dsimp only
    -- nothing is started and nothing counted for capacity, whatever the queue does
    rintro ⟨-,hserved⟩
    split_ifs at hserved with hfull <;>
      simp [State.update,hsession,Nat.ne_of_lt hlen] at hserved

def expiring : List Event := [.receive 7 1 true,.connect 0,.write 0,.timeout 0 false]

theorem idle_expiry_spares_iff_expiring :
    Spared (expiring.foldl (State.exec .direct 1) .empty)
        ((expiring.foldl (State.exec .direct 1) .empty).receive .direct 1 7 2 true) 7 2 0 ↔
      Engine.direct=.direct :=
  idle_expiry_spares_iff .direct 1 expiring _ (run_exec .direct 1 .empty expiring) 7 0
    ⟨[],false,true,true,false⟩ (by decide) (by decide) rfl 2 true

/-- The Relay engine leaves the datagram in a queue that nobody reads. -/
theorem idle_expiry_swallows : ∃l s, Run (Step .relay 1) .empty l s ∧
    l=expiring++[.receive 7 2 true,.hangUp 0,.leave 0,.remove 0] ∧
    s=⟨[⟨[2],false,true,true,true⟩],[],0,0⟩ :=
  ⟨_,_,run_exec .relay 1 .empty (expiring++[.receive 7 2 true,.hangUp 0,.leave 0,.remove 0]),rfl,
    by decide⟩

end TuneX.Agent.IdleExpiry
