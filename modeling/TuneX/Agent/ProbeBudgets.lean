import TuneX.Framework.Admissions
import TuneX.Framework.Run

namespace TuneX.Agent.ProbeBudgets

open Framework

structure Admission where
  active : Bool
  until_ : Nat
  deriving DecidableEq, Repr

structure DeliverySlot where
  active : Bool
  nextPoll : Nat
  deriving DecidableEq, Repr

structure Budget (α : Type) where
  nodes : Table String α
  active : Int

def second : Nat := 1000000000

def Admission.kept (now : Nat) (slot : Admission) : Bool := slot.active || decide (now<slot.until_)

def DeliverySlot.kept (now : Nat) (slot : DeliverySlot) : Bool :=
  slot.active || decide (now<slot.nextPoll)

/-- `acquire` of the executor; the entries it drops are gone even when it refuses. -/
def acquire (b : Budget Admission) (node : String) (now : Nat) : Budget Admission×Bool :=
  let nodes := b.nodes.keep (Admission.kept now)
  if (nodes.lookup node).isSome ∨ 4 ≤ b.active ∨ 128 ≤ nodes.keys.length then
    (⟨nodes,b.active⟩,false)
  else (⟨nodes.insert node ⟨true,0⟩,b.active+1⟩,true)

def release (b : Budget Admission) (node : String) (now : Nat) : Budget Admission :=
  ⟨b.nodes.insert node ⟨false,now+second⟩,b.active-1⟩

/-- `acquire` of probe delivery, which finds the zero slot for a Node it does not know. -/
def acquireDelivery (b : Budget DeliverySlot) (node : String) (poll : Bool) (now : Nat) :
    Budget DeliverySlot×Bool :=
  let nodes := b.nodes.keep (DeliverySlot.kept now)
  let slot := (nodes.lookup node).getD ⟨false,0⟩
  if slot.active ∨ 4 ≤ b.active ∨ (nodes.lookup node=none ∧ 128 ≤ nodes.keys.length) ∨
      (poll ∧ now<slot.nextPoll) then (⟨nodes,b.active⟩,false)
  else (⟨nodes.insert node ⟨true,if poll then now+second else slot.nextPoll⟩,b.active+1⟩,true)

def releaseDelivery (b : Budget DeliverySlot) (node : String) : Budget DeliverySlot :=
  let current := (b.nodes.lookup node).getD ⟨false,0⟩
  ⟨b.nodes.insert node { current with active := false },b.active-1⟩

/-- Every call is one section under the mutex of its budget; times are nanoseconds since the zero
`time.Time`. -/
inductive Call
  | acquire (node : String) (poll : Bool) (now : Nat)
  /-- A call of the release function that the `i`th successful `acquire` returned. -/
  | release (i : Nat) (now : Nat)
  deriving DecidableEq, Repr

inductive Entry
  | admitted (node : String) (poll : Bool) (now : Nat)
  | released (node : String) (now : Nat)
  deriving DecidableEq, Repr

/-- A budget with the release functions handed out, each with its Node and whether it has been
called, the time of the last call and what has happened so far. -/
structure System (α : Type) where
  budget : Budget α
  handles : List (String×Bool)
  clock : Nat
  log : List Entry

def System.start (α : Type) : System α := ⟨⟨∅,0⟩,[],0,[]⟩

/-- The Nodes whose release function is still to be called. -/
def held (handles : List (String×Bool)) : List String :=
  (handles.filter fun h => !h.2).map Prod.fst

section

variable {α : Type} (acquire : Budget α→String→Bool→Nat→Budget α×Bool)
  (release : Budget α→String→Nat→Budget α) (again : Bool)

/-- One call at a time that is not before the last one. With `again` a release function may be
called again, which `sync.Once` turns into nothing. -/
def System.step (s : System α) : Call→Option (System α)
  | .acquire node poll now =>
    if now<s.clock then none
    else
      match acquire s.budget node poll now with
      | (b,true) => some ⟨b,s.handles++[(node,false)],now,s.log++[.admitted node poll now]⟩
      | (b,false) => some { s with budget := b, clock := now }
  | .release i now =>
    if now<s.clock then none
    else
      match s.handles[i]? with
      | some (node,false) =>
        some ⟨release s.budget node now,s.handles.set i (node,true),now,s.log++[.released node now]⟩
      | some (_,true) => if again then some { s with clock := now } else none
      | none => none

end

def executorStep : System Admission→Call→Option (System Admission) :=
  System.step (fun b node _ now => acquire b node now) release false

def deliveryStep : System DeliverySlot→Call→Option (System DeliverySlot) :=
  System.step acquireDelivery (fun b node _ => releaseDelivery b node) true

section

variable {α : Type} {acquire : Budget α→String→Bool→Nat→Budget α×Bool}
  {release : Budget α→String→Nat→Budget α} {again : Bool}

theorem held_append (handles : List (String×Bool)) (node : String) :
    (held (handles++[(node,false)])).Perm (node::held handles) := by
  simp only [held,List.filter_append,List.map_append]
  exact List.perm_append_singleton node _

theorem held_set {handles : List (String×Bool)} {i : Nat} {node : String}
    (h : handles[i]?=some (node,false)) :
    (held handles).Perm (node::held (handles.set i (node,true))) := by
  induction handles generalizing i with
  | nil => simp at h
  | cons x handles ih =>
    cases i with
    | zero =>
      obtain rfl : x=(node,false) := by simpa using h
      simp [held]
    | succ i =>
      have hrest := ih (i := i) (by simpa using h)
      obtain ⟨other,_|_⟩ := x
      · exact (hrest.cons other).trans (List.Perm.swap node other _)
      · exact hrest

/-- A property of a budget, the Nodes held, the time and the log that calls keep. -/
structure Keeps (acquire : Budget α→String→Bool→Nat→Budget α×Bool)
    (release : Budget α→String→Nat→Budget α)
    (I : Budget α→List String→Nat→List Entry→Prop) : Prop where
  start : I ⟨∅,0⟩ [] 0 []
  perm : ∀{b h h' now log}, I b h now log→h.Perm h'→I b h' now log
  wait : ∀{b h now later log}, I b h now log→now≤later→I b h later log
  acquire : ∀{b b' h now later log node poll granted}, I b h now log→now≤later→
    acquire b node poll later=(b',granted)→I b' (if granted then node::h else h) later
      (if granted then log++[.admitted node poll later] else log)
  release : ∀{b h now later log node}, I b (node::h) now log→now≤later→
    I (release b node later) h later (log++[.released node later])

variable {I : Budget α→List String→Nat→List Entry→Prop}

theorem Keeps.step (k : Keeps acquire release I) {s t : System α} {c : Call}
    (h : s.step acquire release again c=some t) (hs : I s.budget (held s.handles) s.clock s.log) :
    I t.budget (held t.handles) t.clock t.log := by
  cases c with
  | acquire node poll now =>
    simp only [System.step,Option.ite_none_left_eq_some,not_lt] at h
    obtain ⟨hnow,h⟩ := h
    split at h
    · next b hb =>
      cases h
      exact k.perm (k.acquire hs hnow hb) (held_append s.handles node).symm
    · next b hb =>
      cases h
      exact k.acquire hs hnow hb
  | release i now =>
    simp only [System.step,Option.ite_none_left_eq_some,not_lt] at h
    obtain ⟨hnow,h⟩ := h
    split at h
    · next node hi =>
      cases h
      exact k.release (k.perm hs (held_set hi)) hnow
    · rw [Option.ite_none_right_eq_some] at h
      cases h.2
      exact k.wait hs hnow
    · cases h

theorem Keeps.run (k : Keeps acquire release I) {calls : List Call} {s : System α}
    (h : calls.foldlM (System.step acquire release again) (.start α)=some s) :
    I s.budget (held s.handles) s.clock s.log :=
  (Run.of_foldlM (fun _ _ _ => id) h).invariant (fun s => I s.budget (held s.handles) s.clock s.log)
    (fun _ _ _ hstep => k.step hstep) k.start

end

/-- A Node is admitted a second after its last release. -/
def afterRelease : Entry→Entry→Prop
  | .released n t,.admitted m _ u => n=m→t+second≤u
  | _,_ => True

/-- Two polls of a Node are a second apart. -/
def afterPoll : Entry→Entry→Prop
  | .admitted n true t,.admitted m true u => n=m→t+second≤u
  | _,_ => True

variable {α : Type}

structure Kept (active : α→Bool) (wait : α→Nat) (mark : String→Nat→Entry)
    (after : Entry→Entry→Prop) (b : Budget α) (held : List String) (now : Nat) (log : List Entry) :
    Prop where
  admitted : Admitted active 4 128 b.nodes b.active held
  spaced : Spaced wait second (fun node t => mark node t∈log) now b.nodes
  ordered : log.Pairwise after

namespace Kept

variable {active : α→Bool} {wait : α→Nat} {mark : String→Nat→Entry} {after : Entry→Entry→Prop}
  {b : Budget α} {held : List String} {now later : Nat} {log : List Entry}

theorem empty : Kept active wait mark after ⟨∅,0⟩ [] 0 [] :=
  ⟨⟨List.nodup_nil,by simp,rfl,by simp,by simp⟩,by simp [Spaced],List.Pairwise.nil⟩

theorem prune (h : Kept active wait mark after b held now log) (hnow : now≤later) {p : α→Bool}
    (hp : ∀a, active a→p a) (hwait : ∀a, p a=false→wait a≤later) :
    Kept active wait mark after ⟨b.nodes.keep p,b.active⟩ held later log :=
  ⟨h.admitted.keep hp,h.spaced.keep hnow hwait,h.ordered⟩

/-- A row is written, and the log gets an entry that may mark the Node from now on. -/
theorem write {nodes : Table String α} {counter : Int} {others : List String} {node : String}
    {a : α} {e : Entry} (h : Kept active wait mark after b held now log)
    (hnodes : nodes=b.nodes.insert node a) (hadmitted : Admitted active 4 128 nodes counter others)
    (hwait : ∀o, b.nodes.lookup node=some o→wait o≤now ∨ wait o≤wait a)
    (hmark : ∀k t, mark k t=e→k=node ∧ t+second≤wait a) (hafter : ∀x∈log, after x e) :
    Kept active wait mark after ⟨nodes,counter⟩ others now (log++[e]) := by
  subst hnodes
  refine ⟨hadmitted,(h.spaced.insert hwait).mark ?_,?_⟩
  · intro k t hk
    rcases List.mem_append.mp hk with hold|hnew
    · exact .inl hold
    · obtain ⟨rfl,ht⟩ := hmark k t (List.mem_singleton.mp hnew)
      exact .inr ⟨a,by simp,ht⟩
  · refine List.pairwise_append.mpr ⟨h.ordered,List.pairwise_singleton _ _,?_⟩
    intro x hx y hy
    rw [List.mem_singleton.mp hy]
    exact hafter x hx

end Kept

/-- An entry that is active has no end of its wait yet: its release sets one. -/
def Admission.wait (a : Admission) : Nat := if a.active then 0 else a.until_

theorem executor_keeps : Keeps (fun b node _ now => acquire b node now) release
    (Kept Admission.active Admission.wait .released afterRelease) where
  start := Kept.empty
  perm h hp := ⟨h.admitted.perm hp,h.spaced,h.ordered⟩
  wait h hnow := ⟨h.admitted,h.spaced.mono hnow,h.ordered⟩
  acquire := by
    intro b b' held now later log node poll granted h hnow ha
    have hpruned := h.prune hnow (p := Admission.kept later)
      (fun a ha => by simp [Admission.kept,ha]) fun a ha => by
        simp only [Admission.kept,Bool.or_eq_false_iff,decide_eq_false_iff_not,not_lt] at ha
        simpa [Admission.wait,ha.1] using ha.2
    unfold acquire at ha
    dsimp only at ha
    split_ifs at ha with hbusy
    · cases ha
      exact hpruned
    · cases ha
      simp only [not_or,Option.not_isSome_iff_eq_none,Nat.not_le] at hbusy
      obtain ⟨hnone,hlimit,hsize⟩ := hbusy
      -- no entry of the Node is left, so all its waits are over
      have hrow (P : Admission→Prop) : ∀a, (b.nodes.keep (Admission.kept later)).lookup node=some a→P a := by
        intro a ha
        rw [hnone] at ha
        cases ha
      refine hpruned.write rfl (hpruned.admitted.enter rfl (hrow _)
        (Int.not_le.mp hlimit) fun _ => hsize)
        (hrow _) nofun ?_
      intro x hx
      cases x with
      | admitted => trivial
      | released other t =>
        rintro rfl
        exact hpruned.spaced.passed (hrow _) hx
  release := by
    intro b held now later log node h hnow
    have hlater : Kept Admission.active Admission.wait .released afterRelease b (node::held) later
        log := ⟨h.admitted,h.spaced.mono hnow,h.ordered⟩
    refine hlater.write rfl (h.admitted.release rfl) ?_ ?_ ?_
    · intro o ho
      obtain ⟨a,ha,hactive⟩ := (h.admitted.mem node).mp List.mem_cons_self
      obtain rfl := Option.some.inj (ho.symm.trans ha)
      simp [Admission.wait,hactive]
    · rintro k t hk
      cases hk
      exact ⟨rfl,le_rfl⟩
    · intro x hx
      cases x <;> trivial

theorem delivery_keeps : Keeps acquireDelivery (fun b node _ => releaseDelivery b node)
    (Kept DeliverySlot.active DeliverySlot.nextPoll (.admitted · true ·) afterPoll) where
  start := Kept.empty
  perm h hp := ⟨h.admitted.perm hp,h.spaced,h.ordered⟩
  wait h hnow := ⟨h.admitted,h.spaced.mono hnow,h.ordered⟩
  acquire := by
    intro b b' held now later log node poll granted h hnow ha
    have hpruned := h.prune hnow (p := DeliverySlot.kept later)
      (fun a ha => by simp [DeliverySlot.kept,ha]) fun a ha => by
        simp only [DeliverySlot.kept,Bool.or_eq_false_iff,decide_eq_false_iff_not,not_lt] at ha
        exact ha.2
    unfold acquireDelivery at ha
    dsimp only at ha
    split at ha
    · cases ha
      exact hpruned
    · next hbusy =>
      cases ha
      simp only [not_or,not_and,Nat.not_le,Nat.not_lt] at hbusy
      obtain ⟨hidle,hlimit,hsize,hpoll⟩ := hbusy
      have hrow : ∀a, (b.nodes.keep (DeliverySlot.kept later)).lookup node=some a→
          a.active=false ∧ (poll→a.nextPoll≤later) := by
        intro a ha
        rw [ha] at hidle hpoll
        exact ⟨by simpa using hidle,hpoll⟩
      refine hpruned.write rfl (hpruned.admitted.enter rfl (fun a ha => (hrow a ha).1)
        (Int.not_le.mp hlimit) hsize) ?_ ?_ ?_
      · intro o ho
        cases hp : poll with
        | true => exact .inl ((hrow o ho).2 hp)
        | false => exact .inr (by simp [ho])
      · rintro k t hk
        cases hk
        exact ⟨rfl,le_rfl⟩
      · intro x hx
        cases x with
        | released => trivial
        | admitted other polled t =>
          cases polled with
          | false => trivial
          | true =>
            cases hp : poll with
            | false => trivial
            | true =>
              rintro rfl
              exact hpruned.spaced.passed (fun a ha => (hrow a ha).2 hp) hx
  release := by
    intro b held now later log node h hnow
    have hlater : Kept DeliverySlot.active DeliverySlot.nextPoll (.admitted · true ·) afterPoll b
        (node::held) later log := ⟨h.admitted,h.spaced.mono hnow,h.ordered⟩
    refine hlater.write rfl (h.admitted.release rfl) ?_ nofun ?_
    · intro o ho
      exact .inr (by simp [ho])
    · intro x hx
      simp [afterPoll]

structure Bounded (active : α→Bool) (s : System α) : Prop where
  counter : s.budget.active=(s.budget.nodes.rows.countP fun r => active r.2 : Nat)
  range : 0 ≤ s.budget.active ∧ s.budget.active≤4
  once : (held s.handles).Nodup
  entries : ∀node, node∈held s.handles ↔ ∃a, s.budget.nodes.lookup node=some a ∧ active a
  remembered : s.budget.nodes.keys.length≤128

theorem bounded_of_admitted {active : α→Bool} {s : System α}
    (h : Admitted active 4 128 s.budget.nodes s.budget.active (held s.handles)) :
    Bounded active s := by
  have hcounter := h.counter
  have hlimit := h.bounded
  exact ⟨h.count,by omega,h.once,h.mem,h.size⟩

/-- Whatever the callers of the two budgets do, their counters are right and their Nodes keep the
intervals. -/
theorem probe_budgets_bounded (calls polls : List Call) (s : System Admission)
    (t : System DeliverySlot) (hs : calls.foldlM executorStep (.start _)=some s)
    (ht : polls.foldlM deliveryStep (.start _)=some t) :
    (Bounded Admission.active s ∧ s.log.Pairwise afterRelease) ∧
      Bounded DeliverySlot.active t ∧ t.log.Pairwise afterPoll := by
  have hexecutor := executor_keeps.run hs
  have hdelivery := delivery_keeps.run ht
  exact ⟨⟨bounded_of_admitted hexecutor.admitted,hexecutor.ordered⟩,
    bounded_of_admitted hdelivery.admitted,hdelivery.ordered⟩

/-- A Node that comes back too early and a poll during another delivery are refused. -/
theorem probe_budgets_bounded_runs :
    ∃s t, s.log=[.admitted "n" false 5,.released "n" 7,.admitted "n" false 1000000007] ∧
      t.log=[.admitted "n" true 5,.released "n" 6,.admitted "n" false 7,.released "n" 8,
        .admitted "n" true 1000000005] ∧
      (Bounded Admission.active s ∧ s.log.Pairwise afterRelease) ∧
      Bounded DeliverySlot.active t ∧ t.log.Pairwise afterPoll := by
  have hs : ([.acquire "n" false 5,.acquire "n" false 6,.release 0 7,.acquire "n" false 1000000006,
      .acquire "n" false 1000000007].foldlM executorStep (.start _)).map System.log=
        some [.admitted "n" false 5,.released "n" 7,.admitted "n" false 1000000007] := by
    decide +kernel
  have ht : ([.acquire "n" true 5,.release 0 6,.acquire "n" false 7,.acquire "n" true 7,
      .release 1 8,.release 0 8,.acquire "n" true 9,.acquire "n" true 1000000005].foldlM
        deliveryStep (.start _)).map System.log=
      some [.admitted "n" true 5,.released "n" 6,.admitted "n" false 7,.released "n" 8,
        .admitted "n" true 1000000005] := by
    decide +kernel
  obtain ⟨s,hs,hlog⟩ := Option.map_eq_some_iff.mp hs
  obtain ⟨t,ht,hlog'⟩ := Option.map_eq_some_iff.mp ht
  exact ⟨s,t,hlog,hlog',probe_budgets_bounded _ _ s t hs ht⟩

end TuneX.Agent.ProbeBudgets
