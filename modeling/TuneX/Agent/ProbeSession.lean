import TuneX.Framework.Permits
import TuneX.Framework.Run
import Mathlib.Data.List.Nodup

namespace TuneX.Agent.ProbeSession

open Framework

/-- A verified consumption receipt. -/
structure Receipt where
  permit : String
  watched : Bool
  deriving DecidableEq, Repr

/-- The permits the gate has burned; the second part tells whether a cancel function is kept. -/
structure Gate where
  closed : Bool
  claims : List (String×Bool)
  deriving DecidableEq, Repr

/-- Where a call on the session stands. From `called` on it is a call of `Gate.Run`, which belongs
to `executeConsumedProbe` when `owned` holds; `observed` and later are its execution. -/
inductive Call
  | burned (permit : String)
  | asked (permit : String)
  | watching (permit : String)
  | watched (permit : String)
  | called (permit : String) (owned : Bool)
  | claimed (permit : String) (owned : Bool)
  | executing (permit : String) (owned : Bool)
  | returned (permit : String)
  | observed (permit : String)
  | reporting (permit : String)
  | reported (permit : String)
  | ended
  deriving DecidableEq, Repr

/-- What leaves the session. -/
inductive Effect
  | claim (permit : String)
  | monitor (receipt : Nat)
  | execute (call : Nat) (permit : String)
  | report (permit : String)
  deriving DecidableEq, Repr

structure State where
  gate : Gate
  /-- `session.claims`. -/
  claims : List String
  /-- Every receipt made so far. -/
  receipts : List Receipt
  /-- `session.receipts`, by permit. -/
  accepted : String→Option Nat
  calls : List Call
  trace : List Effect

def State.start : State := ⟨⟨false,[]⟩,[],[],fun _ => none,[],[]⟩

def maxClaims : Nat := 256

/-- Every event is one section under a lock or one step that reaches the network or the executor;
the answers of clocks, contexts, the Runner and the network are part of the label. -/
inductive Event
  | poll
  | claim (permit : String) (allowed : Bool)
  | ask (i : Nat) (sent : Bool)
  | receive (i : Nat) (accepted : Bool)
  | monitor (receipt : Nat) (allowed target : Bool)
  | observe (i : Nat) (fresh : Bool)
  | execute (i : Nat) (fresh : Bool)
  | run (permit : String)
  | enter (i : Nat) (allowed : Bool)
  | dispatch (i : Nat)
  | finish (i : Nat) (ok : Bool)
  | settle (i : Nat) (ok : Bool)
  | report (i : Nat)
  | send (i : Nat) (ready : Bool)
  | close
  deriving DecidableEq

namespace State

def replace (s : State) (i : Nat) (c : Call) : State := { s with calls := s.calls.set i c }

def push (s : State) (c : Call) : State := { s with calls := s.calls++[c] }

def emit (s : State) (e : Effect) : State := { s with trace := s.trace++[e] }

/-- `claimProbe` up to the end of its section. -/
def claim (s : State) (permit : String) (allowed : Bool) : State :=
  if !allowed then s
  else if permit∈s.claims then s
  else if maxClaims ≤ s.claims.length then s
  else { s.push (.burned permit) with claims := s.claims++[permit] }

def ask (s : State) (i : Nat) (sent : Bool) : Option State :=
  match s.calls[i]? with
  | some (.burned permit) =>
    if sent then some ((s.replace i (.asked permit)).emit (.claim permit))
    else some (s.replace i .ended)
  | _ => none

/-- The answer to a claim; an accepted one is kept as a receipt. -/
def receive (s : State) (i : Nat) (accepted : Bool) : Option State :=
  match s.calls[i]? with
  | some (.asked permit) =>
    if accepted then some { s.replace i .ended with
      receipts := s.receipts++[⟨permit,false⟩]
      accepted := fun p => if p=permit then some s.receipts.length else s.accepted p }
    else some (s.replace i .ended)
  | _ => none

/-- `monitorConsumedProbe` up to the end of its section. -/
def monitor (s : State) (r : Nat) (allowed target : Bool) : Option State :=
  match s.receipts[r]? with
  | none => none
  | some receipt =>
    if !allowed ∨ s.accepted receipt.permit≠some r then some s
    else if receipt.watched then some s
    else if !target then some s
    else some ({ s.push (.watching receipt.permit) with
      receipts := s.receipts.set r { receipt with watched := true } }.emit (.monitor r))

/-- The first status exchange and check of a monitor. -/
def observe (s : State) (i : Nat) (fresh : Bool) : Option State :=
  match s.calls[i]? with
  | some (.watching permit) => some (s.replace i (if fresh then .watched permit else .ended))
  | _ => none

/-- `executeConsumedProbe` comes to its call of the gate. -/
def execute (s : State) (i : Nat) (fresh : Bool) : Option State :=
  match s.calls[i]? with
  | some (.watched permit) => some (s.replace i (if fresh then .called permit true else .ended))
  | _ => none

/-- `Gate.Run` up to the end of its section. -/
def enter (s : State) (i : Nat) (allowed : Bool) : Option State :=
  match s.calls[i]? with
  | some (.called permit owned) =>
    if !allowed then some (s.replace i .ended)
    else if s.gate.closed then some (s.replace i .ended)
    else if permit∈s.gate.claims.map Prod.fst then some (s.replace i .ended)
    else if maxClaims ≤ s.gate.claims.length then some (s.replace i .ended)
    else some { s.replace i (.claimed permit owned) with
      gate := { s.gate with claims := s.gate.claims++[(permit,true)] } }
  | _ => none

/-- The call of the executor. -/
def dispatch (s : State) (i : Nat) : Option State :=
  match s.calls[i]? with
  | some (.claimed permit owned) =>
    some ((s.replace i (.executing permit owned)).emit (.execute i permit))
  | _ => none

/-- The executor returns and the gate drops its cancel function, never the permit. -/
def finish (s : State) (i : Nat) (ok : Bool) : Option State :=
  match s.calls[i]? with
  | some (.executing permit owned) =>
    some { s.replace i (if ok ∧ owned then .returned permit else .ended) with
      gate := { s.gate with
        claims := s.gate.claims.map fun e => if e.1=permit then (permit,false) else e } }
  | _ => none

/-- The rest of `executeConsumedProbe`. -/
def settle (s : State) (i : Nat) (ok : Bool) : Option State :=
  match s.calls[i]? with
  | some (.returned permit) => some (s.replace i (if ok then .observed permit else .ended))
  | _ => none

/-- The swap at the start of `reportProbe`. -/
def report (s : State) (i : Nat) : Option State :=
  match s.calls[i]? with
  | some (.observed permit) => some (s.replace i (.reporting permit))
  | some (.reporting _) | some (.reported _) => some s
  | _ => none

def send (s : State) (i : Nat) (ready : Bool) : Option State :=
  match s.calls[i]? with
  | some (.reporting permit) =>
    if ready then some ((s.replace i (.reported permit)).emit (.report permit))
    else some (s.replace i (.reported permit))
  | _ => none

/-- `Gate.Close`; the calls it cancels end by their own steps. -/
def close (s : State) : State := { s with gate := { s.gate with closed := true } }

def step (s : State) : Event→Option State
  -- `pollProbe` compares an offer with the burned permits and keeps nothing of it
  | .poll => some s
  | .claim permit allowed => some (s.claim permit allowed)
  | .ask i sent => s.ask i sent
  | .receive i accepted => s.receive i accepted
  | .monitor r allowed target => s.monitor r allowed target
  | .observe i fresh => s.observe i fresh
  | .execute i fresh => s.execute i fresh
  | .run permit => some (s.push (.called permit false))
  | .enter i allowed => s.enter i allowed
  | .dispatch i => s.dispatch i
  | .finish i ok => s.finish i ok
  | .settle i ok => s.settle i ok
  | .report i => s.report i
  | .send i ready => s.send i ready
  | .close => some s.close

end State

def Step (s : State) (e : Event) (t : State) : Prop := s.step e=some t

namespace Call

def isBurned (p : String) : Call→Bool
  | burned q => q == p
  | _ => false

def isClaimed (p : String) : Call→Bool
  | claimed q _ => q == p
  | _ => false

/-- A call that may still lead to a report. -/
def isPending (p : String) : Call→Bool
  | claimed q _ | executing q _ | returned q | observed q | reporting q => q == p
  | _ => false

end Call

namespace Effect

def claims (p : String) : Effect→Bool
  | claim q => q == p
  | _ => false

def monitors (r : Nat) : Effect→Bool
  | monitor q => q == r
  | _ => false

def executes (p : String) : Effect→Bool
  | execute _ q => q == p
  | _ => false

def reports (p : String) : Effect→Bool
  | report q => q == p
  | _ => false

end Effect

def burnedIn (s : State) (p : String) : Nat := if p∈s.claims then 1 else 0

def heldBy (g : Gate) (p : String) : Nat := if p∈g.claims.map Prod.fst then 1 else 0

def watchedAt (s : State) (r : Nat) : Nat := if (s.receipts[r]?.map Receipt.watched)=some true then 1 else 0

/-- Both sets of burned permits keep their limit. -/
structure Bounded (s : State) : Prop where
  claims : s.claims.Nodup ∧ s.claims.length ≤ maxClaims
  gate : (s.gate.claims.map Prod.fst).Nodup ∧ s.gate.claims.length ≤ maxClaims

/-- One call changes from `x` to `y` and the session emits `es`; a new call changes from one that
has ended. Each of the last four fields says that an effect, or a call that may still have it, is
paid for by the permit or the receipt it burns. -/
structure Moves (s t : State) (x y : Call) (es : List Effect) : Prop where
  calls : ∀p : Call→Bool, p .ended=false →
    t.calls.countP p+(if p x then 1 else 0)=s.calls.countP p+(if p y then 1 else 0)
  trace : t.trace=s.trace++es
  claims : ∀p∈s.claims, p∈t.claims
  gate : ∀p∈s.gate.claims.map Prod.fst, p∈t.gate.claims.map Prod.fst
  bounded : Bounded s→Bounded t
  claim : ∀p, es.countP (Effect.claims p)+(if y.isBurned p then 1 else 0)+burnedIn s p ≤
    (if x.isBurned p then 1 else 0)+burnedIn t p
  execute : ∀p, es.countP (Effect.executes p)+(if y.isClaimed p then 1 else 0)+heldBy s.gate p ≤
    (if x.isClaimed p then 1 else 0)+heldBy t.gate p
  report : ∀p, es.countP (Effect.reports p)+(if y.isPending p then 1 else 0)+
      (if x.isClaimed p then 1 else 0) ≤
    (if x.isPending p then 1 else 0)+es.countP (Effect.executes p)+(if y.isClaimed p then 1 else 0)
  monitor : ∀r, es.countP (Effect.monitors r)+watchedAt s r ≤ watchedAt t r

section Steps

variable {s t : State} {x y : Call} {i : Nat} {e : Event}

theorem Moves.same (s : State) : Moves s s .ended .ended [] :=
  ⟨fun _ _ => rfl,(List.append_nil _).symm,fun _ => id,fun _ => id,id,
    fun _ => Nat.le_refl _,fun _ => Nat.le_refl _,fun _ => Nat.le_refl _,
    fun _ => Nat.le_of_eq (Nat.zero_add _)⟩

variable {q : String} {allowed fresh ok : Bool} {l : List Event}

theorem mem_burn {l : List String} (h : q∉l) (p : String) :
    (if (q == p)=true then 1 else 0)+(if p∈l then 1 else 0)=if p∈l++[q] then 1 else 0 := by
  by_cases hp : q=p
  · subst hp
    simp [h]
  · simp [hp,Ne.symm hp]

theorem nodup_burn {l : List String} (h : q∉l) (hl : l.Nodup) : (l++[q]).Nodup := by
  rw [List.nodup_append]
  refine ⟨hl,List.nodup_singleton _,?_⟩
  intro a ha b hb hab
  rw [List.mem_singleton.mp hb] at hab
  exact h (hab ▸ ha)

/-- A change of stage that emits nothing and burns nothing. -/
structure Quiet (x y : Call) : Prop where
  burned : ∀p, y.isBurned p=false
  claimed : ∀p, x.isClaimed p=false ∧ y.isClaimed p=false
  pending : ∀p, y.isPending p→x.isPending p

theorem Quiet.moves (hx : s.calls[i]?=some x) (h : Quiet x y) : Moves s (s.replace i y) x y [] := by
  refine ⟨fun p _ => countP_set_add hx,(List.append_nil _).symm,fun _ => id,fun _ => id,
    fun hs => ⟨hs.claims,hs.gate⟩,?_,?_,?_,fun _ => Nat.le_of_eq (Nat.zero_add _)⟩
  · intro p
    have hsame : burnedIn (s.replace i y) p=burnedIn s p := rfl
    rw [h.burned p,hsame,List.countP_nil]
    simp only [Bool.false_eq_true,if_false]
    omega
  · intro p
    have hsame : heldBy (s.replace i y).gate p=heldBy s.gate p := rfl
    rw [(h.claimed p).1,(h.claimed p).2,hsame,List.countP_nil]
    omega
  · intro p
    have hpending := h.pending p
    rw [(h.claimed p).1,(h.claimed p).2,List.countP_nil,List.countP_nil]
    simp only [Bool.false_eq_true,if_false]
    split_ifs with hy hx hx
    · omega
    · exact absurd (hpending hy) hx
    · omega
    · omega

/-- A closed gate stays closed and lets no call in; the executor is reached only by a call that
was let in. -/
structure Guarded (s t : State) : Prop where
  closed : s.gate.closed→t.gate.closed
  claimed : ∀(i : Nat) p o, t.calls[i]?=some (Call.claimed p o)→
    s.calls[i]?=some (Call.claimed p o) ∨ s.gate.closed=false
  executed : ∀(i : Nat) p, Effect.execute i p∈t.trace→
    Effect.execute i p∈s.trace ∨ ∃o, s.calls[i]?=some (Call.claimed p o)
  length : s.calls.length ≤ t.calls.length

theorem Guarded.same (s : State) : Guarded s s :=
  ⟨id,fun _ _ _ => .inl,fun _ _ => .inl,Nat.le_refl _⟩

theorem trace_quiet {l : List Effect} {f : Effect} (hf : ∀i p, f≠.execute i p) {p : String}
    (h : Effect.execute i p∈l++[f]) : Effect.execute i p∈l := by
  rcases List.mem_append.mp h with h|h
  · exact h
  · exact absurd (List.mem_singleton.mp h).symm (hf i p)

theorem Guarded.replaced (hclosed : t.gate.closed=s.gate.closed) (hcalls : t.calls=s.calls.set i y)
    (hy : ∀p o, y≠.claimed p o)
    (htrace : ∀k p, Effect.execute k p∈t.trace → Effect.execute k p∈s.trace) : Guarded s t := by
  have hlength : s.calls.length ≤ t.calls.length := by
    exact Nat.le_of_eq (by rw [hcalls,List.length_set])
  refine ⟨fun h => hclosed.trans h,?_,fun k p h => .inl (htrace k p h),hlength⟩
  intro k p o hk
  rw [hcalls,List.getElem?_set] at hk
  split_ifs at hk with h₁ h₂
  · exact absurd (Option.some.inj hk) (hy p o)
  · exact .inl hk

theorem Guarded.pushed (hclosed : t.gate.closed=s.gate.closed) (hcalls : t.calls=s.calls++[y])
    (hy : ∀p o, y≠.claimed p o)
    (htrace : ∀k p, Effect.execute k p∈t.trace → Effect.execute k p∈s.trace) : Guarded s t := by
  have hlength : s.calls.length ≤ t.calls.length := by
    rw [hcalls,List.length_append]
    omega
  refine ⟨fun h => hclosed.trans h,?_,fun k p h => .inl (htrace k p h),hlength⟩
  intro k p o hk
  rw [hcalls] at hk
  rcases List.mem_append.mp (List.mem_of_getElem? hk) with h|h
  · rcases Nat.lt_or_ge k s.calls.length with hlt|hge
    · rw [List.getElem?_append_left hlt] at hk
      exact .inl hk
    · rw [List.getElem?_append_right hge] at hk
      exact absurd (List.mem_singleton.mp (List.mem_of_getElem? hk)).symm (hy p o)
  · exact absurd (List.mem_singleton.mp h).symm (hy p o)

/-- What a call of the session does to the ledger and to the gate. -/
structure Steps (s t : State) : Prop where
  moves : ∃x y es, Moves s t x y es
  guarded : Guarded s t

theorem Steps.same (s : State) : Steps s s := ⟨⟨_,_,_,.same s⟩,.same s⟩

theorem Quiet.unclaimed (h : Quiet x y) (p : String) (o : Bool) : y≠.claimed p o := by
  rintro rfl
  have hp := (h.claimed p).2
  simp [Call.isClaimed] at hp

theorem Quiet.steps (hx : s.calls[i]?=some x) (h : Quiet x y) : Steps s (s.replace i y) :=
  ⟨⟨x,y,[],h.moves hx⟩,.replaced rfl rfl h.unclaimed fun _ _ => id⟩

theorem push_calls (s : State) (y : Call) (p : Call→Bool) (hp : p .ended=false) :
    (s.calls++[y]).countP p+(if p .ended then 1 else 0)=
      s.calls.countP p+(if p y then 1 else 0) := by
  rw [hp,if_neg Bool.false_ne_true]
  exact countP_concat _ _ _

theorem Quiet.ended (hc : ∀p, x.isClaimed p=false) : Quiet x .ended :=
  ⟨fun _ => rfl,fun p => ⟨hc p,rfl⟩,nofun⟩

theorem Quiet.branch (h : Quiet x y) (b : Prop) [Decidable b] : Quiet x (if b then y else .ended) := by
  split_ifs
  · exact h
  · exact .ended fun p => (h.claimed p).1

theorem claim_steps (permit : String) (allowed : Bool) :
    Steps s (s.claim permit allowed) := by
  unfold State.claim
  split_ifs with ha hused hfull
  · exact .same s
  · exact .same s
  · exact .same s
  · have hburn := mem_burn hused
    refine ⟨⟨.ended,.burned permit,[],push_calls s _,(List.append_nil _).symm,
      fun _ => List.mem_append_left _,fun _ => id,?_,?_,fun _ => Nat.le_refl _,
      fun _ => Nat.le_refl _,fun _ => Nat.le_of_eq (Nat.zero_add _)⟩,
      .pushed rfl rfl nofun fun _ _ => id⟩
    · refine fun hs => ⟨⟨nodup_burn hused hs.claims.1,?_⟩,hs.gate⟩
      rw [List.length_append,List.length_singleton]
      omega
    · intro p
      have hp := Nat.le_of_eq (hburn p)
      show 0+(if permit == p then 1 else 0)+(if p∈s.claims then 1 else 0)≤
        0+if p∈s.claims++[permit] then 1 else 0
      rw [Nat.zero_add,Nat.zero_add]
      exact hp

theorem ask_steps {sent : Bool} (h : s.ask i sent=some t) : Steps s t := by
  unfold State.ask at h
  split at h
  · next permit hx =>
    split_ifs at h
    · cases h
      refine ⟨⟨.burned permit,.asked permit,[.claim permit],fun p _ => countP_set_add hx,rfl,
        fun _ => id,fun _ => id,fun hs => ⟨hs.claims,hs.gate⟩,?_,fun _ => Nat.le_refl _,
        fun _ => Nat.le_refl _,fun _ => Nat.le_of_eq (Nat.zero_add _)⟩,
        .replaced rfl rfl nofun fun _ _ => trace_quiet (by simp)⟩
      intro p
      show List.countP (Effect.claims p) [.claim permit]+0+burnedIn s p ≤
        (if permit == p then 1 else 0)+burnedIn s p
      rw [List.countP_singleton]
      exact Nat.le_refl _
    · cases h
      exact (Quiet.ended fun _ => rfl).steps hx
  · cases h

theorem receive_steps {accepted : Bool} (h : s.receive i accepted=some t) :
    Steps s t := by
  unfold State.receive at h
  split at h
  · next permit hx =>
    split_ifs at h
    · cases h
      refine ⟨⟨.asked permit,.ended,[],fun p _ => countP_set_add hx,(List.append_nil _).symm,
        fun _ => id,fun _ => id,fun hs => ⟨hs.claims,hs.gate⟩,fun _ => Nat.le_refl _,
        fun _ => Nat.le_refl _,fun _ => Nat.le_refl _,?_⟩,.replaced rfl rfl nofun fun _ _ => id⟩
      intro r
      rw [List.countP_nil,Nat.zero_add]
      show watchedAt s r ≤ if (s.receipts++[⟨permit,false⟩])[r]?.map Receipt.watched=some true then 1
        else 0
      unfold watchedAt
      split_ifs with h₁ h₂
      · exact Nat.le_refl _
      · obtain ⟨receipt,hr,hw⟩ := Option.map_eq_some_iff.mp h₁
        have hlt := (List.getElem?_eq_some_iff.mp hr).1
        rw [List.getElem?_append_left hlt,hr] at h₂
        exact absurd (congrArg some hw) h₂
      · exact Nat.zero_le _
      · exact Nat.le_refl _
    · cases h
      exact (Quiet.ended fun _ => rfl).steps hx
  · cases h

theorem monitor_steps {r : Nat} {target : Bool} (h : s.monitor r allowed target=some t) :
    Steps s t := by
  unfold State.monitor at h
  split at h
  · cases h
  · next receipt hr =>
    split_ifs at h with ha hw ht
    · cases h
      exact .same s
    · cases h
      exact .same s
    · cases h
      exact .same s
    · cases h
      refine ⟨⟨.ended,.watching receipt.permit,[.monitor r],push_calls s _,rfl,fun _ => id,
        fun _ => id,fun hs => ⟨hs.claims,hs.gate⟩,fun _ => Nat.le_refl _,fun _ => Nat.le_refl _,
        fun _ => Nat.le_refl _,?_⟩,.pushed rfl rfl nofun fun _ _ => trace_quiet (by simp)⟩
      intro q
      show List.countP (Effect.monitors q) [.monitor r]+watchedAt s q≤
        if (s.receipts.set r { receipt with watched := true })[q]?.map Receipt.watched=some true
          then 1 else 0
      rw [List.countP_singleton]
      obtain ⟨hlt,-⟩ := List.getElem?_eq_some_iff.mp hr
      by_cases hq : r=q
      · subst hq
        have hbefore : watchedAt s r=0 := by
          unfold watchedAt
          simp [hr,hw]
        simp [hbefore,Effect.monitors,List.getElem?_set_self hlt]
      · simp [Effect.monitors,hq,List.getElem?_set_ne hq,watchedAt]

theorem observe_steps (h : s.observe i fresh=some t) : Steps s t := by
  unfold State.observe at h
  split at h
  · next permit hx =>
    cases h
    have hquiet : Quiet (.watching permit) (.watched permit) := ⟨fun _ => rfl,fun _ => ⟨rfl,rfl⟩,fun _ => id⟩
    exact (hquiet.branch _).steps hx
  · cases h

theorem execute_steps (h : s.execute i fresh=some t) : Steps s t := by
  unfold State.execute at h
  split at h
  · next permit hx =>
    cases h
    have hquiet : Quiet (.watched permit) (.called permit true) := ⟨fun _ => rfl,fun _ => ⟨rfl,rfl⟩,fun _ => id⟩
    exact (hquiet.branch _).steps hx
  · cases h

theorem run_steps (permit : String) : Steps s (s.push (.called permit false)) := by
  exact ⟨⟨.ended,.called permit false,[],push_calls s _,(List.append_nil _).symm,fun _ => id,
    fun _ => id,fun hs => ⟨hs.claims,hs.gate⟩,fun _ => Nat.le_refl _,fun _ => Nat.le_refl _,
    fun _ => Nat.le_refl _,fun _ => Nat.le_of_eq (Nat.zero_add _)⟩,
    .pushed rfl rfl nofun fun _ _ => id⟩

theorem enter_steps (h : s.enter i allowed=some t) : Steps s t := by
  unfold State.enter at h
  split at h
  · next permit owned hx =>
    have hended : Quiet (.called permit owned) .ended := .ended fun _ => rfl
    split_ifs at h with ha hclosed hused hfull
    · cases h
      exact hended.steps hx
    · cases h
      exact hended.steps hx
    · cases h
      exact hended.steps hx
    · cases h
      exact hended.steps hx
    · cases h
      have hkeys : (s.gate.claims++[(permit,true)]).map Prod.fst=
          s.gate.claims.map Prod.fst++[permit] := List.map_append
      refine ⟨⟨.called permit owned,.claimed permit owned,[],fun p _ => countP_set_add hx,
        (List.append_nil _).symm,fun _ => id,?_,?_,fun _ => Nat.le_refl _,?_,?_,
        fun _ => Nat.le_of_eq (Nat.zero_add _)⟩,id,
        fun _ _ _ _ => .inr (Bool.eq_false_iff.mpr hclosed),fun _ _ => .inl,
        Nat.le_of_eq List.length_set.symm⟩
      · intro p hp
        show p∈(s.gate.claims++[(permit,true)]).map Prod.fst
        rw [hkeys]
        exact List.mem_append_left _ hp
      · refine fun hs => ⟨hs.claims,?_,?_⟩
        · show ((s.gate.claims++[(permit,true)]).map Prod.fst).Nodup
          rw [hkeys]
          exact nodup_burn hused hs.gate.1
        · show (s.gate.claims++[(permit,true)]).length ≤ maxClaims
          rw [List.length_append,List.length_singleton]
          omega
      · intro p
        show 0+(if permit == p then 1 else 0)+heldBy s.gate p≤
          0+if p∈(s.gate.claims++[(permit,true)]).map Prod.fst then 1 else 0
        rw [hkeys,Nat.zero_add,Nat.zero_add]
        exact Nat.le_of_eq (mem_burn hused p)
      · intro p
        show 0+(if permit == p then 1 else 0)+0≤0+0+if permit == p then 1 else 0
        omega
  · cases h

theorem dispatch_steps (h : s.dispatch i=some t) : Steps s t := by
  unfold State.dispatch at h
  split at h
  · next permit owned hx =>
    cases h
    have hreplaced : Guarded s (s.replace i (.executing permit owned)) :=
      .replaced rfl rfl nofun fun _ _ => id
    refine ⟨⟨.claimed permit owned,.executing permit owned,[.execute i permit],
      fun p _ => countP_set_add hx,rfl,fun _ => id,fun _ => id,fun hs => ⟨hs.claims,hs.gate⟩,
      fun _ => Nat.le_refl _,?_,?_,fun _ => Nat.le_of_eq (Nat.zero_add _)⟩,
      id,hreplaced.claimed,?_,hreplaced.length⟩
    · intro p
      rw [List.countP_singleton]
      exact Nat.le_refl _
    · intro p
      rw [List.countP_singleton,List.countP_singleton]
      show 0+(if permit == p then 1 else 0)+(if permit == p then 1 else 0)≤
        (if permit == p then 1 else 0)+(if permit == p then 1 else 0)+0
      omega
    · intro k p hk
      rcases List.mem_append.mp hk with hk|hk
      · exact .inl hk
      · have heq := List.mem_singleton.mp hk
        cases heq
        exact .inr ⟨owned,hx⟩
  · cases h

theorem finish_steps (h : s.finish i ok=some t) : Steps s t := by
  unfold State.finish at h
  split at h
  · next permit owned hx =>
    cases h
    have hkeys : (s.gate.claims.map fun e => if e.1=permit then (permit,false) else e).map Prod.fst=
        s.gate.claims.map Prod.fst := by
      rw [List.map_map]
      apply List.map_congr_left
      intro e _
      show (if e.1=permit then (permit,false) else e).1=e.1
      split_ifs with he
      · exact he.symm
      · rfl
    have hheld (p : String) : heldBy ⟨s.gate.closed,s.gate.claims.map fun e =>
        if e.1=permit then (permit,false) else e⟩ p=heldBy s.gate p := by
      unfold heldBy
      rw [hkeys]
    have hquiet : Quiet (.executing permit owned) (.returned permit) :=
      ⟨fun _ => rfl,fun _ => ⟨rfl,rfl⟩,fun _ => id⟩
    have hbranch := hquiet.branch (ok ∧ owned)
    have hm := hbranch.moves hx
    refine ⟨⟨_,_,_,hm.calls,hm.trace,hm.claims,?_,?_,hm.claim,?_,hm.report,hm.monitor⟩,
      .replaced rfl rfl hbranch.unclaimed fun _ _ => id⟩
    · intro p hp
      show p∈(s.gate.claims.map fun e => if e.1=permit then (permit,false) else e).map Prod.fst
      rw [hkeys]
      exact hp
    · refine fun hs => ⟨hs.claims,?_,?_⟩
      · show ((s.gate.claims.map fun e => if e.1=permit then (permit,false) else e).map
          Prod.fst).Nodup
        rw [hkeys]
        exact hs.gate.1
      · show (s.gate.claims.map fun e => if e.1=permit then (permit,false) else e).length ≤ maxClaims
        rw [List.length_map]
        exact hs.gate.2
    · intro p
      rw [hheld p]
      exact hm.execute p
  · cases h

theorem settle_steps (h : s.settle i ok=some t) : Steps s t := by
  unfold State.settle at h
  split at h
  · next permit hx =>
    cases h
    have hquiet : Quiet (.returned permit) (.observed permit) := ⟨fun _ => rfl,fun _ => ⟨rfl,rfl⟩,fun _ => id⟩
    exact (hquiet.branch _).steps hx
  · cases h

theorem report_steps (h : s.report i=some t) : Steps s t := by
  unfold State.report at h
  split at h
  · next permit hx =>
    cases h
    exact Quiet.steps hx ⟨fun _ => rfl,fun _ => ⟨rfl,rfl⟩,fun _ => id⟩
  · cases h
    exact .same s
  · cases h
    exact .same s
  · cases h

theorem send_steps {ready : Bool} (h : s.send i ready=some t) : Steps s t := by
  unfold State.send at h
  split at h
  · next permit hx =>
    split_ifs at h
    · cases h
      refine ⟨⟨.reporting permit,.reported permit,[.report permit],fun p _ => countP_set_add hx,
        rfl,fun _ => id,fun _ => id,fun hs => ⟨hs.claims,hs.gate⟩,fun _ => Nat.le_refl _,
        fun _ => Nat.le_refl _,?_,fun _ => Nat.le_of_eq (Nat.zero_add _)⟩,
        .replaced rfl rfl nofun fun _ _ => trace_quiet (by simp)⟩
      intro p
      rw [List.countP_singleton]
      exact Nat.le_refl _
    · cases h
      exact Quiet.steps hx ⟨fun _ => rfl,fun _ => ⟨rfl,rfl⟩,nofun⟩
  · cases h

theorem step_steps (h : Step s e t) : Steps s t := by
  cases e with
  | poll =>
    cases h
    exact .same s
  | claim permit allowed =>
    cases h
    exact claim_steps permit allowed
  | ask i sent => exact ask_steps h
  | receive i accepted => exact receive_steps h
  | monitor r allowed target => exact monitor_steps h
  | observe i fresh => exact observe_steps h
  | execute i fresh => exact execute_steps h
  | run permit =>
    cases h
    exact run_steps permit
  | enter i allowed => exact enter_steps h
  | dispatch i => exact dispatch_steps h
  | finish i ok => exact finish_steps h
  | settle i ok => exact settle_steps h
  | report i => exact report_steps h
  | send i ready => exact send_steps h
  | close =>
    cases h
    have hm := Moves.same s
    exact ⟨⟨_,_,_,hm.calls,hm.trace,hm.claims,hm.gate,fun hs => ⟨hs.claims,hs.gate⟩,hm.claim,
      hm.execute,hm.report,hm.monitor⟩,fun _ => rfl,fun _ _ _ => .inl,fun _ _ => .inl,
      Nat.le_refl _⟩

/-- The ledger of a session: every effect that has happened, and every call that may still have
it, is paid for by a burned permit or a watched receipt. -/
structure Ledger (s : State) : Prop where
  bounded : Bounded s
  claim : ∀p, s.trace.countP (Effect.claims p)+s.calls.countP (Call.isBurned p)≤burnedIn s p
  execute : ∀p, s.trace.countP (Effect.executes p)+s.calls.countP (Call.isClaimed p)≤
    heldBy s.gate p
  report : ∀p, s.trace.countP (Effect.reports p)+s.calls.countP (Call.isPending p)≤
    s.trace.countP (Effect.executes p)+s.calls.countP (Call.isClaimed p)
  monitor : ∀r, s.trace.countP (Effect.monitors r)≤watchedAt s r

theorem start_ledger : Ledger State.start :=
  ⟨⟨⟨List.nodup_nil,Nat.zero_le _⟩,List.nodup_nil,Nat.zero_le _⟩,fun _ => Nat.zero_le _,
    fun _ => Nat.zero_le _,fun _ => Nat.zero_le _,fun _ => Nat.zero_le _⟩

theorem Ledger.moves {es : List Effect} (hs : Ledger s) (m : Moves s t x y es) : Ledger t := by
  have htrace (p : Effect→Bool) : t.trace.countP p=s.trace.countP p+es.countP p := by
    rw [m.trace,List.countP_append]
  refine ⟨m.bounded hs.bounded,?_,?_,?_,?_⟩
  · intro p
    have hcalls := m.calls (Call.isBurned p) rfl
    have hstep := m.claim p
    have hold := hs.claim p
    rw [htrace]
    omega
  · intro p
    have hcalls := m.calls (Call.isClaimed p) rfl
    have hstep := m.execute p
    have hold := hs.execute p
    rw [htrace]
    omega
  · intro p
    have hpending := m.calls (Call.isPending p) rfl
    have hclaimed := m.calls (Call.isClaimed p) rfl
    have hstep := m.report p
    have hold := hs.report p
    rw [htrace,htrace]
    omega
  · intro r
    have hstep := m.monitor r
    have hold := hs.monitor r
    rw [htrace]
    omega

theorem run_ledger (h : Run Step State.start l s) : Ledger s :=
  h.invariant Ledger (fun _ _ _ hstep hs => by
    obtain ⟨⟨x,y,es,m⟩,-⟩ := step_steps hstep
    exact hs.moves m) start_ledger

structure Remembers (s t : State) : Prop where
  claims : ∀p∈s.claims, p∈t.claims
  gate : ∀p∈s.gate.claims.map Prod.fst, p∈t.gate.claims.map Prod.fst

theorem run_remembers (h : Run Step s l t) : Remembers s t := by
  refine h.invariant (Remembers s) (fun a _ b hstep ha => ?_) ⟨fun _ => id,fun _ => id⟩
  obtain ⟨⟨x,y,es,m⟩,-⟩ := step_steps hstep
  exact ⟨fun p hp => m.claims p (ha.claims p hp),fun p hp => m.gate p (ha.gate p hp)⟩

/-- After a gate was closed in `s`, only the calls that were in it then reach the executor. -/
structure Shut (s t : State) : Prop where
  closed : t.gate.closed
  claimed : ∀(i : Nat) p o, t.calls[i]?=some (Call.claimed p o)→s.calls[i]?=some (Call.claimed p o)
  executed : ∀i p, Effect.execute i p∈t.trace→Effect.execute i p∈s.trace ∨
    ∃o, s.calls[i]?=some (Call.claimed p o)

theorem Shut.refl (h : s.gate.closed) : Shut s s :=
  ⟨h,fun _ _ _ hc => hc,fun _ _ hx => .inl hx⟩

theorem Shut.step {u : State} (hs : Shut s t) (h : Step t e u) : Shut s u := by
  have hg := (step_steps h).guarded
  refine ⟨hg.closed hs.closed,?_,?_⟩
  · intro i p o hu
    rcases hg.claimed i p o hu with hc|hc
    · exact hs.claimed i p o hc
    · exact absurd hs.closed (by rw [hc]; exact Bool.false_ne_true)
  · intro i p hu
    rcases hg.executed i p hu with hx|⟨o,hc⟩
    · exact hs.executed i p hx
    · exact .inr ⟨o,hs.claimed i p o hc⟩

/-- Within one registered session, every permit reaches claim I/O, the executor and a report at most
once and every receipt is monitored at most once; burned permits stay, at most 256 of each kind; a
call that was not in the gate when it was closed never reaches the executor. -/
theorem probe_once {l : List Event} (h : Run Step State.start l s) :
    (∀p, s.trace.countP (Effect.claims p)≤1 ∧ s.trace.countP (Effect.executes p)≤1 ∧
      s.trace.countP (Effect.reports p)≤1) ∧
    (∀r, s.trace.countP (Effect.monitors r)≤1) ∧
    (s.claims.Nodup ∧ s.claims.length≤256 ∧ (s.gate.claims.map Prod.fst).Nodup ∧
      s.gate.claims.length≤256) ∧
    ∀m t, Run Step s m t→
      ((∀p∈s.claims, p∈t.claims) ∧
        ∀p∈s.gate.claims.map Prod.fst, p∈t.gate.claims.map Prod.fst) ∧
      (s.gate.closed→∀i p, Effect.execute i p∈t.trace→Effect.execute i p∈s.trace ∨
        ∃o, s.calls[i]?=some (.claimed p o)) := by
  have hs := run_ledger h
  refine ⟨?_,?_,⟨hs.bounded.claims.1,hs.bounded.claims.2,hs.bounded.gate⟩,?_⟩
  · intro p
    have hclaim := hs.claim p
    have hexecute := hs.execute p
    have hreport := hs.report p
    have hburned : burnedIn s p≤1 := by
      unfold burnedIn
      split_ifs <;> omega
    have hheld : heldBy s.gate p≤1 := by
      unfold heldBy
      split_ifs <;> omega
    omega
  · intro r
    have hmonitor := hs.monitor r
    have hwatched : watchedAt s r≤1 := by
      unfold watchedAt
      split_ifs <;> omega
    omega
  · intro m t hm
    have hkept := run_remembers hm
    refine ⟨⟨hkept.claims,hkept.gate⟩,?_⟩
    intro hclosed
    exact (hm.invariant (Shut s) (fun _ _ _ hstep ht => ht.step hstep) (.refl hclosed)).executed

/-- Two claims of one permit, its execution and two reports; a second permit is claimed and
monitored, and the gate is closed before its execution calls it. -/
theorem probe_once_reported :
    ∃s, Run Step State.start
      [.poll,.claim "p" true,.claim "p" true,.ask 0 true,.receive 0 true,.monitor 0 true true,
        .monitor 0 true true,.observe 1 true,.execute 1 true,.enter 1 true,.dispatch 1,
        .finish 1 true,.settle 1 true,.report 1,.report 1,.send 1 true,.claim "q" true,.ask 2 true,
        .receive 2 true,.monitor 1 true true,.observe 3 true,.close] s ∧
      s.trace=[.claim "p",.monitor 0,.execute 1 "p",.report "p",.claim "q",.monitor 1] ∧
      s.trace.countP (Effect.executes "p")≤1 ∧ s.gate.closed ∧
      ∃t, Run Step s [.execute 3 true,.enter 3 true,.run "r",.enter 4 true] t ∧
        t.calls[3]?=some .ended ∧ Effect.execute 3 "q"∉t.trace := by
  refine Run.exists_of_foldlM (f := State.step) (fun _ _ _ h => h) rfl fun hr => ?_
  obtain ⟨hall,-,-,hafter⟩ := probe_once hr
  refine ⟨rfl,(hall "p").2.1,rfl,?_⟩
  refine Run.exists_of_foldlM (f := State.step) (fun _ _ _ h => h) rfl fun hm => ⟨rfl,?_⟩
  intro hx
  rcases (hafter _ _ hm).2 rfl 3 "q" hx with hold|⟨o,hclaimed⟩
  · exact absurd hold (by decide)
  · cases hclaimed

end Steps

end TuneX.Agent.ProbeSession
