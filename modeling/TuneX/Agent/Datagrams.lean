import TuneX.Framework.Run
import TuneX.Framework.Credit
import Mathlib.Tactic.SplitIfs

namespace TuneX.Agent.Datagram

open Framework

/-- What one datagram earns or costs: short ones count as 64 bytes. -/
def weight (n : Nat) : Int := max n 64

def cost (l : List Nat) : Int := (l.map weight).sum

@[simp] theorem cost_nil : cost []=0 := rfl

@[simp] theorem cost_snoc (l : List Nat) (n : Nat) : cost (l++[n])=cost l+weight n := by
  simp [cost]

@[simp] theorem cost_single (n : Nat) : cost [n]=weight n := by
  simp [cost]

theorem weight_pos (n : Nat) : 64≤weight n := le_max_right _ _

theorem cost_nonneg (l : List Nat) : 0 ≤ cost l := by
  induction l with
  | nil => exact le_rfl
  | cons n l ih =>
    have hn := weight_pos n
    have hl : cost (n::l)=weight n+cost l := by simp [cost]
    omega

/-- The goroutine that carries requests to the target. -/
inductive Worker
  | connecting
  | serving
  | ended
  deriving DecidableEq,Repr

/-- One association. Datagrams are their lengths; `held` is a request whose credit is not
booked yet, `writing` one that is booked and not written yet, and `sending` a reply that is
paid for and not written yet. -/
structure Association where
  worker : Worker
  reading : Bool
  canceled : Bool
  queue : List Nat
  held : Option Nat
  writing : Option Nat
  sending : Option Nat
  credit : Int
  initialized : Bool
  received : List Nat
  forwarded : List Nat
  replied : List Nat
  deriving DecidableEq,Repr

/-- The answers of the outside are part of the label: whether the context, the socket owner
and the authorization still admit the step, and whether a write succeeded. -/
inductive Event
  | receive (size : Nat)
  | connect (ok : Bool)
  | forward (admitted written : Bool)
  | settle
  | deliver (written : Bool)
  | reply (size : Nat) (admitted written : Bool)
  | send (written : Bool)
  | expire
  deriving DecidableEq,Repr

namespace Association

def start (credit : Int) : Association where
  worker := .connecting
  reading := false
  canceled := false
  queue := []
  held := none
  writing := none
  sending := none
  credit := credit
  initialized := false
  received := []
  forwarded := []
  replied := []

/-- `run` returns. -/
def finish (a : Association) : Association :=
  { a with
    worker := .ended
    canceled := true }

/-- `replies` returns. -/
def hangUp (a : Association) : Association :=
  { a with
    reading := false
    canceled := true }

def connect (a : Association) (ok : Bool) : Option Association :=
  if a.worker≠.connecting then none
  else if !ok || a.canceled then some a.finish
  else some { a with
    worker := .serving
    reading := true }

/-- The bounded queue between the socket reader and `run`. -/
def enqueue (maximum depth : Nat) (a : Association) (size : Nat) : Association :=
  if maximum<size ∨ depth ≤ a.queue.length then a
  else { a with queue := a.queue++[size] }

end Association

namespace Direct

def maxDatagramBytes : Nat := 16*1024
def queueDepth : Nat := 4
def replyAmplification : Int := 16
def maxReplyCreditBytes : Int := 4*16384

def fresh : Association := .start 0

def forward (a : Association) (admitted written : Bool) : Option Association :=
  match a.worker,a.queue with
  | .serving,n::rest =>
    let taken := { a with
      queue := rest
      received := a.received++[n] }
    if a.canceled || !admitted || !written then some taken.finish
    else
      let credit := if a.initialized then a.credit else maxDatagramBytes
      some { taken with
        initialized := true
        forwarded := a.forwarded++[n]
        credit := min maxReplyCreditBytes (credit+replyAmplification*weight n) }
  | _,_ => none

def reply (a : Association) (size : Nat) (admitted written : Bool) : Option Association :=
  if !a.reading then none
  else if maxDatagramBytes<size then some a
  else if a.canceled || !admitted then some a.hangUp
  else if a.credit<weight size then some a
  else if written then some { a with
    credit := a.credit-weight size
    replied := a.replied++[size] }
  else some a.hangUp

def exec (a : Association) : Event→Option Association
  | .receive size => some (a.enqueue maxDatagramBytes queueDepth size)
  | .connect ok => a.connect ok
  | .forward admitted written => forward a admitted written
  | .reply size admitted written => reply a size admitted written
  | .expire => some { a with canceled := true }
  | .settle | .deliver _ | .send _ => none

end Direct

namespace Relay

def fresh (maximum : Nat) : Association := .start maximum

/-- The section that books a request. -/
def book (maximum : Nat) (a : Association) (n : Nat) : Association :=
  { a with
    held := none
    credit := min (4*maximum) (a.credit+3*weight n) }

/-- The section that pays for a reply; without credit the reply is dropped. -/
def pay (a : Association) (size : Nat) : Association :=
  if weight size ≤ a.credit then { a with
    credit := a.credit-weight size
    sending := some size }
  else a

def send (a : Association) (written : Bool) : Option Association :=
  match a.sending with
  | none => none
  | some n =>
    if written then some { a with
      sending := none
      replied := a.replied++[n] }
    else some { a.hangUp with sending := none }

end Relay

namespace Ingress

def queueDepth : Nat := 16

/-- `run` writes the frame first and books it in a section of its own. -/
def forward (a : Association) (admitted written : Bool) : Option Association :=
  match a.worker,a.held,a.queue with
  | .serving,none,n::rest =>
    let taken := { a with
      queue := rest
      received := a.received++[n] }
    if !admitted || !written then some taken.finish
    else some { taken with
      forwarded := a.forwarded++[n]
      held := some n }
  | _,_,_ => none

def settle (maximum : Nat) (a : Association) : Option Association :=
  a.held.map (Relay.book maximum a)

/-- A frame over the limit is an error of `ReadFrame`. -/
def reply (maximum : Nat) (a : Association) (size : Nat) (admitted : Bool) : Option Association :=
  if !a.reading || a.sending.isSome then none
  else if maximum<size ∨ admitted=false then some a.hangUp
  else some (Relay.pay a size)

def exec (maximum : Nat) (a : Association) : Event→Option Association
  | .receive size => some (a.enqueue maximum queueDepth size)
  | .connect ok => a.connect ok
  | .forward admitted written => forward a admitted written
  | .settle => settle maximum a
  | .reply size admitted _ => reply maximum a size admitted
  | .send written => Relay.send a written
  | .expire => some { a with canceled := true }
  | .deliver _ => none

end Ingress

namespace Egress

/-- `bridgeUDP` reads a frame, books it and only then writes it to the target. -/
def forward (maximum : Nat) (a : Association) (admitted : Bool) : Option Association :=
  match a.worker,a.held,a.writing,a.queue with
  | .serving,none,none,n::rest =>
    let taken := { a with queue := rest }
    if maximum<n ∨ a.canceled ∨ admitted=false then some taken.finish
    else some { taken with
      received := a.received++[n]
      held := some n }
  | _,_,_,_ => none

def settle (maximum : Nat) (a : Association) : Option Association :=
  a.held.map fun n => { Relay.book maximum a n with writing := some n }

def deliver (a : Association) (written : Bool) : Option Association :=
  match a.writing with
  | none => none
  | some n =>
    if written then some { a with
      writing := none
      forwarded := a.forwarded++[n] }
    else some { a.finish with writing := none }

def reply (maximum : Nat) (a : Association) (size : Nat) (admitted : Bool) : Option Association :=
  if !a.reading || a.sending.isSome then none
  else if !admitted then some a.hangUp
  else if maximum<size then some a
  else some (Relay.pay a size)

/-- Frames that arrived and were not read yet stand in the queue. -/
def exec (maximum : Nat) (a : Association) : Event→Option Association
  | .receive size => some { a with queue := a.queue++[size] }
  | .connect ok => a.connect ok
  | .forward admitted _ => forward maximum a admitted
  | .settle => settle maximum a
  | .deliver written => deliver a written
  | .reply size admitted _ => reply maximum a size admitted
  | .send written => Relay.send a written
  | .expire => some { a with canceled := true }

end Egress

/-- The three copies of the credit rule. -/
inductive Engine
  | direct
  | ingress (maximum : Nat)
  | egress (maximum : Nat)
  deriving DecidableEq,Repr

namespace Engine

def fresh : Engine→Association
  | .direct => Direct.fresh
  | .ingress maximum | .egress maximum => Relay.fresh maximum

def exec : Engine→Association→Event→Option Association
  | .direct => Direct.exec
  | .ingress maximum => Ingress.exec maximum
  | .egress maximum => Egress.exec maximum

def Step (engine : Engine) (a : Association) (e : Event) (b : Association) : Prop :=
  engine.exec a e=some b

/-- The most credit an association can hold. -/
def limit : Engine→Int
  | .direct => 65536
  | .ingress maximum | .egress maximum => 4*maximum

/-- The reply bytes the requests so far allow: the direct engine counts what was written
to the target, the relay engines what was read for it. -/
def allowance (a : Association) : Engine→Int
  | .direct => 16384+16*cost a.forwarded
  | .ingress maximum | .egress maximum => maximum+3*cost a.received

end Engine

/-- Nothing a bound reads has changed. -/
structure SameBooks (a b : Association) : Prop where
  credit : b.credit=a.credit
  initialized : b.initialized=a.initialized
  held : b.held=a.held
  sending : b.sending=a.sending
  received : b.received=a.received
  forwarded : b.forwarded=a.forwarded
  replied : b.replied=a.replied

theorem enqueue_sameBooks (maximum depth size : Nat) (a : Association) :
    SameBooks a (a.enqueue maximum depth size) := by
  unfold Association.enqueue
  split_ifs <;> exact ⟨rfl,rfl,rfl,rfl,rfl,rfl,rfl⟩

variable {a b : Association} {maximum : Nat} {e : Event} {engine : Engine}

theorem connect_sameBooks {ok : Bool} (h : a.connect ok=some b) : SameBooks a b := by
  unfold Association.connect at h
  split_ifs at h <;> cases h <;> exact ⟨rfl,rfl,rfl,rfl,rfl,rfl,rfl⟩

/-- Before the first request nothing is owed; after it the account is solvent. -/
inductive Direct.Books (a : Association) : Prop
  | idle (hinit : a.initialized=false) (hcredit : a.credit=0) (hforwarded : a.forwarded=[])
      (hreplied : a.replied=[])
  | open_ (hinit : a.initialized=true) (hforwarded : a.forwarded≠[])
      (solvent : Solvent 65536 16 16384 a.credit (cost a.forwarded) (cost a.replied))

namespace Direct

theorem Books.congr (h : Books a) (hc : b.credit=a.credit) (hi : b.initialized=a.initialized)
    (hf : b.forwarded=a.forwarded) (hr : b.replied=a.replied) : Books b := by
  cases h with
  | idle h₁ h₂ h₃ h₄ => exact .idle (hi.trans h₁) (hc.trans h₂) (hf.trans h₃) (hr.trans h₄)
  | open_ h₁ h₂ h₃ =>
    refine .open_ (hi.trans h₁) (by rwa [hf]) ?_
    rwa [hc,hf,hr]

theorem Books.same (h : Books a) (hs : SameBooks a b) : Books b :=
  h.congr hs.credit hs.initialized hs.forwarded hs.replied

variable {admitted written : Bool}

theorem Books.forward (h : Books a) (hb : forward a admitted written=some b) : Books b := by
  unfold Direct.forward at hb
  split at hb
  · next n rest hw hq =>
    dsimp only at hb
    split_ifs at hb with hstop hinit
    · cases hb
      exact h.congr rfl rfl rfl rfl
    · cases hb
      cases h with
      | idle h₁ => simp [h₁] at hinit
      | open_ h₁ h₂ hs =>
        have hpos := weight_pos n
        have hearn := hs.earn (w := weight n) (by omega)
        refine .open_ rfl (by simp) ?_
        rw [cost_snoc]
        exact hearn
    · cases hb
      cases h with
      | idle h₁ h₂ h₃ h₄ =>
        have hpos := weight_pos n
        have hopen : Solvent 65536 16 16384 16384 0 0 := Solvent.opened (by omega) (by omega)
        have hearn := hopen.earn (w := weight n) (by omega)
        refine .open_ rfl (by simp) ?_
        rw [cost_snoc]
        dsimp only
        rw [h₃,h₄]
        exact hearn
      | open_ h₁ => exact absurd h₁ hinit
  · cases hb

theorem Books.reply {size : Nat} (h : Books a) (hb : reply a size admitted written=some b) :
    Books b := by
  have hpos := weight_pos size
  unfold Direct.reply at hb
  split_ifs at hb with h₁ h₂ h₃ hcredit hwritten
  · cases hb
    exact h
  · cases hb
    exact h.congr rfl rfl rfl rfl
  · cases hb
    exact h
  · cases hb
    cases h with
    | idle _ hzero =>
      -- without a request there is no credit for even the shortest reply
      omega
    | open_ hi hf hs =>
      refine .open_ hi hf ?_
      have hspend := hs.spend (w := weight size) (by omega) (by omega)
      rw [cost_snoc]
      exact hspend
  · cases hb
    exact h.congr rfl rfl rfl rfl

theorem Books.exec (h : Books a) (hb : exec a e=some b) : Books b := by
  cases e with
  | receive size =>
    cases hb
    exact h.same (enqueue_sameBooks _ _ _ _)
  | connect ok => exact h.same (connect_sameBooks hb)
  | forward admitted written => exact h.forward hb
  | reply size admitted written => exact h.reply hb
  | expire =>
    cases hb
    exact h.congr rfl rfl rfl rfl
  | settle | deliver written | send written => cases hb

end Direct

namespace Relay

/-- A request counts once it is booked, a reply once it is paid for. -/
def Books (maximum : Nat) (a : Association) : Prop :=
  Solvent (4*maximum) 3 maximum a.credit (cost a.received-cost a.held.toList)
    (cost a.replied+cost a.sending.toList)

section

variable (h : Books maximum a)
include h

theorem Books.congr (hc : b.credit=a.credit)
    (he : cost b.received-cost b.held.toList=cost a.received-cost a.held.toList)
    (hs : cost b.replied+cost b.sending.toList=cost a.replied+cost a.sending.toList) :
    Books maximum b := by
  unfold Books at *
  rwa [hc,he,hs]

theorem Books.same (hs : SameBooks a b) : Books maximum b :=
  h.congr hs.credit (by rw [hs.received,hs.held]) (by rw [hs.replied,hs.sending])

theorem Books.taken {n : Nat} (hheld : a.held=none) (hc : b.credit=a.credit)
    (hr : b.received=a.received++[n]) (hb : b.held=none ∨ b.held=some n) (hp : b.replied=a.replied)
    (hs : b.sending=a.sending) : Books maximum b := by
  have hpos := weight_pos n
  have hcov := h.covered
  refine ⟨hc ▸ h.nonneg,hc ▸ h.capped,?_⟩
  rw [hheld] at hcov
  rw [hc,hr,hp,hs,cost_snoc]
  rcases hb with hb|hb <;> rw [hb] <;> simp only [Option.toList_none,Option.toList_some,
    cost_nil,cost_single] at hcov ⊢ <;> omega

theorem Books.book {n : Nat} (hheld : a.held=some n) : Books maximum (book maximum a n) := by
  have hpos := weight_pos n
  have hearn := Solvent.earn (w := weight n) h (by omega)
  have hcost : cost a.received-cost a.held.toList+weight n=cost a.received := by
    rw [hheld]
    simp
  rw [hcost] at hearn
  unfold Books
  simpa [Relay.book] using hearn

theorem Books.pay {size : Nat} (hsending : a.sending=none) : Books maximum (pay a size) := by
  have hpos := weight_pos size
  unfold Relay.pay
  split_ifs with hcredit
  · have hspend := Solvent.spend (w := weight size) h (by omega) hcredit
    rw [hsending] at hspend
    unfold Books
    simpa using hspend
  · exact h

theorem Books.send {written : Bool} (hb : send a written=some b) : Books maximum b := by
  unfold Relay.send at hb
  split at hb
  · cases hb
  · next n hs =>
    split_ifs at hb
    · cases hb
      refine h.congr rfl rfl ?_
      rw [hs]
      simp
    · cases hb
      have hpos := weight_pos n
      have hcov := h.covered
      rw [hs] at hcov
      refine ⟨h.nonneg,h.capped,?_⟩
      simp only [Association.hangUp,Option.toList_none,Option.toList_some,cost_nil,
        cost_single] at hcov ⊢
      omega

end

end Relay

theorem Ingress.books_exec (h : Relay.Books maximum a) (hb : Ingress.exec maximum a e=some b) :
    Relay.Books maximum b := by
  cases e with
  | receive size =>
    cases hb
    exact h.same (enqueue_sameBooks _ _ _ _)
  | connect ok => exact h.same (connect_sameBooks hb)
  | forward admitted written =>
    simp only [Ingress.exec,Ingress.forward] at hb
    split at hb
    · next n rest hw hheld hq =>
      split_ifs at hb
      · cases hb
        exact h.taken hheld rfl rfl (.inl hheld) rfl rfl
      · cases hb
        exact h.taken hheld rfl rfl (.inr rfl) rfl rfl
    · cases hb
  | settle =>
    obtain ⟨n,hheld,rfl⟩ := Option.map_eq_some_iff.mp hb
    exact h.book hheld
  | reply size admitted written =>
    simp only [Ingress.exec,Ingress.reply] at hb
    split_ifs at hb with hidle hbad
    · cases hb
      exact h.congr rfl rfl rfl
    · cases hb
      exact h.pay (by simpa using hidle : _ ∧ _).2
  | send written => exact h.send hb
  | expire =>
    cases hb
    exact h.congr rfl rfl rfl
  | deliver written => cases hb

theorem Egress.books_exec (h : Relay.Books maximum a) (hb : Egress.exec maximum a e=some b) :
    Relay.Books maximum b := by
  cases e with
  | receive size | expire =>
    cases hb
    exact h.congr rfl rfl rfl
  | connect ok => exact h.same (connect_sameBooks hb)
  | forward admitted written =>
    simp only [Egress.exec,Egress.forward] at hb
    split at hb
    · next n rest hw hheld hwriting hq =>
      split_ifs at hb
      · cases hb
        exact h.congr rfl rfl rfl
      · cases hb
        exact h.taken hheld rfl rfl (.inr rfl) rfl rfl
    · cases hb
  | settle =>
    obtain ⟨n,hheld,rfl⟩ := Option.map_eq_some_iff.mp hb
    exact (h.book hheld).congr rfl rfl rfl
  | deliver written =>
    simp only [Egress.exec,Egress.deliver] at hb
    split at hb
    · cases hb
    · split_ifs at hb
      · cases hb
        exact h.congr rfl rfl rfl
      · cases hb
        exact h.congr rfl rfl rfl
  | reply size admitted written =>
    simp only [Egress.exec,Egress.reply] at hb
    split_ifs at hb with hidle hdenied hlong
    · cases hb
      exact h.congr rfl rfl rfl
    · cases hb
      exact h
    · cases hb
      exact h.pay (by simpa using hidle : _ ∧ _).2
  | send written => exact h.send hb

theorem Relay.books_fresh (maximum : Nat) : Relay.Books maximum (Relay.fresh maximum) := by
  have hopen : Solvent (4*maximum) 3 maximum maximum 0 0 := Solvent.opened (by omega) (by omega)
  unfold Relay.Books
  simpa [Relay.fresh,Association.start] using hopen

/-- At every moment of every association the replies sent are within what its requests
allow, and the credit stays within its limits. -/
structure Amplifies (engine : Engine) (a : Association) : Prop where
  nonneg : 0 ≤ a.credit
  capped : a.credit≤engine.limit
  bounded : cost a.replied≤engine.allowance a
  silent : engine=.direct→a.forwarded=[]→a.replied=[]

theorem Direct.Books.amplifies (h : Direct.Books a) : Amplifies .direct a := by
  cases h with
  | idle hi hc hf hr =>
    refine ⟨by omega,?_,?_,fun _ _ => hr⟩
    · simp [hc,Engine.limit]
    · simp [Engine.allowance,hf,hr]
  | open_ hi hf hs => exact ⟨hs.nonneg,hs.capped,hs.spent_le,fun _ he => absurd he hf⟩

theorem Relay.Books.amplifies (h : Relay.Books maximum a)
    (he : engine=.ingress maximum ∨ engine=.egress maximum) : Amplifies engine a := by
  have hspent := h.spent_le
  have hheld := cost_nonneg a.held.toList
  have hsending := cost_nonneg a.sending.toList
  rcases he with rfl|rfl
  · refine ⟨h.nonneg,h.capped,?_,fun hd => by cases hd⟩
    simp only [Engine.allowance]
    omega
  · refine ⟨h.nonneg,h.capped,?_,fun hd => by cases hd⟩
    simp only [Engine.allowance]
    omega

theorem udp_replies_bounded (engine : Engine) (l : List Event) (a : Association)
    (h : Run engine.Step engine.fresh l a) : Amplifies engine a := by
  cases engine with
  | direct =>
    have hbooks := h.invariant Direct.Books (fun _ _ _ hs hb => hb.exec hs)
      (.idle rfl rfl rfl rfl)
    exact hbooks.amplifies
  | ingress maximum =>
    have hbooks := h.invariant (Relay.Books maximum)
      (fun _ _ _ hs hb => Ingress.books_exec hb hs) (Relay.books_fresh maximum)
    exact hbooks.amplifies (.inl rfl)
  | egress maximum =>
    have hbooks := h.invariant (Relay.Books maximum)
      (fun _ _ _ hs hb => Egress.books_exec hb hs) (Relay.books_fresh maximum)
    exact hbooks.amplifies (.inr rfl)

/-- A reply arrives before the request that it answers is booked, and is paid from the
credit given at the start; the next one waits for the booking. -/
def ingressRun : List Event :=
  [.receive 10,.connect true,.forward true true,.reply 1000 true true,.send true,
    .reply 500 true true,.settle,.reply 300 true true,.send true]

def execs (engine : Engine) (a : Association) (l : List Event) : Option Association :=
  l.foldlM engine.exec a

theorem run_execs {l : List Event} (h : execs engine a l=some b) : Run engine.Step a l b := by
  induction l generalizing a with
  | nil =>
    cases h
    exact .refl
  | cons e l ih =>
    simp only [execs,List.foldlM_cons,Option.bind_eq_bind,Option.bind_eq_some_iff] at h
    obtain ⟨c,hc,hl⟩ := h
    exact Run.cons hc (ih hl)

theorem udp_replies_bounded_ingress :
    ∃a, Run (Engine.Step (.ingress 1200)) (Engine.fresh (.ingress 1200)) ingressRun a ∧
      a.replied=[1000,300] ∧ Amplifies (.ingress 1200) a := by
  have hexec : ∃a, execs (.ingress 1200) (Engine.fresh (.ingress 1200)) ingressRun=some a ∧
      a.replied=[1000,300] := ⟨_,rfl,by decide⟩
  obtain ⟨a,ha,hreplied⟩ := hexec
  have hrun := run_execs ha
  exact ⟨a,hrun,hreplied,udp_replies_bounded _ _ _ hrun⟩

end TuneX.Agent.Datagram
