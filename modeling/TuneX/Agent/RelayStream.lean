import TuneX.Agent.RelayFrame

namespace TuneX.Agent.Relay

open Framework

inductive Call
  | write (buffer : List UInt8)
  | closeWrite

inductive Sent
  | wrote (n : Nat) (err : Option IoError)
  | closed (err : Option IoError)
  deriving DecidableEq,Repr

def Sent.err : Sent→Option IoError
  | .wrote _ err => err
  | .closed err => err

def Call.code (c : FramedTCP) : Call → Code (FramedTCP×Sent)
  | .write buffer => do
    let r ← c.write buffer
    return (c,.wrote r.1 r.2)
  | .closeWrite => do
    let r ← c.closeWrite
    return (r.1,.closed r.2)

/-- A party between calls, in one, or given up after an error. -/
inductive Turn (α : Type)
  | idle
  | running (p : Code α)
  | stopped

/-- The near end: the calls still to be made and the answers so far. -/
structure Sender where
  conn : FramedTCP
  calls : List Call
  turn : Turn (FramedTCP×Sent)
  results : List Sent

/-- The far end with the answers of its reads. -/
structure Receiver where
  conn : FramedTCP
  turn : Turn (FramedTCP×List UInt8×Option IoError)
  log : List (List UInt8×Option IoError)

/-- What lies behind a connection: the far end, or a bridge with its own connection onward. -/
inductive Line
  | far (r : Receiver)
  | hop (turn : Turn (Except IoError Bool)) (out : List UInt8) (rest : Line)

/-- `again` is a step of a read that began after the end of the stream was reported. -/
inductive Event
  | work
  | again
  | fault
  deriving DecidableEq,Repr

def Receiver.event (r : Receiver) : Event :=
  if r.conn.readEnded then .again else .work

inductive Sender.Step (cap : ℕ∞) : Sender→List UInt8→Event→Sender→List UInt8→Prop
  | call {c : FramedTCP} {k : Call} {ks : List Call} {rs : List Sent} {out : List UInt8} :
      Step cap ⟨c,k::ks,.idle,rs⟩ out .work ⟨c,ks,.running (k.code c),rs⟩ out
  | work {c : FramedTCP} {ks : List Call} {rs : List Sent} {p q : Code (FramedTCP×Sent)}
      {out outq : List UInt8} (h : Proc.Step cap p [] out q [] outq) :
      Step cap ⟨c,ks,.running p,rs⟩ out .work ⟨c,ks,.running q,rs⟩ outq
  | fault {c : FramedTCP} {ks : List Call} {rs : List Sent} {p q : Code (FramedTCP×Sent)}
      {out outq : List UInt8} (h : Proc.Fault p out q outq) :
      Step cap ⟨c,ks,.running p,rs⟩ out .fault ⟨c,ks,.running q,rs⟩ outq
  | finish {c d : FramedTCP} {ks : List Call} {rs : List Sent} {r : Sent} {out : List UInt8} :
      Step cap ⟨c,ks,.running (.done (d,r)),rs⟩ out .work
        ⟨d,ks,if r.err=none then .idle else .stopped,rs++[r]⟩ out

/-- Steps of everything behind a connection whose bytes in flight are the first argument. A party
that got an error makes no further call, except that reads after the reported end go on. -/
inductive Line.Step (cap : ℕ∞) (maximum : Nat) : List UInt8→Line→Event→List UInt8→Line→Prop
  | call {c : FramedTCP} {log : List (List UInt8×Option IoError)} {inp : List UInt8} (size : Nat)
      (hs : 0<size) : Step cap maximum inp (.far ⟨c,.idle,log⟩) (Receiver.event ⟨c,.idle,log⟩)
        inp (.far ⟨c,.running (c.read size),log⟩)
  | work {c : FramedTCP} {log : List (List UInt8×Option IoError)} {inp inq : List UInt8}
      {p q : Code (FramedTCP×List UInt8×Option IoError)} (h : Proc.Step cap p inp [] q inq []) :
      Step cap maximum inp (.far ⟨c,.running p,log⟩) (Receiver.event ⟨c,.running p,log⟩)
        inq (.far ⟨c,.running q,log⟩)
  | fault {c : FramedTCP} {log : List (List UInt8×Option IoError)} {inp : List UInt8}
      {p q : Code (FramedTCP×List UInt8×Option IoError)} (h : Proc.Fault p [] q []) :
      Step cap maximum inp (.far ⟨c,.running p,log⟩) .fault inp (.far ⟨c,.running q,log⟩)
  | finish {c d : FramedTCP} {log : List (List UInt8×Option IoError)} {inp bytes : List UInt8}
      {err : Option IoError} : Step cap maximum inp
        (.far ⟨c,.running (.done (d,bytes,err)),log⟩)
        (Receiver.event ⟨c,.running (.done (d,bytes,err)),log⟩)
        inp (.far ⟨d,if err=none ∨ d.readEnded then .idle else .stopped,log++[(bytes,err)]⟩)
  | pump {inp inq out outq : List UInt8} {p q : Code (Except IoError Bool)} {rest : Line}
      (h : Proc.Step cap p inp out q inq outq) :
      Step cap maximum inp (.hop (.running p) out rest) .work inq (.hop (.running q) outq rest)
  | pumpFault {inp out outq : List UInt8} {p q : Code (Except IoError Bool)} {rest : Line}
      (h : Proc.Fault p out q outq) :
      Step cap maximum inp (.hop (.running p) out rest) .fault inp (.hop (.running q) outq rest)
  | pumped {inp out : List UInt8} {r : Except IoError Bool} {rest : Line} :
      Step cap maximum inp (.hop (.running (.done r)) out rest) .work inp
        (.hop (match r with
          | .ok true => .running (Relay.pump .tcp maximum)
          | .ok false => .idle
          | .error _ => .stopped) out rest)
  | onward {inp out outq : List UInt8} {turn : Turn (Except IoError Bool)} {rest next : Line}
      {e : Event} (h : Step cap maximum out rest e outq next) :
      Step cap maximum inp (.hop turn out rest) e inp (.hop turn outq next)

structure Chain where
  sender : Sender
  out : List UInt8
  line : Line

inductive Chain.Step (cap : ℕ∞) (maximum : Nat) : Chain→Event→Chain→Prop
  | send {s t : Sender} {out outq : List UInt8} {line : Line} {e : Event}
      (h : Sender.Step cap s out e t outq) : Step cap maximum ⟨s,out,line⟩ e ⟨t,outq,line⟩
  | behind {s : Sender} {out outq : List UInt8} {line next : Line} {e : Event}
      (h : Line.Step cap maximum out line e outq next) :
      Step cap maximum ⟨s,out,line⟩ e ⟨s,outq,next⟩

def script (buffers : List (List UInt8)) (fin : Bool) : List Call :=
  buffers.map .write++if fin then [.closeWrite] else []

def Line.start (maximum : Nat) : Nat→Line
  | 0 => .far ⟨.fresh maximum,.idle,[]⟩
  | hops+1 => .hop (.running (pump .tcp maximum)) [] (Line.start maximum hops)

def Chain.start (maximum hops : Nat) (buffers : List (List UInt8)) (fin : Bool) : Chain :=
  ⟨⟨.fresh maximum,script buffers fin,.idle,[]⟩,[],Line.start maximum hops⟩

def Line.receiver : Line→Receiver
  | .far r => r
  | .hop _ _ rest => rest.receiver

def Receiver.delivered (r : Receiver) : List UInt8 :=
  (r.log.map Prod.fst).flatten

end TuneX.Agent.Relay
