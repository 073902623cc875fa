import TuneX.Framework.Proc
import TuneX.Agent.Snapshot

namespace TuneX.Agent.Relay

open Framework

inductive IoError
  | eof
  | unexpectedEOF
  | shortWrite
  | closedPipe
  | other (text : String)
  deriving DecidableEq,Repr

abbrev Code := Proc UInt8 IoError

def frameTCP : UInt8 := 1
def frameFIN : UInt8 := 2
def frameClose : UInt8 := 3
def frameUDP : UInt8 := 4

def writeAll (raw : List UInt8) : Code (Option IoError) :=
  Proc.writeAll .shortWrite raw

def readFull (size : Nat) : Code (Except IoError (List UInt8)) :=
  Proc.readFull .eof .unexpectedEOF size []

def putUint32 (n : Nat) : List UInt8 :=
  [UInt8.ofNat (n/2^24),UInt8.ofNat (n/2^16),UInt8.ofNat (n/2^8),UInt8.ofNat n]

def uint32 (raw : List UInt8) : Nat :=
  raw.foldl (fun n b => n*2^8+b.toNat) 0

theorem uint32_put (n : Nat) (hn : n<2^32) : uint32 (putUint32 n)=n := by
  simp only [uint32,putUint32,List.foldl_cons,List.foldl_nil,UInt8.toNat_ofNat']
  omega

def frameValid (kind : UInt8) (size : Nat) (protocol : Protocol) (maximum : Nat) : Bool :=
  if maximum<64 || 65536 < maximum || maximum<size then false
  else if kind=frameTCP then protocol==.tcp && 0<size
  else if kind=frameUDP then protocol==.udp
  else if kind=frameFIN then protocol==.tcp && size==0
  else if kind=frameClose then size==0
  else false

def refused : IoError :=
  .other "INVALID_CONFIG: Relay frame refused"

def writeFrame (kind : UInt8) (payload : List UInt8) (protocol : Protocol) (maximum : Nat) :
    Code (Option IoError) :=
  if frameValid kind payload.length protocol maximum then do
    match ← writeAll (kind::putUint32 payload.length) with
    | some err => return some err
    | none => writeAll payload
  else return some refused

def readFrame (protocol : Protocol) (maximum : Nat) :
    Code (Except IoError (UInt8×List UInt8)) := do
  match ← readFull 5 with
  | .error err => return .error err
  | .ok header =>
    let kind := header.headD 0
    let size := uint32 header.tail
    if frameValid kind size protocol maximum then
      match ← readFull size with
      | .error err => return .error err
      | .ok payload => return .ok (kind,payload)
    else return .error refused

/-- One direction of use of a framed connection: the reader's and the writer's state. -/
structure FramedTCP where
  maximum : Nat
  readBuffer : List UInt8
  readEnded : Bool
  writeEnded : Bool
  deriving DecidableEq,Repr

namespace FramedTCP

def fresh (maximum : Nat) : FramedTCP :=
  ⟨maximum,[],false,false⟩

/-- The tail of a read once the buffer holds data. -/
def copyOut (c : FramedTCP) (size : Nat) (data : List UInt8) :
    FramedTCP×List UInt8×Option IoError :=
  ({c with readBuffer := data.drop size},data.take size,none)

/-- Read into a buffer of `size` bytes; the bytes of the answer are those copied. -/
def read (c : FramedTCP) (size : Nat) : Code (FramedTCP×List UInt8×Option IoError) :=
  if size=0 then return (c,[],none)
  else do
    match ← Proc.allow with
    | some err => return (c,[],some err)
    | none =>
      if c.readEnded then return (c,[],some .eof)
      else if c.readBuffer=[] then
        match ← readFrame .tcp c.maximum with
        | .error err => return (c,[],some err)
        | .ok (kind,data) =>
          match ← Proc.allow with
          | some err => return (c,[],some err)
          | none =>
            if kind=frameFIN ∨ kind=frameClose then
              return ({c with readEnded := true},[],some .eof)
            else return c.copyOut size data
      else return c.copyOut size c.readBuffer

/-- The loop of a write. A round that goes on has sent at least one byte, so the buffer's length
bounds the rounds. -/
def writeRounds (maximum : Nat) : Nat→List UInt8→Nat → Code (Nat×Option IoError)
  | 0,_,written => return (written,none)
  | rounds+1,buffer,written =>
    if buffer=[] then return (written,none)
    else do
      match ← Proc.allow with
      | some err => return (written,some err)
      | none =>
        let n := min buffer.length maximum
        match ← writeFrame frameTCP (buffer.take n) .tcp maximum with
        | some err => return (written,some err)
        | none => writeRounds maximum rounds (buffer.drop n) (written+n)

def write (c : FramedTCP) (buffer : List UInt8) : Code (Nat×Option IoError) :=
  if c.writeEnded then return (0,some .closedPipe)
  else writeRounds c.maximum buffer.length buffer 0

def closeWrite (c : FramedTCP) : Code (FramedTCP×Option IoError) :=
  if c.writeEnded then return (c,none)
  else do
    match ← Proc.allow with
    | some err => return (c,some err)
    | none =>
      let err ← writeFrame frameFIN [] .tcp c.maximum
      return ({c with writeEnded := true},err)

end FramedTCP

/-- One round of a bridge's pump; the answer says whether another one follows. The two checks are
those of the peer read from and of the peer written to. -/
def pump (protocol : Protocol) (maximum : Nat) : Code (Except IoError Bool) := do
  match ← Proc.allow with
  | some err => return .error err
  | none =>
    match ← readFrame protocol maximum with
    | .error err => return .error err
    | .ok (kind,payload) =>
      match ← Proc.allow with
      | some err => return .error err
      | none =>
        match ← writeFrame kind payload protocol maximum with
        | some err => return .error err
        | none => return .ok (!(kind==frameFIN || kind==frameClose))

structure Frame where
  kind : UInt8
  payload : List UInt8

namespace Frame

def data (payload : List UInt8) : Frame :=
  ⟨frameTCP,payload⟩

def fin : Frame :=
  ⟨frameFIN,[]⟩

def header (f : Frame) : List UInt8 :=
  f.kind::putUint32 f.payload.length

def bytes (f : Frame) : List UInt8 :=
  f.header++f.payload

theorem header_length (f : Frame) : f.header.length=5 := rfl

theorem bytes_length (f : Frame) : f.bytes.length=5+f.payload.length := by
  simp [bytes,header_length]

end Frame

section Specs

variable {protocol : Protocol} {maximum : Nat} {f : Frame} {c : FramedTCP}

theorem frameValid_size {kind : UInt8} {size : Nat}
    (h : frameValid kind size protocol maximum) : size<2^32 := by
  by_contra hlarge
  have hbad : (maximum<64 || 65536 < maximum || maximum<size)=true := by
    simp only [Bool.or_eq_true,decide_eq_true_eq]
    omega
  simp [frameValid,hbad] at h

theorem frameValid_data {payload : List UInt8} (hlow : 64 ≤ maximum) (hhigh : maximum≤65536)
    (hpos : payload≠[]) (hle : payload.length ≤ maximum) :
    frameValid frameTCP payload.length .tcp maximum := by
  have hlen := List.length_pos_of_ne_nil hpos
  simp [frameValid,hlow,hhigh,hle,hlen]

theorem frameValid_fin (hlow : 64 ≤ maximum) (hhigh : maximum≤65536) :
    frameValid frameFIN 0 .tcp maximum := by
  simp [frameValid,hlow,hhigh,frameFIN,frameTCP,frameUDP]

theorem writeFrame_exact (h : frameValid f.kind f.payload.length protocol maximum) :
    (writeFrame f.kind f.payload protocol maximum).Exact [] f.bytes 0 none := by
  rw [writeFrame,if_pos h]
  refine (Proc.writeAll_exact _ f.header).seq (d := 0) ?_ (List.append_nil _) rfl le_rfl (.inr rfl)
  exact Proc.writeAll_exact _ f.payload

theorem writeFrame_stops (kind : UInt8) (payload : List UInt8) :
    (writeFrame kind payload protocol maximum).Stops (·≠none) := by
  rw [writeFrame]
  split_ifs with h
  · exact (Proc.writeAll_stops _ _).option (fun e => ⟨_,rfl,by simp⟩) (Proc.writeAll_stops _ _)
  · trivial

theorem readFrame_exact (h : frameValid f.kind f.payload.length protocol maximum) :
    (readFrame protocol maximum).Exact f.bytes [] 0 (.ok (f.kind,f.payload)) := by
  have hheader := Proc.readFull_exact IoError.eof .unexpectedEOF 5 [] f.header (by simp [Frame.header_length])
  have hpayload := Proc.readFull_exact IoError.eof .unexpectedEOF f.payload.length [] f.payload (by simp)
  have hsize : uint32 (putUint32 f.payload.length)=f.payload.length :=
    uint32_put _ (frameValid_size h)
  refine hheader.seq (d := 0) ?_ rfl rfl le_rfl (.inl rfl)
  simp only [List.nil_append,Frame.header,List.headD_cons,List.tail_cons,hsize,h,if_true]
  refine hpayload.seq (d := 0) ?_ (List.append_nil _) rfl le_rfl (.inl rfl)
  exact Proc.exact_done _ 0

theorem readFrame_stops : (readFrame protocol maximum).Stops (fun r => ∃e, r=.error e) := by
  apply (Proc.readFull_stops _ _ _ _).except
  · exact fun e => ⟨_,rfl,e,rfl⟩
  intro header
  simp only
  split_ifs with h
  · exact (Proc.readFull_stops _ _ _ _).except (fun e => ⟨_,rfl,e,rfl⟩) (fun _ => trivial)
  · trivial

theorem allowed_exact {α : Type} {g : Option IoError → Code α} {i o : List UInt8} {d : Nat} {a : α}
    (h : (g none).Exact i o d a) : (Proc.allow>>=g).Exact i o (d+1) a :=
  Proc.allow_exact.seq h rfl rfl (by omega) (.inl rfl)

theorem read_ended {size : Nat} (hs : 0<size) (hc : c.readEnded) :
    (c.read size).Exact [] [] 1 (c,[],some .eof) := by
  rw [FramedTCP.read,if_neg hs.ne']
  apply allowed_exact
  simp only [hc,if_true]
  exact Proc.exact_done _ 0

theorem read_buffered {size : Nat} (hs : 0<size) (hc : c.readEnded=false)
    (hb : c.readBuffer≠[]) : (c.read size).Exact [] [] 1 (c.copyOut size c.readBuffer) := by
  rw [FramedTCP.read,if_neg hs.ne']
  apply allowed_exact
  simp only [hc,hb,if_false,Bool.false_eq_true]
  exact Proc.exact_done _ 0

/-- What a read on an empty buffer returns for the next frame. -/
def answer (c : FramedTCP) (size : Nat) (f : Frame) : FramedTCP×List UInt8×Option IoError :=
  if f.kind=frameFIN ∨ f.kind=frameClose then ({c with readEnded := true},[],some .eof)
  else c.copyOut size f.payload

theorem read_frame {size : Nat} (hs : 0<size) (hc : c.readEnded=false) (hb : c.readBuffer=[])
    (hf : frameValid f.kind f.payload.length .tcp c.maximum) :
    (c.read size).Exact f.bytes [] 2 (answer c size f) := by
  rw [FramedTCP.read,if_neg hs.ne']
  apply allowed_exact
  simp only [hc,if_pos hb,if_false,Bool.false_eq_true]
  refine (readFrame_exact hf).seq (d := 1) ?_ (List.append_nil _) rfl (by omega) (.inl rfl)
  apply allowed_exact
  rw [answer]
  simp only
  split_ifs with hk
  · exact Proc.exact_done _ 0
  · exact Proc.exact_done _ 0

theorem read_stops (c : FramedTCP) (size : Nat) :
    (c.read size).Stops (fun r => r.1=c ∧ r.2.1=[] ∧ r.2.2≠none) := by
  by_cases hs : size=0
  · rw [FramedTCP.read,if_pos hs]
    trivial
  rw [FramedTCP.read,if_neg hs]
  apply Proc.allow_stops.option
  · exact fun e => ⟨_,rfl,rfl,rfl,by simp⟩
  by_cases he : c.readEnded
  · simp only [he,if_true]
    trivial
  by_cases hb : c.readBuffer=[]
  · simp only [he,hb,if_true,if_false,Bool.false_eq_true]
    apply readFrame_stops.except
    · exact fun e => ⟨_,rfl,rfl,rfl,by simp⟩
    intro x
    apply Proc.allow_stops.option
    · exact fun e => ⟨_,rfl,rfl,rfl,by simp⟩
    simp only
    split_ifs with hk
    · trivial
    · trivial
  · simp only [he,hb,if_false,Bool.false_eq_true]
    trivial

/-- The payloads a write sends. -/
def chunks (maximum : Nat) : Nat→List UInt8→List (List UInt8)
  | 0,_ => []
  | rounds+1,buffer =>
    if buffer=[] then []
    else buffer.take (min buffer.length maximum)::
      chunks maximum rounds (buffer.drop (min buffer.length maximum))

theorem chunks_flatten (hmax : 0 < maximum) (rounds : Nat) (buffer : List UInt8)
    (hr : buffer.length ≤ rounds) : (chunks maximum rounds buffer).flatten=buffer := by
  induction rounds generalizing buffer with
  | zero => simp [chunks,List.eq_nil_of_length_eq_zero (Nat.le_zero.mp hr)]
  | succ rounds ih =>
    rw [chunks]
    split_ifs with hb
    · simp [hb]
    · have hpos := List.length_pos_of_ne_nil hb
      have hrest := ih (buffer.drop (min buffer.length maximum)) (by rw [List.length_drop]; omega)
      rw [List.flatten_cons,hrest,List.take_append_drop]

theorem mem_chunks (hmax : 0 < maximum) (rounds : Nat) (buffer : List UInt8) :
    ∀p∈chunks maximum rounds buffer, p≠[] ∧ p.length ≤ maximum := by
  induction rounds generalizing buffer with
  | zero => simp [chunks]
  | succ rounds ih =>
    rw [chunks]
    split_ifs with hb
    · simp
    · have hpos := List.length_pos_of_ne_nil hb
      intro p hp
      rcases List.mem_cons.mp hp with rfl|hp
      · constructor
        · apply List.ne_nil_of_length_pos
          rw [List.length_take]
          omega
        · rw [List.length_take]
          omega
      · exact ih _ p hp

theorem writeRounds_exact (hlow : 64 ≤ maximum) (hhigh : maximum≤65536) (rounds : Nat)
    (buffer : List UInt8) (written : Nat) (hr : buffer.length ≤ rounds) :
    (FramedTCP.writeRounds maximum rounds buffer written).Exact []
      ((chunks maximum rounds buffer).flatMap (fun p => (Frame.data p).bytes))
      (chunks maximum rounds buffer).length (written+buffer.length,none) := by
  induction rounds generalizing buffer written with
  | zero =>
    have hb : buffer=[] := List.eq_nil_of_length_eq_zero (Nat.le_zero.mp hr)
    simp [FramedTCP.writeRounds,chunks,hb,Proc.Exact]
  | succ rounds ih =>
    rw [FramedTCP.writeRounds,chunks]
    by_cases hb : buffer=[]
    · simp [hb,Proc.Exact]
    rw [if_neg hb,if_neg hb,List.flatMap_cons,List.length_cons]
    apply allowed_exact
    have hpos := List.length_pos_of_ne_nil hb
    have hsent : (buffer.take (min buffer.length maximum)).length=min buffer.length maximum := by
      rw [List.length_take]
      omega
    have hvalid : frameValid frameTCP (buffer.take (min buffer.length maximum)).length .tcp
        maximum := frameValid_data hlow hhigh (List.ne_nil_of_length_pos (by omega)) (by omega)
    have hrest := ih (buffer.drop (min buffer.length maximum))
      (written+min buffer.length maximum) (by rw [List.length_drop]; omega)
    have hsum : written+min buffer.length maximum+(buffer.drop (min buffer.length maximum)).length=
        written+buffer.length := by
      rw [List.length_drop]
      omega
    rw [hsum] at hrest
    exact (writeFrame_exact (f := Frame.data _) hvalid).seq hrest rfl rfl (by omega) (.inr rfl)

theorem writeRounds_stops (rounds : Nat) (buffer : List UInt8) (written : Nat) :
    (FramedTCP.writeRounds maximum rounds buffer written).Stops (fun r => r.2≠none) := by
  induction rounds generalizing buffer written with
  | zero => trivial
  | succ rounds ih =>
    rw [FramedTCP.writeRounds]
    by_cases hb : buffer=[]
    · rw [if_pos hb]
      trivial
    rw [if_neg hb]
    apply Proc.allow_stops.option
    · exact fun e => ⟨_,rfl,by simp⟩
    · exact (writeFrame_stops _ _).option (fun e => ⟨_,rfl,by simp⟩) (ih _ _)

theorem write_exact (hlow : 64 ≤ c.maximum) (hhigh : c.maximum≤65536) (hc : c.writeEnded=false)
    (buffer : List UInt8) : (c.write buffer).Exact []
      ((chunks c.maximum buffer.length buffer).flatMap (fun p => (Frame.data p).bytes))
      (chunks c.maximum buffer.length buffer).length (buffer.length,none) := by
  have h := writeRounds_exact hlow hhigh buffer.length buffer 0 le_rfl
  rw [Nat.zero_add] at h
  simpa [FramedTCP.write,hc] using h

theorem write_stops (buffer : List UInt8) : (c.write buffer).Stops (fun r => r.2≠none) := by
  rw [FramedTCP.write]
  split_ifs with hc
  · trivial
  · exact writeRounds_stops _ _ _

theorem closeWrite_exact (hlow : 64 ≤ c.maximum) (hhigh : c.maximum≤65536)
    (hc : c.writeEnded=false) : c.closeWrite.Exact [] Frame.fin.bytes 1
      ({c with writeEnded := true},none) := by
  rw [FramedTCP.closeWrite]
  simp only [hc,if_false,Bool.false_eq_true]
  apply allowed_exact
  exact (writeFrame_exact (f := Frame.fin) (frameValid_fin hlow hhigh)).seq
    (Proc.exact_done _ 0) rfl (List.append_nil _) (by omega) (.inr rfl)

theorem closeWrite_stops : c.closeWrite.Stops (fun r => r.2≠none) := by
  rw [FramedTCP.closeWrite]
  split_ifs with hc
  · trivial
  · apply Proc.allow_stops.option
    · exact fun e => ⟨_,rfl,by simp⟩
    · exact (writeFrame_stops _ _).bind (fun r hr => ⟨_,rfl,hr⟩) (fun _ => trivial)

theorem pump_exact (h : frameValid f.kind f.payload.length protocol maximum) :
    (pump protocol maximum).Exact f.bytes f.bytes 2
      (.ok (!(f.kind==frameFIN || f.kind==frameClose))) := by
  apply allowed_exact
  refine (readFrame_exact h).seq (d := 1) ?_ (List.append_nil _) rfl (by omega) (.inl rfl)
  apply allowed_exact
  exact (writeFrame_exact h).seq (Proc.exact_done _ 0) rfl (List.append_nil _) (by omega) (.inr rfl)

theorem pump_stops : (pump protocol maximum).Stops (fun r => ∃e, r=.error e) := by
  apply Proc.allow_stops.option
  · exact fun e => ⟨_,rfl,e,rfl⟩
  apply readFrame_stops.except
  · exact fun e => ⟨_,rfl,e,rfl⟩
  intro x
  apply Proc.allow_stops.option
  · exact fun e => ⟨_,rfl,e,rfl⟩
  exact (writeFrame_stops _ _).option (fun e => ⟨_,rfl,e,rfl⟩) trivial

end Specs

end TuneX.Agent.Relay
