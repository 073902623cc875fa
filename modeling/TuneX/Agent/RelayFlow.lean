import TuneX.Framework.Run
import TuneX.Agent.RelayStream

namespace TuneX.Agent.Relay

open Framework

/-- The bytes of a stream of data frames up to and including its FIN frame. -/
def stream (ps : List (List UInt8)) : List UInt8 :=
  ps.flatMap (fun p => (Frame.data p).bytes)++Frame.fin.bytes

def Chunked (maximum : Nat) (ps : List (List UInt8)) : Prop :=
  ∀p∈ps, p≠[] ∧ p.length ≤ maximum

theorem stream_nil : stream []=Frame.fin.bytes := rfl

theorem stream_cons (p : List UInt8) (ps : List (List UInt8)) :
    stream (p::ps)=(Frame.data p).bytes++stream ps := by
  simp [stream]

theorem stream_append (ps qs : List (List UInt8)) :
    stream (ps++qs)=ps.flatMap (fun p => (Frame.data p).bytes)++stream qs := by
  simp [stream]

theorem stream_length (ps : List (List UInt8)) : 5≤(stream ps).length := by
  simp only [stream,List.length_append,Frame.bytes_length]
  omega

theorem stream_ne_nil (ps : List (List UInt8)) : stream ps≠[] := by
  have h := stream_length ps
  exact List.ne_nil_of_length_pos (by omega)

/-- A reader between calls: `X` is still to arrive on its connection and `D` still to be returned. -/
inductive Rest (maximum : Nat) : FramedTCP→List UInt8→List UInt8→Nat→Prop
  | ended {c : FramedTCP} {N : Nat} (hm : c.maximum=maximum) (hc : c.readEnded) :
      Rest maximum c [] [] N
  | opened {c : FramedTCP} {ps : List (List UInt8)} {N : Nat} (hm : c.maximum=maximum)
      (hc : c.readEnded=false) (hps : Chunked maximum ps)
      (hN : (stream ps).length+4*((c.readBuffer++ps.flatten).length+1)≤N) :
      Rest maximum c (stream ps) (c.readBuffer++ps.flatten) N

/-- An answer of a read that met no failure. -/
inductive Good : FramedTCP×List UInt8×Option IoError→Prop
  | data {c : FramedTCP} {bytes : List UInt8} (hb : bytes≠[]) (hc : c.readEnded=false) :
      Good (c,bytes,none)
  | ended {c : FramedTCP} (hc : c.readEnded) : Good (c,[],some .eof)

def Denied (c : FramedTCP) (r : FramedTCP×List UInt8×Option IoError) : Prop :=
  r.1=c ∧ r.2.1=[] ∧ r.2.2≠none

/-- The far end expects the bytes `X` and will return the bytes `D`; `F` says whether some call has
failed, and `M` bounds the steps left before the end is reported. -/
inductive Receiver.Delivers (F : Prop) (maximum : Nat) :
    Receiver→List UInt8→List UInt8→Nat→Prop
  | idle {c : FramedTCP} {log : List (List UInt8×Option IoError)} {X D : List UInt8} {N : Nat}
      (h : Rest maximum c X D N) : Delivers F maximum ⟨c,.idle,log⟩ X D N
  | reading {c : FramedTCP} {log : List (List UInt8×Option IoError)} {i X D : List UInt8}
      {k N M : Nat} {p : Code (FramedTCP×List UInt8×Option IoError)}
      {r : FramedTCP×List UInt8×Option IoError} (hp : p.Exact i [] k r)
      (hs : p.Stops (Denied c)) (hr : Rest maximum r.1 X D N) (hg : Good r)
      (he : c.readEnded→Rest maximum c (i++X) (r.2.1++D) M)
      (hM : c.readEnded=false→i.length+k+1+N≤M) :
      Delivers F maximum ⟨c,.running p,log⟩ (i++X) (r.2.1++D) M
  | broken {c : FramedTCP} {log : List (List UInt8×Option IoError)} {X D : List UInt8} {M : Nat}
      {r : FramedTCP×List UInt8×Option IoError} (hF : F) (hd : Denied c r)
      (he : c.readEnded→Rest maximum c X D M) :
      Delivers F maximum ⟨c,.running (.done r),log⟩ X D M
  | stopped {c : FramedTCP} {log : List (List UInt8×Option IoError)} {X D : List UInt8} {M : Nat}
      (hF : F) : Delivers F maximum ⟨c,.stopped,log⟩ X D M

/-- What follows a round of a pump: more frames, or nothing after the FIN frame. -/
inductive Onward (maximum : Nat) : Bool→List UInt8→Nat→Prop
  | more {ps : List (List UInt8)} {N : Nat} (hps : Chunked maximum ps)
      (hN : 3*(stream ps).length≤N) : Onward maximum true (stream ps) N
  | last {N : Nat} : Onward maximum false [] N

/-- A bridge expects the bytes `X` and will put the bytes `Y` on its connection onward. -/
inductive Relays (F : Prop) (maximum : Nat) :
    Turn (Except IoError Bool)→List UInt8→List UInt8→Nat→Prop
  | ended {M : Nat} : Relays F maximum .idle [] [] M
  | pumping {i o X : List UInt8} {k N M : Nat} {b : Bool} {p : Code (Except IoError Bool)}
      (hp : p.Exact i o k (.ok b)) (hs : p.Stops (fun r => ∃e, r=.error e))
      (hX : Onward maximum b X N) (hio : o=[]→i=[]) (ho : b=false→ o.length≤5)
      (hM : i.length+o.length+k+1+N≤M) : Relays F maximum (.running p) (i++X) (o++X) M
  | broken {X Y : List UInt8} {M : Nat} {e : IoError} (hF : F) :
      Relays F maximum (.running (.done (.error e))) X Y M
  | stopped {X Y : List UInt8} {M : Nat} (hF : F) : Relays F maximum .stopped X Y M

/-- The answers so far: data, then nothing but the end. -/
def Receiver.Orderly (r : Receiver) : Prop :=
  ∃(data : List (List UInt8)) (ends : Nat), r.log=data.map (fun b => (b,none))++List.replicate ends ([],some .eof) ∧
    (∀b∈data, b≠[]) ∧ (0<ends ↔ r.conn.readEnded)

def Line.Flows (F : Prop) (maximum : Nat) : Line→List UInt8→List UInt8→Nat→Prop
  | .far r,X,D,M => r.Delivers F maximum X D M ∧ (F ∨ r.Orderly)
  | .hop turn out rest,X,D,M => ∃Y N L, Relays F maximum turn X Y N ∧
      rest.Flows F maximum (out++Y) D L ∧ N+L≤M

def Call.result : Call→Sent
  | .write buffer => .wrote buffer.length none
  | .closeWrite => .closed none

/-- A writer between calls: `Y` is still to be put on its connection. Without a closing call the FIN
frame at the end of `Y` is never sent. -/
inductive Sends (fin : Bool) (maximum : Nat) : FramedTCP→List Call→List UInt8→Nat→Prop
  | ended {c : FramedTCP} {N : Nat} (hf : fin) : Sends fin maximum c [] [] N
  | opened {c : FramedTCP} {buffers : List (List UInt8)} {N : Nat} (hm : c.maximum=maximum)
      (hc : c.writeEnded=false)
      (hN : 2*(stream (buffers.flatMap (fun b => chunks maximum b.length b))).length+
        2*(script buffers fin).length≤N) :
      Sends fin maximum c (script buffers fin)
        (stream (buffers.flatMap (fun b => chunks maximum b.length b))) N

/-- The near end will put the bytes `Y` on its connection and get the answers `R`. -/
inductive Sender.Emits (F : Prop) (fin : Bool) (maximum : Nat) :
    Sender→List UInt8→List Sent→Nat→Prop
  | idle {c : FramedTCP} {ks : List Call} {rs : List Sent} {Y : List UInt8} {N : Nat}
      (h : Sends fin maximum c ks Y N) :
      Emits F fin maximum ⟨c,ks,.idle,rs⟩ Y (ks.map Call.result) N
  | sending {c : FramedTCP} {ks : List Call} {rs : List Sent} {o Y : List UInt8} {k N M : Nat}
      {p : Code (FramedTCP×Sent)} {r : FramedTCP×Sent} (hp : p.Exact [] o k r)
      (hs : p.Stops (fun r => r.2.err≠none)) (hr : r.2.err=none)
      (hY : Sends fin maximum r.1 ks Y N) (hM : o.length+k+1+N≤M) :
      Emits F fin maximum ⟨c,ks,.running p,rs⟩ (o++Y) (r.2::ks.map Call.result) M
  | broken {c : FramedTCP} {ks : List Call} {rs R : List Sent} {Y : List UInt8} {M : Nat}
      {r : FramedTCP×Sent} (hF : F) (hr : r.2.err≠none) :
      Emits F fin maximum ⟨c,ks,.running (.done r),rs⟩ Y R M
  | stopped {c : FramedTCP} {ks : List Call} {rs R : List Sent} {Y : List UInt8} {M : Nat}
      (hF : F) : Emits F fin maximum ⟨c,ks,.stopped,rs⟩ Y R M

section Parties

variable {F : Prop} {fin : Bool} {maximum : Nat} {cap : ℕ∞}

theorem stream_frame (hlow : 64 ≤ maximum) (hhigh : maximum≤65536) (ps : List (List UInt8))
    (hps : Chunked maximum ps) : ∃f X, stream ps=Frame.bytes f++X ∧
      frameValid f.kind f.payload.length .tcp maximum ∧
      ((ps=[] ∧ f=Frame.fin ∧ X=[]) ∨
        ∃p qs, ps=p::qs ∧ f=Frame.data p ∧ X=stream qs ∧ p≠[] ∧ Chunked maximum qs) := by
  cases ps with
  | nil =>
    exact ⟨Frame.fin,[],by simp [stream_nil],frameValid_fin hlow hhigh,.inl ⟨rfl,rfl,rfl⟩⟩
  | cons p qs =>
    have hp := hps p List.mem_cons_self
    have hqs : Chunked maximum qs := fun q hq => hps q (List.mem_cons_of_mem p hq)
    exact ⟨Frame.data p,stream qs,stream_cons p qs,frameValid_data hlow hhigh hp.1 hp.2,
      .inr ⟨p,qs,rfl,rfl,rfl,hp.1,hqs⟩⟩

theorem kind_data (p : List UInt8) :
    ¬((Frame.data p).kind=frameFIN ∨ (Frame.data p).kind=frameClose) := by
  simp [Frame.data,frameTCP,frameFIN,frameClose]

variable {b X D Y : List UInt8} {size N M : Nat} {c : FramedTCP} {k : Call} {ks : List Call}
  {R : List Sent} {e : Event} {r : Receiver} {log : List (List UInt8×Option IoError)} {G : Prop}

theorem take_ne_nil (hs : 0<size) (hb : b≠[]) : b.take size≠[] := by
  have hlen := List.length_pos_of_ne_nil hb
  apply List.ne_nil_of_length_pos
  rw [List.length_take]
  omega

theorem copyOut_rest {ps : List (List UInt8)} (hs : 0<size) (hm : c.maximum=maximum)
    (hc : c.readEnded=false) (hb : b≠[]) (hps : Chunked maximum ps) :
    ∃D N, b++ps.flatten=(c.copyOut size b).2.1++D ∧
      Rest maximum (c.copyOut size b).1 (stream ps) D N ∧ Good (c.copyOut size b) ∧
      N+4≤(stream ps).length+4*((b++ps.flatten).length+1) := by
  have htake := List.length_pos_of_ne_nil (take_ne_nil hs hb)
  have hsplit : (b.take size).length+(b.drop size).length=b.length := by
    rw [← List.length_append,List.take_append_drop]
  refine ⟨b.drop size++ps.flatten,_,?_,.opened hm hc hps le_rfl,.data (take_ne_nil hs hb) hc,?_⟩
  · rw [FramedTCP.copyOut,← List.append_assoc,List.take_append_drop]
  · simp only [FramedTCP.copyOut,List.length_append]
    omega

theorem rest_read (hlow : 64 ≤ maximum) (hhigh : maximum≤65536) (h : Rest maximum c X D N)
    (hs : 0<size) (hc : c.readEnded=false) : ∃i k r Y E L, (c.read size).Exact i [] k r ∧ X=i++Y ∧
      D=r.2.1++E ∧ Rest maximum r.1 Y E L ∧ Good r ∧ i.length+k+1+L<N := by
  cases h with
  | ended hm he => simp [hc] at he
  | @opened ps _ hm _ hps hN =>
    by_cases hb : c.readBuffer=[]
    · obtain ⟨f,Y,hX,hvalid,hcase⟩ := stream_frame hlow hhigh ps hps
      have hread := read_frame hs hc hb (by rwa [hm])
      rw [hX,List.length_append] at hN
      rcases hcase with ⟨rfl,rfl,rfl⟩|⟨p,qs,rfl,rfl,rfl,hp,hqs⟩
      · refine ⟨_,_,_,[],[],0,hread,hX,?_,.ended hm rfl,.ended rfl,?_⟩
        · simp [hb,answer,Frame.fin]
        · omega
      · obtain ⟨E,L,hE,hrest,hgood,hL⟩ := copyOut_rest hs hm hc hp hqs
        have hans : answer c size (Frame.data p)=c.copyOut size p := by
          rw [answer,if_neg (kind_data p)]
          rfl
        rw [hans] at hread
        refine ⟨_,_,_,_,E,L,hread,hX,?_,hrest,hgood,?_⟩
        · rw [hb,List.nil_append,List.flatten_cons,hE]
        · rw [hb,List.nil_append,List.flatten_cons] at hN
          omega
    · obtain ⟨E,L,hE,hrest,hgood,hL⟩ := copyOut_rest hs hm hc hb hps
      exact ⟨[],1,_,_,E,L,read_buffered hs hc hb,rfl,hE,hrest,hgood,by simp; omega⟩

theorem script_cons {buffers : List (List UInt8)} (h : script buffers fin=k::ks) :
    (∃b bs, buffers=b::bs ∧ k=.write b ∧ ks=script bs fin) ∨
      (buffers=[] ∧ fin ∧ k=.closeWrite ∧ ks=[]) := by
  cases buffers with
  | nil =>
    cases fin with
    | false => simp [script] at h
    | true =>
      have hk : Call.closeWrite=k ∧ []=ks := by simpa [script] using h
      exact .inr ⟨rfl,rfl,hk.1.symm,hk.2.symm⟩
  | cons b bs =>
    have hk : Call.write b=k ∧ script bs fin=ks := by simpa [script] using h
    exact .inl ⟨b,bs,rfl,hk.1.symm,hk.2.symm⟩

theorem flatMap_bytes_length (ps : List (List UInt8)) :
    ps.length≤(ps.flatMap (fun p => (Frame.data p).bytes)).length := by
  induction ps with
  | nil => simp
  | cons p ps ih =>
    rw [List.flatMap_cons,List.length_append,List.length_cons,Frame.bytes_length]
    omega

theorem call_stops (c : FramedTCP) (k : Call) : (k.code c).Stops (fun r => r.2.err≠none) := by
  cases k with
  | write b => exact (write_stops b).bind (fun r hr => ⟨_,rfl,hr⟩) (fun _ => trivial)
  | closeWrite => exact closeWrite_stops.bind (fun r hr => ⟨_,rfl,hr⟩) (fun _ => trivial)

theorem sends_call (hlow : 64 ≤ maximum) (hhigh : maximum≤65536)
    (h : Sends fin maximum c (k::ks) Y N) :
    ∃o m d Z L, (k.code c).Exact [] o m (d,k.result) ∧ Y=o++Z ∧ Sends fin maximum d ks Z L ∧
      o.length+m+1+L<N := by
  generalize hcalls : k::ks=calls at h
  cases h with
  | ended => cases hcalls
  | @opened buffers _ hm hc hN =>
    rcases script_cons hcalls.symm with ⟨b,bs,rfl,rfl,rfl⟩|⟨rfl,hf,rfl,rfl⟩
    · have hwrite := write_exact (c := c) (by omega) (by omega) hc b
      rw [hm] at hwrite
      have hY : stream ((b::bs).flatMap (fun b => chunks maximum b.length b))=
          (chunks maximum b.length b).flatMap (fun p => (Frame.data p).bytes)++
            stream (bs.flatMap (fun b => chunks maximum b.length b)) := by
        rw [List.flatMap_cons,stream_append]
      have hlen := flatMap_bytes_length (chunks maximum b.length b)
      have hscript : (script (b::bs) fin).length=(script bs fin).length+1 := by simp [script]
      refine ⟨_,_,c,_,_,hwrite.seq (Proc.exact_done _ 0) rfl (List.append_nil _) le_rfl (.inr rfl),
        hY,.opened hm hc le_rfl,?_⟩
      rw [hY,List.length_append,hscript] at hN
      omega
    · have hclose := closeWrite_exact (c := c) (by omega) (by omega) hc
      refine ⟨_,_,{c with writeEnded := true},[],0,hclose.seq (Proc.exact_done _ 0) rfl
        (List.append_nil _) le_rfl (.inr rfl),by simp [stream_nil],.ended hf,?_⟩
      have hlen : Frame.fin.bytes.length=5 := rfl
      simp only [List.flatMap_nil,stream_nil,hlen,script,hf,if_true,List.map_nil,List.nil_append,
        List.length_singleton] at hN
      omega

theorem sender_step (hlow : 64 ≤ maximum) (hhigh : maximum≤65536) {s t : Sender}
    {out outq : List UInt8} (h : s.Emits F fin maximum Y R N) (hs : Sender.Step cap s out e t outq) :
    ∃w Z Q L, Y=w++Z ∧ outq=out++w ∧ t.Emits (F ∨ e=.fault) fin maximum Z Q L ∧
      ((F ∨ e=.fault) ∨ (t.results++Q=s.results++R ∧ L<N)) := by
  cases hs with
  | @call c k ks rs =>
    cases h with
    | idle h =>
      obtain ⟨o,m,d,Z,L,hexact,rfl,hsends,hL⟩ := sends_call hlow hhigh h
      have herr : k.result.err=none := by cases k <;> rfl
      exact ⟨[],o++Z,_,_,rfl,by simp,.sending hexact (call_stops c k) herr hsends le_rfl,
        .inr ⟨rfl,hL⟩⟩
  | work hp =>
    cases h with
    | sending hexact hstops hr hY hM =>
      obtain ⟨r,w,j,u,d,hq,hi,-,rfl,rfl,-,hlt⟩ := hexact.step (x := []) hp List.nil_prefix
      obtain ⟨-,rfl⟩ := List.append_eq_nil_iff.mp hi.symm
      refine ⟨w,_,_,_,List.append_assoc w u _,rfl,
        .sending hq (hstops.step hp) hr hY le_rfl,.inr ⟨rfl,?_⟩⟩
      simp only [List.length_nil,List.length_append] at hlt hM
      omega
    | broken hF hr => cases hp
  | fault hp =>
    cases h with
    | sending hexact hstops hr hY hM =>
      obtain ⟨r,w,u,rfl,herr,rfl,rfl⟩ := hstops.fault hexact hp
      exact ⟨w,u++_,[],0,List.append_assoc w u _,rfl,.broken (.inr rfl) herr,.inl (.inr rfl)⟩
    | broken hF hr => cases hp
  | @finish c d ks rs r =>
    cases h with
    | sending hexact hstops hr hY hM =>
      obtain ⟨-,rfl,rfl⟩ := hexact
      refine ⟨[],_,_,_,rfl,by simp,by rw [if_pos hr]; exact .idle hY,.inr ⟨by simp,by omega⟩⟩
    | broken hF hr =>
      exact ⟨[],Y,R,N,rfl,by simp,by rw [if_neg hr]; exact .stopped (.inl hF),.inl (.inl hF)⟩

theorem rest_ended (h : Rest maximum c X D N) (hc : c.readEnded) :
    X=[] ∧ D=[] ∧ ∀L, Rest maximum c [] [] L := by
  cases h with
  | ended hm _ => exact ⟨rfl,rfl,fun _ => .ended hm hc⟩
  | opened _ ho => simp [hc] at ho

/-- The budget after a step: a read after the end costs nothing. -/
def Spent (e : Event) (L M : Nat) : Prop :=
  if e=.again then L≤M else L<M

theorem spent_event {L : Nat} (ha : r.conn.readEnded→L≤M) (hw : r.conn.readEnded=false→L<M) :
    Spent r.event L M := by
  unfold Spent Receiver.event
  cases hc : r.conn.readEnded with
  | false => simpa using hw hc
  | true => simpa using ha hc

theorem orderly_snoc {d : FramedTCP} {t u : Turn (FramedTCP×List UInt8×Option IoError)}
    {bytes : List UInt8} {err : Option IoError} (h : Receiver.Orderly ⟨c,t,log⟩)
    (hg : Good (d,bytes,err)) (hc : c.readEnded→bytes=[]) :
    Receiver.Orderly ⟨d,u,log++[(bytes,err)]⟩ := by
  obtain ⟨data,ends,hlog,hdata,hends⟩ := h
  simp only at hlog hends
  cases hg with
  | data hb hd =>
    have hopen : ¬c.readEnded := fun h => hb (hc h)
    have hzero : ends=0 := by
      by_contra hne
      exact hopen (hends.mp (Nat.pos_of_ne_zero hne))
    refine ⟨data++[bytes],0,by simp [hlog,hzero],?_,by simp [hd]⟩
    intro b hb'
    rcases List.mem_append.mp hb' with hb'|hb'
    · exact hdata b hb'
    · rwa [List.mem_singleton.mp hb']
  | ended hd =>
    refine ⟨data,ends+1,?_,hdata,by simp [hd]⟩
    rw [hlog,List.append_assoc,← List.replicate_succ']

theorem delivers_call (hlow : 64 ≤ maximum) (hhigh : maximum≤65536) (h : Rest maximum c X D M)
    (hs : 0<size) : ∃L, Receiver.Delivers F maximum ⟨c,.running (c.read size),log⟩ X D L ∧
      Spent (Receiver.event ⟨c,.idle,log⟩) L M := by
  cases hc : c.readEnded with
  | true =>
    obtain ⟨rfl,rfl,hrest⟩ := rest_ended h hc
    refine ⟨M,?_,spent_event (fun _ => le_rfl) (by simp [hc])⟩
    exact .reading (i := []) (X := []) (r := (c,[],some .eof)) (read_ended hs hc) (read_stops c size)
      (hrest 0) (.ended hc) (fun _ => hrest M) (by simp [hc])
  | false =>
    obtain ⟨i,k,r,Y,E,L,hread,rfl,rfl,hrest,hgood,hlt⟩ := rest_read hlow hhigh h hs hc
    exact ⟨_,.reading hread (read_stops c size) hrest hgood (by simp [hc]) (fun _ => le_rfl),
      spent_event (by simp [hc]) (fun _ => hlt)⟩

section Receiving

variable {d : FramedTCP} {inp inq : List UInt8} {p q : Code (FramedTCP×List UInt8×Option IoError)}

theorem delivers_work (h : Receiver.Delivers F maximum ⟨c,.running p,log⟩ (inp++Y) D M)
    (hp : Proc.Step cap p inp [] q inq []) :
    ∃L, Receiver.Delivers F maximum ⟨c,.running q,log⟩ (inq++Y) D L ∧
      Spent (Receiver.event ⟨c,.running p,log⟩) L M := by
  generalize hX : inp++Y=X at h
  cases h with
  | @reading _ _ i X D k N _ _ r hexact hstops hr hg he hM =>
    have hin : inp<+:i++X := by
      rw [← hX]
      exact List.prefix_append inp Y
    obtain ⟨taken,w,j,u,m,hq,hi,hinp,hw,-,-,hlt⟩ := hexact.step hp hin
    obtain ⟨rfl,rfl⟩ := List.append_eq_nil_iff.mp hw.symm
    have hj : j++X=inq++Y := by
      rw [hi,hinp,List.append_assoc,List.append_assoc] at hX
      exact (List.append_cancel_left hX).symm
    rw [← hj]
    simp only [List.length_nil] at hlt
    cases hc : c.readEnded with
    | true =>
      obtain ⟨hnil,hnil',hrest⟩ := rest_ended (he hc) hc
      have hjX : j++X=[] := by
        rw [hi,List.append_assoc] at hnil
        exact (List.append_eq_nil_iff.mp hnil).2
      refine ⟨M,?_,spent_event (fun _ => le_rfl) (by simp [hc])⟩
      refine .reading hq (hstops.step hp) hr hg (fun _ => ?_) (by simp [hc])
      rw [hjX,hnil']
      exact hrest M
    | false =>
      have hbound := hM hc
      refine ⟨j.length+m+1+N,.reading hq (hstops.step hp) hr hg (by simp [hc]) (fun _ => le_rfl),?_⟩
      exact spent_event (by simp [hc]) (fun _ => by omega)
  | broken hF hd he => cases hp

theorem delivers_fault (h : Receiver.Delivers F maximum ⟨c,.running p,log⟩ X D M)
    (hp : Proc.Fault p [] q []) : Receiver.Delivers True maximum ⟨c,.running q,log⟩ X D M := by
  cases h with
  | @reading _ _ i X D k N _ _ r hexact hstops hr hg he hM =>
    obtain ⟨r',w,u,rfl,hdenied,-,-⟩ := hstops.fault hexact hp
    exact .broken trivial hdenied he
  | broken hF hd he => cases hp

theorem delivers_finish {bytes : List UInt8} {err : Option IoError}
    (h : Receiver.Delivers F maximum ⟨c,.running (.done (d,bytes,err)),log⟩ X D M)
    (ho : F ∨ Receiver.Orderly ⟨c,.running (.done (d,bytes,err)),log⟩) :
    ∃E L, D=bytes++E ∧ Line.Flows F maximum (.far ⟨d,if err=none ∨ d.readEnded then .idle
        else .stopped,log++[(bytes,err)]⟩) X E L ∧
      (F ∨ Spent (Receiver.event ⟨c,.running (.done (d,bytes,err)),log⟩) L M) := by
  cases h with
  | @reading _ _ i X D k N _ _ r hexact hstops hr hg he hM =>
    obtain ⟨rfl,-,rfl⟩ := hexact
    have hturn : err=none ∨ d.readEnded := by
      cases hg with
      | data => exact .inl rfl
      | ended hd => exact .inr hd
    rw [if_pos hturn]
    have hbytes : c.readEnded→bytes=[] := fun hc =>
      (List.append_eq_nil_iff.mp (rest_ended (he hc) hc).2.1).1
    have horder := ho.imp id (fun ho => orderly_snoc (u := .idle) ho hg hbytes)
    cases hc : c.readEnded with
    | true =>
      obtain ⟨hnil,hnil',-⟩ := rest_ended (he hc) hc
      have hd : d.readEnded := by
        cases hg with
        | data hb => exact absurd (hbytes hc) hb
        | ended hd => exact hd
      obtain ⟨-,rfl,hrest⟩ := rest_ended hr hd
      rw [List.nil_append] at hnil
      rw [hnil]
      exact ⟨[],M,rfl,⟨.idle (hrest M),horder⟩,
        .inr (spent_event (fun _ => le_rfl) (by simp [hc]))⟩
    | false =>
      have hbound := hM hc
      exact ⟨D,N,rfl,⟨.idle hr,horder⟩,.inr (spent_event (by simp [hc]) (fun _ => by omega))⟩
  | broken hF hd he =>
    obtain ⟨rfl,rfl,herr⟩ := hd
    refine ⟨D,M,rfl,⟨?_,.inl hF⟩,.inl hF⟩
    split_ifs with hturn
    · have hended : d.readEnded := hturn.resolve_left herr
      exact .idle (he hended)
    · exact .stopped hF

end Receiving

section Pumping

variable {inp inq out outq : List UInt8} {p q : Code (Except IoError Bool)}

theorem relays_round (hlow : 64 ≤ maximum) (hhigh : maximum≤65536) (ps : List (List UInt8))
    (hps : Chunked maximum ps) : Relays F maximum (.running (pump .tcp maximum)) (stream ps)
      (stream ps) (3*(stream ps).length) := by
  obtain ⟨f,X,hX,hvalid,hcase⟩ := stream_frame hlow hhigh ps hps
  have hpump := pump_exact hvalid
  have hlen := Frame.bytes_length f
  have hsame : f.bytes=[]→f.bytes=[] := id
  rw [hX]
  rcases hcase with ⟨rfl,rfl,rfl⟩|⟨p,qs,rfl,rfl,rfl,hp,hqs⟩
  · refine .pumping (N := 0) hpump pump_stops .last hsame (fun _ => hlen.le) ?_
    rw [List.append_nil]
    omega
  · have hkind : (!((Frame.data p).kind==frameFIN || (Frame.data p).kind==frameClose))=true := by
      simp [Frame.data,frameTCP,frameFIN,frameClose]
    refine .pumping hpump pump_stops (.more hqs le_rfl) hsame (by simp [hkind]) ?_
    rw [List.length_append]
    omega

theorem relays_pump (h : Relays F maximum (.running p) (inp++X) Y M)
    (hp : Proc.Step cap p inp out q inq outq) : ∃w Z L, Y=w++Z ∧ outq=out++w ∧
      Relays F maximum (.running q) (inq++X) Z L ∧ (F ∨ L<M) := by
  generalize hX : inp++X=W at h
  cases h with
  | @pumping i o V k N _ b _ hexact hstops hV hio ho hM =>
    have hin : inp<+:i++V := by
      rw [← hX]
      exact List.prefix_append inp X
    obtain ⟨taken,w,j,u,m,hq,rfl,rfl,rfl,rfl,hiw,hlt⟩ := hexact.step hp hin
    rw [List.append_assoc,List.append_assoc] at hX
    rw [List.append_cancel_left hX]
    refine ⟨w,u++V,j.length+u.length+m+1+N,List.append_assoc w u V,rfl,
      .pumping hq (hstops.step hp) hV ?_ ?_ le_rfl,.inr (by omega)⟩
    · intro hu
      rcases hiw with hi|hw
      · exact (List.append_eq_nil_iff.mp hi).2
      · have hall := hio (by rw [hw,hu,List.append_nil])
        exact (List.append_eq_nil_iff.mp hall).2
    · intro hb
      have hle := ho hb
      rw [List.length_append] at hle
      omega
  | broken hF => cases hp

theorem relays_fault (h : Relays F maximum (.running p) X Y M) (hp : Proc.Fault p out q outq) :
    ∃w Z, Y=w++Z ∧ outq=out++w ∧ Relays True maximum (.running q) X Z M := by
  cases h with
  | @pumping i o V k N _ b _ hexact hstops hV hio ho hM =>
    obtain ⟨r,w,u,rfl,⟨e,rfl⟩,rfl,rfl⟩ := hstops.fault hexact hp
    exact ⟨w,u++V,List.append_assoc w u V,rfl,.broken trivial⟩
  | broken hF => cases hp

theorem relays_pumped (hlow : 64 ≤ maximum) (hhigh : maximum≤65536) {r : Except IoError Bool}
    (h : Relays F maximum (.running (.done r)) X Y M) : ∃L, Relays F maximum (match r with
        | .ok true => .running (pump .tcp maximum)
        | .ok false => .idle
        | .error _ => .stopped) X Y L ∧ (F ∨ L<M) := by
  cases h with
  | @pumping i o V k N _ b _ hexact hstops hV hio ho hM =>
    obtain ⟨rfl,rfl,rfl⟩ := hexact
    simp only [List.length_nil] at hM
    cases hV with
    | more hps hN => exact ⟨_,relays_round hlow hhigh _ hps,.inr (by omega)⟩
    | last => exact ⟨0,.ended,.inr (by omega)⟩
  | broken hF => exact ⟨M,.stopped hF,.inl hF⟩

end Pumping

theorem relays_mono (hFG : F→G) {turn : Turn (Except IoError Bool)}
    (h : Relays F maximum turn X Y M) : Relays G maximum turn X Y M := by
  cases h with
  | ended => exact .ended
  | pumping hp hs hX hio ho hM => exact .pumping hp hs hX hio ho hM
  | broken hF => exact .broken (hFG hF)
  | stopped hF => exact .stopped (hFG hF)

theorem delivers_mono (hFG : F→G) (h : r.Delivers F maximum X D M) :
    r.Delivers G maximum X D M := by
  cases h with
  | idle h => exact .idle h
  | reading hp hs hr hg he hM => exact .reading hp hs hr hg he hM
  | broken hF hd he => exact .broken (hFG hF) hd he
  | stopped hF => exact .stopped (hFG hF)

theorem emits_mono (hFG : F→G) {s : Sender} (h : s.Emits F fin maximum Y R M) :
    s.Emits G fin maximum Y R M := by
  cases h with
  | idle h => exact .idle h
  | sending hp hs hr hY hM => exact .sending hp hs hr hY hM
  | broken hF hr => exact .broken (hFG hF) hr
  | stopped hF => exact .stopped (hFG hF)

theorem flows_mono (hFG : F→G) (line : Line) (X D : List UInt8) (M : Nat)
    (h : line.Flows F maximum X D M) : line.Flows G maximum X D M := by
  induction line generalizing X M with
  | far r => exact ⟨delivers_mono hFG h.1,h.2.imp hFG id⟩
  | hop turn out rest ih =>
    obtain ⟨Y,N,L,hr,hf,hle⟩ := h
    exact ⟨Y,N,L,relays_mono hFG hr,ih _ _ hf,hle⟩

theorem line_step (hlow : 64 ≤ maximum) (hhigh : maximum≤65536) {line next : Line}
    {inp inq : List UInt8} (h : line.Flows F maximum (inp++Y) D M)
    (hs : Line.Step cap maximum inp line e inq next) :
    ∃d E L, D=d++E ∧ next.receiver.delivered=line.receiver.delivered++d ∧
      next.Flows (F ∨ e=.fault) maximum (inq++Y) E L ∧ ((F ∨ e=.fault) ∨ Spent e L M) := by
  induction hs generalizing Y M with
  | call size hs =>
    obtain ⟨hd,ho⟩ := h
    cases hd with
    | idle hrest =>
      obtain ⟨L,hdel,hspent⟩ := delivers_call hlow hhigh hrest hs
      exact ⟨[],D,L,rfl,by simp [Line.receiver,Receiver.delivered],
        ⟨delivers_mono .inl hdel,ho.imp .inl id⟩,.inr hspent⟩
  | work hp =>
    obtain ⟨hd,ho⟩ := h
    obtain ⟨L,hdel,hspent⟩ := delivers_work hd hp
    exact ⟨[],D,L,rfl,by simp [Line.receiver,Receiver.delivered],
      ⟨delivers_mono .inl hdel,ho.imp .inl id⟩,.inr hspent⟩
  | fault hp =>
    have hdel := delivers_fault h.1 hp
    exact ⟨[],D,M,rfl,by simp [Line.receiver,Receiver.delivered],
      ⟨delivers_mono (fun _ => .inr rfl) hdel,.inl (.inr rfl)⟩,.inl (.inr rfl)⟩
  | @finish c d log inp bytes err =>
    obtain ⟨E,L,hD,hflow,hspent⟩ := delivers_finish h.1 h.2
    exact ⟨bytes,E,L,hD,by simp [Line.receiver,Receiver.delivered],
      flows_mono .inl _ _ _ _ hflow,hspent.imp .inl id⟩
  | pump hp =>
    obtain ⟨Z,N,L,hrel,hflow,hle⟩ := h
    obtain ⟨w,V,K,rfl,rfl,hrel',hlt⟩ := relays_pump hrel hp
    rw [← List.append_assoc] at hflow
    refine ⟨[],D,K+L,rfl,by simp [Line.receiver],⟨V,K,L,relays_mono .inl hrel',
      flows_mono .inl _ _ _ _ hflow,le_rfl⟩,hlt.imp .inl (fun hlt => ?_)⟩
    simp only [Spent,reduceCtorEq,if_false]
    omega
  | pumpFault hp =>
    obtain ⟨Z,N,L,hrel,hflow,hle⟩ := h
    obtain ⟨w,V,rfl,rfl,hrel'⟩ := relays_fault hrel hp
    rw [← List.append_assoc] at hflow
    exact ⟨[],D,M,rfl,by simp [Line.receiver],⟨V,N,L,relays_mono (fun _ => .inr rfl) hrel',
      flows_mono .inl _ _ _ _ hflow,hle⟩,.inl (.inr rfl)⟩
  | pumped =>
    obtain ⟨Z,N,L,hrel,hflow,hle⟩ := h
    obtain ⟨K,hrel',hlt⟩ := relays_pumped hlow hhigh hrel
    refine ⟨[],D,K+L,rfl,by simp [Line.receiver],⟨Z,K,L,relays_mono .inl hrel',
      flows_mono .inl _ _ _ _ hflow,le_rfl⟩,hlt.imp .inl (fun hlt => ?_)⟩
    simp only [Spent,reduceCtorEq,if_false]
    omega
  | onward hs ih =>
    obtain ⟨Z,N,L,hrel,hflow,hle⟩ := h
    obtain ⟨d,E,K,hD,hdel,hflow',hspent⟩ := ih hflow
    refine ⟨d,E,N+K,hD,hdel,⟨Z,N,K,relays_mono .inl hrel,hflow',le_rfl⟩,
      hspent.imp id (fun hspent => ?_)⟩
    unfold Spent at hspent ⊢
    split_ifs at hspent ⊢
    · omega
    · omega

end Parties

/-- The whole system: what was returned and what is still to be returned make up what was written. -/
def Chain.Inv (F : Prop) (maximum : Nat) (buffers : List (List UInt8)) (fin : Bool) (s : Chain)
    (N : Nat) : Prop :=
  ∃Y R D M L, s.sender.Emits F fin maximum Y R M ∧ s.line.Flows F maximum (s.out++Y) D L ∧
    s.line.receiver.delivered++D=buffers.flatten ∧
    (F ∨ s.sender.results++R=(script buffers fin).map Call.result) ∧ M+L≤N

end TuneX.Agent.Relay
