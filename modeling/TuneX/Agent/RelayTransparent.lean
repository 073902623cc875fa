import TuneX.Agent.RelayFlow

namespace TuneX.Agent.Relay

open Framework

variable {fin : Bool} {maximum : Nat} {cap : ℕ∞} {buffers : List (List UInt8)}
  {s t : Chain} {N M : Nat} {r : Receiver} {inp Y : List UInt8} {c : FramedTCP}

theorem chain_step (hlow : 64 ≤ maximum) (hhigh : maximum≤65536) {F : Prop} {e : Event}
    (h : s.Inv F maximum buffers fin N) (hs : Chain.Step cap maximum s e t) :
    ∃L, t.Inv (F ∨ e=.fault) maximum buffers fin L ∧ ((F ∨ e=.fault) ∨ Spent e L N) := by
  obtain ⟨Y,R,D,M,L,hemits,hflows,hdel,hres,hle⟩ := h
  cases hs with
  | send hs =>
    obtain ⟨w,Z,Q,K,rfl,rfl,hemits',hspent⟩ := sender_step hlow hhigh hemits hs
    rw [← List.append_assoc] at hflows
    refine ⟨K+L,⟨Z,Q,D,K,L,hemits',flows_mono .inl _ _ _ _ hflows,hdel,?_,le_rfl⟩,?_⟩
    · rcases hspent with hF|hspent
      · exact .inl hF
      · exact hres.imp .inl (fun hres => hspent.1.trans hres)
    · refine hspent.imp id (fun hspent => ?_)
      unfold Spent
      split_ifs
      · omega
      · omega
  | behind hs =>
    obtain ⟨d,E,K,rfl,hdel',hflows',hspent⟩ := line_step hlow hhigh hflows hs
    refine ⟨M+K,⟨Y,R,E,M,K,emits_mono .inl hemits,hflows',?_,hres.imp .inl id,le_rfl⟩,?_⟩
    · rw [hdel',List.append_assoc]
      exact hdel
    · refine hspent.imp id (fun hspent => ?_)
      unfold Spent at hspent ⊢
      split_ifs at hspent ⊢
      · omega
      · omega

theorem line_start (hlow : 64 ≤ maximum) (hhigh : maximum≤65536) (ps : List (List UInt8))
    (hps : Chunked maximum ps) (hops : Nat) :
    ∃M, (Line.start maximum hops).Flows False maximum (stream ps) ps.flatten M := by
  induction hops with
  | zero =>
    refine ⟨_,.idle (.opened rfl rfl hps le_rfl),.inr ⟨[],0,rfl,by simp,?_⟩⟩
    simp [FramedTCP.fresh]
  | succ hops ih =>
    obtain ⟨M,hM⟩ := ih
    exact ⟨_,stream ps,_,M,relays_round hlow hhigh ps hps,hM,le_rfl⟩

theorem line_start_delivered (hops : Nat) :
    (Line.start maximum hops).receiver.delivered=[] := by
  induction hops with
  | zero => rfl
  | succ hops ih => exact ih

theorem chain_start (hlow : 64 ≤ maximum) (hhigh : maximum≤65536) (hops : Nat)
    (buffers : List (List UInt8)) (fin : Bool) :
    ∃N, (Chain.start maximum hops buffers fin).Inv False maximum buffers fin N := by
  have hpos : 0 < maximum := by omega
  have hps : Chunked maximum (buffers.flatMap (fun b => chunks maximum b.length b)) := by
    intro p hp
    obtain ⟨b,-,hb⟩ := List.mem_flatMap.mp hp
    exact mem_chunks hpos _ b p hb
  have hflat : (buffers.flatMap (fun b => chunks maximum b.length b)).flatten=buffers.flatten := by
    induction buffers with
    | nil => rfl
    | cons b bs ih =>
      have hbs : Chunked maximum (bs.flatMap (fun b => chunks maximum b.length b)) :=
        fun p hp => hps p (by rw [List.flatMap_cons]; exact List.mem_append_right _ hp)
      rw [List.flatMap_cons,List.flatten_append,chunks_flatten hpos _ b le_rfl,ih hbs,
        List.flatten_cons]
  obtain ⟨L,hL⟩ := line_start hlow hhigh _ hps hops
  rw [hflat] at hL
  refine ⟨_,_,_,_,_,L,.idle (.opened rfl rfl le_rfl),hL,?_,.inr rfl,le_rfl⟩
  change (Line.start maximum hops).receiver.delivered++buffers.flatten=buffers.flatten
  rw [line_start_delivered,List.nil_append]

theorem chain_run (hlow : 64 ≤ maximum) (hhigh : maximum≤65536) {l : List Event}
    (h : s.Inv False maximum buffers fin N) (hr : Run (Chain.Step cap maximum) s l t) :
    ∃L, t.Inv (Event.fault∈l) maximum buffers fin L ∧
      (Event.fault∈l ∨ l.countP (·≠.again)+L≤N) := by
  induction hr with
  | refl => exact ⟨N,by simpa using h,.inr (by simp)⟩
  | @snoc l t u e _ hs ih =>
    obtain ⟨L,hinv,hcount⟩ := ih
    obtain ⟨K,hinv',hspent⟩ := chain_step hlow hhigh hinv hs
    have hfault : (Event.fault∈l ∨ e=.fault) ↔ Event.fault∈l++[e] := by
      simp [eq_comm]
    simp only [hfault] at hinv' hspent
    refine ⟨K,hinv',?_⟩
    rcases hspent with hF|hspent
    · exact .inl hF
    · refine hcount.imp (fun hF => List.mem_append_left _ hF) (fun hcount => ?_)
      rw [List.countP_append]
      unfold Spent at hspent
      split_ifs at hspent with he
      · have hnone : [e].countP (·≠.again)=0 := by simp [he]
        omega
      · have hone : [e].countP (·≠.again)=1 := by simp [he]
        omega

theorem flows_ended (line : Line) (X D : List UInt8) (M : Nat)
    (h : line.Flows False maximum X D M) (he : line.receiver.conn.readEnded) : X=[] ∧ D=[] := by
  induction line generalizing X M with
  | far r =>
    obtain ⟨hd,-⟩ := h
    cases hd with
    | idle hrest => exact ⟨(rest_ended hrest he).1,(rest_ended hrest he).2.1⟩
    | reading _ _ _ _ hrest => exact ⟨(rest_ended (hrest he) he).1,(rest_ended (hrest he) he).2.1⟩
    | broken hF | stopped hF => exact hF.elim
  | hop turn out rest ih =>
    obtain ⟨Y,N,L,hrel,hflow,-⟩ := h
    obtain ⟨hout,hD⟩ := ih _ _ hflow he
    obtain ⟨-,hY⟩ := List.append_eq_nil_iff.mp hout
    cases hrel with
    | ended => exact ⟨rfl,hD⟩
    | pumping _ _ _ hio =>
      obtain ⟨ho,rfl⟩ := List.append_eq_nil_iff.mp hY
      exact ⟨by rw [hio ho,List.append_nil],hD⟩
    | broken hF | stopped hF => exact hF.elim

theorem receiver_progress (hcap : 0<cap) {D : List UInt8}
    (h : r.Delivers False maximum (inp++Y) D M) (hc : r.conn.readEnded=false) :
    (∃inq next, Line.Step cap maximum inp (.far r) .work inq next) ∨
      (inp=[] ∧ Y≠[] ∧ (Y.length≤5→D=[])) := by
  have hevent : ∀turn log, Receiver.event ⟨r.conn,turn,log⟩=.work := by simp [Receiver.event,hc]
  generalize hX : inp++Y=X at h
  cases h with
  | @idle c log _ _ _ hrest =>
    left
    rw [← hevent .idle log]
    exact ⟨_,_,.call 1 Nat.one_pos⟩
  | @reading c log i X D k N _ p a hexact hstops hr hg he hM =>
    rcases hexact.progress hcap inp [] with ⟨rfl,-,-⟩|⟨q,inq,outq,hstep⟩|⟨rfl,hi⟩|hout
    · left
      rw [← hevent (.running (.done a)) log]
      exact ⟨_,_,.finish⟩
    · left
      have hin : inp<+:i++X := by
        rw [← hX]
        exact List.prefix_append inp Y
      obtain ⟨-,w,-,u,-,-,-,-,hw,rfl,-⟩ := hexact.step hstep hin
      obtain ⟨rfl,-⟩ := List.append_eq_nil_iff.mp hw.symm
      rw [← hevent (.running p) log]
      exact ⟨_,_,.work hstep⟩
    · rw [List.nil_append] at hX
      refine .inr ⟨rfl,by simp [hX,hi],?_⟩
      intro hlen
      rw [hX,List.length_append] at hlen
      have hpos := List.length_pos_of_ne_nil hi
      cases hr with
      | ended _ hended =>
        cases hg with
        | data _ hopen => simp [hopen] at hended
        | ended => rfl
      | @opened ps =>
        have hstream := stream_length ps
        omega
    · exact absurd rfl hout
  | broken hF | stopped hF => exact hF.elim

theorem relays_progress (hcap : 0<cap) {turn : Turn (Except IoError Bool)} {X : List UInt8}
    {rest : Line} (h : Relays False maximum turn (inp++X) Y M) :
    (∃inq next, Line.Step cap maximum inp (.hop turn [] rest) .work inq next) ∨
      (inp=[] ∧ (X=[]→Y=[]) ∧ (X.length≤5→Y.length≤5)) := by
  generalize hW : inp++X=W at h
  cases h with
  | ended =>
    obtain ⟨rfl,rfl⟩ := List.append_eq_nil_iff.mp hW
    simp
  | @pumping i o V k N _ b p hexact hstops hV hio ho hM =>
    rcases hexact.progress hcap inp [] with ⟨rfl,-,-⟩|⟨q,inq,outq,hstep⟩|⟨rfl,hi⟩|hout
    · exact .inl ⟨_,_,.pumped⟩
    · exact .inl ⟨_,_,.pump hstep⟩
    · rw [List.nil_append] at hW
      refine .inr ⟨rfl,by simp [hW,hi],?_⟩
      intro hlen
      rw [hW,List.length_append] at hlen
      have hpos := List.length_pos_of_ne_nil hi
      cases hV with
      | @more ps =>
        have hstream := stream_length ps
        omega
      | last =>
        rw [List.append_nil]
        exact ho rfl
    · exact absurd rfl hout
  | broken hF | stopped hF => exact hF.elim

/-- Without failures, what lies behind a connection can go on unless the connection is empty; then
it has returned all but what the FIN frame still withholds. -/
theorem line_progress (hcap : 0<cap) (line : Line) (inp Y D : List UInt8) (M : Nat)
    (h : line.Flows False maximum (inp++Y) D M) :
    (∃inq next, Line.Step cap maximum inp line .work inq next) ∨
      (inp=[] ∧ (Y=[]→line.receiver.conn.readEnded) ∧ (Y.length≤5→D=[])) := by
  induction line generalizing inp Y M with
  | far r =>
    cases hc : r.conn.readEnded with
    | true =>
      obtain ⟨hX,hD⟩ := flows_ended (.far r) _ D M h hc
      exact .inr ⟨(List.append_eq_nil_iff.mp hX).1,fun _ => hc,fun _ => hD⟩
    | false =>
      refine (receiver_progress hcap h.1 hc).imp id (fun hstuck => ?_)
      exact ⟨hstuck.1,fun hY => absurd hY hstuck.2.1,hstuck.2.2⟩
  | hop turn out rest ih =>
    obtain ⟨Z,N,L,hrel,hflow,-⟩ := h
    rcases ih out Z L hflow with ⟨outq,next,hstep⟩|⟨rfl,hended,hD⟩
    · exact .inl ⟨_,_,.onward hstep⟩
    · refine (relays_progress hcap hrel).imp id (fun hstuck => ?_)
      exact ⟨hstuck.1,fun hY => hended (hstuck.2.1 hY),fun hY => hD (hstuck.2.2 hY)⟩

theorem reread_progress (hcap : 0<cap) (line : Line) (inp Y D : List UInt8) (M : Nat)
    (h : line.Flows False maximum (inp++Y) D M) (he : line.receiver.conn.readEnded)
    (hp : ∃p, line.receiver.turn=.running p) :
    ∃inq next, Line.Step cap maximum inp line .again inq next := by
  induction line generalizing inp Y M with
  | far r =>
    obtain ⟨hX,-⟩ := flows_ended (.far r) _ D M h he
    obtain ⟨hd,-⟩ := h
    obtain ⟨rfl,-⟩ := List.append_eq_nil_iff.mp hX
    generalize [] ++Y=W at hd hX
    cases hd with
    | idle => simp [Line.receiver] at hp
    | @reading c log i X D k N _ p a hexact hstops hr hg hrest hM =>
      have hevent : ∀turn, Receiver.event ⟨c,turn,log⟩=.again := by
        intro turn
        have hc : c.readEnded := he
        simp [Receiver.event,hc]
      obtain ⟨rfl,-⟩ := List.append_eq_nil_iff.mp hX
      rcases hexact.progress hcap [] [] with ⟨rfl,-,-⟩|⟨q,inq,outq,hstep⟩|⟨-,hi⟩|hout
      · rw [← hevent (.running (.done a))]
        exact ⟨_,_,.finish⟩
      · obtain ⟨-,w,-,u,-,-,-,-,hw,rfl,-⟩ := hexact.step (x := []) hstep List.nil_prefix
        obtain ⟨rfl,-⟩ := List.append_eq_nil_iff.mp hw.symm
        rw [← hevent (.running p)]
        exact ⟨_,_,.work hstep⟩
      · exact absurd rfl hi
      · exact absurd rfl hout
    | broken hF | stopped hF => exact hF.elim
  | hop turn out rest ih =>
    obtain ⟨Z,N,L,-,hflow,-⟩ := h
    obtain ⟨outq,next,hstep⟩ := ih out Z L hflow he hp
    exact ⟨_,_,.onward hstep⟩

/-- Every call has returned, every byte has been delivered and, after a closing call, the end has
been reported. -/
def Chain.Settled (buffers : List (List UInt8)) (fin : Bool) (s : Chain) : Prop :=
  s.sender.turn=.idle ∧ s.sender.calls=[] ∧ s.line.receiver.delivered=buffers.flatten ∧
    (fin→([],some .eof)∈s.line.receiver.log)

theorem flows_orderly (line : Line) (X D : List UInt8) (M : Nat)
    (h : line.Flows False maximum X D M) : line.receiver.Orderly := by
  induction line generalizing X M with
  | far r => exact h.2.resolve_left id
  | hop turn out rest ih =>
    obtain ⟨Y,N,L,-,hflow,-⟩ := h
    exact ih _ _ hflow

theorem orderly_delivered {data : List (List UInt8)} {ends : Nat}
    (h : r.log=data.map (fun b => (b,none))++List.replicate ends ([],some .eof)) :
    r.delivered=data.flatten := by
  have hfst : (Prod.fst∘fun b : List UInt8 => (b,(none : Option IoError)))=id := rfl
  simp [Receiver.delivered,h,hfst]

theorem sends_nil {ks : List Call} (h : Sends fin maximum c ks [] N) : fin ∧ ks=[] := by
  generalize hY : ([] : List UInt8)=Y at h
  cases h with
  | ended hf => exact ⟨hf,rfl⟩
  | opened => exact absurd hY.symm (stream_ne_nil _)

theorem emits_nil {s : Sender} {R : List Sent} (h : s.Emits False fin maximum [] R M) :
    fin ∧ s.calls=[] := by
  generalize hY : ([] : List UInt8)=Y at h
  cases h with
  | idle h =>
    rw [← hY] at h
    exact sends_nil h
  | sending hp hs hr hsends hM =>
    obtain ⟨-,rfl⟩ := List.append_eq_nil_iff.mp hY.symm
    exact sends_nil hsends
  | broken hF | stopped hF => exact hF.elim

theorem sends_last (h : Sends fin maximum c [] Y N) : Y.length≤5 ∧ (fin→Y=[]) := by
  generalize hk : ([] : List Call)=ks at h
  cases h with
  | ended hf => simp
  | @opened buffers =>
    cases buffers with
    | nil =>
      cases fin with
      | false => exact ⟨le_rfl,by simp⟩
      | true => simp [script] at hk
    | cons b bs => simp [script] at hk

theorem chain_progress (hcap : 0<cap) (h : s.Inv False maximum buffers fin N)
    (hs : ¬s.Settled buffers fin) : ∃t, Chain.Step cap maximum s .work t := by
  obtain ⟨Y,R,D,M,L,hemits,hflows,hdel,-,-⟩ := h
  obtain ⟨sender,out,line⟩ := s
  have hline := line_progress hcap line out Y D L hflows
  generalize hY : Y=Z at hemits
  cases hemits with
  | @idle c ks rs _ _ hsends =>
    cases ks with
    | cons k ks => exact ⟨_,.send .call⟩
    | nil =>
      obtain ⟨hlen,hfin⟩ := sends_last hsends
      rcases hline with ⟨outq,next,hstep⟩|⟨hout,hended,hD⟩
      · exact ⟨_,.behind hstep⟩
      · have hall : line.receiver.delivered=buffers.flatten := by
          rw [← hdel,hD (by rw [hY]; exact hlen)]
          simp
        refine absurd ⟨rfl,rfl,hall,?_⟩ hs
        intro hf
        have hreported := hended (by rw [hY]; exact hfin hf)
        obtain ⟨data,ends,hlog,-,hends⟩ := flows_orderly line _ _ _ hflows
        have hpos : ends≠0 := (hends.mpr hreported).ne'
        simp [hlog,hpos]
  | @sending c ks rs o Z k K _ p r hexact _ _ _ _ =>
    rcases hexact.progress hcap [] out with ⟨rfl,-,-⟩|⟨q,inq,outq,hstep⟩|⟨-,hi⟩|hout
    · exact ⟨_,.send .finish⟩
    · obtain ⟨taken,-,-,-,-,-,-,hin,-⟩ := hexact.step (x := []) hstep List.nil_prefix
      obtain ⟨-,rfl⟩ := List.append_eq_nil_iff.mp hin.symm
      exact ⟨_,.send (.work hstep)⟩
    · exact absurd rfl hi
    · rcases hline with ⟨outq,next,hstep⟩|⟨hnil,-⟩
      · exact ⟨_,.behind hstep⟩
      · exact absurd hnil hout
  | broken hF | stopped hF => exact hF.elim

/-- The framed stream is transparent. In every run the returned bytes are a prefix of the written
ones. In a run without failures moreover the calls of the writer return the full lengths, the reads
return data and then only the end, the end comes after the last byte and only if the closing call was
made, the steps other than reads after the end are bounded, and unless everything has been delivered
another step is possible. -/
theorem framed_stream_transparent (maximum : Nat) (hlow : 64 ≤ maximum) (hhigh : maximum≤65536)
    (cap : ℕ∞) (hcap : 0<cap) (hops : Nat) (buffers : List (List UInt8)) (fin : Bool) :
    ∃bound, ∀(l : List Event) (s : Chain),
      Run (Chain.Step cap maximum) (Chain.start maximum hops buffers fin) l s→
      s.line.receiver.delivered<+:buffers.flatten ∧
      (Event.fault∉l→
        s.sender.results<+:buffers.map (fun b => .wrote b.length none)++
          (if fin then [.closed none] else []) ∧
        (∃(data : List (List UInt8)) (ends : Nat),
          s.line.receiver.log=data.map (fun b => (b,none))++List.replicate ends ([],some .eof) ∧
          (∀b∈data, b≠[]) ∧
          (0<ends→data.flatten=buffers.flatten ∧ fin ∧ s.sender.calls=[])) ∧
        l.countP (·≠.again)≤bound ∧
        (¬s.Settled buffers fin→∃t, Chain.Step cap maximum s .work t) ∧
        (s.line.receiver.conn.readEnded→(∃p, s.line.receiver.turn=.running p)→
          ∃t, Chain.Step cap maximum s .again t)) := by
  obtain ⟨N,hstart⟩ := chain_start hlow hhigh hops buffers fin
  refine ⟨N,fun l s hrun => ?_⟩
  obtain ⟨L,hinv,hcount⟩ := chain_run hlow hhigh hstart hrun
  refine ⟨?_,fun hfault => ?_⟩
  · obtain ⟨Y,R,D,-,-,-,-,hdel,-⟩ := hinv
    exact ⟨D,hdel⟩
  simp only [hfault] at hinv
  have hcount := hcount.resolve_left hfault
  have hprogress := chain_progress hcap hinv
  obtain ⟨Y,R,D,M,K,hemits,hflows,hdel,hres,-⟩ := hinv
  have hresults : (script buffers fin).map Call.result=
      buffers.map (fun b => .wrote b.length none)++(if fin then [.closed none] else []) := by
    have hcall : Call.result∘Call.write=fun b => Sent.wrote b.length none := rfl
    cases fin <;> simp [script,Call.result,hcall]
  refine ⟨?_,?_,by omega,hprogress,?_⟩
  · rw [← hresults,← hres.resolve_left id]
    exact List.prefix_append _ _
  · obtain ⟨data,ends,hlog,hdata,hends⟩ := flows_orderly _ _ _ _ hflows
    refine ⟨data,ends,hlog,hdata,fun hpos => ?_⟩
    obtain ⟨hout,hD⟩ := flows_ended _ _ _ _ hflows (hends.mp hpos)
    obtain ⟨-,rfl⟩ := List.append_eq_nil_iff.mp hout
    rw [hD,List.append_nil,orderly_delivered hlog] at hdel
    exact ⟨hdel,emits_nil hemits⟩
  · intro hended hreading
    obtain ⟨inq,next,hstep⟩ := reread_progress hcap _ _ _ _ _ hflows hended hreading
    exact ⟨_,.behind hstep⟩

def someBuffers : List (List UInt8) := [[7],[],List.replicate 100 8]

/-- Through two bridges, with an empty buffer and one longer than a frame: the steps without
failures end, and then everything has been delivered. -/
theorem framed_stream_delivered : ∃l s,
    Run (Chain.Step 3 64) (Chain.start 64 2 someBuffers true) l s ∧ Event.fault∉l ∧
      s.Settled someBuffers true ∧
      s.line.receiver.delivered=7::List.replicate 100 8 := by
  obtain ⟨bound,h⟩ := framed_stream_transparent 64 (by decide) (by decide) 3 (by decide) 2
    someBuffers true
  -- a run goes on until it has settled or has taken any given number of steps
  have hgo : ∀n, ∃l s, Run (Chain.Step 3 64) (Chain.start 64 2 someBuffers true) l s ∧
      (∀e∈l, e=Event.work) ∧ (s.Settled someBuffers true ∨ l.length=n) := by
    intro n
    induction n with
    | zero => exact ⟨[],_,.refl,by simp,.inr rfl⟩
    | succ n ih =>
      obtain ⟨l,s,hrun,hwork,hsettled|hlength⟩ := ih
      · exact ⟨l,s,hrun,hwork,.inl hsettled⟩
      · by_cases hsettled : s.Settled someBuffers true
        · exact ⟨l,s,hrun,hwork,.inl hsettled⟩
        have hfault : Event.fault∉l := fun hf => by cases hwork _ hf
        obtain ⟨t,hstep⟩ := ((h l s hrun).2 hfault).2.2.2.1 hsettled
        refine ⟨_,t,hrun.snoc hstep,?_,.inr (by simp [hlength])⟩
        simpa [or_imp,forall_and] using hwork
  obtain ⟨l,s,hrun,hwork,hend⟩ := hgo (bound+1)
  have hfault : Event.fault∉l := fun hf => by cases hwork _ hf
  have hsettled := hend.resolve_right fun hlength => by
    have hcount : l.countP (·≠.again)=l.length :=
      List.countP_eq_length.mpr fun e he => by simp [hwork e he]
    have hbound := ((h l s hrun).2 hfault).2.2.1
    omega
  exact ⟨l,s,hrun,hfault,hsettled,hsettled.2.2.1⟩

end TuneX.Agent.Relay
