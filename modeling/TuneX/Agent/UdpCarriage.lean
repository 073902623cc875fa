import TuneX.Agent.RelayFrame
import TuneX.Agent.Datagrams
import TuneX.Agent.Validate

namespace TuneX.Agent.Carriage

open Framework Relay Datagram

/-- `parseRelayMessage` of a Profile that was read from a text of `rawBytes` bytes. -/
def parseRelayMessage (rawBytes maxBytes : Nat) (p : ProfileConfig) : Except String Unit :=
  if min maxBytes 4096 < rawBytes then .error "RESOURCE_LIMIT: JSON body too large"
  else if !profileOk p then .error "INVALID_CONFIG: Relay contract rejected"
  else if p.maxFrameBytes<p.maxUdpDatagramBytes ∨ !sortedProtocols p.protocols then
    .error "INVALID_CONFIG: Canonical bounded Relay Profile required"
  else .ok ()

/-- One round of `run` for a datagram of the queue; the answer is the credit after it. -/
def run (maximum : Nat) (credit : Int) (packet : List UInt8) : Code (Except IoError Int) := do
  match ← Proc.allow with
  | some err => return .error err
  | none =>
    match ← writeFrame frameUDP packet .udp maximum with
    | some err => return .error err
    | none => return .ok (min (4*maximum) (credit+3*weight packet.length))

/-- One round of `replies`; the answer is the credit after it and what is written to the client. -/
def replies (maximum : Nat) (credit : Int) : Code (Except IoError (Int×Option (List UInt8))) := do
  match ← readFrame .udp maximum with
  | .error err => return .error err
  | .ok (kind,packet) =>
    if kind=frameClose then return .error .eof
    else
      match ← Proc.allow with
      | some err => return .error err
      | none =>
        if weight packet.length ≤ credit then
          return .ok (credit-weight packet.length,some packet)
        else return .ok (credit,none)

def datagram (packet : List UInt8) : Frame := ⟨frameUDP,packet⟩

section Codec

variable {maximum : Nat} {packet : List UInt8}

theorem frameValid_datagram (hlow : 64 ≤ maximum) (hhigh : maximum≤65536)
    (hp : packet.length ≤ maximum) : frameValid frameUDP packet.length .udp maximum := by
  simp [frameValid,hlow,hhigh,hp,frameUDP,frameTCP]

theorem frameValid_low (hlow : maximum<64) (kind : UInt8) (size : Nat) (protocol : Protocol) :
    frameValid kind size protocol maximum=false := by
  simp [frameValid,hlow]

theorem writeFrame_low (hlow : maximum<64) :
    writeFrame frameUDP packet .udp maximum=.done (some refused) := by
  rw [writeFrame,frameValid_low hlow]
  rfl

theorem run_exact (hv : frameValid frameUDP packet.length .udp maximum) (credit : Int) :
    (run maximum credit packet).Exact [] (datagram packet).bytes 1
      (.ok (min (4*maximum) (credit+3*weight packet.length))) := by
  apply allowed_exact
  have hwrite := writeFrame_exact (f := datagram packet) hv
  exact hwrite.seq (Proc.exact_done _ 0) rfl (List.append_nil _) le_rfl (.inr rfl)

theorem replies_exact (hv : frameValid frameUDP packet.length .udp maximum) {credit : Int}
    (hc : weight packet.length ≤ credit) :
    (replies maximum credit).Exact (datagram packet).bytes [] 1
      (.ok (credit-weight packet.length,some packet)) := by
  have hread := readFrame_exact (f := datagram packet) hv
  refine hread.seq (d := 1) ?_ (List.append_nil _) rfl (by omega) (.inl rfl)
  have hk : (datagram packet).kind≠frameClose := by
    show frameUDP≠frameClose
    decide
  simp only [if_neg hk]
  apply allowed_exact
  have hp : weight (datagram packet).payload.length ≤ credit := hc
  simp only [if_pos hp]
  exact Proc.exact_done _ 0

end Codec

/-- Replies are read only once the peer is connected. -/
structure Unspent (maximum : Nat) (a : Association) : Prop where
  idle : a.worker=.connecting→a.reading=false ∧ a.sending=none
  credit : (a.worker=.connecting ∨ a.reading)→a.replied=[]→a.sending=none→(maximum : Int)≤a.credit

namespace Unspent

variable {maximum : Nat} {a b : Association} {e : Datagram.Event}

theorem fresh (maximum : Nat) : Unspent maximum (Datagram.Relay.fresh maximum) :=
  ⟨fun _ => ⟨rfl,rfl⟩,fun _ _ _ => le_refl _⟩

section

variable (h : Unspent maximum a)
include h

theorem enqueue (depth size : Nat) : Unspent maximum (a.enqueue maximum depth size) := by
  unfold Association.enqueue
  split_ifs
  · exact h
  · exact ⟨h.idle,h.credit⟩

theorem connect {ok : Bool} (hb : a.connect ok=some b) : Unspent maximum b := by
  unfold Association.connect at hb
  split_ifs at hb with hw hok
  · cases hb
    have hw : a.worker=.connecting := not_not.mp hw
    refine ⟨nofun,fun hl => ?_⟩
    have hreading : a.reading := hl.resolve_left nofun
    rw [(h.idle hw).1] at hreading
    cases hreading
  · cases hb
    have hw : a.worker=.connecting := not_not.mp hw
    exact ⟨nofun,fun _ => h.credit (.inl hw)⟩

theorem forward {admitted written : Bool} (hb : Ingress.forward a admitted written=some b) :
    Unspent maximum b := by
  unfold Ingress.forward at hb
  split at hb
  · next n rest hw _ _ =>
    have hreading (hl : a.reading) := h.credit (.inr hl)
    split_ifs at hb
    · cases hb
      exact ⟨nofun,fun hl => hreading (hl.resolve_left nofun)⟩
    · cases hb
      refine ⟨fun hc => absurd (hw.symm.trans hc) nofun,fun hl => hreading ?_⟩
      exact hl.resolve_left fun hc => absurd (hw.symm.trans hc) nofun
  · cases hb

theorem settle (hb : Ingress.settle maximum a=some b) : Unspent maximum b := by
  obtain ⟨n,_,rfl⟩ := Option.map_eq_some_iff.mp hb
  refine ⟨h.idle,fun hl hr hs => ?_⟩
  have hcredit := h.credit hl hr hs
  have hn := weight_pos n
  show (maximum : Int) ≤ min (4*(maximum : Int)) (a.credit+3*weight n)
  omega

theorem reply {size : Nat} {admitted : Bool} (hb : Ingress.reply maximum a size admitted=some b) :
    Unspent maximum b := by
  unfold Ingress.reply at hb
  split_ifs at hb with hoff hbad
  · cases hb
    refine ⟨fun hw => ⟨rfl,(h.idle hw).2⟩,fun hl => ?_⟩
    exact h.credit (hl.imp_right nofun)
  · cases hb
    have hreading : a.reading := by
      simp only [Bool.or_eq_true,Bool.not_eq_eq_eq_not,not_or] at hoff
      simpa using hoff.1
    have hw : a.worker≠.connecting := fun hw => by
      rw [(h.idle hw).1] at hreading
      cases hreading
    unfold Relay.pay
    split_ifs
    · exact ⟨fun hc => absurd hc hw,nofun⟩
    · exact h

theorem send {written : Bool} (hb : Relay.send a written=some b) : Unspent maximum b := by
  unfold Relay.send at hb
  split at hb
  · cases hb
  · next n hs =>
    have hw : a.worker≠.connecting := fun hw => by
      rw [(h.idle hw).2] at hs
      cases hs
    split_ifs at hb
    · cases hb
      exact ⟨fun hc => absurd hc hw,fun _ hr => absurd hr (by simp)⟩
    · cases hb
      exact ⟨fun hc => absurd hc hw,fun hl => hl.elim (fun hc => absurd hc hw) nofun⟩

end

theorem exec (hb : Ingress.exec maximum a e=some b) (h : Unspent maximum a) : Unspent maximum b := by
  cases e with
  | receive size =>
    cases hb
    exact h.enqueue _ _
  | connect ok => exact h.connect hb
  | forward admitted written => exact h.forward hb
  | settle => exact h.settle hb
  | reply size admitted written => exact h.reply hb
  | send written => exact h.send hb
  | expire =>
    cases hb
    exact ⟨h.idle,h.credit⟩
  | deliver written => cases hb

end Unspent

/-- The Profile's datagrams go through: the codec returns what was written, the queue takes every
datagram it has room for and `run` forwards it, and an association that has forwarded one and not
answered yet delivers a reply of any length. -/
structure Carries (maximum : Nat) : Prop where
  framed : ∀packet : List UInt8, packet.length ≤ maximum→
    (writeFrame frameUDP packet .udp maximum).Exact [] (datagram packet).bytes 0 none ∧
    (readFrame .udp maximum).Exact (datagram packet).bytes [] 0 (.ok (frameUDP,packet))
  forwards : ∀(a : Association) (packet : List UInt8), packet.length ≤ maximum→
    (a.queue.length < Ingress.queueDepth→
      (a.enqueue maximum Ingress.queueDepth packet.length).queue=a.queue++[packet.length]) ∧
    (run maximum a.credit packet).Exact [] (datagram packet).bytes 1
      (.ok (Datagram.Relay.book maximum a packet.length).credit)
  answers : ∀l a, Run (Engine.Step (.ingress maximum)) (Engine.fresh (.ingress maximum)) l a→
    a.forwarded≠[]→a.reading→a.replied=[]→a.sending=none→
    ∀packet : List UInt8, packet.length ≤ maximum→
      (replies maximum a.credit).Exact (datagram packet).bytes [] 1
        (.ok (a.credit-weight packet.length,some packet))

theorem weight_le {n maximum : Nat} (hlow : 64 ≤ maximum) (hn : n ≤ maximum) :
    weight n ≤ maximum := by
  show max (n : Int) 64 ≤ maximum
  omega

theorem carries_of_low {maximum : Nat} (hlow : 64 ≤ maximum) (hhigh : maximum≤65536) :
    Carries maximum where
  framed packet hp :=
    have hv := frameValid_datagram hlow hhigh hp
    ⟨writeFrame_exact (f := datagram packet) hv,readFrame_exact (f := datagram packet) hv⟩
  forwards a packet hp := by
    refine ⟨fun hroom => ?_,run_exact (frameValid_datagram hlow hhigh hp) a.credit⟩
    have htaken : ¬(maximum<packet.length ∨ Ingress.queueDepth ≤ a.queue.length) := by omega
    rw [Association.enqueue,if_neg htaken]
  answers l a hr _ hreading hreplied hsending packet hp := by
    have hunspent := hr.invariant (Unspent maximum) (fun _ _ _ hs h => h.exec hs) (.fresh maximum)
    have hcredit := hunspent.credit (.inr hreading) hreplied hsending
    have hweight := weight_le hlow hp
    exact replies_exact (frameValid_datagram hlow hhigh hp) (hweight.trans hcredit)

theorem not_carries {maximum : Nat} (hlow : maximum<64) : ¬Carries maximum := by
  intro h
  have hframed := (h.framed [] (Nat.zero_le _)).1
  rw [writeFrame_low hlow] at hframed
  cases hframed.2.2

theorem parseRelayMessage_bounds {rawBytes maxBytes : Nat} {p : ProfileConfig}
    (h : parseRelayMessage rawBytes maxBytes p=.ok ()) : p.maxUdpDatagramBytes≤16384 := by
  unfold parseRelayMessage at h
  split_ifs at h with hraw hok hcanonical
  have hok : profileOk p := by simpa using hok
  simp only [profileOk,bool_ok] at hok
  exact hok.1.1.2

/-- An accepted Profile carries its datagrams exactly when its limit is not below the smallest
one the frame codec takes. -/
theorem profile_carries_datagrams {rawBytes maxBytes : Nat} {p : ProfileConfig}
    (h : parseRelayMessage rawBytes maxBytes p=.ok ()) (_hu : .udp∈p.protocols) :
    Carries p.maxUdpDatagramBytes ↔ 64≤p.maxUdpDatagramBytes := by
  have hhigh := parseRelayMessage_bounds h
  constructor
  · intro hc
    by_contra hlow
    exact not_carries (by omega) hc
  · intro hlow
    exact carries_of_low hlow (by omega)

def profile (datagramBytes : Nat) : ProfileConfig where
  driver := "native.relay.v1"
  wireVersion := 1
  security := "mutual-tls13"
  protocols := [.tcp,.udp]
  handshakeTimeoutSeconds := 5
  idleTimeoutSeconds := 60
  maxFrameBytes := 65536
  maxUdpDatagramBytes := datagramBytes
  maxConnectionsPerNode := 1024

theorem profile_carries_datagrams_default :
    parseRelayMessage (profileSize (profile 16384)) 4096 (profile 16384)=.ok () ∧
      Carries 16384 := by
  have h : parseRelayMessage (profileSize (profile 16384)) 4096 (profile 16384)=.ok () := by decide
  exact ⟨h,(profile_carries_datagrams h (by decide)).mpr (by decide)⟩

/-- A limit of 32 bytes is accepted, and then not even an empty datagram is sent. -/
theorem profile_refuses_datagrams :
    parseRelayMessage (profileSize (profile 32)) 4096 (profile 32)=.ok () ∧
      .udp∈(profile 32).protocols ∧
      writeFrame frameUDP [] .udp (profile 32).maxUdpDatagramBytes=.done (some refused) ∧
      ¬Carries (profile 32).maxUdpDatagramBytes :=
  ⟨by decide,by decide,writeFrame_low (by decide),not_carries (by decide)⟩

end TuneX.Agent.Carriage
