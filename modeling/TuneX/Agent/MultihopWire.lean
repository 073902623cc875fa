import TuneX.Agent.Multihop

namespace TuneX.Agent

open Framework Framework.Json

/-- The open message of the multi-hop wire, which also carries the path it belongs to. -/
structure MultihopOpen where
  message : Open
  pathDigest : String
  deriving DecidableEq

def multihopOpenSize (m : MultihopOpen) : Nat :=
  objectSize [("wireVersion",numberSize m.message.wireVersion),("type",textSize m.message.type),
    ("action",textSize m.message.action),("requestId",textSize m.message.requestId),
    ("binding",bindingSize m.message.binding),("pathDigest",textSize m.pathDigest)]

def maxControlBytes : Nat := 4096

/-- The binding of the edge towards the next hop, or from the one before. There is no edge
before the first hop nor after the last one. -/
def wireBinding (h : HopConfig) (outbound : Bool) : Option Binding :=
  if outbound then hopBinding h h.hopIndex
  else if h.hopIndex=0 then none
  else hopBinding h (h.hopIndex-1)

def wireDigest (lib : Library) (h : HopConfig) (b : Binding) : String :=
  lib.digest (.wire b h.pathDigest)

/-- `writeOpen` of a hop; the bytes on the wire decode to this message. -/
def writeOpen (h : HopConfig) (o : Open) : Except String MultihopOpen :=
  let m : MultihopOpen := ⟨o,h.pathDigest⟩
  if multihopOpenSize m<2 ∨ maxControlBytes < multihopOpenSize m then
    .error "RESOURCE_LIMIT: Multi-hop control size"
  else .ok m

def readOpen (h : HopConfig) (m : MultihopOpen) : Except String Open := do
  reject (multihopOpenSize m<2 ∨ maxControlBytes < multihopOpenSize m)
    "RESOURCE_LIMIT: Relay control message size"
  reject (m.pathDigest≠h.pathDigest) "AUTHORIZATION_DENIED: Multi-hop path differs"
  parseOpen m.message
  return m.message

def validateOpen (lib : Library) (o : Open) (expected : Binding) (active : Bool)
    (allow : Except String Unit) : Except String Unit := do
  parseOpen o
  reject (!active) "DOWNSTREAM_NOT_ACTIVE"
  allow
  reject (lib.digest (.binding o.binding)≠lib.digest (.binding expected)) "STALE_DEPLOYMENT"

/-- The open message a hop sends downstream when it dials for a request. -/
def dialOpen (h : HopConfig) (action requestId : String) : Except String MultihopOpen :=
  match wireBinding h true with
  | none => .error "runtime error: index out of range"
  | some b => writeOpen h ⟨1,"open",action,requestId,b⟩

/-- How a hop answers an open message from its upstream neighbour. -/
def serveOpen (lib : Library) (h : HopConfig) (active : Bool) (allow : Except String Unit)
    (m : MultihopOpen) : Except String Unit := do
  let o ← readOpen h m
  match wireBinding h false with
  | none => .error "runtime error: index out of range"
  | some expected => validateOpen lib o expected active allow

/-- What the configurations of one path share: all but the position and the egress policy of
each hop. -/
def HopConfig.shared (h : HopConfig) : HopConfig :=
  { h with
    hopIndex := 0
    egressPolicyRevision := 0
    allowedDestinationCidrs := []
    allowMetadataTargets := false }

theorem hopBinding_shared (h : HopConfig) (edge : Nat) :
    hopBinding h.shared edge=hopBinding h edge := rfl

variable {h k : HopConfig}

theorem pathDigest_shared (hs : h.shared=k.shared) : h.pathDigest=k.pathDigest := by
  show h.shared.pathDigest=k.shared.pathDigest
  rw [hs]

theorem wireBinding_neighbour (hs : h.shared=k.shared)
    (hi : k.hopIndex=h.hopIndex+1) : wireBinding h true=wireBinding k false := by
  have hne : k.hopIndex≠0 := by omega
  have hedge : k.hopIndex-1=h.hopIndex := by omega
  rw [wireBinding,wireBinding,if_pos rfl,if_neg (by simp),if_neg hne,hedge,← hopBinding_shared h,
    hs,hopBinding_shared]

theorem wireBinding_some (hi : h.hopIndex+1<h.path.length) :
    ∃up down, h.path[h.hopIndex]?=some up ∧ h.path[h.hopIndex+1]?=some down ∧
      wireBinding h true=some (edgeBinding h up down) := by
  have hup : h.path[h.hopIndex]?=some h.path[h.hopIndex] := List.getElem?_eq_getElem (by omega)
  have hdown : h.path[h.hopIndex+1]?=some h.path[h.hopIndex+1] := List.getElem?_eq_getElem hi
  refine ⟨_,_,hup,hdown,?_⟩
  simp [wireBinding,hopBinding,hup,hdown]

theorem multihopOpen_size {m : MultihopOpen} (h : openOk m.message) (hd : digestOk m.pathDigest) :
    multihopOpenSize m≤1655 := by
  have hopen := openOk_size h
  have hdigest := digestOk_size hd
  have hsum : multihopOpenSize m=openSize m.message+(14+textSize m.pathDigest) := by
    have hlength : "pathDigest".length=10 := by decide
    simp only [multihopOpenSize,openSize,objectSize,listSize,List.map_cons,List.map_nil,
      List.sum_cons,List.sum_nil,List.length_cons,List.length_nil]
    omega
  omega

theorem multihopOpen_pos (m : MultihopOpen) : 2 ≤ multihopOpenSize m := by
  unfold multihopOpenSize objectSize listSize
  omega

theorem dialOpen_served {lib : Library} (hh : hopConfigOk h)
    (hpath : PathChecked lib h.path) (hs : h.shared=k.shared) (hi : k.hopIndex=h.hopIndex+1)
    (hk : k.hopIndex<k.path.length) {action requestId : String}
    (haction : action∈["probe","tcp","udp"]) (hid : idOk requestId) :
    ∃m, dialOpen h action requestId=.ok m ∧ multihopOpenSize m ≤ maxControlBytes ∧
      readOpen k m=.ok m.message ∧ serveOpen lib k true (.ok ()) m=.ok () := by
  have hlen : h.path.length=k.path.length := congrArg (fun c => c.path.length) hs
  obtain ⟨up,down,hup,hdown,hb⟩ := wireBinding_some (h := h) (by omega)
  have hok : openOk ⟨1,"open",action,requestId,edgeBinding h up down⟩ := by
    have hbinding := edgeBinding_ok hh (List.mem_of_getElem? hup) (List.mem_of_getElem? hdown)
    simpa [openOk,hid,hbinding] using haction
  have hopen : parseOpen ⟨1,"open",action,requestId,edgeBinding h up down⟩=.ok () :=
    parseOpen_ok hok (hpath.distinct (by omega) hup hdown)
  have hdigest : digestOk h.pathDigest := by
    simp only [hopConfigOk,Bool.and_eq_true] at hh
    exact hh.1.1.1.1.1.1.1.2
  generalize hm : (⟨1,"open",action,requestId,edgeBinding h up down⟩ : Open)=o at hok hopen
  have hsize := multihopOpen_size (m := ⟨o,h.pathDigest⟩) hok hdigest
  have hpos := multihopOpen_pos ⟨o,h.pathDigest⟩
  have hfits : ¬(multihopOpenSize ⟨o,h.pathDigest⟩<2 ∨
      maxControlBytes < multihopOpenSize ⟨o,h.pathDigest⟩) := by
    unfold maxControlBytes
    omega
  have hread : readOpen k ⟨o,h.pathDigest⟩=.ok o := by
    simp only [readOpen,do_ok,and_true]
    exact ⟨hfits,by simp [pathDigest_shared hs],hopen⟩
  have hexpected : wireBinding k false=some o.binding := by
    rw [← wireBinding_neighbour hs hi,hb,← hm]
  refine ⟨⟨o,h.pathDigest⟩,?_,?_,hread,?_⟩
  · rw [dialOpen,hb]
    simp only [hm]
    exact if_neg hfits
  · unfold maxControlBytes
    omega
  · simp only [serveOpen,bind_ok]
    refine ⟨o,hread,?_⟩
    rw [hexpected]
    simp only [validateOpen,do_ok,true_and]
    exact ⟨hopen,by simp,by simp⟩

/-- The open message of an edge `edge` of another configuration is refused, unless the
deployment generation, the path and the edge are those the receiving hop expects. The two
hashes compared do not collide on these documents. -/
theorem foreign_refused {lib : Library} (hpath : PathChecked lib k.path)
    (hdigest : hopPathDigest lib h=h.pathDigest) (kdigest : hopPathDigest lib k=k.pathDigest)
    {o : Open} {edge : Nat} (ho : hopBinding h edge=some o.binding)
    (hfree : hopPathDigest lib h=hopPathDigest lib k→
      h.deploymentGeneration=k.deploymentGeneration ∧ h.path=k.path)
    (hbfree : ∀expected, wireBinding k false=some expected→
      lib.digest (.binding o.binding)=lib.digest (.binding expected) → o.binding=expected)
    (hother : h.deploymentGeneration≠k.deploymentGeneration ∨ h.path≠k.path ∨
      edge+1≠k.hopIndex) (active : Bool) (allow : Except String Unit) :
    serveOpen lib k active allow ⟨o,h.pathDigest⟩≠.ok () := by
  intro hserve
  simp only [serveOpen,bind_ok] at hserve
  obtain ⟨o',hread,hvalid⟩ := hserve
  simp only [readOpen,do_ok,Decidable.not_not] at hread
  obtain ⟨-,hsame,-,rfl⟩ := hread
  have hdocs := hfree (by rw [hdigest,hsame,kdigest])
  cases hexp : wireBinding k false with
  | none =>
    rw [hexp] at hvalid
    simp at hvalid
  | some expected =>
    rw [hexp] at hvalid
    simp only [validateOpen,do_ok,Decidable.not_not] at hvalid
    have hb := hbfree expected hexp hvalid.2.2.2
    have hedge : edge+1=k.hopIndex := by
      by_contra hne
      simp only [wireBinding,Bool.false_eq_true,if_false] at hexp
      split_ifs at hexp with hzero
      simp only [hopBinding,do_some,Option.pure_def] at ho hexp
      obtain ⟨up,hup,down,-,hob⟩ := ho
      obtain ⟨up',hup',down',-,heb⟩ := hexp
      rw [hdocs.2] at hup
      have hnodes := (hpath.distinct (by omega : edge≠k.hopIndex-1) hup hup').1
      rw [← hob,← heb] at hb
      exact hnodes (congrArg Binding.ingressNodeId hb)
    rcases hother with hg|hp|he
    · exact hg hdocs.1
    · exact hp hdocs.2
    · exact he hedge

end TuneX.Agent
