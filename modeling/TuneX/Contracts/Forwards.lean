import TuneX.Contracts.MultihopPlan
import TuneX.Contracts.TargetPolicy

namespace TuneX.Contracts

open Agent

/-- `parseForward` with its `parseForwardSpec`; a Forward without a path has no Nodes in `via`. -/
def parseForward (f : Forward) : Option Forward :=
  match normalizeIp f.listen.host,normalizeTargetHost f.target.host with
  | some address,some host =>
    if idOk f.id ∧ idOk f.scopeId ∧ counterOk f.revision ∧ f.protocols≠[] ∧ f.protocols.length≤2 ∧
        f.protocols.Nodup ∧ idOk f.ingressNodeId ∧ portOk f.listen.port ∧ portOk f.target.port ∧
        f.via.all idOk ∧ f.via.Nodup ∧ f.ingressNodeId∉f.via ∧
        f.transport.all (fun t => idOk t.1 && counterOk t.2) ∧ (f.via≠[] ↔ f.transport.isSome) then
      some {f with
        protocols := [.tcp,.udp].filter (·∈f.protocols)
        listen := ⟨address,f.listen.port⟩
        target := ⟨host,f.target.port⟩ }
    else none
  | _,_ => none

/-- An endpoint identifies a unicast host. -/
def unicastHost (host : String) : Bool :=
  match ipBytes host with
  | some bytes => !(bytes.all (·==0) || decide (bytes.length=4 ∧ 224 ≤ bytes.headD 0) ||
      decide (bytes.length=16 ∧ bytes.headD 0=255))
  | none => true

def parseRelayEndpoint (e : EndpointConfig) : Option EndpointConfig :=
  match normalizeIp e.listenAddress,normalizeTargetHost e.advertisedHost with
  | some address,some host =>
    if unicastHost host ∧ 1 ≤ e.allowedTcpPorts.length ∧ e.allowedTcpPorts.length≤256 ∧
        e.allowedTcpPorts.all portOk ∧ e.allowedTcpPorts.Nodup then
      some ⟨host,address,e.allowedTcpPorts.insertionSort (·≤·)⟩
    else none
  | _,_ => none

/-- The planner of Control. An assignment is named by a digest of its Node, Forward, protocol and
role. -/
def planner (assignmentId : String→String→Protocol→Role→String) : Planner where
  parseForward := parseForward
  parseRelayEndpoint e := (parseRelayEndpoint e).isSome
  targetAllowed host node :=
    targetAllowed host node.allowedDestinationCidrs node.allowMetadataTargets
  assignmentId := assignmentId

/-- Parsing keeps everything but the spelling of hosts and the order of protocols. -/
structure ParsedForward (input f : Forward) : Prop where
  id : f.id=input.id
  scopeId : f.scopeId=input.scopeId
  revision : f.revision=input.revision
  ingress : f.ingressNodeId=input.ingressNodeId
  via : f.via=input.via
  transport : f.transport=input.transport
  protocols : f.protocols=[.tcp,.udp].filter (·∈input.protocols)
  nonempty : input.protocols≠[]
  distinct : (f.ingressNodeId::f.via).Nodup
  names : idOk f.ingressNodeId ∧ ∀x∈f.via, idOk x

theorem parseForward_some {input f : Forward} (h : parseForward input=some f) :
    ParsedForward input f := by
  unfold parseForward at h
  split at h
  · rw [Option.ite_none_right_eq_some] at h
    obtain ⟨⟨-,-,-,hne,-,-,hin,-,-,hvia,hnodup,hnot,-,-⟩,h⟩ := h
    obtain rfl := Option.some.inj h
    exact ⟨rfl,rfl,rfl,rfl,rfl,rfl,rfl,hne,List.nodup_cons.mpr ⟨hnot,hnodup⟩,hin,
      List.all_eq_true.mp hvia⟩
  · simp at h

theorem parseForward_twice {input f g : Forward} (h : parseForward input=some f)
    (k : parseForward f=some g) : g.protocols=f.protocols := by
  rw [(parseForward_some k).protocols,(parseForward_some h).protocols]
  apply List.filter_congr
  intro p hp
  rw [decide_eq_decide,List.mem_filter]
  simp [hp]

end TuneX.Contracts
