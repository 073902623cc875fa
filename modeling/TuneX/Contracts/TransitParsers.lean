import TuneX.Contracts.MultihopPlan
import TuneX.Contracts.TimeOrder
import Mathlib.Data.List.Chain

namespace TuneX.Contracts

open Agent Framework

/-- The primary weight of a character of an identifier. -/
def primaryWeight (c : Char) : Nat :=
  if c = '_' then 0 else if c = '-' then 1 else if c = ':' then 2 else if c = '.' then 3
  else if c.isDigit then 4+(c.toNat-48) else 14+(c.toLower.toNat-97)

def tertiaryWeight (c : Char) : Nat := if c.isUpper then 1 else 0

/-- The root collation of identifiers: all base characters first, punctuation before digits before
letters, and then their cases, small before capital. -/
def localeCompare (a b : String) : Ordering :=
  (compareOfLessAndEq (a.toList.map primaryWeight) (b.toList.map primaryWeight)).then
    (compareOfLessAndEq (a.toList.map tertiaryWeight) (b.toList.map tertiaryWeight))

def tombstoneOrder (a b : TransitTombstone) : Ordering :=
  (localeCompare a.physicalProtocol.text b.physicalProtocol.text).then
    ((compareOfLessAndEq a.port b.port).then
      ((compareOfLessAndEq a.retirementGeneration b.retirementGeneration).then
        (localeCompare a.assignmentId b.assignmentId)))

def parseTransitIntent (lib : TransitLibrary) (calendar : Calendar)
    (terms : TransitIntent→Option TransitTerms) (i : TransitIntent) : Except String Unit := do
  reject (maxTransitBytes<lib.intentSize i) "RESOURCE_LIMIT: JSON body too large"
  match terms i with
  | none => .error "INVALID_CONFIG: Transit contract rejected"
  | some v =>
    reject (v.hopIndex≥v.hopCount-1) "INVALID_CONFIG: Transit position cannot be an endpoint"
    reject (¬[v.upstream.nodeId,i.nodeId,v.downstream.nodeId].Nodup ∨
      ¬[v.upstream.assignmentId,i.assignmentId,v.downstream.assignmentId].Nodup ∨
      v.upstream.peerFingerprint=v.downstream.peerFingerprint)
      "AUTHORIZATION_DENIED: Transit must bind two distinct neighboring identities"
    let order ← compareTimes calendar i.issuedAt i.authorizationUntil
    reject (order≠.lt) "INVALID_CONFIG: Transit authorization time range"
    reject (normalizeIp i.listenAddress≠some i.listenAddress ∨
      normalizeTargetHost v.endpointHost≠some v.endpointHost)
      "INVALID_CONFIG: Noncanonical Transit endpoint"
    reject (¬cidrsSorted validCidr v.allowedDestinationCidrs)
      "INVALID_CONFIG: Canonical sorted destination CIDRs required"

def validateTransitAssignment (lib : TransitLibrary) (calendar : Calendar)
    (terms : TransitIntent→Option TransitTerms) (a : TransitAssignment) : Except String Unit := do
  parseTransitIntent lib calendar terms a.intent
  let i := a.intent
  reject (lib.intentDigest i≠a.configDigest) "INTEGRITY_FAILURE: Transit driver config digest differs"
  reject (a.nodeId≠i.nodeId ∨ a.sessionEpoch≠i.sessionEpoch ∨ a.assignmentId≠i.assignmentId ∨
    a.forwardId≠i.forwardId ∨ a.forwardRevision≠i.forwardRevision ∨
    a.deploymentGeneration≠i.deploymentGeneration ∨ a.bindingFence≠i.bindingFence ∨
    a.protocol≠i.protocol) "AUTHORIZATION_DENIED: Transit Assignment/Intent binding differs"
  reject (a.resource.protocol≠.tcp ∨ a.resource.address≠i.listenAddress ∨
    a.resource.port≠i.listenPort ∨ normalizeIp a.resource.address≠some a.resource.address)
    "RESOURCE_CONFLICT: Transit physical TLS listener differs"

/-- What the loop over the assignments asks of one of them. -/
def checkAdpAssignment (lib : TransitLibrary) (calendar : Calendar)
    (terms : TransitIntent→Option TransitTerms) (s : TransitSnapshot) (a : TransitAssignment) :
    Except String Unit := do
  validateTransitAssignment lib calendar terms a
  reject (a.nodeId≠s.nodeId ∨ a.sessionEpoch≠s.sessionEpoch)
    "AUTHORIZATION_DENIED: Transit Snapshot Node/Session/lease differs"
  let start ← compareTimes calendar s.issuedAt a.intent.issuedAt
  reject (start=.lt) "AUTHORIZATION_DENIED: Transit Snapshot Node/Session/lease differs"
  let finish ← compareTimes calendar s.validUntil a.intent.authorizationUntil
  reject (finish=.gt) "AUTHORIZATION_DENIED: Transit Snapshot Node/Session/lease differs"

def parseTransitAdpSnapshot (lib : TransitLibrary) (calendar : Calendar)
    (terms : TransitIntent→Option TransitTerms) (s : TransitSnapshot) : Except String Unit := do
  reject (¬transitSnapshotOk lib.toLibrary s)
    "INVALID_CONFIG: Versioned Transit Snapshot structure rejected"
  let range ← compareTimes calendar s.issuedAt s.validUntil
  reject (range≠.lt) "INVALID_CONFIG: Transit Snapshot time range"
  reject (lib.snapshotDigest { s with snapshotDigest := "" }≠s.snapshotDigest)
    "INTEGRITY_FAILURE: Transit Snapshot digest differs"
  scanAssignments (checkAdpAssignment lib calendar terms s) "" [] [] s.assignments
  scanTombstones (fun a b => tombstoneOrder a b=.lt) s [] none s.tombstones

variable {lib : TransitLibrary} {calendar : Calendar} {terms : TransitIntent→Option TransitTerms}
  {s : TransitSnapshot}

/-- The intervals of a snapshot, with every digit and in UTC. -/
structure AdpTimed (calendar : Calendar) (s : TransitSnapshot) : Prop where
  range : compareTimes calendar s.issuedAt s.validUntil=.ok .lt
  intents : ∀a∈s.assignments,
    compareTimes calendar a.intent.issuedAt a.intent.authorizationUntil=.ok .lt ∧
      (∃order, compareTimes calendar s.issuedAt a.intent.issuedAt=.ok order ∧ order≠.lt) ∧
      ∃order, compareTimes calendar s.validUntil a.intent.authorizationUntil=.ok order ∧ order≠.gt

theorem parseTransitIntent_ok (h : NetipExact lib.toLibrary) {i : TransitIntent} :
    parseTransitIntent lib calendar terms i=.ok () ↔ TransitContract lib terms i ∧
      compareTimes calendar i.issuedAt i.authorizationUntil=.ok .lt := by
  have hcidr : lib.validCIDR=validCidr := funext h.validCIDR_iff
  unfold parseTransitIntent
  rw [bind_ok]
  simp only [reject_ok,exists_unit,not_lt]
  cases ht : terms i with
  | none =>
    simp only [reduceCtorEq,and_false,false_iff,not_and]
    intro hc
    obtain ⟨v,hv,-⟩ := hc.terms
    simp [ht] at hv
  | some v =>
    simp only [do_ok,not_or,not_not,ne_eq]
    constructor
    · rintro ⟨hsize,hhop,⟨hnodes,hids,hpeer⟩,order,horder,rfl,⟨hlisten,hhost⟩,hsorted⟩
      refine ⟨⟨hsize,⟨v,ht,by omega,hnodes,hids,hpeer,?_,?_⟩,?_⟩,horder⟩
      · exact (h.relayHost_iff v.endpointHost).mpr hhost
      · rw [hcidr]
        exact hsorted
      · exact (h.canonicalAddress_iff i.listenAddress).mpr hlisten
    · rintro ⟨⟨hsize,⟨w,hw,hhop,hnodes,hids,hpeer,hhost,hsorted⟩,hlisten⟩,horder⟩
      obtain rfl : v=w := Option.some.inj (ht.symm.trans hw)
      rw [hcidr] at hsorted
      exact ⟨hsize,by omega,⟨hnodes,hids,hpeer⟩,.lt,horder,rfl,
        ⟨(h.canonicalAddress_iff i.listenAddress).mp hlisten,
          (h.relayHost_iff v.endpointHost).mp hhost⟩,hsorted⟩

theorem checkAdpAssignment_ok (h : NetipExact lib.toLibrary) {a : TransitAssignment} :
    checkAdpAssignment lib calendar terms s a=.ok () ↔ TransitBound lib terms s a ∧
      compareTimes calendar a.intent.issuedAt a.intent.authorizationUntil=.ok .lt ∧
      (∃order, compareTimes calendar s.issuedAt a.intent.issuedAt=.ok order ∧ order≠.lt) ∧
      ∃order, compareTimes calendar s.validUntil a.intent.authorizationUntil=.ok order ∧
        order≠.gt := by
  simp only [checkAdpAssignment,validateTransitAssignment,do_ok,parseTransitIntent_ok h,not_or,
    not_not,ne_eq,← h.canonicalAddress_iff]
  constructor
  · rintro ⟨⟨⟨hc,htime⟩,hdigest,hbinding,htcp,haddress,hport,hcanonical⟩,⟨hnode,hepoch⟩,
      o,ho,hstart,p,hp,hfinish⟩
    exact ⟨⟨hc,hdigest,hbinding,⟨hcanonical,htcp,haddress,hport⟩,hnode,hepoch⟩,htime,
      ⟨o,ho,hstart⟩,p,hp,hfinish⟩
  · rintro ⟨⟨hc,hdigest,hbinding,⟨hcanonical,htcp,haddress,hport⟩,hnode,hepoch⟩,htime,
      ⟨o,ho,hstart⟩,p,hp,hfinish⟩
    exact ⟨⟨⟨hc,htime⟩,hdigest,hbinding,htcp,haddress,hport,hcanonical⟩,⟨hnode,hepoch⟩,
      o,ho,hstart,p,hp,hfinish⟩

theorem parseTransitAdpSnapshot_ok (h : NetipExact lib.toLibrary)
    (hs : transitSnapshotOk lib.toLibrary s) :
    parseTransitAdpSnapshot lib calendar terms s=.ok () ↔ TransitCommon lib terms s ∧
      AdpTimed calendar s ∧ s.tombstones.IsChain fun a b => tombstoneOrder a b=.lt := by
  simp only [parseTransitAdpSnapshot,do_ok,not_not,ne_eq,hs,true_and,scanAssignments_ok,
    scanTombstones_ok,checkAdpAssignment_ok h,List.not_mem_nil,not_false_eq_true,implies_true,
    Option.toList_none,List.nil_append,decide_eq_true_eq]
  constructor
  · rintro ⟨order,horder,rfl,hdigest,⟨hchecks,hnames,hlogical,hphysical⟩,htomb,hretired,hchain⟩
    exact ⟨⟨hdigest,fun a ha => (hchecks a ha).1,hnames,hlogical,hphysical,htomb,hretired⟩,
      ⟨horder,fun a ha => (hchecks a ha).2⟩,hchain⟩
  · rintro ⟨hcommon,htimed,hchain⟩
    exact ⟨.lt,htimed.range,rfl,hcommon.digest,⟨fun a ha => ⟨hcommon.assignments a ha,
      htimed.intents a ha⟩,hcommon.names,hcommon.logical,hcommon.physical⟩,hcommon.tombstones,
      hcommon.retired,hchain⟩

/-- The comparisons that the two sides make differently have the same outcome: exact digits in
UTC and collated names on one side, nanoseconds, bytewise names and a limit on each assignment on
the other. -/
def ComparedAlike (lib : TransitLibrary) (calendar : Calendar) (s : TransitSnapshot) : Prop :=
  (AdpTimed calendar s ∧ s.tombstones.IsChain fun a b => tombstoneOrder a b=.lt) ↔
    TransitTimed calendar s ∧ s.tombstones.IsChain (transitTombstoneBefore · ·) ∧
      ∀a∈s.assignments, transitAssignmentSize lib a ≤ maxTransitBytes

theorem transit_parsers_compared (h : NetipExact lib.toLibrary)
    (hs : transitSnapshotOk lib.toLibrary s) :
    (parseTransitAdpSnapshot lib calendar terms s=.ok () ↔
        parseTransitSnapshot (lib.checked calendar terms) s=.ok ()) ↔
      ¬TransitCommon lib terms s ∨ ComparedAlike lib calendar s := by
  rw [parseTransitAdpSnapshot_ok h hs,parseTransitSnapshot_ok hs,ComparedAlike]
  tauto

/-- The instant of a time in UTC with a capital separator, with all its digits. -/
def UtcAt (calendar : Calendar) (value : String) (x : ℚ) : Prop :=
  ∃day clock fraction seconds, UtcTime calendar value day clock fraction seconds ∧
    x=seconds+share fraction

/-- Two times in UTC; where the first is before the second, their first nine digits show it. -/
def TimesAlike (calendar : Calendar) (p : String×String) : Prop :=
  ∃x y, UtcAt calendar p.1 x ∧ UtcAt calendar p.2 y ∧ (x<y→⌊x*10^9⌋<⌊y*10^9⌋)

section Times

variable {a b : String} {x y : ℚ}

theorem UtcAt.compare (ha : UtcAt calendar a x) (hb : UtcAt calendar b y) :
    compareTimes calendar a b=.ok (compareOfLessAndEq x y) := by
  obtain ⟨day,clock,fraction,seconds,ha,rfl⟩ := ha
  obtain ⟨day',clock',fraction',seconds',hb,rfl⟩ := hb
  have hdigits : ∀l : List Char, (∀c∈l, c.isDigit)→∀c∈l.rdropWhile (· == '0'), c.isDigit :=
    fun l hl c hc => hl c ((List.rdropWhile_prefix _ _).subset hc)
  have hexact : ∀(n : Int) (l : List Char),
      (⟨n,l.rdropWhile (· == '0')⟩ : Instant).exact=n+share l := by
    intro n l
    rw [Instant.exact,share_rdropWhile]
  rw [compareTimes,ha.instant,hb.instant,← hexact,← hexact,
    ← Instant.compare_exact (hdigits _ ha.digits) (hdigits _ hb.digits)]
  rfl

theorem UtcAt.parsed (ha : UtcAt calendar a x) : parseRfc3339 calendar a=some ⌊x*10^9⌋ := by
  obtain ⟨day,clock,fraction,seconds,ha,rfl⟩ := ha
  rw [ha.parsed,nanoseconds_floor ha.digits]

theorem utcAt_of_compare {order : Ordering} {m n : Int} (hc : compareTimes calendar a b=.ok order)
    (ha : parseRfc3339 calendar a=some m) (hb : parseRfc3339 calendar b=some n) :
    ∃x y, UtcAt calendar a x ∧ UtcAt calendar b y ∧ order=compareOfLessAndEq x y ∧
      m=⌊x*10^9⌋ ∧ n=⌊y*10^9⌋ := by
  have hread := hc
  simp only [compareTimes,do_ok] at hread
  obtain ⟨i,hi,j,hj,-⟩ := hread
  obtain ⟨day,clock,fraction,seconds,hx⟩ := utcTime_of_read hi ha
  obtain ⟨day',clock',fraction',seconds',hy⟩ := utcTime_of_read hj hb
  have hx' : UtcAt calendar a (seconds+share fraction) := ⟨_,_,_,_,hx,rfl⟩
  have hy' : UtcAt calendar b (seconds'+share fraction') := ⟨_,_,_,_,hy,rfl⟩
  rw [hx'.compare hy'] at hc
  rw [hx'.parsed] at ha
  rw [hy'.parsed] at hb
  exact ⟨_,_,hx',hy',(Except.ok.inj hc).symm,(Option.some.inj ha).symm,(Option.some.inj hb).symm⟩

theorem TimesAlike.compare (h : TimesAlike calendar (a,b)) :
    (compareTimes calendar a b=.ok .lt ↔ timesBefore true (parseRfc3339 calendar) a b) ∧
      ((∃order, compareTimes calendar a b=.ok order ∧ order≠.lt) ↔
        timesBefore false (parseRfc3339 calendar) b a) ∧
      ((∃order, compareTimes calendar b a=.ok order ∧ order≠.gt) ↔
        timesBefore false (parseRfc3339 calendar) b a) := by
  obtain ⟨x,y,hx,hy,hlt⟩ := h
  have hfloor : x<y ↔ ⌊x*10^9⌋<⌊y*10^9⌋ := by
    refine ⟨hlt,fun hf => ?_⟩
    by_contra hle
    have hmul : y*10^9≤x*10^9 := mul_le_mul_of_nonneg_right (not_lt.mp hle) (by positivity)
    exact absurd hf (not_lt.mpr (Int.floor_le_floor hmul))
  rw [hx.compare hy,hy.compare hx,timesBefore_some hx.parsed hy.parsed,
    timesBefore_some hy.parsed hx.parsed]
  simp only [if_true,Bool.false_eq_true,if_false,← hfloor,← not_lt (a := ⌊x*10^9⌋)]
  unfold compareOfLessAndEq
  obtain hxy | rfl | hxy := lt_trichotomy x y
  · simp [hxy,hxy.not_gt,hxy.ne']
  · simp
  · simp [hxy,hxy.not_gt,hxy.ne']

/-- Nine digits are kept. -/
theorem timesAlike_short {day clock fraction day' clock' fraction' : List Char}
    {seconds seconds' : Int} (ha : UtcTime calendar a day clock fraction seconds)
    (hb : UtcTime calendar b day' clock' fraction' seconds') (hs : fraction.length≤9)
    (hs' : fraction'.length≤9) : TimesAlike calendar (a,b) := by
  have hwhole : ∀(n : Int) (l : List Char), l.length≤9→
      ((n : ℚ)+share l)*10^9=((n*1000000000+nanoseconds l : Int) : ℚ) := by
    intro n l hl
    have hn := nanoseconds_share l
    rw [List.take_of_length_le hl] at hn
    push_cast
    rw [hn]
    ring
  refine ⟨_,_,⟨_,_,_,_,ha,rfl⟩,⟨_,_,_,_,hb,rfl⟩,?_⟩
  intro hlt
  have hmul := mul_lt_mul_of_pos_right hlt (show (0 : ℚ)<10^9 by positivity)
  rw [hwhole _ _ hs,hwhole _ _ hs'] at hmul ⊢
  rw [Int.floor_intCast,Int.floor_intCast]
  exact_mod_cast hmul

end Times

/-- The pairs of times that are compared; both sides ask whether the first is before the second. -/
def comparedTimes (s : TransitSnapshot) : List (String×String) :=
  (s.issuedAt,s.validUntil)::s.assignments.flatMap fun a =>
    [(a.intent.issuedAt,a.intent.authorizationUntil),(s.issuedAt,a.intent.issuedAt),
      (a.intent.authorizationUntil,s.validUntil)]

theorem forall_comparedTimes {p : String×String→Prop} : (∀x∈comparedTimes s, p x) ↔
    p (s.issuedAt,s.validUntil) ∧ ∀a∈s.assignments,
      p (a.intent.issuedAt,a.intent.authorizationUntil) ∧ p (s.issuedAt,a.intent.issuedAt) ∧
        p (a.intent.authorizationUntil,s.validUntil) := by
  simp only [comparedTimes,List.forall_mem_cons,List.forall_mem_flatMap,List.not_mem_nil,
    false_implies,implies_true,and_true]

/-- What makes the two sides read a snapshot alike: its times, the names of tombstones next to each
other, which are compared on one port and generation, and the sizes of its assignments. -/
structure ReadAlike (lib : TransitLibrary) (calendar : Calendar) (s : TransitSnapshot) : Prop where
  times : ∀p∈comparedTimes s, TimesAlike calendar p
  names : s.tombstones.IsChain fun a b => a.port=b.port→
    a.retirementGeneration=b.retirementGeneration→
      (localeCompare a.assignmentId b.assignmentId=.lt ↔ a.assignmentId<b.assignmentId)
  sizes : ∀a∈s.assignments, transitAssignmentSize lib a ≤ maxTransitBytes

theorem timed_alike (h : ∀p∈comparedTimes s, TimesAlike calendar p) :
    AdpTimed calendar s ↔ TransitTimed calendar s := by
  obtain ⟨hrange,hintents⟩ := forall_comparedTimes.mp h
  constructor
  · intro ht
    refine ⟨hrange.compare.1.mp ht.range,fun a ha => ?_⟩
    obtain ⟨hi,hstart,hfinish⟩ := hintents a ha
    obtain ⟨h₁,h₂,h₃⟩ := ht.intents a ha
    exact ⟨hi.compare.1.mp h₁,hstart.compare.2.1.mp h₂,hfinish.compare.2.2.mp h₃⟩
  · intro ht
    refine ⟨hrange.compare.1.mpr ht.range,fun a ha => ?_⟩
    obtain ⟨hi,hstart,hfinish⟩ := hintents a ha
    obtain ⟨h₁,h₂,h₃⟩ := ht.intents a ha
    exact ⟨hi.compare.1.mpr h₁,hstart.compare.2.1.mpr h₂,hfinish.compare.2.2.mpr h₃⟩

theorem alike_of_timed (hadp : AdpTimed calendar s) (ht : TransitTimed calendar s) :
    ∀p∈comparedTimes s, TimesAlike calendar p := by
  have hstrict : ∀{a b : String}, compareTimes calendar a b=.ok .lt→
      timesBefore true (parseRfc3339 calendar) a b→TimesAlike calendar (a,b) := by
    intro a b hc hb
    obtain ⟨m,n,hm,hn⟩ := timesBefore_parsed hb
    rw [timesBefore_some hm hn] at hb
    obtain ⟨x,y,hx,hy,-,rfl,rfl⟩ := utcAt_of_compare hc hm hn
    exact ⟨x,y,hx,hy,fun _ => by simpa using hb⟩
  refine forall_comparedTimes.mpr ⟨hstrict hadp.range ht.range,fun a ha => ?_⟩
  obtain ⟨h₁,⟨o,h₂,ho⟩,p,h₃,hp⟩ := hadp.intents a ha
  obtain ⟨g₁,g₂,g₃⟩ := ht.intents a ha
  -- both accept an interval that starts in time and ends in time, so nothing is left to compare
  refine ⟨hstrict h₁ g₁,?_,?_⟩
  · obtain ⟨m,n,hm,hn⟩ := timesBefore_parsed g₂
    obtain ⟨x,y,hx,hy,rfl,-,-⟩ := utcAt_of_compare h₂ hn hm
    refine ⟨x,y,hx,hy,fun hlt => absurd ?_ ho⟩
    simp [compareOfLessAndEq,hlt]
  · obtain ⟨m,n,hm,hn⟩ := timesBefore_parsed g₃
    obtain ⟨x,y,hx,hy,rfl,-,-⟩ := utcAt_of_compare h₃ hm hn
    refine ⟨y,x,hy,hx,fun hlt => absurd ?_ hp⟩
    simp [compareOfLessAndEq,hlt.not_gt,hlt.ne']

section Tombstones

variable {a b : TransitTombstone}

theorem localeCompare_protocol (p : Protocol) : localeCompare p.text p.text=.eq := by
  cases p <;> decide

theorem tombstoneOrder_names (hp : a.physicalProtocol=b.physicalProtocol) (hport : a.port=b.port)
    (hgen : a.retirementGeneration=b.retirementGeneration) :
    (tombstoneOrder a b=.lt ↔ localeCompare a.assignmentId b.assignmentId=.lt) ∧
      (transitTombstoneBefore a b ↔ a.assignmentId<b.assignmentId) := by
  simp [tombstoneOrder,transitTombstoneBefore,localeCompare_protocol,hp,hport,hgen,
    compareOfLessAndEq,Ordering.then]

theorem tombstoneOrder_lt (hp : a.physicalProtocol=b.physicalProtocol)
    (hids : a.port=b.port→a.retirementGeneration=b.retirementGeneration→
      (localeCompare a.assignmentId b.assignmentId=.lt ↔ a.assignmentId<b.assignmentId)) :
    tombstoneOrder a b=.lt ↔ transitTombstoneBefore a b := by
  have hself : localeCompare a.physicalProtocol.text b.physicalProtocol.text=.eq := by
    rw [hp,localeCompare_protocol]
  by_cases hport : a.port=b.port
  · by_cases hgen : a.retirementGeneration=b.retirementGeneration
    · obtain ⟨hleft,hright⟩ := tombstoneOrder_names hp hport hgen
      rw [hleft,hright]
      exact hids hport hgen
    · unfold tombstoneOrder transitTombstoneBefore
      rw [hself,if_neg (not_not.mpr hp),if_neg (not_not.mpr hport),if_pos hgen]
      obtain hlt | hgt := Nat.lt_or_gt_of_ne hgen
      · simp [hport,compareOfLessAndEq,hlt,Ordering.then]
      · simp [hport,compareOfLessAndEq,hgt.not_gt,hgen,Ordering.then]
  · unfold tombstoneOrder transitTombstoneBefore
    rw [hself,if_neg (not_not.mpr hp),if_pos hport]
    obtain hlt | hgt := Nat.lt_or_gt_of_ne hport
    · simp [compareOfLessAndEq,hlt,Ordering.then]
    · simp [compareOfLessAndEq,hgt.not_gt,hport,Ordering.then]

theorem tombstones_tcp (hs : transitSnapshotOk lib.toLibrary s) :
    ∀t∈s.tombstones, t.physicalProtocol=.tcp := by
  intro t ht
  simp only [transitSnapshotOk,schema_ok] at hs
  have hok := hs.2 t ht
  simp only [transitTombstoneOk,schema_ok] at hok
  exact hok.1.1.1.2

end Tombstones

theorem comparedAlike_of (hs : transitSnapshotOk lib.toLibrary s) (h : ReadAlike lib calendar s) :
    ComparedAlike lib calendar s := by
  have htcp := tombstones_tcp hs
  have hnames := List.isChain_iff_getElem.mp h.names
  have hchain : (s.tombstones.IsChain fun a b => tombstoneOrder a b=.lt) ↔
      s.tombstones.IsChain (transitTombstoneBefore · ·) := by
    rw [List.isChain_iff_getElem,List.isChain_iff_getElem]
    refine forall_congr' fun i => forall_congr' fun hi => tombstoneOrder_lt ?_ (hnames i hi)
    rw [htcp _ (List.getElem_mem _),htcp _ (List.getElem_mem _)]
  rw [ComparedAlike,timed_alike h.times,hchain]
  exact ⟨fun hc => ⟨hc.1,hc.2,h.sizes⟩,fun hc => ⟨hc.1,hc.2.1⟩⟩

/-- The two parsers agree on every snapshot of the schema that both sides read alike, and there is
no other that both accept. -/
theorem transit_parsers_agree (lib : TransitLibrary) (h : NetipExact lib.toLibrary)
    (calendar : Calendar) (terms : TransitIntent→Option TransitTerms) (s : TransitSnapshot)
    (hs : transitSnapshotOk lib.toLibrary s) :
    (ReadAlike lib calendar s→(parseTransitAdpSnapshot lib calendar terms s=.ok () ↔
      parseTransitSnapshot (lib.checked calendar terms) s=.ok ())) ∧
    (parseTransitAdpSnapshot lib calendar terms s=.ok ()→
      parseTransitSnapshot (lib.checked calendar terms) s=.ok ()→ReadAlike lib calendar s) := by
  refine ⟨fun hr => (transit_parsers_compared h hs).mpr (.inr (comparedAlike_of hs hr)),?_⟩
  rw [parseTransitAdpSnapshot_ok h hs,parseTransitSnapshot_ok hs]
  rintro ⟨-,hadp,hcollated⟩ ⟨-,htimed,hbytes,hsizes⟩
  have htcp := tombstones_tcp hs
  refine ⟨alike_of_timed hadp htimed,?_,hsizes⟩
  rw [List.isChain_iff_getElem] at hcollated hbytes ⊢
  intro i hi hport hgen
  have hp : s.tombstones[i].physicalProtocol=s.tombstones[i+1].physicalProtocol := by
    rw [htcp _ (List.getElem_mem _),htcp _ (List.getElem_mem _)]
  obtain ⟨hleft,hright⟩ := tombstoneOrder_names hp hport hgen
  exact iff_of_true (hleft.mp (hcollated i hi)) (hright.mp (hbytes i hi))

namespace TransitSample

/-- Libraries that agree with the real ones on the literals below. -/
def library : TransitLibrary :=
  { Sample.library with
    parseIntent := fun _ => .error ""
    intentSize := fun _ => 2
    intentDigest := fun _ => Sample.hash
    snapshotDigest := fun _ => Sample.hash
    journalDigest := fun _ => Sample.hash
    journalDigest_format := fun _ => by decide
    parseTime := fun _ => none }

theorem library_exact : NetipExact library.toLibrary := by
  refine ⟨Sample.library_netip,?_,?_⟩
  · intro text a hp ha
    change (ipBytes text).map _=some a at ha
    obtain ⟨bytes,hb,-⟩ := Option.map_eq_some_iff.mp ha
    exact absurd (ipBytes_chars hb '%' hp) (by decide)
  · intro text address bits net hsplit hbits hnet
    change Sample.parsePrefix text=some net at hnet
    simp only [Sample.parsePrefix,hsplit,do_some,Option.ite_none_right_eq_some] at hnet
    obtain ⟨bytes,hb,hlen,-⟩ := hnet
    exact ⟨bytes,hb,hlen.2⟩

def days : Calendar where
  seconds day clock :=
    if day="2026-01-01".toList ∧ clock="00:00:00".toList then some 1767225600
    else if day="2026-01-01".toList ∧ clock="00:00:30".toList then some 1767225630 else none
  zone text := if text=['Z'] then some 0 else none
  utc := rfl

def tombstone (assignmentId : String) (fence : Nat) : TransitTombstone :=
  ⟨assignmentId,"f1",.tcp,.tcp,443,fence,1⟩

def snapshot (issuedAt validUntil : String) (tombstones : List TransitTombstone) :
    TransitSnapshot :=
  ⟨3,1,"transit-snapshot",["adp.multihop.1","transit.wire.1","native.transit.v1"],"n1",1,1,true,
    issuedAt,validUntil,Sample.hash,[],tombstones⟩

def accepted (r : Except String Unit) : Bool :=
  match r with
  | .ok _ => true
  | .error _ => false

/-- Both parsers on a snapshot of the schema: the schema's verdict, and theirs. -/
def verdicts (s : TransitSnapshot) : Bool×Bool×Bool :=
  (transitSnapshotOk library.toLibrary s,
    accepted (parseTransitAdpSnapshot library days (fun _ => none) s),
    accepted (parseTransitSnapshot (library.checked days fun _ => none) s))

end TransitSample

open TransitSample in
/-- Names in the order of their letters, names in the order of their bytes, times that differ in
the tenth digit and a small separator: each time one side accepts and the other does not. -/
theorem transit_parsers_differ :
    verdicts (snapshot "2026-01-01T00:00:00Z" "2026-01-01T00:00:30Z"
      [tombstone "a" 1,tombstone "B" 2])=(true,true,false) ∧
    verdicts (snapshot "2026-01-01T00:00:00Z" "2026-01-01T00:00:30Z"
      [tombstone "B" 1,tombstone "a" 2])=(true,false,true) ∧
    verdicts (snapshot "2026-01-01T00:00:00.0000000001Z" "2026-01-01T00:00:00.0000000002Z" [])=
      (true,true,false) ∧
    verdicts (snapshot "2026-01-01t00:00:00Z" "2026-01-01T00:00:30Z" [])=(true,true,false) := by
  decide +kernel

open TransitSample in
/-- Two tombstones of one port and times of nine digits. -/
theorem transit_parsers_agree_retired : ∃s,
    s=snapshot "2026-01-01T00:00:00.25Z" "2026-01-01T00:00:30.123456789Z"
      [tombstone "A" 1,tombstone "b" 2] ∧ verdicts s=(true,true,true) ∧ ReadAlike library days s ∧
    (parseTransitAdpSnapshot library days (fun _ => none) s=.ok () ↔
      parseTransitSnapshot (library.checked days fun _ => none) s=.ok ()) := by
  have hread : ReadAlike library days (snapshot "2026-01-01T00:00:00.25Z"
      "2026-01-01T00:00:30.123456789Z" [tombstone "A" 1,tombstone "b" 2]) := by
    refine ⟨forall_comparedTimes.mpr ⟨?_,nofun⟩,by decide +kernel,nofun⟩
    have hfirst : UtcTime days "2026-01-01T00:00:00.25Z" "2026-01-01".toList "00:00:00".toList
        "25".toList 1767225600 := ⟨by decide +kernel,rfl,rfl,List.all_eq_true.mp rfl,by decide⟩
    have hsecond : UtcTime days "2026-01-01T00:00:30.123456789Z" "2026-01-01".toList
        "00:00:30".toList "123456789".toList 1767225630 :=
      ⟨by decide +kernel,rfl,rfl,List.all_eq_true.mp rfl,by decide⟩
    exact timesAlike_short hfirst hsecond (by decide) (by decide)
  exact ⟨_,rfl,by decide +kernel,hread,(transit_parsers_agree library library_exact days
    (fun _ => none) _ (by decide +kernel)).1 hread⟩

end TuneX.Contracts
