import TuneX.Agent.TransitJournal

namespace TuneX.Agent

open Framework

/-- A neighbouring hop, as an intent names it. -/
structure TransitNeighbor where
  nodeId : String
  assignmentId : String
  peerFingerprint : String
  deriving DecidableEq, Repr

/-- What the contract checks in an intent beside the members its assignment repeats. -/
structure TransitTerms where
  hopIndex : Nat
  hopCount : Nat
  upstream : TransitNeighbor
  downstream : TransitNeighbor
  endpointHost : String
  allowedDestinationCidrs : List String
  deriving DecidableEq, Repr

/-- What both languages leave to their calendars: the second at which a date and a time of day
stand, which a leap second does not have, and the seconds that a zone is east of UTC. -/
structure Calendar where
  seconds : List Char→List Char→Option Int
  zone : List Char→Option Int
  utc : zone ['Z']=some 0

/-- The date, the time of day and the rest of a timestamp. -/
def splitClock (marks value : List Char) : Option (List Char×List Char×List Char) :=
  if 19≤value.length ∧ value.getD 10 ' '∈marks then
    some (value.take 10,(value.drop 11).take 8,value.drop 19)
  else none

/-- The digits after a decimal point, and what follows them; a point without a digit is no
fraction. -/
def splitFraction (points : List Char) : List Char→List Char×List Char
  | p::c::l => if p∈points ∧ c.isDigit then
      ((c::l).takeWhile Char.isDigit,(c::l).dropWhile Char.isDigit) else ([],p::c::l)
  | l => ([],l)

/-- `parseNanoseconds`: the digits after the ninth are dropped. -/
def nanoseconds (digits : List Char) : Nat :=
  (digits.take 9).foldl (fun n c => 10*n+(c.toNat-48)) 0*10^(9-digits.length)

/-- `time.Parse(time.RFC3339Nano, value)`, in nanoseconds. -/
def parseRfc3339 (calendar : Calendar) (value : String) : Option Int := do
  let (date,time,rest) ← splitClock ['T'] value.toList
  let seconds ← calendar.seconds date time
  let fraction := splitFraction ['.',','] rest
  let offset ← calendar.zone fraction.2
  some ((seconds-offset)*1000000000+nanoseconds fraction.1)

/-- Every network is canonical and comes after the one before it. -/
def cidrsSorted (valid : String→Bool) : List String→Bool
  | [] => true
  | [c] => valid c
  | c::d::l => valid c && decide (c<d) && cidrsSorted valid (d::l)

/-- `Parse` of the Transit contract; `terms` is what an intent of its schema says. -/
def parseTransitContract (lib : TransitLibrary) (calendar : Calendar)
    (terms : TransitIntent→Option TransitTerms) (i : TransitIntent) : Except String Unit := do
  reject (maxTransitBytes<lib.intentSize i) "RESOURCE_LIMIT: JSON body too large"
  match terms i with
  | none => .error "INVALID_CONFIG: Transit contract rejected"
  | some v =>
    reject (v.hopIndex≥v.hopCount-1) "INVALID_CONFIG: Transit cannot be an endpoint"
    reject (i.nodeId=v.upstream.nodeId ∨ i.nodeId=v.downstream.nodeId ∨
      v.upstream.nodeId=v.downstream.nodeId ∨ i.assignmentId=v.upstream.assignmentId ∨
      i.assignmentId=v.downstream.assignmentId ∨
      v.upstream.assignmentId=v.downstream.assignmentId ∨
      v.upstream.peerFingerprint=v.downstream.peerFingerprint)
      "AUTHORIZATION_DENIED: Transit requires distinct neighboring identities"
    match parseRfc3339 calendar i.issuedAt,parseRfc3339 calendar i.authorizationUntil with
    | some issued,some finish =>
      reject (¬issued<finish) "INVALID_CONFIG: Transit authorization time range"
      reject (¬lib.canonicalAddress i.listenAddress)
        "INVALID_CONFIG: Canonical Transit listener required"
      reject (¬lib.relayHost v.endpointHost)
        "INVALID_CONFIG: Canonical downstream endpoint required"
      reject (¬cidrsSorted lib.validCIDR v.allowedDestinationCidrs)
        "INVALID_CONFIG: Canonical sorted destination CIDRs required"
    | _,_ => .error "INVALID_CONFIG: Transit authorization time range"

/-- The libraries with the Agent's own contract and time parser. -/
def TransitLibrary.checked (lib : TransitLibrary) (calendar : Calendar)
    (terms : TransitIntent→Option TransitTerms) : TransitLibrary :=
  { lib with
    parseIntent := parseTransitContract lib calendar terms
    parseTime := parseRfc3339 calendar }

variable {lib : TransitLibrary} {calendar : Calendar} {terms : TransitIntent→Option TransitTerms}
  {s : TransitSnapshot}

/-- Both texts are times, in this order. -/
def timesBefore (strict : Bool) (parse : String→Option Int) (a b : String) : Bool :=
  match parse a,parse b with
  | some x,some y => if strict then decide (x<y) else decide (x≤y)
  | _,_ => false

/-- The checks of an intent that do not read a clock. -/
structure TransitContract (lib : TransitLibrary) (terms : TransitIntent→Option TransitTerms)
    (i : TransitIntent) : Prop where
  size : lib.intentSize i ≤ maxTransitBytes
  terms : ∃v, terms i=some v ∧ v.hopIndex<v.hopCount-1 ∧
    [v.upstream.nodeId,i.nodeId,v.downstream.nodeId].Nodup ∧
    [v.upstream.assignmentId,i.assignmentId,v.downstream.assignmentId].Nodup ∧
    v.upstream.peerFingerprint≠v.downstream.peerFingerprint ∧ lib.relayHost v.endpointHost ∧
    cidrsSorted lib.validCIDR v.allowedDestinationCidrs
  listener : lib.canonicalAddress i.listenAddress

theorem parseTransitContract_ok {i : TransitIntent} :
    parseTransitContract lib calendar terms i=.ok () ↔ TransitContract lib terms i ∧
      timesBefore true (parseRfc3339 calendar) i.issuedAt i.authorizationUntil := by
  unfold parseTransitContract
  rw [bind_ok]
  simp only [reject_ok,exists_unit,not_lt]
  cases ht : terms i with
  | none =>
    simp only [reduceCtorEq,and_false,false_iff,not_and]
    intro hc
    obtain ⟨v,hv,-⟩ := hc.terms
    simp [ht] at hv
  | some v =>
    simp only [do_ok,not_or]
    constructor
    · rintro ⟨hsize,hhop,⟨h1,h2,h3,h4,h5,h6,h7⟩,htime⟩
      split at htime
      · next issued finish hi hf =>
        simp only [do_ok,not_not] at htime
        refine ⟨⟨hsize,⟨v,ht,by omega,?_,?_,h7,htime.2.2.1,htime.2.2.2⟩,htime.2.1⟩,?_⟩
        · simp [h3,Ne.symm h1,h2]
        · simp [h6,Ne.symm h4,h5]
        · simp [timesBefore,hi,hf,not_le.mp htime.1]
      · cases htime
    · rintro ⟨⟨hsize,⟨w,hw,hhop,hnodes,hids,hpeer,hhost,hcidr⟩,hlisten⟩,htime⟩
      obtain rfl : v=w := Option.some.inj (ht.symm.trans hw)
      simp only [List.nodup_cons,mem_list,not_or,not_false_eq_true,List.nodup_nil,
        and_true] at hnodes hids
      unfold timesBefore at htime
      split at htime
      · next issued finish hi hf =>
        simp only [if_true,decide_eq_true_eq] at htime
        refine ⟨hsize,by omega,⟨Ne.symm hnodes.1.1,hnodes.2,hnodes.1.2,Ne.symm hids.1.1,hids.2,
          hids.1.2,hpeer⟩,?_⟩
        simp only [do_ok,not_not]
        exact ⟨not_le.mpr htime,hlisten,hhost,hcidr⟩
      · simp at htime

instance : LawfulBEq (String×Protocol) := inferInstance

/-- The loop over the assignments: each passes its own check, and their names increase while
their Forwards and sockets differ. -/
def scanAssignments (check : TransitAssignment→Except String Unit) :
    String→List (String×Protocol)→List Slot→List TransitAssignment→Except String Unit
  | _,_,_,[] => .ok ()
  | previous,logical,physical,a::l => do
    check a
    reject (¬previous<a.assignmentId ∨ (a.forwardId,a.protocol)∈logical ∨ a.slot∈physical)
      "RESOURCE_CONFLICT: Duplicate, unsorted or overlapping Transit resource"
    scanAssignments check a.assignmentId ((a.forwardId,a.protocol)::logical) (a.slot::physical) l

/-- The loop over the tombstones, which one side orders by bytes and the other by collation. -/
def scanTombstones (before : TransitTombstone→TransitTombstone→Bool) (s : TransitSnapshot) :
    List (Slot×Nat)→Option TransitTombstone→List TransitTombstone→Except String Unit
  | _,_,[] => .ok ()
  | retired,prior,t::l => do
    reject ((t.slot,t.bindingFence)∈retired ∨ s.snapshotGeneration<t.retirementGeneration ∨
      prior.any fun p => !before p t)
      "INVALID_CONFIG: Transit retirement order or high-water differs"
    reject (s.assignments.any fun a => a.resource.port==t.port && decide (a.bindingFence≤t.bindingFence))
      "FENCING_REJECTED: Transit retirement fence resurrected"
    scanTombstones before s ((t.slot,t.bindingFence)::retired) (some t) l

theorem scanAssignments_ok {check : TransitAssignment→Except String Unit} {previous : String}
    {logical : List (String×Protocol)} {physical : List Slot} {l : List TransitAssignment} :
    scanAssignments check previous logical physical l=.ok () ↔ (∀a∈l, check a=.ok ()) ∧
      (previous::l.map (·.assignmentId)).IsChain (·<·) ∧
      ((∀a∈l, (a.forwardId,a.protocol)∉logical) ∧
        (l.map fun a => (a.forwardId,a.protocol)).Nodup) ∧
      (∀a∈l, a.slot∉physical) ∧ (l.map (·.slot)).Nodup := by
  induction l generalizing previous logical physical with
  | nil =>
    show (Except.ok () : Except String Unit)=.ok () ↔ _
    simp
  | cons a l ih =>
    simp only [scanAssignments,do_ok,ih,not_or,not_not,List.map_cons,List.isChain_cons_cons,
      List.nodup_cons,List.mem_cons,forall_eq_or_imp,List.mem_map,not_exists,not_and]
    constructor
    · rintro ⟨ha,⟨hlt,hl,hp⟩,hc,hchain,⟨hlog,hlogn⟩,hphys,hphysn⟩
      exact ⟨⟨ha,hc⟩,⟨hlt,hchain⟩,⟨⟨hl,fun b hb => (hlog b hb).2⟩,fun b hb => (hlog b hb).1,hlogn⟩,
        ⟨hp,fun b hb => (hphys b hb).2⟩,fun b hb => (hphys b hb).1,hphysn⟩
    · rintro ⟨⟨ha,hc⟩,⟨hlt,hchain⟩,⟨⟨hl,hlog⟩,hla,hlogn⟩,⟨hp,hphys⟩,hpa,hphysn⟩
      exact ⟨ha,⟨hlt,hl,hp⟩,hc,hchain,⟨fun b hb => ⟨hla b hb,hlog b hb⟩,hlogn⟩,
        fun b hb => ⟨hpa b hb,hphys b hb⟩,hphysn⟩

/-- A tombstone is below the high water of its snapshot and under every assignment of its port. -/
def TombstoneBound (s : TransitSnapshot) (t : TransitTombstone) : Prop :=
  t.retirementGeneration ≤ s.snapshotGeneration ∧
    ∀a∈s.assignments, a.resource.port=t.port→t.bindingFence<a.bindingFence

theorem scanTombstones_ok {before : TransitTombstone→TransitTombstone→Bool}
    {retired : List (Slot×Nat)} {prior : Option TransitTombstone} {l : List TransitTombstone} :
    scanTombstones before s retired prior l=.ok () ↔ (∀t∈l, TombstoneBound s t) ∧
      (∀t∈l, (t.slot,t.bindingFence)∉retired) ∧ (l.map fun t => (t.slot,t.bindingFence)).Nodup ∧
      (prior.toList++l).IsChain (before · ·) := by
  induction l generalizing retired prior with
  | nil =>
    show (Except.ok () : Except String Unit)=.ok () ↔ _
    cases prior <;> simp
  | cons t l ih =>
    have hchain : (prior.toList++t::l).IsChain (before · ·) ↔
        ¬prior.any (fun p => !before p t) ∧ ((some t).toList++l).IsChain (before · ·) := by
      cases prior <;> simp
    have hfences : (¬s.assignments.any fun a => a.resource.port==t.port &&
        decide (a.bindingFence≤t.bindingFence)) ↔
        ∀a∈s.assignments, a.resource.port=t.port→t.bindingFence<a.bindingFence := by
      simp
    simp only [scanTombstones,do_ok,ih,hchain,hfences,not_or,not_lt,List.map_cons,
      List.nodup_cons,List.mem_cons,forall_eq_or_imp,List.mem_map,not_exists,not_and,TombstoneBound]
    constructor
    · rintro ⟨⟨hr,hgen,hprior⟩,hf,hb,hret,hn,hc⟩
      exact ⟨⟨⟨hgen,hf⟩,hb⟩,⟨hr,fun u hu => (hret u hu).2⟩,⟨fun u hu => (hret u hu).1,hn⟩,hprior,hc⟩
    · rintro ⟨⟨⟨hgen,hf⟩,hb⟩,⟨hr,hret⟩,⟨hrt,hn⟩,hprior,hc⟩
      exact ⟨⟨hr,hgen,hprior⟩,hf,hb,fun u hu => ⟨hrt u hu,hret u hu⟩,hn,hc⟩

/-- What the loop of `ParseSnapshot` asks of one assignment before it compares names. -/
def checkTransitAssignment (lib : TransitLibrary) (s : TransitSnapshot) (start finish : Int)
    (a : TransitAssignment) : Except String Unit := do
  parseTransitAssignment lib a
  match lib.parseTime a.intent.issuedAt,lib.parseTime a.intent.authorizationUntil with
  | some issued,some until_ =>
    reject (a.nodeId≠s.nodeId ∨ a.sessionEpoch≠s.sessionEpoch ∨ start < issued ∨ until_<finish)
      "AUTHORIZATION_DENIED: Transit Snapshot Node/Session/lease differs"
  | _,_ => .error "INVALID_CONFIG: Transit timestamp"

theorem parseTransitAssignments_scan (start finish : Int) (previous : String)
    (logical : List (String×Protocol)) (physical : List Slot) (l : List TransitAssignment) :
    parseTransitAssignments lib s start finish previous logical physical l=.ok () ↔
      scanAssignments (checkTransitAssignment lib s start finish) previous logical physical l=
        .ok () := by
  induction l generalizing previous logical physical with
  | nil => exact Iff.rfl
  | cons a l ih =>
    simp only [parseTransitAssignments,scanAssignments,checkTransitAssignment,do_ok]
    cases hp : parseTransitAssignment lib a with
    | error e => simp
    | ok u =>
      cases hi : lib.parseTime a.intent.issuedAt with
      | none => simp
      | some issued =>
        cases hu : lib.parseTime a.intent.authorizationUntil with
        | none => simp
        | some until_ =>
          simp only [ite_error_ok,reject_ok,true_and,ih]

theorem parseTransitTombstones_scan (retired : List (Slot×Nat)) (prior : Option TransitTombstone)
    (l : List TransitTombstone) : parseTransitTombstones s retired prior l=.ok () ↔
      scanTombstones transitTombstoneBefore s retired prior l=.ok () := by
  induction l generalizing retired prior with
  | nil => exact Iff.rfl
  | cons t l ih =>
    simp only [parseTransitTombstones,scanTombstones,do_ok,ite_error_ok,ih]

/-- An assignment says what its intent says, on the Node and in the session of its snapshot. -/
structure TransitBound (lib : TransitLibrary) (terms : TransitIntent→Option TransitTerms)
    (s : TransitSnapshot) (a : TransitAssignment) : Prop where
  contract : TransitContract lib terms a.intent
  digest : lib.intentDigest a.intent=a.configDigest
  binding : a.nodeId=a.intent.nodeId ∧ a.sessionEpoch=a.intent.sessionEpoch ∧
    a.assignmentId=a.intent.assignmentId ∧ a.forwardId=a.intent.forwardId ∧
    a.forwardRevision=a.intent.forwardRevision ∧
    a.deploymentGeneration=a.intent.deploymentGeneration ∧
    a.bindingFence=a.intent.bindingFence ∧ a.protocol=a.intent.protocol
  listener : lib.canonicalAddress a.resource.address ∧ a.resource.protocol=.tcp ∧
    a.resource.address=a.intent.listenAddress ∧ a.resource.port=a.intent.listenPort
  session : a.nodeId=s.nodeId ∧ a.sessionEpoch=s.sessionEpoch

/-- The checks of a snapshot that compare no times and order no tombstones. -/
structure TransitCommon (lib : TransitLibrary) (terms : TransitIntent→Option TransitTerms)
    (s : TransitSnapshot) : Prop where
  digest : lib.snapshotDigest { s with snapshotDigest := "" }=s.snapshotDigest
  assignments : ∀a∈s.assignments, TransitBound lib terms s a
  names : (""::s.assignments.map (·.assignmentId)).IsChain (·<·)
  logical : (s.assignments.map fun a => (a.forwardId,a.protocol)).Nodup
  physical : (s.assignments.map (·.slot)).Nodup
  tombstones : ∀t∈s.tombstones, TombstoneBound s t
  retired : (s.tombstones.map fun t => (t.slot,t.bindingFence)).Nodup

/-- The intervals of a snapshot, with times in whole nanoseconds. -/
structure TransitTimed (calendar : Calendar) (s : TransitSnapshot) : Prop where
  range : timesBefore true (parseRfc3339 calendar) s.issuedAt s.validUntil
  intents : ∀a∈s.assignments,
    timesBefore true (parseRfc3339 calendar) a.intent.issuedAt a.intent.authorizationUntil ∧
      timesBefore false (parseRfc3339 calendar) a.intent.issuedAt s.issuedAt ∧
      timesBefore false (parseRfc3339 calendar) s.validUntil a.intent.authorizationUntil

variable {strict : Bool} {parse : String→Option Int} {a : TransitAssignment}

theorem timesBefore_some {a b : String} {x y : Int} (ha : parse a=some x) (hb : parse b=some y) :
    timesBefore strict parse a b ↔ if strict then x<y else x≤y := by
  cases strict <;> simp [timesBefore,ha,hb]

theorem timesBefore_parsed {a b : String} (h : timesBefore strict parse a b) :
    ∃x y, parse a=some x ∧ parse b=some y := by
  unfold timesBefore at h
  split at h
  · next x y hx hy => exact ⟨x,y,hx,hy⟩
  · cases h

theorem parseTransitAssignment_ok :
    parseTransitAssignment lib a=.ok () ↔ transitAssignmentSize lib a ≤ maxTransitBytes ∧
      lib.parseIntent a.intent=.ok () ∧ lib.intentDigest a.intent=a.configDigest ∧
      (a.nodeId=a.intent.nodeId ∧ a.sessionEpoch=a.intent.sessionEpoch ∧
        a.assignmentId=a.intent.assignmentId ∧ a.forwardId=a.intent.forwardId ∧
        a.forwardRevision=a.intent.forwardRevision ∧
        a.deploymentGeneration=a.intent.deploymentGeneration ∧
        a.bindingFence=a.intent.bindingFence ∧ a.protocol=a.intent.protocol) ∧
      lib.canonicalAddress a.resource.address ∧ a.resource.protocol=.tcp ∧
      a.resource.address=a.intent.listenAddress ∧ a.resource.port=a.intent.listenPort := by
  unfold parseTransitAssignment
  rw [ite_error_ok,not_lt]
  cases hp : lib.parseIntent a.intent with
  | error e => simp
  | ok u =>
    simp only [ite_error_ok,not_or,not_not,Bool.not_eq_true',Bool.not_eq_false,and_true,true_and]

theorem checkTransitAssignment_ok {start finish : Int}
    (hs : parseRfc3339 calendar s.issuedAt=some start)
    (hf : parseRfc3339 calendar s.validUntil=some finish) :
    checkTransitAssignment (lib.checked calendar terms) s start finish a=.ok () ↔
      TransitBound lib terms s a ∧ transitAssignmentSize lib a ≤ maxTransitBytes ∧
      timesBefore true (parseRfc3339 calendar) a.intent.issuedAt a.intent.authorizationUntil ∧
      timesBefore false (parseRfc3339 calendar) a.intent.issuedAt s.issuedAt ∧
      timesBefore false (parseRfc3339 calendar) s.validUntil a.intent.authorizationUntil := by
  have hparse : (lib.checked calendar terms).parseIntent a.intent=.ok () ↔
      TransitContract lib terms a.intent ∧
        timesBefore true (parseRfc3339 calendar) a.intent.issuedAt a.intent.authorizationUntil :=
    parseTransitContract_ok
  have htime : (lib.checked calendar terms).parseTime=parseRfc3339 calendar := rfl
  simp only [checkTransitAssignment,do_ok,parseTransitAssignment_ok,hparse,htime]
  cases hi : parseRfc3339 calendar a.intent.issuedAt with
  | none =>
    simp only [reduceCtorEq,and_false,false_iff]
    rintro ⟨-,-,htime,-⟩
    obtain ⟨x,y,hx,-⟩ := timesBefore_parsed htime
    simp [hi] at hx
  | some issued =>
    cases hu : parseRfc3339 calendar a.intent.authorizationUntil with
    | none =>
      simp only [reduceCtorEq,and_false,false_iff]
      rintro ⟨-,-,htime,-⟩
      obtain ⟨x,y,-,hy⟩ := timesBefore_parsed htime
      simp [hu] at hy
    | some until_ =>
      rw [timesBefore_some hi hu,timesBefore_some hi hs,timesBefore_some hf hu]
      simp only [reject_ok,not_or,not_not,not_lt,if_true,if_false,Bool.false_eq_true]
      constructor
      · rintro ⟨⟨hsize,⟨hc,htime⟩,hdigest,hbinding,hlisten⟩,hnode,hepoch,hstart,hend⟩
        exact ⟨⟨hc,hdigest,hbinding,hlisten,hnode,hepoch⟩,hsize,htime,hstart,hend⟩
      · rintro ⟨⟨hc,hdigest,hbinding,hlisten,hnode,hepoch⟩,hsize,htime,hstart,hend⟩
        exact ⟨⟨hsize,⟨hc,htime⟩,hdigest,hbinding,hlisten⟩,hnode,hepoch,hstart,hend⟩

/-- A snapshot of the schema is accepted when it passes the checks that need no clock and no
order, its intervals fit in whole nanoseconds, its tombstones increase bytewise and every
assignment is short enough. -/
theorem parseTransitSnapshot_ok (hs : transitSnapshotOk lib.toLibrary s) :
    parseTransitSnapshot (lib.checked calendar terms) s=.ok () ↔ TransitCommon lib terms s ∧
      TransitTimed calendar s ∧ s.tombstones.IsChain (transitTombstoneBefore · ·) ∧
      ∀a∈s.assignments, transitAssignmentSize lib a ≤ maxTransitBytes := by
  have hok : transitSnapshotOk (lib.checked calendar terms).toLibrary s := hs
  have htime : (lib.checked calendar terms).parseTime=parseRfc3339 calendar := rfl
  simp only [parseTransitSnapshot,hok,Bool.not_true,Bool.false_eq_true,if_false,ite_error_ok,htime,
    not_not]
  cases hi : parseRfc3339 calendar s.issuedAt with
  | none =>
    simp only [reduceCtorEq,and_false,false_iff]
    rintro ⟨-,htimed,-⟩
    obtain ⟨x,y,hx,-⟩ := timesBefore_parsed htimed.range
    simp [hi] at hx
  | some start =>
    cases hu : parseRfc3339 calendar s.validUntil with
    | none =>
      simp only [reduceCtorEq,and_false,false_iff]
      rintro ⟨-,htimed,-⟩
      obtain ⟨x,y,-,hy⟩ := timesBefore_parsed htimed.range
      simp [hu] at hy
    | some finish =>
      have hrange : timesBefore true (parseRfc3339 calendar) s.issuedAt s.validUntil ↔
          start<finish := by
        rw [timesBefore_some hi hu,if_pos rfl]
      have hscan : parseTransitAssignments (lib.checked calendar terms) s start finish "" [] []
          s.assignments=.ok () ↔ _ :=
        (parseTransitAssignments_scan start finish "" [] [] s.assignments).trans scanAssignments_ok
      have htombstones : parseTransitTombstones s [] none s.tombstones=.ok () ↔ _ :=
        (parseTransitTombstones_scan [] none s.tombstones).trans scanTombstones_ok
      simp only [checkTransitAssignment_ok hi hu,List.not_mem_nil,not_false_eq_true,implies_true,
        true_and] at hscan
      simp only [List.not_mem_nil,not_false_eq_true,implies_true,true_and,Option.toList_none,
        List.nil_append] at htombstones
      simp only [ite_error_ok,not_not]
      cases hloop : parseTransitAssignments (lib.checked calendar terms) s start finish "" [] []
        s.assignments with
      | error e =>
        simp only [hloop,reduceCtorEq,false_iff] at hscan
        simp only [reduceCtorEq,and_false,false_iff]
        rintro ⟨hcommon,htimed,-,hsize⟩
        exact hscan ⟨fun a ha => ⟨hcommon.assignments a ha,hsize a ha,htimed.intents a ha⟩,
          hcommon.names,hcommon.logical,hcommon.physical⟩
      | ok u =>
        simp only [hloop,true_iff] at hscan
        obtain ⟨hchecks,hnames,hlogical,hphysical⟩ := hscan
        rw [htombstones]
        constructor
        · rintro ⟨hdigest,hlt,htomb,hretired,horder⟩
          exact ⟨⟨hdigest,fun a ha => (hchecks a ha).1,hnames,hlogical,hphysical,htomb,hretired⟩,
            ⟨hrange.mpr hlt,fun a ha => (hchecks a ha).2.2⟩,horder,fun a ha => (hchecks a ha).2.1⟩
        · rintro ⟨hcommon,htimed,horder,-⟩
          exact ⟨hcommon.digest,hrange.mp htimed.range,hcommon.tombstones,hcommon.retired,horder⟩

end TuneX.Agent
