import TuneX.Control.PermitHistory

namespace TuneX.Control.Probe

open Framework

inductive Call
  | issue (id actor scope forward : String) (revision timeoutMs : Nat)
      (chosen : Option (String×Nat)) (owners : Owners) (n₁ n₂ : Int)
  | consume (c : MachineCommand) (owners : Owners) (n₁ n₂ : Int)
  | offer (c : MachineCommand) (owners : Owners) (n₁ n₂ n₃ : Int)
  | check (c : MachineCommand) (owners : Owners) (n₁ n₂ : Int)
  | receiveResult (node fingerprint : String) (epoch : Nat) (b : ResultBody) (owners : Owners)
      (n₁ n₂ n₃ n₄ : Int)
  | revoke (actor scope id : String) (owners : Owners) (n₁ n₂ : Int)
  | quarantineRecovery (first second : Int)

section
variable (dates : Dates) (digest : ResultBody→String)

def History.step (h : History) : Call→Except String History
  | .issue id actor scope forward revision timeoutMs chosen owners n₁ n₂ => do
    let (t,p) ← h.store.issue id actor scope forward revision timeoutMs chosen owners n₁ n₂
    pure { h with store := t, issued := h.issued++[p] }
  | .consume c owners n₁ n₂ => do
    let (t,p) ← h.store.consume c owners n₁ n₂
    pure { h with store := t, consumed := h.consumed++[p] }
  | .offer c owners n₁ n₂ n₃ => do
    let _ ← h.store.offer c owners n₁ n₂ n₃
    pure h
  | .check c owners n₁ n₂ => do
    let _ ← h.store.check c owners n₁ n₂
    pure h
  | .receiveResult node fingerprint epoch b owners n₁ n₂ n₃ n₄ => do
    let (t,receipt) ← h.store.receiveResult dates digest node fingerprint epoch b owners n₁ n₂ n₃ n₄
    if receipt.duplicate then pure { h with store := t }
    else pure { h with store := t, recorded := h.recorded++[⟨b,digest b,receipt.acceptedAt⟩] }
  | .revoke actor scope id owners n₁ n₂ => do
    let t ← h.store.revoke actor scope id owners n₁ n₂
    pure { h with store := t }
  | .quarantineRecovery first second => do
    let t ← h.store.quarantineRecovery first second
    pure { h with store := t }

/-- What the platform gives: `randomUUID` repeats no identifier and `Date.now` is a date. -/
def Call.Real (h : History) : Call→Prop
  | .issue id .. => id∉h.issued.map ProbePermit.id
  | .quarantineRecovery first second => first ≤ maxDate ∧ second ≤ maxDate
  | _ => True

/-- A call is one transaction: a refused one leaves everything as it was. -/
def Step (h : History) (c : Call) (h' : History) : Prop :=
  c.Real h ∧ (h.step dates digest c=.ok h' ∨ (∃e, h.step dates digest c=.error e) ∧ h'=h)

end

/-- What one step, and so any number of them, leaves of the earlier permits. -/
structure Continues (h h' : History) : Prop where
  ids : ∀id∈h.issued.map ProbePermit.id, id∈h'.issued.map ProbePermit.id
  moved : ∀q∈h'.store.records, q.id∈h.issued.map ProbePermit.id→
    ∃p∈h.store.records, p.Became q
  lasting : ∀id∈h.issued.map ProbePermit.id,
    h.store.withdrawn id ∨ (∀p∈h.store.records, p.id≠id)→
    h'.store.withdrawn id ∨ ∀p∈h'.store.records, p.id≠id

theorem Continues.refl (h : History) : Continues h h :=
  ⟨fun _ hid => hid,fun q hq _ => ⟨q,hq,ProbePermit.Became.refl q⟩,fun _ _ hgone => hgone⟩

theorem Continues.trans {a b c : History} (h : Continues a b) (k : Continues b c) :
    Continues a c where
  ids := fun id hid => k.ids id (h.ids id hid)
  moved := by
    intro r hr hid
    obtain ⟨q,hq,hqr⟩ := k.moved r hr (h.ids _ hid)
    have hqid : q.id=r.id := (congrArg ProbePermit.id hqr.1).symm
    obtain ⟨p,hp,hpq⟩ := h.moved q hq (hqid ▸ hid)
    exact ⟨p,hp,hpq.trans hqr⟩
  lasting := fun id hid hgone => k.lasting id (h.ids id hid) (h.lasting id hid hgone)

section
variable (dates : Dates) (digest : ResultBody→String)

structure Good (h : History) : Prop where
  kept : Kept h.issued h.store
  consumptions : Consumptions h
  reports : Reports dates digest h

end

theorem Good.start (dates : Dates) (digest : ResultBody→String) :
    Good dates digest History.start :=
  ⟨Kept.start,Consumptions.start,Reports.start⟩

namespace Continues

variable {h : History} {t : Store}

theorem pruned {n : Int} (hrecords : ∀q∈t.records, ∃p∈h.store.records, p.Became q)
    (hwithdrawn : ∀id, h.store.withdrawn id→t.withdrawn id) (consumed : List ProbePermit)
    (recorded : List ResultRecord) :
    Continues h ⟨{ t.prune (n-1000) with observedAt := n },h.issued,consumed,recorded⟩ where
  ids := fun _ hid => hid
  moved := fun q hq _ => hrecords q ((t.mem_prune_records _ q).mp hq).1
  lasting := by
    intro id _ hgone
    by_cases hp : ∃p∈(t.prune (n-1000)).records, p.id=id
    · left
      obtain ⟨p,hp,hpid⟩ := hp
      rcases hgone with hw | hno
      · have hwt := hwithdrawn id hw
        obtain ⟨w,hw,hwid⟩ := List.any_eq_true.mp hwt
        refine List.any_eq_true.mpr ⟨w,?_,hwid⟩
        have hid : p.id=w.permitId := by
          rw [hpid]
          exact (by simpa using hwid : w.permitId=id).symm
        exact (t.mem_prune_withdrawals _ w).mpr ⟨hw,.inr ⟨p,hp,hid⟩⟩
      · obtain ⟨q,hq,hqp⟩ := hrecords p ((t.mem_prune_records _ p).mp hp).1
        have hqid : q.id=p.id := (congrArg ProbePermit.id hqp.1).symm
        exact absurd (hqid.trans hpid) (hno q hq)
    · right
      intro p hmem hid
      exact hp ⟨p,hmem,hid⟩

theorem issue {id actor : String} {p : ProbePermit} (hi : h.store.Issued id actor p t)
    (hfresh : id∉h.issued.map ProbePermit.id) :
    Continues h { h with store := t, issued := h.issued++[p] } := by
  have hk : Continues h _ := pruned (t := h.store) (n := p.issuedAt)
    (fun q hq => ⟨q,hq,ProbePermit.Became.refl q⟩) (fun _ hw => hw) h.consumed h.recorded
  have hnew : ∀x∈h.issued.map ProbePermit.id, p.id≠x := by
    intro x hx hid
    rw [← hid,hi.name] at hx
    exact hfresh hx
  rw [hi.written]
  exact {
    ids := by
      intro x hx
      rw [List.map_append]
      exact List.mem_append_left _ hx
    moved := by
      intro q hq hid
      rcases List.mem_append.mp hq with hq | hq
      · exact hk.moved q hq hid
      · obtain rfl := List.mem_singleton.mp hq
        exact absurd rfl (hnew _ hid)
    lasting := by
      intro x hx hgone
      refine (hk.lasting x hx hgone).imp_right ?_
      intro hno q hq
      rcases List.mem_append.mp hq with hq | hq
      · exact hno q hq
      · obtain rfl := List.mem_singleton.mp hq
        exact hnew x hx }

end Continues

namespace Store

theorem closeAll_became {s : Store} {sel : ProbePermit→Bool} {state : PermitState} {at_ : Int}
    {q : ProbePermit} (hq : q∈(s.closeAll sel state at_).records) :
    ∃p∈s.records, p.Became q := by
  obtain ⟨p,hp,rfl⟩ := List.mem_map.mp hq
  exact ⟨p,hp,ProbePermit.closing_became sel state at_ p⟩

end Store

namespace Good

variable {dates : Dates} {digest : ResultBody→String} {h : History}
  {t : Store} {id actor : String} {p : ProbePermit} {n n₁ n₂ : Int} {b : ResultBody}
  {owners : Owners} {h' : History}

section

variable (k : Good dates digest h)
include k

theorem issue (hi : h.store.Issued id actor p t) (hfresh : id∉h.issued.map ProbePermit.id) :
    Good dates digest { h with store := t, issued := h.issued++[p] } :=
  ⟨k.kept.issue hi hfresh,k.consumptions.issue hi hfresh,k.reports.issue hi hfresh⟩

theorem close (sel : ProbePermit→Bool) (state : PermitState) (consumed : List ProbePermit)
    (hn : h.store.Sampled n) (hs : state≠.issued)
    (hat : ∀p∈h.store.records, p.state=.issued→sel p→state=.consumed→p.issuedAt≤n) :
    let t := { (h.store.closeAll sel state n).prune (n-1000) with observedAt := n }
    Kept h.issued t ∧ Reports dates digest { h with store := t, consumed := consumed } ∧
    Continues h { h with store := t, consumed := consumed } := by
  have hdate : n ≤ maxDate := by
    have hlast := hn.2.2
    omega
  have hkept : Kept h.issued (h.store.closeAll sel state n) :=
    k.kept.closeAll hs hdate fun p hp hi hsel => ⟨hn.1.trans hn.2.1,hat p hp hi hsel⟩
  have hreports : Reports dates digest
      { h with store := h.store.closeAll sel state n, consumed := consumed } := by
    refine k.reports.write (t := h.store.closeAll sel state n) rfl ?_ (Int.le_refl _)
    intro q hq
    obtain ⟨p,hp,hpq⟩ := Store.closeAll_became hq
    exact ⟨p,hp,(congrArg ProbePermit.id hpq.1).symm⟩
  exact ⟨hkept.finish hn.2.1 hn.2.2,hreports.finish hn.2.1,
    Continues.pruned (fun q hq => Store.closeAll_became hq) (fun _ hw => hw) _ _⟩

theorem consume {q : ProbePermit} (hq : q∈h.store.records) (hstate : q.state=.issued)
    (hn : h.store.Sampled n) (hissued : q.issuedAt ≤ n) (hlast : n<q.expiresAt) : let h' := { h with
      store := { (h.store.closeAll (·.id == q.id) .consumed n).prune (n-1000) with observedAt := n }
      consumed := h.consumed++[{ q with state := .consumed, closedAt := some n }] }
    Good dates digest h' ∧ Continues h h' := by
  have hat : ∀p∈h.store.records, p.state=.issued→(p.id == q.id)→PermitState.consumed=.consumed→
      p.issuedAt≤n := by
    intro p hp _ hid _
    rw [k.kept.same hp hq (by simpa using hid)]
    exact hissued
  obtain ⟨hkept,hreports,hcont⟩ := k.close (·.id == q.id) .consumed
    (h.consumed++[{ q with state := .consumed, closedAt := some n }]) hn (by decide) hat
  exact ⟨⟨hkept,k.consumptions.consume k.kept hq hstate hissued hlast,hreports⟩,hcont⟩

theorem revoke (hn : h.store.Sampled n) : let h' := { h with
      store := { (h.store.closeAll (·.id == id) .revoked n).prune (n-1000) with observedAt := n } }
    Good dates digest h' ∧ Continues h h' := by
  obtain ⟨hkept,hreports,hcont⟩ := k.close (·.id == id) .revoked h.consumed hn (by decide) (fun _ _ _ _ hs => absurd hs (by decide))
  refine ⟨⟨hkept,k.consumptions.write ?_,hreports⟩,hcont⟩
  intro p hp hi
  exact (Consumptions.closeAll_issued (by decide) ((Store.mem_prune_records _ _ p).mp hp).1 hi).1

theorem withdraw {more : List Withdrawal}
    (hkept : Kept h.issued { h.store with withdrawals := h.store.withdrawals++more }) :
    Good dates digest { h with store := { h.store with
      withdrawals := h.store.withdrawals++more } } :=
  let t : Store := { h.store with withdrawals := h.store.withdrawals++more }
  ⟨hkept,k.consumptions.write (t := t) fun _ hp _ => hp,
    k.reports.write (t := t) rfl (fun p hp => ⟨p,hp,rfl⟩) (Int.le_refl _)⟩

theorem finish (hn : h.store.Sampled n) :
    Good dates digest { h with store := { h.store.prune (n-1000) with observedAt := n } } :=
  ⟨k.kept.finish hn.2.1 hn.2.2,
    k.consumptions.write (t := { h.store.prune (n-1000) with observedAt := n })
      fun p hp _ => ((h.store.mem_prune_records _ p).mp hp).1,
    k.reports.finish hn.2.1⟩

theorem record (hn : h.store.Sampled n) (hp : p∈h.store.records) (hid : p.id=b.permitId)
    (hparse : parseProbeResult dates b) (htimely : timely dates b n)
    (hnone : h.store.result p.id=none) : let h' := { h with
      store := { h.store with observedAt := n, results := h.store.results++[⟨b,digest b,n⟩] }
      recorded := h.recorded++[⟨b,digest b,n⟩] }
    Good dates digest h' ∧ Continues h h' := by
  have hkept : Kept h.issued
      { h.store with observedAt := n, results := h.store.results++[⟨b,digest b,n⟩] } :=
    { k.kept with
      gone := fun q hq => (k.kept.gone q hq).imp_right fun hgone => hgone.trans hn.2.1
      floor := ⟨hn.1.trans hn.2.1,hn.2.2⟩ }
  refine ⟨⟨hkept,k.consumptions.write (t := { h.store with
      observedAt := n, results := h.store.results++[⟨b,digest b,n⟩] }) (fun _ hq _ => hq),
    k.reports.record k.kept hn.2.1 hp hid hparse htimely hnone⟩,?_⟩
  exact ⟨fun _ hx => hx,fun q hq _ => ⟨q,hq,ProbePermit.Became.refl q⟩,fun _ _ hgone => hgone⟩

theorem quarantine {first second : Int} (hfirst : first ≤ maxDate) (hsecond : second ≤ maxDate)
    (ht : h.store.quarantineRecovery first second=.ok t) :
    Good dates digest { h with store := t } ∧ Continues h { h with store := t } := by
  simp only [Store.quarantineRecovery,do_ok,not_and,not_exists] at ht
  obtain ⟨hrange,rfl⟩ := ht
  have hat : ∀p∈h.store.records, p.state=.issued→true=true→
      0≤first ∧ (PermitState.quarantined=.consumed→p.issuedAt≤first) := by
    intro p hp hi _
    refine ⟨?_,fun hs => absurd hs (by decide)⟩
    by_contra hneg
    exact hrange (by omega) p hp hi
  have hkept : Kept h.issued (h.store.closeAll (fun _ => true) .quarantined first) :=
    k.kept.closeAll (by decide) hfirst hat
  have hclosed : Good dates digest
      { h with store := h.store.closeAll (fun _ => true) .quarantined first } := by
    refine ⟨hkept,?_,?_⟩
    · refine k.consumptions.write (t := h.store.closeAll (fun _ => true) .quarantined first) ?_
      intro p hp hi
      exact (Consumptions.closeAll_issued (by decide) hp hi).1
    · refine k.reports.write (t := h.store.closeAll (fun _ => true) .quarantined first) rfl ?_
        (Int.le_refl _)
      intro q hq
      obtain ⟨p,hp,hpq⟩ := Store.closeAll_became hq
      exact ⟨p,hp,(congrArg ProbePermit.id hpq.1).symm⟩
  constructor
  · apply hclosed.withdraw
    apply hkept.withdraw
    · rw [List.map_map]
      exact hkept.records_ids.sublist (List.filter_sublist.map _)
    · intro w hw
      obtain ⟨r,hr,rfl⟩ := List.mem_map.mp hw
      have hfilter := (List.mem_filter.mp hr).2
      simp only [Bool.not_eq_true',decide_eq_true_eq] at hfilter
      exact hfilter.2
    · intro w hw
      obtain ⟨r,hr,rfl⟩ := List.mem_map.mp hw
      obtain ⟨hmem,hfilter⟩ := List.mem_filter.mp hr
      simp only [Bool.not_eq_true',decide_eq_true_eq] at hfilter
      obtain ⟨c,hc,-,hlast⟩ := hkept.closed r hmem hfilter.1
      refine ⟨r,hmem,rfl,hfilter.1,?_,?_⟩
      · intro c' hc'
        rw [hc] at hc'
        obtain rfl := Option.some.inj hc'
        rw [hc]
        exact Int.le_max_right _ _
      · rw [hc]
        exact Int.max_le.mpr ⟨hsecond,hlast⟩
  · exact {
      ids := fun _ hx => hx
      moved := fun q hq _ => Store.closeAll_became hq
      lasting := by
        intro id _ hgone
        rcases hgone with hw | hno
        · left
          obtain ⟨w,hw,hwid⟩ := List.any_eq_true.mp hw
          exact List.any_eq_true.mpr ⟨w,List.mem_append_left _ hw,hwid⟩
        · right
          intro q hq
          obtain ⟨p,hp,hpq⟩ := Store.closeAll_became hq
          have hpid : p.id=q.id := (congrArg ProbePermit.id hpq.1).symm
          rw [← hpid]
          exact hno p hp }

theorem revoked {scope : String} (ht : h.store.revoke actor scope id owners n₁ n₂=.ok t) :
    Good dates digest { h with store := t } ∧ Continues h { h with store := t } := by
  rcases Store.revoke_ok ht with rfl | ⟨n,hn,⟨hw,⟨r,hr,hid,hstate,c,hc,-,hcn⟩,rfl⟩ | rfl⟩
  · exact ⟨k,Continues.refl h⟩
  · have hdate : n ≤ maxDate := by
      have hlast := hn.2.2
      omega
    have hkept : Kept h.issued { h.store with withdrawals := h.store.withdrawals++[⟨id,n⟩] } := by
      apply k.kept.withdraw
      · exact List.nodup_singleton _
      · intro w hmem
        obtain rfl := List.mem_singleton.mp hmem
        exact hw
      · intro w hmem
        obtain rfl := List.mem_singleton.mp hmem
        refine ⟨r,hr,hid,hstate,?_,hdate⟩
        intro c' hc'
        have heq : some c=some c' := hc.symm.trans hc'
        obtain rfl := Option.some.inj heq
        exact hcn
    refine ⟨(k.withdraw hkept).finish hn,
      Continues.pruned (t := { h.store with withdrawals := h.store.withdrawals++[⟨id,n⟩] })
        (fun q hq => ⟨q,hq,ProbePermit.Became.refl q⟩) ?_ h.consumed h.recorded⟩
    intro x hx
    obtain ⟨w,hmem,hwid⟩ := List.any_eq_true.mp hx
    exact List.any_eq_true.mpr ⟨w,List.mem_append_left _ hmem,hwid⟩
  · exact k.revoke hn

theorem received {node fingerprint : String} {epoch : Nat} {n₃ n₄ : Int} {receipt : Receipt}
    (ht : h.store.receiveResult dates digest node fingerprint epoch b owners n₁ n₂ n₃ n₄=
      .ok (t,receipt)) (hh : h'=if receipt.duplicate then { h with store := t }
      else { h with store := t, recorded := h.recorded++[⟨b,digest b,receipt.acceptedAt⟩] }) :
    Good dates digest h' ∧ Continues h h' := by
  obtain ⟨p,n,hadmitted,hcases⟩ := Store.receiveResult_ok ht
  rcases hcases with ⟨r,-,-,rfl,rfl⟩ | ⟨hnone,hfirst,hat,rfl⟩
  · rw [hh]
    exact ⟨k,Continues.refl h⟩
  · obtain ⟨hn,hp,hid,-,hparse,htimely⟩ := Store.admitted_ok hadmitted
    rw [hh,hfirst,hat]
    exact k.record hn hp hid hparse htimely hnone

theorem step {c : Call} (hs : Step dates digest h c h') :
    Good dates digest h' ∧ Continues h h' := by
  obtain ⟨hreal,hok | ⟨-,rfl⟩⟩ := hs
  · cases c with
    | issue =>
      simp only [History.step,do_ok] at hok
      obtain ⟨⟨t,p⟩,hi,rfl⟩ := hok
      have hissued := Store.issue_ok hi
      exact ⟨k.issue hissued hreal,Continues.issue hissued hreal⟩
    | consume =>
      simp only [History.step,do_ok] at hok
      obtain ⟨⟨t,p⟩,hc,rfl⟩ := hok
      obtain ⟨q,hq,n,hstate,hn,hissued,hlast,rfl,rfl⟩ := Store.consume_ok hc
      exact k.consume hq hstate hn hissued hlast
    | offer | check =>
      simp only [History.step,do_ok] at hok
      obtain ⟨-,-,rfl⟩ := hok
      exact ⟨k,Continues.refl h⟩
    | receiveResult =>
      simp only [History.step,bind_ok] at hok
      obtain ⟨⟨t,receipt⟩,ht,hok⟩ := hok
      apply k.received ht
      split_ifs at hok ⊢
      · exact ((pure_ok _ _).mp hok).symm
      · exact ((pure_ok _ _).mp hok).symm
    | revoke =>
      simp only [History.step,do_ok] at hok
      obtain ⟨t,ht,rfl⟩ := hok
      exact k.revoked ht
    | quarantineRecovery =>
      simp only [History.step,do_ok] at hok
      obtain ⟨t,ht,rfl⟩ := hok
      exact k.quarantine hreal.1 hreal.2 ht
  · exact ⟨k,Continues.refl h'⟩

theorem run {l : List Call} (hr : Run (Step dates digest) h l h') :
    Good dates digest h' ∧ Continues h h' := by
  refine hr.invariant (fun a => Good dates digest a ∧ Continues h a) ?_ ⟨k,Continues.refl h⟩
  intro a c b hs ⟨hgood,hcont⟩
  obtain ⟨hnext,hstep⟩ := hgood.step hs
  exact ⟨hnext,hcont.trans hstep⟩

end

end Good

theorem Store.now_floor {floor sample : Int} (h0 : 0≤floor) (h : floor ≤ sample) :
    Store.now floor sample=Store.now 0 sample := by
  by_cases hlast : sample ≤ maxDate-3000
  · rw [(Store.now_ok floor sample sample).mpr ⟨rfl,h0,h,hlast⟩,
      (Store.now_ok 0 sample sample).mpr ⟨rfl,Int.le_refl 0,h0.trans h,hlast⟩]
  · have hlate : maxDate-3000<sample := by omega
    simp [Store.now,reject,hlate]

instance (h : History) : (c : Call)→Decidable (c.Real h)
  | .issue id .. => inferInstanceAs (Decidable (id∉h.issued.map ProbePermit.id))
  | .quarantineRecovery first second =>
    inferInstanceAs (Decidable (first ≤ maxDate ∧ second ≤ maxDate))
  | .consume .. | .offer .. | .check .. | .receiveResult .. | .revoke .. =>
    inferInstanceAs (Decidable True)

/-- The calls of a list, each one accepted. -/
def History.accepted (dates : Dates) (digest : ResultBody→String) (h : History) (c : Call) :
    Option History :=
  if c.Real h then (h.step dates digest c).toOption else none

variable {dates : Dates} {digest : ResultBody→String} {h h' : History}

theorem History.accepted_step {c : Call} (hs : h.accepted dates digest c=some h') :
    Step dates digest h c h' := by
  unfold History.accepted at hs
  split at hs
  · rename_i hreal
    exact ⟨hreal,.inl ((toOption_ok _ _).mp hs)⟩
  · simp at hs

def aHex : String := String.ofList (List.replicate 64 'a')

def aDates : Dates := ⟨fun _ => true,fun _ => none,fun _ => "2026-01-01T00:00:00.000Z"⟩

def aBinding : ProbeBinding :=
  ⟨"node","boot",1,1,"assignment","forward",1,1,1,"sha256:"++aHex,1⟩

def someOwners : Owners :=
  ⟨.ok (),.ok ⟨"scope",1000,aBinding,some 60000⟩,
    some ⟨"node",aHex,true,aHex,1,"boot",1,1000,20000⟩,
    some ⟨"node","boot",1,false,false,90000,90000,none,["adp.3","native.direct.v1","tcp"]⟩⟩

def aCommand : MachineCommand := ⟨"node",aHex,1,"permit","boot",aHex,1⟩

/-- A permit is issued, consumed and withdrawn, and a recovery runs with a clock that is behind. -/
def withdrawnCalls : List Call :=
  [.issue "permit" "actor" "scope" "forward" 1 1000 none someOwners 5000 5000,
    .consume aCommand someOwners 5100 5200,.revoke "actor" "scope" "permit" someOwners 5300 5300,
    .quarantineRecovery 10 20]

theorem withdrawnCalls_run : ∃h, Run (Step aDates fun _ => "") History.start withdrawnCalls h ∧
    h.store.withdrawn "permit" ∧ h.store.observedAt ≤ 5300 ∧
    (∀p∈h.store.records, p.issuedAt≤5300) ∧ ∀w∈h.store.withdrawals, w.withdrawnAt≤5300 := by
  have hrun : ∃h∈withdrawnCalls.foldlM (History.accepted aDates fun _ => "") History.start,
      h.store.withdrawn "permit" ∧ h.store.observedAt ≤ 5300 ∧
      (∀p∈h.store.records, p.issuedAt≤5300) ∧ ∀w∈h.store.withdrawals, w.withdrawnAt≤5300 := by
    decide +kernel
  obtain ⟨h,hh,hrest⟩ := hrun
  exact ⟨h,Run.of_foldlM (fun _ _ _ hs => History.accepted_step hs) hh,hrest⟩

/-- Once the clock has reached the stored times, the stored permits and withdrawals make no
difference to the budget. -/
theorem budget_accepts (dates : Dates) (digest : ResultBody→String) {l : List Call} {h : History}
    (hr : Run (Step dates digest) History.start l h) {sample : Int}
    (hfloor : h.store.observedAt ≤ sample) (hrecords : ∀p∈h.store.records, p.issuedAt ≤ sample)
    (hwithdrawals : ∀w∈h.store.withdrawals, w.withdrawnAt ≤ sample) :
    h.store.budget sample=Store.empty.budget sample ∧
    (sample ≤ maxDate-3000→h.store.budget sample=.ok sample) := by
  have hkept := ((Good.start dates digest).run hr).1.kept
  have hnow := hkept.budget hfloor hrecords hwithdrawals
  have hpositive : 0 ≤ sample := hkept.floor.1.trans hfloor
  have hempty : Store.empty.budget sample=Store.now 0 sample :=
    Kept.start.budget hpositive (by simp [Store.empty]) (by simp [Store.empty])
  constructor
  · rw [hnow,hempty,Store.now_floor hkept.floor.1 hfloor]
  · intro hlast
    rw [hnow]
    exact (Store.now_ok _ _ _).mpr ⟨rfl,hkept.floor.1,hfloor,hlast⟩

theorem budget_accepts_recovered : ∃h, Run (Step aDates fun _ => "") History.start withdrawnCalls h ∧
    h.store.budget 5300=.ok 5300 := by
  obtain ⟨h,hr,-,hfloor,hrecords,hwithdrawals⟩ := withdrawnCalls_run
  have haccepts := (budget_accepts aDates (fun _ => "") hr hfloor hrecords hwithdrawals).2
  exact ⟨h,hr,haccepts (by decide)⟩

/-- The time during which a permit reserves its actor and its node. -/
def ProbePermit.Reserves (p : ProbePermit) (n : Int) : Prop := p.issuedAt ≤ n ∧ n<p.expiresAt+1000

namespace Good

theorem disjoint (k : Good dates digest h) :
    h.issued.Pairwise fun p q => p.actorId=q.actorId ∨ p.binding.nodeId=q.binding.nodeId→
      ∀n, ¬(p.Reserves n ∧ q.Reserves n) := by
  refine k.kept.windows.imp ?_
  intro p q hapart hsame n hboth
  have hafter := hapart hsame
  have hp := hboth.1.2
  have hq := hboth.2.1
  omega

variable {p : ProbePermit} {r : ResultRecord}

theorem issue_four (k : Good dates digest h) {t : Store} {id actor : String}
    (hi : h.store.Issued id actor p t) :
    ((h.issued++[p]).filter fun q => p.issuedAt<q.expiresAt).length≤4 := by
  have hbefore := k.kept.unexpired hi
  have hone : ([p].filter fun q => p.issuedAt<q.expiresAt).length≤1 :=
    List.length_filter_le _ _
  rw [List.filter_append,List.length_append]
  omega

theorem result_found (k : Good dates digest h) (hr : r∈h.store.results) :
    h.store.result r.body.permitId=some r := by
  cases hf : h.store.result r.body.permitId with
  | none =>
    have hnone := List.find?_eq_none.mp hf r hr
    simp at hnone
  | some q =>
    have hq := List.mem_of_find?_eq_some hf
    have hid : q.body.permitId=r.body.permitId := by
      have hfound := List.find?_some hf
      simpa using hfound
    rw [List.inj_on_of_nodup_map k.reports.once (k.reports.kept.subset hq)
      (k.reports.kept.subset hr) hid]

theorem not_corrupt (k : Good dates digest h) (hr : r∈h.store.results) (hid : p.id=r.body.permitId)
    {n : Int} (hn : h.store.Sampled n) : Store.corrupt dates digest p n r=false := by
  obtain ⟨hparse,hdigest,htimely,h0,hlast⟩ := k.reports.sound r (k.reports.kept.subset hr)
  have hfloor := hn.2.1
  have hdate := hn.2.2
  have hsafe : safe r.acceptedAt := by
    rw [safe_iff]
    simp only [maxDate] at hdate
    omega
  have hlate : ¬n < r.acceptedAt := by omega
  simp [Store.corrupt,hparse,hdigest,htimely,hsafe,hid,hlate]

theorem replay (k : Good dates digest h) (hr : r∈h.store.results) {node fingerprint : String}
    {epoch : Nat} {b : ResultBody} {owners : Owners} {n₁ n₂ n₃ n : Int}
    (hid : b.permitId=r.body.permitId)
    (ha : h.store.admitted dates node fingerprint epoch b owners n₁ n₂ n₃=.ok (p,n)) (n₄ : Int) :
    h.store.receiveResult dates digest node fingerprint epoch b owners n₁ n₂ n₃ n₄=
      if digest b=digest r.body then .ok (h.store,⟨digest b,r.acceptedAt,n,true⟩)
      else .error "PROBE_RESULT_CONFLICT" := by
  obtain ⟨hn,-,hpid,-⟩ := Store.admitted_ok ha
  have hpr : p.id=r.body.permitId := hpid.trans hid
  have hfound : h.store.result p.id=some r := by
    rw [hpr]
    exact k.result_found hr
  have hsound := k.not_corrupt hr hpr hn
  have hdigest := (k.reports.sound r (k.reports.kept.subset hr)).2.1
  simp only [Store.receiveResult,ha,hfound,hsound,← hdigest,reject,bind,Except.bind,pure,
    Except.pure,Bool.false_eq_true,if_false]
  by_cases heq : digest b=digest r.body
  · simp [heq]
  · have hne : digest r.body≠digest b := fun hd => heq hd.symm
    simp [heq,hne]

end Good

theorem withdrawn_refused (k : Good dates digest h) (hc : Continues h h') {id : String}
    (hw : h.store.withdrawn id) : h'.store.withdrawn id ∨ ∀p∈h'.store.records, p.id≠id := by
  obtain ⟨w,hmem,hwid⟩ := List.any_eq_true.mp hw
  obtain ⟨p,hp,hpid,-⟩ := k.kept.withdrawn w hmem
  have hid : p.id=id := hpid.trans (by simpa using hwid)
  refine hc.lasting id ?_ (.inl hw)
  rw [← hid,← ProbePermit.origin_id p]
  exact List.mem_map_of_mem (k.kept.origin_mem hp)

/-- The life of the permits, from any state `h` of any run on to any later state `h'`. -/
theorem permit_lifecycle (dates : Dates) (digest : ResultBody→String) {l m : List Call}
    {h h' : History} (hl : Run (Step dates digest) History.start l h)
    (hm : Run (Step dates digest) h m h') :
    (∀p∈h.store.records, ∀q∈h'.store.records, q.id=p.id→p.Became q) ∧
    ((h.consumed.map ProbePermit.id).Nodup ∧ ∀p∈h.consumed, p.origin∈h.issued ∧
      ∃c, p.closedAt=some c ∧ p.issuedAt ≤ c ∧ c<p.expiresAt) ∧
    (∀id actor scope forward revision timeoutMs chosen owners n₁ n₂ t p,
      h.store.issue id actor scope forward revision timeoutMs chosen owners n₁ n₂=.ok (t,p)→
      ((h.issued++[p]).filter fun q => p.issuedAt<q.expiresAt).length≤4) ∧
    (h.issued.Pairwise fun p q => p.actorId=q.actorId ∨ p.binding.nodeId=q.binding.nodeId→
      ∀n, ¬(p.Reserves n ∧ q.Reserves n)) ∧
    (∀id, h.store.withdrawn id→
      (∀c owners n₁ n₂ answer, c.permitId=id→h'.store.check c owners n₁ n₂≠.ok answer) ∧
      ∀node fingerprint epoch b owners n₁ n₂ n₃ n₄ answer, b.permitId=id→
        h'.store.receiveResult dates digest node fingerprint epoch b owners n₁ n₂ n₃ n₄≠
          .ok answer) ∧
    ((h.recorded.map fun r => r.body.permitId).Nodup ∧
      ∀r∈h.store.results, ∀node fingerprint epoch b owners n₁ n₂ n₃ n₄ p n,
        b.permitId=r.body.permitId→(digest b=digest r.body→b=r.body)→
        h.store.admitted dates node fingerprint epoch b owners n₁ n₂ n₃=.ok (p,n)→
        h.store.receiveResult dates digest node fingerprint epoch b owners n₁ n₂ n₃ n₄=
          if b=r.body then .ok (h.store,⟨digest b,r.acceptedAt,n,true⟩)
          else .error "PROBE_RESULT_CONFLICT") := by
  have hgood := ((Good.start dates digest).run hl).1
  have hcont := (hgood.run hm).2
  refine ⟨?_,⟨hgood.consumptions.once,hgood.consumptions.early⟩,?_,hgood.disjoint,?_,
    hgood.reports.once,?_⟩
  · intro p hp q hq hid
    have hknown : q.id∈h.issued.map ProbePermit.id := by
      rw [hid,← ProbePermit.origin_id p]
      exact List.mem_map_of_mem (hgood.kept.origin_mem hp)
    obtain ⟨r,hr,hrq⟩ := hcont.moved q hq hknown
    have hrid : r.id=q.id := (congrArg ProbePermit.id hrq.1).symm
    rw [hgood.kept.same hp hr (hid.symm.trans hrid.symm)]
    exact hrq
  · intro id actor scope forward revision timeoutMs chosen owners n₁ n₂ t p hi
    exact hgood.issue_four (Store.issue_ok hi)
  · intro id hw
    have hgone := withdrawn_refused hgood hcont hw
    constructor
    · intro c owners n₁ n₂ answer hid hok
      obtain ⟨hno,hp,hpid⟩ := Store.check_ok (n := answer.1) (p := answer.2) hok
      rw [hid] at hno hpid
      rcases hgone with hyes | hnone
      · rw [hno] at hyes
        exact absurd hyes (by decide)
      · exact hnone _ hp hpid
    · intro node fingerprint epoch b owners n₁ n₂ n₃ n₄ answer hid hok
      obtain ⟨p,n,ha,-⟩ := Store.receiveResult_ok (t := answer.1) hok
      obtain ⟨-,hp,hpid,hno,-⟩ := Store.admitted_ok ha
      rw [hid] at hno hpid
      rcases hgone with hyes | hnone
      · rw [hno] at hyes
        exact absurd hyes (by decide)
      · exact hnone p hp hpid
  · intro r hr node fingerprint epoch b owners n₁ n₂ n₃ n₄ p n hid hcollide ha
    rw [hgood.replay hr hid ha n₄]
    by_cases heq : b=r.body
    · rw [heq]
      simp
    · rw [if_neg heq,if_neg fun hd => heq (hcollide hd)]

theorem permit_lifecycle_withdrawn :
    ∃h, Run (Step aDates fun _ => "") History.start withdrawnCalls h ∧
      ∀n₁ n₂ answer, h.store.check aCommand someOwners n₁ n₂≠.ok answer := by
  obtain ⟨h,hr,hw,-⟩ := withdrawnCalls_run
  obtain ⟨-,-,-,-,hrefused,-⟩ := permit_lifecycle aDates (fun _ => "") hr Run.refl
  exact ⟨h,hr,fun n₁ n₂ answer => (hrefused "permit" hw).1 aCommand someOwners n₁ n₂ answer rfl⟩

end TuneX.Control.Probe
