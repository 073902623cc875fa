import TuneX.Control.ProbePermits
import Mathlib.Data.List.Nodup
import Mathlib.Data.List.Perm.Subperm

namespace TuneX.Control.Probe

open Framework
open Agent (idOk)

namespace ProbePermit

def origin (p : ProbePermit) : ProbePermit := { p with state := .issued, closedAt := none }

@[simp] theorem origin_id (p : ProbePermit) : p.origin.id=p.id := rfl
@[simp] theorem origin_expiresAt (p : ProbePermit) : p.origin.expiresAt=p.expiresAt := rfl
/-- The windows of permits of one actor or one node, the earlier permit first. -/
def Apart (p q : ProbePermit) : Prop :=
  p.actorId=q.actorId ∨ p.binding.nodeId=q.binding.nodeId→p.expiresAt+1000≤q.issuedAt

/-- What happened to `p` when it is found again as `q`. -/
def Became (p q : ProbePermit) : Prop := q.origin=p.origin ∧ (p.state≠.issued→q=p)

theorem Became.refl (p : ProbePermit) : p.Became p := ⟨rfl,fun _ => rfl⟩

theorem Became.trans {p q r : ProbePermit} (h : p.Became q) (k : q.Became r) : p.Became r := by
  refine ⟨k.1.trans h.1,?_⟩
  intro hp
  obtain rfl := h.2 hp
  exact k.2 hp

/-- One permit under the update of the issued ones. -/
def closing (sel : ProbePermit→Bool) (state : PermitState) (at_ : Int) (r : ProbePermit) :
    ProbePermit :=
  if r.state=.issued ∧ sel r then { r with state := state, closedAt := some at_ } else r

theorem closing_became (sel : ProbePermit→Bool) (state : PermitState) (at_ : Int)
    (r : ProbePermit) : r.Became (r.closing sel state at_) := by
  unfold closing
  split
  · rename_i h
    exact ⟨rfl,fun hr => absurd h.1 hr⟩
  · exact Became.refl r

theorem closing_cases (sel : ProbePermit→Bool) (state : PermitState) (at_ : Int)
    (r : ProbePermit) :
    (r.state=.issued ∧ sel r ∧ r.closing sel state at_={ r with state := state, closedAt := some at_ })
      ∨ ((r.state=.issued→¬sel r) ∧ r.closing sel state at_=r) := by
  unfold closing
  split
  · rename_i h
    exact .inl ⟨h.1,h.2,rfl⟩
  · rename_i h
    exact .inr ⟨fun hi hs => h ⟨hi,hs⟩,rfl⟩

@[simp] theorem closing_origin (sel : ProbePermit→Bool) (state : PermitState) (at_ : Int)
    (r : ProbePermit) : (r.closing sel state at_).origin=r.origin :=
  (closing_became sel state at_ r).1

end ProbePermit

namespace Store

theorem closeAll_records (s : Store) (sel : ProbePermit→Bool) (state : PermitState) (at_ : Int) :
    (s.closeAll sel state at_).records=s.records.map (ProbePermit.closing sel state at_) :=
  rfl

theorem mem_prune_records (s : Store) (n : Int) (p : ProbePermit) :
    p∈(s.prune n).records ↔ p∈s.records ∧ (n<0 ∨ n<p.expiresAt) := by
  unfold prune
  split
  · rename_i h
    simp [h]
  · rename_i h
    simp [h,List.mem_filter]

theorem mem_prune_withdrawals (s : Store) (n : Int) (w : Withdrawal) :
    w∈(s.prune n).withdrawals ↔
      w∈s.withdrawals ∧ (n<0 ∨ ∃p∈(s.prune n).records, p.id=w.permitId) := by
  unfold prune
  split
  · rename_i h
    simp [h]
  · rename_i h
    simp [h,List.mem_filter,and_assoc]

theorem mem_prune_results (s : Store) (n : Int) (r : ResultRecord) :
    r∈(s.prune n).results ↔
      r∈s.results ∧ (n<0 ∨ ∃p∈(s.prune n).records, p.id=r.body.permitId) := by
  unfold prune
  split
  · rename_i h
    simp [h]
  · rename_i h
    simp [h,List.mem_filter,and_assoc]

theorem prune_sublist (s : Store) (n : Int) :
    (s.prune n).records.Sublist s.records ∧ (s.prune n).withdrawals.Sublist s.withdrawals ∧
    (s.prune n).results.Sublist s.results := by
  unfold prune
  split
  · exact ⟨List.Sublist.refl _,List.Sublist.refl _,List.Sublist.refl _⟩
  · exact ⟨List.filter_sublist,List.filter_sublist,List.filter_sublist⟩

end Store

/-- What the store forgets: each permit issued, each consumption and each result recorded. -/
structure History where
  store : Store
  issued : List ProbePermit
  consumed : List ProbePermit
  recorded : List ResultRecord

def History.start : History := ⟨Store.empty,[],[],[]⟩

/-- The permits of the store against those ever issued. -/
structure Kept (issued : List ProbePermit) (s : Store) : Prop where
  ids : (issued.map ProbePermit.id).Nodup
  kept : (s.records.map ProbePermit.origin).Sublist issued
  gone : ∀p∈issued, p∈s.records.map ProbePermit.origin ∨ p.expiresAt+1000 ≤ s.observedAt
  windows : issued.Pairwise ProbePermit.Apart
  valid : ∀p∈s.records, validProbePermit p
  room : s.records.length≤256
  floor : 0 ≤ s.observedAt ∧ s.observedAt ≤ maxDate-3000
  closed : ∀p∈s.records, p.state=.consumed→∃c, p.closedAt=some c ∧ p.issuedAt ≤ c ∧ c ≤ maxDate
  withdrawals : (s.withdrawals.map Withdrawal.permitId).Nodup
  withdrawn : ∀w∈s.withdrawals, ∃p∈s.records, p.id=w.permitId ∧ p.state=.consumed ∧
    (∀c∈p.closedAt, c≤w.withdrawnAt) ∧ w.withdrawnAt ≤ maxDate

namespace Kept

variable {issued : List ProbePermit} {s : Store}

theorem start : Kept [] Store.empty := by
  constructor <;> simp [Store.empty,maxDate]

variable {p : ProbePermit}

theorem origin_mem (h : Kept issued s) (hp : p∈s.records) : p.origin∈issued :=
  h.kept.subset (List.mem_map_of_mem hp)

theorem records_ids (h : Kept issued s) : (s.records.map ProbePermit.id).Nodup := by
  have hsub : ((s.records.map ProbePermit.origin).map ProbePermit.id).Sublist
      (issued.map ProbePermit.id) := h.kept.map _
  rw [List.map_map] at hsub
  exact h.ids.sublist hsub

variable {q : ProbePermit} {state : PermitState} {at_ : Int} {id actor : String} {t : Store}

theorem same (h : Kept issued s) (hp : p∈s.records) (hq : q∈s.records) (hid : p.id=q.id) : p=q :=
  List.inj_on_of_nodup_map h.records_ids hp hq hid

theorem finish (h : Kept issued s) {n : Int} (hn : s.observedAt ≤ n) (hlast : n ≤ maxDate-3000) :
    Kept issued { s.prune (n-1000) with observedAt := n } where
  ids := h.ids
  kept := ((s.prune_sublist (n-1000)).1.map _).trans h.kept
  gone := by
    intro p hp
    rcases h.gone p hp with hk | hk
    · obtain ⟨q,hq,rfl⟩ := List.mem_map.mp hk
      by_cases hlate : n-1000<q.expiresAt
      · have hm := (s.mem_prune_records (n-1000) q).mpr ⟨hq,.inr hlate⟩
        exact .inl (List.mem_map_of_mem hm)
      · right
        rw [ProbePermit.origin_expiresAt]
        show q.expiresAt+1000≤n
        omega
    · right
      show p.expiresAt+1000≤n
      omega
  windows := h.windows
  valid := fun p hp => h.valid p ((s.mem_prune_records _ p).mp hp).1
  room := (s.prune_sublist (n-1000)).1.length_le.trans h.room
  floor := ⟨h.floor.1.trans hn,hlast⟩
  closed := fun p hp => h.closed p ((s.mem_prune_records _ p).mp hp).1
  withdrawals := h.withdrawals.sublist ((s.prune_sublist (n-1000)).2.1.map _)
  withdrawn := by
    intro w hw
    obtain ⟨hmem,hkept⟩ := (s.mem_prune_withdrawals _ w).mp hw
    obtain ⟨p,hp,hid,hrest⟩ := h.withdrawn w hmem
    refine ⟨p,?_,hid,hrest⟩
    rcases hkept with hneg | ⟨q,hq,hqid⟩
    · exact (s.mem_prune_records _ p).mpr ⟨hp,.inl hneg⟩
    · have heq := h.same hp ((s.mem_prune_records _ q).mp hq).1 (hid.trans hqid.symm)
      rw [heq]
      exact hq

theorem valid_closed (h : validProbePermit p) (hs : state≠.issued) (h0 : 0≤at_) (hm : at_ ≤ maxDate) :
    validProbePermit { p with state := state, closedAt := some at_ } := by
  have hsafe : safe at_ := by
    rw [safe_iff]
    simp only [maxDate] at hm
    omega
  simp only [validProbePermit,Bool.and_eq_true] at h ⊢
  refine ⟨h.1,?_⟩
  cases state with
  | issued => exact absurd rfl hs
  | consumed | revoked | quarantined => simp [hsafe,h0]

theorem closeAll (h : Kept issued s) {sel : ProbePermit→Bool} (hs : state≠.issued)
    (hm : at_ ≤ maxDate)
    (hat : ∀p∈s.records, p.state=.issued→sel p→0≤at_ ∧ (state=.consumed→p.issuedAt≤at_)) :
    Kept issued (s.closeAll sel state at_) where
  ids := h.ids
  kept := by
    rw [Store.closeAll_records,List.map_map]
    have heq : ProbePermit.origin ∘ ProbePermit.closing sel state at_=ProbePermit.origin := by
      funext r
      exact ProbePermit.closing_origin sel state at_ r
    rw [heq]
    exact h.kept
  gone := by
    intro p hp
    rcases h.gone p hp with hk | hk
    · obtain ⟨q,hq,rfl⟩ := List.mem_map.mp hk
      left
      rw [← ProbePermit.closing_origin sel state at_ q]
      exact List.mem_map_of_mem (List.mem_map_of_mem hq)
    · exact .inr hk
  windows := h.windows
  valid := by
    intro p hp
    obtain ⟨q,hq,rfl⟩ := List.mem_map.mp hp
    rcases ProbePermit.closing_cases sel state at_ q with ⟨hi,hsel,heq⟩ | ⟨-,heq⟩
    · show validProbePermit (q.closing sel state at_)
      rw [heq]
      exact valid_closed (h.valid q hq) hs (hat q hq hi hsel).1 hm
    · show validProbePermit (q.closing sel state at_)
      rw [heq]
      exact h.valid q hq
  room := by
    rw [Store.closeAll_records,List.length_map]
    exact h.room
  floor := h.floor
  closed := by
    intro p hp hstate
    obtain ⟨q,hq,rfl⟩ := List.mem_map.mp hp
    change (q.closing sel state at_).state=.consumed at hstate
    show ∃c, (q.closing sel state at_).closedAt=some c ∧ (q.closing sel state at_).issuedAt ≤ c ∧ c ≤ maxDate
    rcases ProbePermit.closing_cases sel state at_ q with ⟨hi,hsel,heq⟩ | ⟨-,heq⟩
    · rw [heq] at hstate ⊢
      exact ⟨at_,rfl,(hat q hq hi hsel).2 hstate,hm⟩
    · rw [heq] at hstate ⊢
      exact h.closed q hq hstate
  withdrawals := h.withdrawals
  withdrawn := by
    intro w hw
    obtain ⟨p,hp,hid,hstate,hrest⟩ := h.withdrawn w hw
    have hclosed : p.closing sel state at_=p := by
      apply (ProbePermit.closing_became sel state at_ p).2
      rw [hstate]
      decide
    refine ⟨p,?_,hid,hstate,hrest⟩
    rw [Store.closeAll_records,← hclosed]
    exact List.mem_map_of_mem hp

theorem withdraw (h : Kept issued s) {more : List Withdrawal}
    (hnodup : (more.map Withdrawal.permitId).Nodup)
    (hnew : ∀w∈more, s.withdrawn w.permitId=false)
    (hmore : ∀w∈more, ∃p∈s.records, p.id=w.permitId ∧ p.state=.consumed ∧
      (∀c∈p.closedAt, c≤w.withdrawnAt) ∧ w.withdrawnAt ≤ maxDate) :
    Kept issued { s with withdrawals := s.withdrawals++more } :=
  { h with
    withdrawals := by
      rw [List.map_append]
      refine List.Nodup.append h.withdrawals hnodup ?_
      intro id hold hid
      obtain ⟨w,hw,rfl⟩ := List.mem_map.mp hid
      obtain ⟨v,hv,hvw⟩ := List.mem_map.mp hold
      have hno := hnew w hw
      simp only [Store.withdrawn,List.any_eq_false,beq_iff_eq] at hno
      exact hno v hv hvw
    withdrawn := by
      intro w hw
      rcases List.mem_append.mp hw with hw | hw
      · exact h.withdrawn w hw
      · exact hmore w hw }

theorem positive (h : validProbePermit p) : 0≤p.issuedAt ∧ p.issuedAt<p.expiresAt := by
  simp only [validProbePermit,bool_ok] at h
  obtain ⟨⟨⟨⟨⟨-,h0⟩,-⟩,hlt⟩,-⟩,-⟩ := h
  exact ⟨h0,hlt⟩

section

variable (h : Kept issued s)
include h

theorem prune_retained (n : Int) :
    (s.prune (n-1000)).records=s.records.filter fun r => n < r.expiresAt+1000 := by
  unfold Store.prune
  split
  · symm
    rw [List.filter_eq_self]
    intro r hr
    have hpos := positive (h.valid r hr)
    simp only [decide_eq_true_eq]
    omega
  · apply List.filter_congr
    intro r _
    rw [decide_eq_decide]
    omega

theorem apart (hi : s.Issued id actor p t) (hq : q∈issued) : q.Apart p := by
  intro hsame
  rcases h.gone q hq with hk | hk
  · obtain ⟨r,hr,rfl⟩ := List.mem_map.mp hk
    by_cases hlate : p.issuedAt < r.expiresAt+1000
    · obtain ⟨hactor,hnode⟩ := hi.alone r hr hlate
      rcases hsame with hs | hs
      · exact absurd hs hactor
      · exact absurd hs hnode
    · rw [ProbePermit.origin_expiresAt]
      omega
  · have hfloor := hi.sampled.2.1
    omega

theorem issue (hi : s.Issued id actor p t) (hfresh : id∉issued.map ProbePermit.id) :
    Kept (issued++[p]) t := by
  have hk := h.finish hi.sampled.2.1 hi.sampled.2.2
  have horigin : p.origin=p := by
    obtain ⟨hs,hc⟩ := hi.opened
    unfold ProbePermit.origin
    rw [← hs,← hc]
  rw [hi.written]
  exact {
    ids := by
      rw [List.map_append]
      refine List.Nodup.append h.ids (List.nodup_singleton _) ?_
      intro x hx hp
      obtain rfl := List.mem_singleton.mp hp
      rw [hi.name] at hx
      exact hfresh hx
    kept := by
      rw [List.map_append,List.map_singleton,horigin]
      exact hk.kept.append_right [p]
    gone := by
      intro q hq
      rw [List.map_append,List.mem_append]
      rcases List.mem_append.mp hq with hq | hq
      · exact (hk.gone q hq).imp_left .inl
      · obtain rfl := List.mem_singleton.mp hq
        left
        right
        rw [List.map_singleton,horigin]
        exact hq
    windows := by
      rw [List.pairwise_append]
      refine ⟨h.windows,List.pairwise_singleton _ _,?_⟩
      intro q hq r hr
      obtain rfl := List.mem_singleton.mp hr
      exact h.apart hi hq
    valid := by
      intro q hq
      rcases List.mem_append.mp hq with hq | hq
      · exact hk.valid q hq
      · obtain rfl := List.mem_singleton.mp hq
        exact hi.valid
    room := by
      rw [List.length_append,List.length_singleton,h.prune_retained]
      exact hi.room
    floor := hk.floor
    closed := by
      intro q hq hstate
      rcases List.mem_append.mp hq with hq | hq
      · exact hk.closed q hq hstate
      · obtain rfl := List.mem_singleton.mp hq
        rw [hi.opened.1] at hstate
        exact absurd hstate (by decide)
    withdrawals := hk.withdrawals
    withdrawn := by
      intro w hw
      obtain ⟨q,hq,hrest⟩ := hk.withdrawn w hw
      exact ⟨q,List.mem_append_left _ hq,hrest⟩ }

theorem unexpired (hi : s.Issued id actor p t) :
    (issued.filter fun q => p.issuedAt<q.expiresAt).length<4 := by
  have hsub : issued.filter (fun q => p.issuedAt<q.expiresAt) ⊆
      (((s.records.filter fun r => p.issuedAt < r.expiresAt+1000).filter
        fun r => p.issuedAt < r.expiresAt).map ProbePermit.origin) := by
    intro q hq
    obtain ⟨hq,hlate⟩ := List.mem_filter.mp hq
    simp only [decide_eq_true_eq] at hlate
    have hfloor := hi.sampled.2.1
    rcases h.gone q hq with hk | hk
    · obtain ⟨r,hr,rfl⟩ := List.mem_map.mp hk
      rw [ProbePermit.origin_expiresAt] at hlate
      apply List.mem_map_of_mem
      simp only [List.mem_filter,decide_eq_true_eq]
      exact ⟨⟨hr,by omega⟩,hlate⟩
    · omega
  have hnodup : (issued.filter fun q => p.issuedAt<q.expiresAt).Nodup :=
    (List.Nodup.of_map _ h.ids).filter _
  have hlen := (List.subperm_of_subset hnodup hsub).length_le
  rw [List.length_map] at hlen
  exact Nat.lt_of_le_of_lt hlen hi.unexpired

theorem found (hp : p∈s.records) : s.find p.id=some p := by
  cases hf : s.find p.id with
  | none =>
    have hnone := List.find?_eq_none.mp hf p hp
    simp at hnone
  | some q =>
    obtain ⟨hq,hid⟩ := Store.find_some hf
    rw [h.same hq hp hid]

theorem sound {w : Withdrawal} (hw : w∈s.withdrawals) : s.unsound w=false := by
  obtain ⟨p,hp,hid,hstate,hlate,hlast⟩ := h.withdrawn w hw
  obtain ⟨c,hc,hissued,-⟩ := h.closed p hp hstate
  have hvalid := h.valid p hp
  have hidOk : idOk w.permitId := by
    rw [← hid]
    simp only [validProbePermit,Bool.and_eq_true,List.all_cons] at hvalid
    exact hvalid.1.1.1.1.1.1.1.1.1.1.1.1.1
  have hcw := hlate c (by rw [hc]; rfl)
  have hpos := (positive hvalid).1
  have hsafe : safe w.withdrawnAt := by
    rw [safe_iff]
    simp only [maxDate] at hlast
    omega
  have hfind : s.find w.permitId=some p := by
    rw [← hid]
    exact h.found hp
  simp [Store.unsound,hidOk,hsafe,hfind,hstate,hc]
  omega

theorem withdrawals_length : s.withdrawals.length≤256 := by
  have hsub : s.withdrawals.map Withdrawal.permitId ⊆ s.records.map ProbePermit.id := by
    intro id hid
    obtain ⟨w,hw,rfl⟩ := List.mem_map.mp hid
    obtain ⟨p,hp,hpid,-⟩ := h.withdrawn w hw
    rw [← hpid]
    exact List.mem_map_of_mem hp
  have hlen := (List.subperm_of_subset h.withdrawals hsub).length_le
  rw [List.length_map,List.length_map] at hlen
  exact hlen.trans h.room

theorem budget {sample : Int} (hfloor : s.observedAt ≤ sample)
    (hrecords : ∀p∈s.records, p.issuedAt ≤ sample)
    (hwithdrawals : ∀w∈s.withdrawals, w.withdrawnAt ≤ sample) :
    s.budget sample=Store.now s.observedAt sample := by
  have hcorrupt : ¬(256<s.records.length ∨ ∃p∈s.records, validProbePermit p=false) := by
    simp only [not_or,Nat.not_lt,not_exists,not_and,Bool.not_eq_false]
    exact ⟨h.room,h.valid⟩
  have hunsound : ¬(¬(s.records.map ProbePermit.id).Nodup ∨ 256<s.withdrawals.length ∨
      ¬(s.withdrawals.map Withdrawal.permitId).Nodup ∨ ∃w∈s.withdrawals, s.unsound w) := by
    simp only [not_or,not_not,Nat.not_lt,not_exists,not_and,Bool.not_eq_true]
    exact ⟨h.records_ids,h.withdrawals_length,h.withdrawals,fun w hw => h.sound hw⟩
  cases hn : Store.now s.observedAt sample with
  | error e => simp [Store.budget,reject,hcorrupt,hunsound,hn,bind,Except.bind]
  | ok n =>
    obtain ⟨rfl,-⟩ := (Store.now_ok _ _ _).mp hn
    have hlate : ¬((∃p∈s.records, n<p.issuedAt) ∨ ∃w∈s.withdrawals, n<w.withdrawnAt) := by
      simp only [not_or,not_exists,not_and,Int.not_lt]
      exact ⟨hrecords,hwithdrawals⟩
    simp [Store.budget,reject,hcorrupt,hunsound,hn,hlate,bind,Except.bind,pure,Except.pure]

end

end Kept

structure Consumptions (h : History) : Prop where
  once : (h.consumed.map ProbePermit.id).Nodup
  unused : ∀p∈h.store.records, p.state=.issued→p.id∉h.consumed.map ProbePermit.id
  early : ∀p∈h.consumed, p.origin∈h.issued ∧
    ∃c, p.closedAt=some c ∧ p.issuedAt ≤ c ∧ c<p.expiresAt

namespace Consumptions

variable {h : History} {t : Store}

theorem start : Consumptions History.start := by
  constructor <;> simp [History.start]

theorem write (k : Consumptions h)
    (hwrite : ∀p∈t.records, p.state=.issued→p∈h.store.records) {recorded : List ResultRecord} :
    Consumptions { h with store := t, recorded := recorded } where
  once := k.once
  unused := fun p hp hs => k.unused p (hwrite p hp hs) hs
  early := k.early

variable {p : ProbePermit}

theorem issue (k : Consumptions h) {id actor : String} (hi : h.store.Issued id actor p t)
    (hfresh : id∉h.issued.map ProbePermit.id) :
    Consumptions { h with store := t, issued := h.issued++[p] } where
  once := k.once
  unused := by
    intro q hq hs
    rw [hi.written] at hq
    rcases List.mem_append.mp hq with hq | hq
    · exact k.unused q ((h.store.mem_prune_records _ q).mp hq).1 hs
    · obtain rfl := List.mem_singleton.mp hq
      intro hc
      obtain ⟨r,hr,hrid⟩ := List.mem_map.mp hc
      apply hfresh
      rw [← hi.name,← hrid,← ProbePermit.origin_id r]
      exact List.mem_map_of_mem (k.early r hr).1
  early := by
    intro q hq
    obtain ⟨hmem,hearly⟩ := k.early q hq
    exact ⟨List.mem_append_left _ hmem,hearly⟩

theorem closeAll_issued {s : Store} {sel : ProbePermit→Bool} {state : PermitState} {at_ : Int}
    (hs : state≠.issued) (hp : p∈(s.closeAll sel state at_).records) (hi : p.state=.issued) :
    p∈s.records ∧ ¬sel p := by
  obtain ⟨q,hq,rfl⟩ := List.mem_map.mp hp
  change (q.closing sel state at_).state=.issued at hi
  show q.closing sel state at_∈s.records ∧ ¬sel (q.closing sel state at_)
  rcases ProbePermit.closing_cases sel state at_ q with ⟨-,-,heq⟩ | ⟨hsel,heq⟩
  · rw [heq] at hi
    exact absurd hi hs
  · rw [heq] at hi ⊢
    exact ⟨hq,hsel hi⟩

theorem consume (k : Consumptions h) (hk : Kept h.issued h.store) {q : ProbePermit} {n : Int}
    (hq : q∈h.store.records) (hs : q.state=.issued) (hn : q.issuedAt ≤ n) (hlast : n<q.expiresAt) :
    Consumptions { h with
      store := { (h.store.closeAll (·.id == q.id) .consumed n).prune (n-1000) with observedAt := n }
      consumed := h.consumed++[{ q with state := .consumed, closedAt := some n }] } where
  once := by
    rw [List.map_append]
    refine List.Nodup.append k.once (List.nodup_singleton _) ?_
    intro x hx hid
    obtain rfl := List.mem_singleton.mp hid
    exact k.unused q hq hs hx
  unused := by
    intro p hp hi
    have hmem := ((Store.mem_prune_records _ _ p).mp hp).1
    obtain ⟨hold,hsel⟩ := closeAll_issued (by decide) hmem hi
    rw [List.map_append,List.mem_append,not_or]
    refine ⟨k.unused p hold hi,?_⟩
    simpa using hsel
  early := by
    intro p hp
    rcases List.mem_append.mp hp with hp | hp
    · exact k.early p hp
    · obtain rfl := List.mem_singleton.mp hp
      have hmem : q.origin∈h.issued := hk.origin_mem hq
      exact ⟨hmem,n,rfl,hn,hlast⟩

end Consumptions

section
variable (dates : Dates) (digest : ResultBody→String)

/-- The results of a run against those of the store. -/
structure Reports (h : History) : Prop where
  once : (h.recorded.map fun r => r.body.permitId).Nodup
  kept : h.store.results.Sublist h.recorded
  lost : ∀r∈h.recorded, r∈h.store.results ∨ ∀p∈h.store.records, p.id≠r.body.permitId
  known : ∀r∈h.recorded, r.body.permitId∈h.issued.map ProbePermit.id
  sound : ∀r∈h.recorded, parseProbeResult dates r.body ∧ digest r.body=r.resultDigest ∧
    timely dates r.body r.acceptedAt ∧ 0 ≤ r.acceptedAt ∧ r.acceptedAt≤h.store.observedAt

end

namespace Reports

variable {dates : Dates} {digest : ResultBody→String} {h : History} {t : Store}

theorem start : Reports dates digest History.start := by
  constructor <;> simp [History.start,Store.empty]

theorem write (k : Reports dates digest h) (hresults : t.results=h.store.results)
    (hrecords : ∀p∈t.records, ∃q∈h.store.records, q.id=p.id)
    (hfloor : h.store.observedAt ≤ t.observedAt) {consumed : List ProbePermit} :
    Reports dates digest { h with store := t, consumed := consumed } where
  once := k.once
  kept := by
    show t.results.Sublist h.recorded
    rw [hresults]
    exact k.kept
  lost := by
    intro r hr
    rcases k.lost r hr with hin | hout
    · left
      show r∈t.results
      rw [hresults]
      exact hin
    · right
      intro p hp
      obtain ⟨q,hq,hid⟩ := hrecords p hp
      rw [← hid]
      exact hout q hq
  known := k.known
  sound := by
    intro r hr
    obtain ⟨hparse,hdigest,htimely,h0,hlast⟩ := k.sound r hr
    exact ⟨hparse,hdigest,htimely,h0,hlast.trans hfloor⟩

variable {n : Int} {p : ProbePermit}

theorem finish (k : Reports dates digest h) (hn : h.store.observedAt ≤ n) :
    Reports dates digest { h with store := { h.store.prune (n-1000) with observedAt := n } } where
  once := k.once
  kept := (h.store.prune_sublist (n-1000)).2.2.trans k.kept
  lost := by
    intro r hr
    rcases k.lost r hr with hin | hout
    · by_cases hp : ∃p∈(h.store.prune (n-1000)).records, p.id=r.body.permitId
      · exact .inl ((h.store.mem_prune_results _ r).mpr ⟨hin,.inr hp⟩)
      · right
        intro p hmem hid
        exact hp ⟨p,hmem,hid⟩
    · right
      intro p hp
      exact hout p ((h.store.mem_prune_records _ p).mp hp).1
  known := k.known
  sound := by
    intro r hr
    obtain ⟨hparse,hdigest,htimely,h0,hlast⟩ := k.sound r hr
    exact ⟨hparse,hdigest,htimely,h0,hlast.trans hn⟩

theorem issue (k : Reports dates digest h) {id actor : String} (hi : h.store.Issued id actor p t)
    (hfresh : id∉h.issued.map ProbePermit.id) :
    Reports dates digest { h with store := t, issued := h.issued++[p] } := by
  have hf := k.finish hi.sampled.2.1
  rw [hi.written]
  exact {
    once := k.once
    kept := hf.kept
    lost := by
      intro r hr
      refine (hf.lost r hr).imp_right ?_
      intro hout q hq
      rcases List.mem_append.mp hq with hq | hq
      · exact hout q hq
      · obtain rfl := List.mem_singleton.mp hq
        intro hid
        apply hfresh
        rw [← hi.name,hid]
        exact k.known r hr
    known := by
      intro r hr
      rw [List.map_append]
      exact List.mem_append_left _ (k.known r hr)
    sound := hf.sound }

theorem unreported (k : Reports dates digest h) (hp : p∈h.store.records)
    (hnone : h.store.result p.id=none) : p.id∉h.recorded.map fun r => r.body.permitId := by
  intro hid
  obtain ⟨r,hr,hrid⟩ := List.mem_map.mp hid
  rcases k.lost r hr with hin | hout
  · have hno := List.find?_eq_none.mp hnone r hin
    simp [hrid] at hno
  · exact hout p hp hrid.symm

theorem record (k : Reports dates digest h) (hk : Kept h.issued h.store) {b : ResultBody}
    (hn : h.store.observedAt ≤ n) (hp : p∈h.store.records) (hid : p.id=b.permitId)
    (hparse : parseProbeResult dates b) (htimely : timely dates b n)
    (hnone : h.store.result p.id=none) : Reports dates digest { h with
      store := { h.store with observedAt := n, results := h.store.results++[⟨b,digest b,n⟩] }
      recorded := h.recorded++[⟨b,digest b,n⟩] } where
  once := by
    rw [List.map_append]
    refine List.Nodup.append k.once (List.nodup_singleton _) ?_
    intro x hx hb
    obtain rfl := List.mem_singleton.mp hb
    apply k.unreported hp hnone
    rw [hid]
    exact hx
  kept := k.kept.append_right _
  lost := by
    intro r hr
    rcases List.mem_append.mp hr with hr | hr
    · exact (k.lost r hr).imp_left (List.mem_append_left _)
    · exact .inl (List.mem_append_right _ hr)
  known := by
    intro r hr
    rcases List.mem_append.mp hr with hr | hr
    · exact k.known r hr
    · obtain rfl := List.mem_singleton.mp hr
      show b.permitId∈h.issued.map ProbePermit.id
      rw [← hid,← ProbePermit.origin_id p]
      exact List.mem_map_of_mem (hk.origin_mem hp)
  sound := by
    intro r hr
    rcases List.mem_append.mp hr with hr | hr
    · obtain ⟨hp,hd,ht,h0,hlast⟩ := k.sound r hr
      exact ⟨hp,hd,ht,h0,hlast.trans hn⟩
    · obtain rfl := List.mem_singleton.mp hr
      exact ⟨hparse,rfl,htimely,hk.floor.1.trans hn,Int.le_refl n⟩

end Reports

end TuneX.Control.Probe
