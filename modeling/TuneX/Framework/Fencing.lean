import TuneX.Framework.Counters
import Mathlib.Tactic.SplitIfs

namespace TuneX.Framework

/-- Per key, the highest fence ever granted and the fence up to which grants are over. -/
structure FenceTable (κ : Type) where
  fences : Counters κ
  retired : Counters κ

namespace FenceTable

variable {κ : Type} [DecidableEq κ]

/-- A fence is admitted at or above the high-water mark and above the retired mark. -/
def Admits (t : FenceTable κ) (live : List (κ×Nat)) : Prop :=
  ∀k n, (k,n)∈live→t.fences.read k≤n ∧ t.retired.read k<n

/-- Entries of the high-water map whose key is not granted any more. -/
def absent (fences : Counters κ) (live : List (κ×Nat)) : List (κ×Nat) :=
  fences.pairs.filter fun e => e.1∉live.map Prod.fst

/-- Replace the grants: record the new fences, retire every absent key, add tombstones. -/
def advance (t : FenceTable κ) (live tombstones : List (κ×Nat)) : FenceTable κ :=
  ⟨t.fences.writeAll live,
    (t.retired.raiseAll (absent (t.fences.writeAll live) live)).raiseAll tombstones⟩

/-- Take over a foreign history: its fences are used up and retired here too. -/
def absorb (t : FenceTable κ) (legacy : List (κ×Nat)) : FenceTable κ :=
  ⟨t.fences.raiseAll legacy,t.retired.raiseAll legacy⟩

/-- The grants in force: each holds its key's high-water fence, and all other keys are retired. -/
structure Grants (t : FenceTable κ) (live : List (κ×Nat)) : Prop where
  nodup : (live.map Prod.fst).Nodup
  held : ∀k n, (k,n)∈live→t.fences.read k=n ∧ t.retired.read k<n
  free : ∀k, k∉live.map Prod.fst→t.fences.read k≤t.retired.read k

/-- No entry of a list reaches the fence of a grant on its key. -/
def Below (l live : List (κ×Nat)) : Prop := ∀k c n, (k,c)∈l→(k,n)∈live→c<n

def Agrees (t t' : FenceTable κ) : Prop :=
  (∀k, t.fences.read k=t'.fences.read k) ∧ ∀k, t.retired.read k=t'.retired.read k

variable {t t' : FenceTable κ} {live live' tombstones legacy : List (κ×Nat)}

theorem advance_fences_mono (ha : t.Admits live') (hn : (live'.map Prod.fst).Nodup)
    (tombstones : List (κ×Nat)) (k : κ) :
    t.fences.read k≤(t.advance live' tombstones).fences.read k := by
  by_cases hk : k∈live'.map Prod.fst
  · obtain ⟨e,he,rfl⟩ := List.mem_map.mp hk
    have hw : (t.fences.writeAll live').read e.1=e.2 := Counters.read_writeAll_of_mem _ _ hn he
    have hle := (ha e.1 e.2 he).1
    change t.fences.read e.1≤(t.fences.writeAll live').read e.1
    rw [hw]
    exact hle
  · have hw := Counters.read_writeAll_of_not_mem t.fences live' hk
    exact hw.ge

theorem advance_retired_mono (t : FenceTable κ) (live tombstones : List (κ×Nat)) (k : κ) :
    t.retired.read k≤(t.advance live tombstones).retired.read k :=
  le_trans (Counters.read_le_raiseAll _ _ k) (Counters.read_le_raiseAll _ _ k)

theorem advance_grants (ha : t.Admits live') (hn : (live'.map Prod.fst).Nodup)
    (hb : Below tombstones live') : (t.advance live' tombstones).Grants live' := by
  refine ⟨hn,?_,?_⟩
  · intro k n hk
    refine ⟨Counters.read_writeAll_of_mem _ _ hn hk,?_⟩
    apply Counters.read_raiseAll_lt
    · apply Counters.read_raiseAll_lt _ _ (ha k n hk).2
      intro c hc
      have hnot := (List.mem_filter.mp hc).2
      have hin : k∈live'.map Prod.fst := List.mem_map.mpr ⟨(k,n),hk,rfl⟩
      simp [hin] at hnot
    · exact fun c hc => hb k c n hc hk
  · intro k hk
    have hle := Counters.read_le_raiseAll
      (t.retired.raiseAll (absent (t.fences.writeAll live') live')) tombstones k
    refine le_trans ?_ hle
    by_cases h0 : 0<(t.fences.writeAll live').read k
    · apply Counters.le_raiseAll
      have hp := (Counters.mem_pairs _ _ _).mpr (Counters.lookup_of_read_pos h0)
      exact List.mem_filter.mpr ⟨hp,by simpa using hk⟩
    · change (t.fences.writeAll live').read k≤_
      omega

theorem absorb_fences_mono (t : FenceTable κ) (legacy : List (κ×Nat)) (k : κ) :
    t.fences.read k≤(t.absorb legacy).fences.read k :=
  Counters.read_le_raiseAll _ _ k

theorem absorb_retired_mono (t : FenceTable κ) (legacy : List (κ×Nat)) (k : κ) :
    t.retired.read k≤(t.absorb legacy).retired.read k :=
  Counters.read_le_raiseAll _ _ k

theorem absorb_fences (t : FenceTable κ) (legacy : List (κ×Nat)) (k : κ) :
    (t.absorb legacy).fences.read k=t.fences.read k ∨
      (t.absorb legacy).fences.read k≤(t.absorb legacy).retired.read k := by
  rcases Counters.read_raiseAll t.fences legacy k with h|h
  · exact .inl h
  · exact .inr (Counters.le_raiseAll t.retired legacy h)

theorem absorb_grants (hg : t.Grants live) (hb : Below legacy live) :
    (t.absorb legacy).Grants live := by
  refine ⟨hg.nodup,?_,?_⟩
  · intro k n hk
    have hold := hg.held k n hk
    refine ⟨?_,Counters.read_raiseAll_lt _ _ hold.2 fun c hc => hb k c n hc hk⟩
    rcases Counters.read_raiseAll t.fences legacy k with h|h
    · exact h.trans hold.1
    · have hlt := hb k _ n h hk
      have hle := Counters.read_le_raiseAll t.fences legacy k
      omega
  · intro k hk
    rcases absorb_fences t legacy k with h|h
    · rw [h]
      exact le_trans (hg.free k hk) (absorb_retired_mono t legacy k)
    · exact h

theorem retired_every {P : κ→Nat→Prop} {fences retired : Counters κ} (hf : fences.Every P)
    (hr : retired.Every P) (ht : ∀e∈tombstones, P e.1 e.2) :
    ((retired.raiseAll (absent fences live)).raiseAll tombstones).Every P := by
  apply Counters.every_raiseAll _ _ ht
  apply Counters.every_raiseAll _ hr
  intro e he
  exact Counters.every_pairs hf e (List.mem_filter.mp he).1

section Holders

variable {α : Type} (slot : α→κ) (fence : α→Nat) (rel : α→α→Prop)

def grantsOf (l : List α) : List (κ×Nat) := l.map fun a => (slot a,fence a)

/-- Holders of one slot with one fence, an earlier and a later one, are related. -/
def Consistent (old new : List α) : Prop :=
  ∀a∈old, ∀b∈new, slot a=slot b→fence a=fence b → rel a b

/-- What a table remembers of all past holders: none is above the high-water mark, and one
that is at the mark is continued by the present holder, unless the mark is retired. -/
def Settled (t : FenceTable κ) (live past : List α) : Prop :=
  ∀a∈past, fence a≤t.fences.read (slot a) ∧
    (fence a=t.fences.read (slot a)→
      (∃b∈live, slot b=slot a ∧ fence b=fence a ∧ rel a b) ∨
        t.fences.read (slot a)≤t.retired.read (slot a))

variable {slot fence rel} {old new past : List α}

omit [DecidableEq κ] in
theorem grantsOf_keys (l : List α) : (grantsOf slot fence l).map Prod.fst=l.map slot := by
  simp [grantsOf]

omit [DecidableEq κ] in
theorem mem_grantsOf {a : α} {l : List α} (h : a∈l) : (slot a,fence a)∈grantsOf slot fence l :=
  List.mem_map.mpr ⟨a,h,rfl⟩

theorem settled_related (hs : Settled slot fence rel t old past)
    (ha : t.Admits (grantsOf slot fence new)) (htrans : ∀a b c, rel a b → rel b c → rel a c)
    (hc : Consistent slot fence rel old new) : Consistent slot fence rel past new := by
  intro a hap b hb hslot hfence
  obtain ⟨hle,hcase⟩ := hs a hap
  have hadm := ha _ _ (mem_grantsOf hb)
  rw [← hslot,← hfence] at hadm
  rcases hcase (by omega) with ⟨c,hcl,hcs,hcf,hrel⟩|hret
  · exact htrans a c b hrel (hc c hcl b hb (hcs.trans hslot) (hcf.trans hfence))
  · omega

theorem settled_advance (hs : Settled slot fence rel t old past)
    (ha : t.Admits (grantsOf slot fence new)) (hn : (new.map slot).Nodup)
    (htrans : ∀a b c, rel a b → rel b c → rel a c) (hrefl : ∀a, rel a a)
    (hc : Consistent slot fence rel old new)
    (hg : (t.advance (grantsOf slot fence new) tombstones).Grants (grantsOf slot fence new)) :
    Settled slot fence rel (t.advance (grantsOf slot fence new) tombstones) new (past++new) := by
  have hkeys : ((grantsOf slot fence new).map Prod.fst).Nodup := by
    rw [grantsOf_keys]
    exact hn
  have hrelated := settled_related hs ha htrans hc
  intro a ha'
  rcases List.mem_append.mp ha' with hap|han
  · have hmono := advance_fences_mono ha hkeys tombstones (slot a)
    refine ⟨le_trans (hs a hap).1 hmono,?_⟩
    intro heq
    by_cases hk : slot a∈(grantsOf slot fence new).map Prod.fst
    · rw [grantsOf_keys] at hk
      obtain ⟨b,hb,hbs⟩ := List.mem_map.mp hk
      have hheld := (hg.held _ _ (mem_grantsOf hb)).1
      rw [hbs,← heq] at hheld
      exact .inl ⟨b,hb,hbs,hheld.symm,hrelated a hap b hb hbs.symm hheld⟩
    · exact .inr (hg.free _ hk)
  · have hheld := (hg.held _ _ (mem_grantsOf han)).1
    exact ⟨hheld.ge,fun _ => .inl ⟨a,han,rfl,rfl,hrefl a⟩⟩

theorem settled_congr (ha : t.Agrees t') (hs : Settled slot fence rel t old past) :
    Settled slot fence rel t' old past := by
  intro a hap
  rw [← ha.1,← ha.2]
  exact hs a hap

theorem settled_append (hs : Settled slot fence rel t old past)
    (hn : Settled slot fence rel t old new) : Settled slot fence rel t old (past++new) := by
  intro a ha
  rcases List.mem_append.mp ha with h|h
  · exact hs a h
  · exact hn a h

theorem settled_self (hg : t.Grants (grantsOf slot fence old)) (hrefl : ∀a, rel a a) :
    Settled slot fence rel t old old := by
  intro a ha
  have hheld := (hg.held _ _ (mem_grantsOf ha)).1
  exact ⟨hheld.ge,fun _ => .inl ⟨a,ha,rfl,rfl,hrefl a⟩⟩

theorem settled_present (hs : Settled slot fence rel t old past)
    (hg : t.Grants (grantsOf slot fence old)) : Consistent slot fence rel past old := by
  intro a hap b hb hslot hfence
  have hheld := hg.held _ _ (mem_grantsOf hb)
  obtain ⟨-,hcase⟩ := hs a hap
  rw [hslot,hfence] at hcase
  rcases hcase hheld.1.symm with ⟨c,hc,hcs,-,hrel⟩|hret
  · have hinj := List.inj_on_of_nodup_map (grantsOf_keys old ▸ hg.nodup)
    exact hinj hc hb hcs ▸ hrel
  · omega

theorem settled_absorb (hs : Settled slot fence rel t old past) (legacy : List (κ×Nat)) :
    Settled slot fence rel (t.absorb legacy) old past := by
  intro a hap
  obtain ⟨hle,hcase⟩ := hs a hap
  refine ⟨le_trans hle (absorb_fences_mono t legacy _),?_⟩
  intro heq
  rcases absorb_fences t legacy (slot a) with h|h
  · rcases hcase (heq.trans h) with hlive|hret
    · exact .inl hlive
    · right
      rw [h]
      exact le_trans hret (absorb_retired_mono t legacy _)
  · exact .inr h

/-- The writer's loop over new holders: each is checked against the marks as they stand,
then by a further verdict, and its fence is written before the next one is looked at. -/
def admitAll {ε : Type} (slot : α→κ) (fence : α→Nat) (stale : ε) (verdict : α→Option ε)
    (retired : Counters κ) : Counters κ→List α→Except ε (Counters κ)
  | fences,[] => .ok fences
  | fences,a::l =>
    if fence a<fences.read (slot a) ∨ fence a ≤ retired.read (slot a) then .error stale
    else
      match verdict a with
      | some e => .error e
      | none => admitAll slot fence stale verdict retired (fences.insert (slot a) (fence a)) l

theorem admitAll_every {ε : Type} {stale : ε} {verdict : α→Option ε} {retired : Counters κ}
    {P : κ→Nat→Prop} (l : List α) (fences result : Counters κ) (hf : fences.Every P)
    (hl : ∀a∈l, P (slot a) (fence a))
    (h : admitAll slot fence stale verdict retired fences l=.ok result) : result.Every P := by
  induction l generalizing fences with
  | nil =>
    have hr : fences=result := by simpa [admitAll] using h
    exact hr ▸ hf
  | cons a l ih =>
    simp only [admitAll] at h
    split_ifs at h
    cases hv : verdict a with
    | some e => simp [hv] at h
    | none =>
      rw [hv] at h
      apply ih _ (Counters.every_insert hf (hl a List.mem_cons_self)) _ h
      exact fun b hb => hl b (List.mem_cons_of_mem _ hb)

/-- With distinct slots the running marks are the initial ones, so the loop admits exactly
the whole list. -/
theorem admitAll_ok {ε : Type} {stale : ε} {verdict : α→Option ε} {retired : Counters κ}
    (l : List α) (fences result : Counters κ) (hn : (l.map slot).Nodup)
    (h : admitAll slot fence stale verdict retired fences l=.ok result) :
    result=fences.writeAll (grantsOf slot fence l) ∧
      (⟨fences,retired⟩ : FenceTable κ).Admits (grantsOf slot fence l) ∧
      ∀a∈l, verdict a=none := by
  induction l generalizing fences with
  | nil =>
    have hr : fences=result := by simpa [admitAll] using h
    exact ⟨hr.symm,by simp [Admits,grantsOf],by simp⟩
  | cons a l ih =>
    simp only [admitAll] at h
    split_ifs at h with hc
    cases hv : verdict a with
    | some e => simp [hv] at h
    | none =>
      rw [hv] at h
      rw [List.map_cons,List.nodup_cons] at hn
      have hrest := ih _ hn.2 h
      simp only [not_or,not_lt,not_le] at hc
      refine ⟨hrest.1,?_,?_⟩
      · intro k n hk
        rcases List.mem_cons.mp hk with he|hk
        · cases he
          exact hc
        · have hadm := hrest.2.1 k n hk
          have hne : k≠slot a := by
            intro he
            apply hn.1
            obtain ⟨b,hb,hbe⟩ := List.mem_map.mp hk
            cases hbe
            exact he ▸ List.mem_map.mpr ⟨b,hb,rfl⟩
          have hread := Counters.read_insert_ne fences (fence a) hne
          change (Counters.read (fences.insert (slot a) (fence a)) k≤n ∧ _) at hadm
          rw [hread] at hadm
          exact hadm
      · intro b hb
        rcases List.mem_cons.mp hb with rfl|hb
        · exact hv
        · exact hrest.2.2 b hb

end Holders

end FenceTable

end TuneX.Framework
