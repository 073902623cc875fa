import TuneX.Framework.Table
import TuneX.Framework.Result
import TuneX.Framework.Run

namespace TuneX.Framework

structure KeyRow (δ ρ : Type) where
  digest : δ
  response : Option ρ
  invalidated : Bool

/-- What a service does for a request: checks before the key is read, checks before a recorded
response is returned, and the command itself. The rest of the system changes the store too. -/
structure KeyedService (σ κ δ ρ α ε : Type) where
  key : α→κ
  digest : α→δ
  enter : α→σ→Except ε Unit
  resume : α→ρ→σ→Except ε Unit
  exec : α→σ→Except ε (σ×ρ)
  env : σ→σ→Prop
  conflict : ε
  review : ε

/-- Committed data, and the open transactions with the requests whose keys they hold. -/
structure KeyedStore (σ κ δ ρ α : Type) where
  store : σ
  rows : Table κ (KeyRow δ ρ)
  held : Table Nat α

inductive KeyedLabel (α ρ ε : Type)
  | fail (a : α) (e : ε)
  | replay (a : α) (r : ρ)
  | start (tx : Nat) (a : α)
  | commit (tx : Nat) (a : α) (r : ρ)
  | abort (tx : Nat) (a : α)
  | other
  | recover

namespace KeyedService

variable {σ κ δ ρ α ε : Type} [DecidableEq κ]

def committed (sv : KeyedService σ κ δ ρ α ε) : KeyedLabel α ρ ε→Option κ
  | .commit _ a _ => some (sv.key a)
  | _ => none

/-- The rows are those of the commits so far, one for each key, and no open transaction works under
a key that has a row. -/
structure Recorded (sv : KeyedService σ κ δ ρ α ε) (l : List (KeyedLabel α ρ ε))
    (db : KeyedStore σ κ δ ρ α) : Prop where
  row : ∀k row, db.rows.lookup k=some row→∃tx a r, .commit tx a r∈l ∧ sv.key a=k ∧
    row.digest=sv.digest a ∧ row.response=some r
  commit : ∀tx a r, .commit tx a r∈l→∃row, db.rows.lookup (sv.key a)=some row ∧
    row.digest=sv.digest a ∧ row.response=some r
  held : ∀tx a, db.held.lookup tx=some a→db.rows.lookup (sv.key a)=none
  distinct : ∀tx tx' a a', db.held.lookup tx=some a→db.held.lookup tx'=some a'→
    sv.key a=sv.key a'→tx=tx'
  once : (l.filterMap sv.committed).Nodup

variable {sv : KeyedService σ κ δ ρ α ε} {l : List (KeyedLabel α ρ ε)}
  {db db' : KeyedStore σ κ δ ρ α} {e : KeyedLabel α ρ ε}

theorem Recorded.quiet (h : Recorded sv l db) (he : sv.committed e=none)
    (hrow : ∀k row, db'.rows.lookup k=some row→∃row', db.rows.lookup k=some row' ∧
      row.digest=row'.digest ∧ row.response=row'.response)
    (hkeep : ∀k row, db.rows.lookup k=some row→∃row', db'.rows.lookup k=some row' ∧
      row'.digest=row.digest ∧ row'.response=row.response)
    (hheld : ∀tx a, db'.held.lookup tx=some a→db'.rows.lookup (sv.key a)=none)
    (hdistinct : ∀tx tx' a a', db'.held.lookup tx=some a→db'.held.lookup tx'=some a'→
      sv.key a=sv.key a'→tx=tx') : Recorded sv (l++[e]) db' := by
  refine ⟨?_,?_,hheld,hdistinct,?_⟩
  · intro k row hlookup
    obtain ⟨row',hlookup',hd,hr⟩ := hrow k row hlookup
    obtain ⟨tx,a,r,hm,hk,hd',hr'⟩ := h.row k row' hlookup'
    exact ⟨tx,a,r,List.mem_append_left _ hm,hk,hd.trans hd',hr.trans hr'⟩
  · intro tx a r hm
    obtain hm | hm := List.mem_append.mp hm
    · obtain ⟨row,hlookup,hd,hr⟩ := h.commit tx a r hm
      obtain ⟨row',hlookup',hd',hr'⟩ := hkeep _ row hlookup
      exact ⟨row',hlookup',hd'.trans hd,hr'.trans hr⟩
    · rw [List.mem_singleton] at hm
      subst hm
      cases he
  · have hnone : [e].filterMap sv.committed=[] := by simp [he]
    rw [List.filterMap_append,hnone,List.append_nil]
    exact h.once

variable [DecidableEq δ]

/-- The row of the key: nothing yet, or the response to return. -/
def claim (sv : KeyedService σ κ δ ρ α ε) (db : KeyedStore σ κ δ ρ α) (a : α) :
    Except ε (Option ρ) := do
  sv.enter a db.store
  match db.rows.lookup (sv.key a) with
  | none => pure none
  | some row =>
    reject row.invalidated sv.review
    reject (row.digest≠sv.digest a) sv.conflict
    match row.response with
    | none => pure none
    | some r =>
      sv.resume a r db.store
      pure (some r)

/-- No open transaction holds a key. -/
def Free (sv : KeyedService σ κ δ ρ α ε) (db : KeyedStore σ κ δ ρ α) (k : κ) : Prop :=
  ∀tx a, db.held.lookup tx=some a→sv.key a≠k

/-- A transaction starts or ends. A request whose key is held waits: it takes no step. -/
inductive Moves (sv : KeyedService σ κ δ ρ α ε) (db : KeyedStore σ κ δ ρ α) :
    KeyedLabel α ρ ε→KeyedStore σ κ δ ρ α→Prop
  | refuse {a : α} {e : ε} (h : sv.enter a db.store=.error e) : Moves sv db (.fail a e) db
  | fail {a : α} {e : ε} (hf : sv.Free db (sv.key a)) (h : sv.claim db a=.error e) :
      Moves sv db (.fail a e) db
  | replay {a : α} {r : ρ} (hf : sv.Free db (sv.key a)) (h : sv.claim db a=.ok (some r)) :
      Moves sv db (.replay a r) db
  | start {tx : Nat} {a : α} (hn : db.held.lookup tx=none) (hf : sv.Free db (sv.key a))
      (h : sv.claim db a=.ok none) : Moves sv db (.start tx a) { db with held := db.held.insert tx a }
  | commit {tx : Nat} {a : α} {t : σ} {r : ρ} (ho : db.held.lookup tx=some a)
      (h : sv.exec a db.store=.ok (t,r)) : Moves sv db (.commit tx a r)
        ⟨t,db.rows.insert (sv.key a) ⟨sv.digest a,some r,false⟩,db.held.erase tx⟩
  | abort {tx : Nat} {a : α} (ho : db.held.lookup tx=some a) :
      Moves sv db (.abort tx a) { db with held := db.held.erase tx }
  | other {t : σ} (h : sv.env db.store t) : Moves sv db .other { db with store := t }
  | recover (ho : ∀tx, db.held.lookup tx=none) : Moves sv db .recover
      { db with rows := db.rows.alter fun _ r => { r with invalidated := true } }

variable {a : α}

theorem claim_none (h : sv.claim db a=.ok none) : sv.enter a db.store=.ok () ∧
    ∀row, db.rows.lookup (sv.key a)=some row → row.response=none := by
  simp only [claim,do_ok] at h
  obtain ⟨he,h⟩ := h
  refine ⟨he,?_⟩
  intro row hrow
  simp only [hrow,do_ok] at h
  obtain ⟨-,-,h⟩ := h
  cases hr : row.response with
  | none => rfl
  | some r =>
    simp only [hr,do_ok] at h
    cases h.2

theorem claim_some {r : ρ} (h : sv.claim db a=.ok (some r)) : ∃row,
    db.rows.lookup (sv.key a)=some row ∧ row.digest=sv.digest a ∧ row.response=some r := by
  simp only [claim,do_ok] at h
  obtain ⟨-,h⟩ := h
  cases hrow : db.rows.lookup (sv.key a) with
  | none => simp [hrow] at h
  | some row =>
    simp only [hrow,do_ok,not_not] at h
    obtain ⟨-,hd,h⟩ := h
    refine ⟨row,rfl,hd,?_⟩
    cases hr : row.response with
    | none => simp [hr] at h
    | some r' =>
      simp only [hr,do_ok,Option.some.injEq] at h
      rw [h.2]

theorem Recorded.start_free (h : Recorded sv l db) (hc : sv.claim db a=.ok none) :
    db.rows.lookup (sv.key a)=none := by
  rw [Option.eq_none_iff_forall_ne_some]
  intro row hrow
  obtain ⟨tx,b,r,-,-,-,hr⟩ := h.row _ row hrow
  rw [(claim_none hc).2 row hrow] at hr
  cases hr

theorem Recorded.step (h : Recorded sv l db) (hm : Moves sv db e db') :
    Recorded sv (l++[e]) db' := by
  have hsame : ∀k row, db.rows.lookup k=some row→∃row', db.rows.lookup k=some row' ∧
      row.digest=row'.digest ∧ row.response=row'.response :=
    fun k row hrow => ⟨row,hrow,rfl,rfl⟩
  have hsame' : ∀k row, db.rows.lookup k=some row→∃row', db.rows.lookup k=some row' ∧
      row'.digest=row.digest ∧ row'.response=row.response :=
    fun k row hrow => ⟨row,hrow,rfl,rfl⟩
  cases hm with
  | refuse | fail | replay | other => exact h.quiet rfl hsame hsame' h.held h.distinct
  | @start tx a hn hf hc =>
    have hnone := h.start_free hc
    refine h.quiet rfl hsame hsame' ?_ ?_
    · intro tx' b hb
      rw [Table.lookup_insert_some] at hb
      obtain ⟨-,rfl⟩ | ⟨-,hb⟩ := hb
      · exact hnone
      · exact h.held tx' b hb
    · intro t₁ t₂ b c hb hc' hk
      rw [Table.lookup_insert_some] at hb hc'
      obtain ⟨h1,h2⟩ | ⟨-,hb⟩ := hb
      · obtain ⟨h3,-⟩ | ⟨-,hc'⟩ := hc'
        · exact h1.trans h3.symm
        · exact absurd (h2 ▸ hk).symm (hf t₂ c hc')
      · obtain ⟨-,h4⟩ | ⟨-,hc'⟩ := hc'
        · exact absurd (h4 ▸ hk) (hf t₁ b hb)
        · exact h.distinct t₁ t₂ b c hb hc' hk
  | @abort tx a ho =>
    refine h.quiet rfl hsame hsame' ?_ ?_
    · intro tx' b hb
      exact h.held tx' b (Table.lookup_erase_some.mp hb).2
    · intro t₁ t₂ b c hb hc hk
      exact h.distinct t₁ t₂ b c (Table.lookup_erase_some.mp hb).2 (Table.lookup_erase_some.mp hc).2 hk
  | recover ho =>
    refine h.quiet rfl ?_ ?_ ?_ h.distinct
    · intro k row hrow
      rw [Table.lookup_alter_some] at hrow
      obtain ⟨r,hr,rfl⟩ := hrow
      exact ⟨r,hr,rfl,rfl⟩
    · intro k row hrow
      refine ⟨{ row with invalidated := true },?_,rfl,rfl⟩
      rw [Table.lookup_alter,hrow]
      rfl
    · intro tx a ha
      rw [ho tx] at ha
      cases ha
  | @commit tx a t r ho hx =>
    have hnone := h.held tx a ho
    have hnew : sv.key a∉l.filterMap sv.committed := by
      intro hin
      obtain ⟨e,he,hk⟩ := List.mem_filterMap.mp hin
      cases e with
      | commit tx' b r' =>
        obtain ⟨row,hrow,-⟩ := h.commit tx' b r' he
        have hkey : sv.key b=sv.key a := Option.some.inj hk
        rw [hkey,hnone] at hrow
        cases hrow
      | _ => cases hk
    refine ⟨?_,?_,?_,?_,?_⟩
    · intro k row hrow
      rw [Table.lookup_insert_some] at hrow
      obtain ⟨rfl,rfl⟩ | ⟨-,hrow⟩ := hrow
      · exact ⟨tx,a,r,by simp,rfl,rfl,rfl⟩
      · obtain ⟨tx',b,r',hm,hrest⟩ := h.row k row hrow
        exact ⟨tx',b,r',List.mem_append_left _ hm,hrest⟩
    · intro tx' b r' hm
      rw [Table.lookup_insert_eq]
      obtain hm | hm := List.mem_append.mp hm
      · obtain ⟨row,hrow,hrest⟩ := h.commit tx' b r' hm
        have hne : sv.key b≠sv.key a := by
          intro he
          rw [he,hnone] at hrow
          cases hrow
        rw [if_neg hne]
        exact ⟨row,hrow,hrest⟩
      · rw [List.mem_singleton] at hm
        cases hm
        rw [if_pos rfl]
        exact ⟨_,rfl,rfl,rfl⟩
    · intro tx' b hb
      obtain ⟨hne,hb⟩ := Table.lookup_erase_some.mp hb
      have hk : sv.key b≠sv.key a := fun he => hne (h.distinct tx' tx b a hb ho he)
      rw [Table.lookup_insert_eq,if_neg hk]
      exact h.held tx' b hb
    · intro t₁ t₂ b c hb hc hk
      exact h.distinct t₁ t₂ b c (Table.lookup_erase_some.mp hb).2 (Table.lookup_erase_some.mp hc).2 hk
    · rw [List.filterMap_append]
      refine List.nodup_append.mpr ⟨h.once,by simp [committed],?_⟩
      intro x hx y hy
      simp only [committed,List.filterMap_cons,List.filterMap_nil,List.mem_singleton] at hy
      rintro rfl
      exact hnew (hy ▸ hx)

theorem recorded_run (h : Run (Moves sv) db l db') (hr : db.rows=∅) (hh : db.held=∅) :
    Recorded sv l db' := by
  refine h.history (Recorded sv) (fun _ _ _ _ _ hm ih => ih.step hm) ?_
  refine ⟨?_,?_,?_,?_,?_⟩
  · intro k row hrow
    simp [hr] at hrow
  · intro tx a r hm
    simp at hm
  · intro tx a ha
    simp [hh] at ha
  · intro tx tx' a a' ha
    simp [hh] at ha
  · simp

theorem Recorded.answer {tx : Nat} {b : α} {r : ρ} (h : Recorded sv l db) (hc : .commit tx b r∈l)
    (hk : sv.key a=sv.key b) (hm : Moves sv db e db') :
    (∀tx', e≠.start tx' a) ∧ (∀tx' r', e≠.commit tx' a r') ∧
      ∀r', e=.replay a r' → r'=r ∧ sv.digest a=sv.digest b := by
  obtain ⟨row,hrow,hd,hr⟩ := h.commit tx b r hc
  refine ⟨?_,?_,?_⟩
  · rintro tx' rfl
    cases hm with
    | start _ _ hclaim =>
      have hnone := h.start_free hclaim
      rw [hk,hrow] at hnone
      cases hnone
  · rintro tx' r' rfl
    cases hm with
    | commit ho =>
      have hnone := h.held tx' a ho
      rw [hk,hrow] at hnone
      cases hnone
  · rintro r' rfl
    cases hm with
    | replay _ hclaim =>
      obtain ⟨row',hrow',hd',hr'⟩ := claim_some hclaim
      rw [hk,hrow] at hrow'
      cases hrow'
      rw [hr] at hr'
      exact ⟨(Option.some.inj hr').symm,hd'.symm.trans hd⟩

theorem fail_claim {x : ε} (hm : Moves sv db (.fail a x) db') :
    db'=db ∧ sv.claim db a=.error x := by
  cases hm with
  | refuse h =>
    refine ⟨rfl,?_⟩
    unfold claim
    rw [h]
    rfl
  | fail _ h => exact ⟨rfl,h⟩

/-- A different request under a key with a commit is refused: once it is let in and the row is not
invalidated, with a conflict. -/
theorem Recorded.differs {tx : Nat} {b : α} {r : ρ} (h : Recorded sv l db) (hc : .commit tx b r∈l)
    (hk : sv.key a=sv.key b) (hd : sv.digest a≠sv.digest b) :
    ∃row, db.rows.lookup (sv.key a)=some row ∧ sv.claim db a=(do
      sv.enter a db.store
      reject row.invalidated sv.review
      .error sv.conflict) := by
  obtain ⟨row,hrow,hrd,hr⟩ := h.commit tx b r hc
  rw [← hk] at hrow
  have hne : row.digest≠sv.digest a := by
    rw [hrd]
    exact Ne.symm hd
  have hconflict : reject (row.digest≠sv.digest a) sv.conflict=.error sv.conflict := if_pos hne
  refine ⟨row,hrow,?_⟩
  simp only [claim,hrow,hconflict]
  rfl

theorem Recorded.usable {tx : Nat} (h : Recorded sv l db)
    (hnone : ∀tx' b r, .commit tx' b r∈l→sv.key b≠sv.key a) (hf : sv.Free db (sv.key a))
    (hn : db.held.lookup tx=none) (he : sv.enter a db.store=.ok ()) :
    Moves sv db (.start tx a) { db with held := db.held.insert tx a } := by
  refine .start hn hf ?_
  have hrow : db.rows.lookup (sv.key a)=none := by
    rw [Option.eq_none_iff_forall_ne_some]
    intro row hrow
    obtain ⟨tx',b,r,hm,hk,-⟩ := h.row _ row hrow
    exact hnone tx' b r hm hk
  simp only [claim,do_ok]
  refine ⟨he,?_⟩
  rw [hrow]
  rfl

/-- One request in a transaction of its own. -/
def submit (sv : KeyedService σ κ δ ρ α ε) (db : KeyedStore σ κ δ ρ α) (a : α) :
    Except ε (KeyedStore σ κ δ ρ α×ρ) := do
  match ← sv.claim db a with
  | some r => pure (db,r)
  | none => do
    let x ← sv.exec a db.store
    pure (⟨x.1,db.rows.insert (sv.key a) ⟨sv.digest a,some x.2,false⟩,db.held⟩,x.2)

theorem submit_run {r : ρ} (hh : db.held=∅) (h : sv.submit db a=.ok (db',r)) :
    db'.held=∅ ∧ (((db.rows.lookup (sv.key a)).isSome ∧ Run (Moves sv) db [.replay a r] db') ∨
      Run (Moves sv) db [.start 0 a,.commit 0 a r] db') := by
  have hfree : sv.Free db (sv.key a) := by
    intro tx b hb
    simp [hh] at hb
  simp only [submit,bind_ok] at h
  obtain ⟨o,hclaim,h⟩ := h
  cases o with
  | some r' =>
    cases h
    obtain ⟨row,hrow,-⟩ := claim_some hclaim
    exact ⟨hh,.inl ⟨by rw [hrow]; rfl,.single (.replay hfree hclaim)⟩⟩
  | none =>
    simp only [do_ok,Prod.mk.injEq] at h
    obtain ⟨x,hx,rfl,rfl⟩ := h
    refine ⟨hh,.inr ?_⟩
    have hnone : db.held.lookup 0=none := by simp [hh]
    have hend : (db.held.insert 0 a).erase 0=db.held := by
      rw [hh]
      rfl
    have hcommit : Moves sv { db with held := db.held.insert 0 a } (.commit 0 a x.2)
        ⟨x.1,db.rows.insert (sv.key a) ⟨sv.digest a,some x.2,false⟩,db.held⟩ := by
      have hm : Moves sv { db with held := db.held.insert 0 a } (.commit 0 a x.2)
          ⟨x.1,_,(db.held.insert 0 a).erase 0⟩ := .commit (AList.lookup_insert _) hx
      rw [hend] at hm
      exact hm
    exact .cons (.start hnone hfree hclaim) (.single hcommit)

end KeyedService

end TuneX.Framework
