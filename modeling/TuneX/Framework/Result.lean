import Mathlib.Tactic.SplitIfs
import Mathlib.Logic.Basic
import Mathlib.Data.List.Forall2

namespace TuneX.Framework

variable {ε α β : Type}

/-- An early return with an error when a condition holds. -/
def reject (p : Prop) [Decidable p] (e : ε) : Except ε Unit := if p then .error e else .ok ()

@[simp] theorem reject_ok (p : Prop) [Decidable p] (e : ε) (u : Unit) :
    reject p e=.ok u ↔ ¬p := by
  unfold reject
  split_ifs with h <;> simp [h]

theorem ite_error_ok (p : Prop) [Decidable p] (e : ε) (x : Except ε α) (a : α) :
    (if p then .error e else x)=.ok a ↔ ¬p ∧ x=.ok a := by
  split_ifs with h <;> simp [h]

@[simp] theorem bind_ok (x : Except ε α) (f : α→Except ε β) (b : β) :
    (x >>= f)=.ok b ↔ ∃a, x=.ok a ∧ f a=.ok b := by
  cases x with
  | error e | ok a => simp [bind,Except.bind]

theorem reject_error (p : Prop) [Decidable p] (e e' : ε) :
    reject p e=.error e' ↔ p ∧ e=e' := by
  unfold reject
  split_ifs with h <;> simp [h]

theorem bind_error (x : Except ε α) (f : α→Except ε β) (e : ε) :
    (x >>= f)=.error e ↔ x=.error e ∨ ∃a, x=.ok a ∧ f a=.error e := by
  cases x with
  | error e | ok a => simp [bind,Except.bind]

@[simp] theorem exists_unit (p : Unit→Prop) : (∃u, p u) ↔ p () :=
  ⟨fun ⟨_,h⟩ => h,fun h => ⟨(),h⟩⟩

@[simp] theorem pure_ok (a b : α) : (pure a : Except ε α)=.ok b ↔ a=b := by
  simp [pure,Except.pure]

/-- The rules that read a block of checks that passed, as one set. -/
theorem do_ok :
    (∀{ε α β : Type} (x : Except ε α) (f : α→Except ε β) (b : β),
      (x >>= f)=.ok b ↔ ∃a, x=.ok a ∧ f a=.ok b) ∧
    (∀{ε : Type} (p : Prop) [Decidable p] (e : ε) (u : Unit), reject p e=.ok u ↔ ¬p) ∧
    (∀p : Unit→Prop, (∃u, p u) ↔ p ()) ∧
    ∀{ε α : Type} (a b : α), (pure a : Except ε α)=.ok b ↔ a=b :=
  ⟨bind_ok,reject_ok,exists_unit,pure_ok⟩

/-- The rules that read a Boolean check that passed. -/
theorem bool_ok :
    (∀a b : Bool, ((a && b)=true)=(a=true ∧ b=true)) ∧
    ∀(p : Prop) [Decidable p], (decide p=true)=p :=
  ⟨Bool.and_eq_true,fun _ => decide_eq_true_eq⟩

/-- Those of a schema, which also compares values and goes through lists. -/
theorem schema_ok :
    (∀a b : Bool, ((a && b)=true)=(a=true ∧ b=true)) ∧
    (∀(p : Prop) [Decidable p], (decide p=true)=p) ∧
    (∀{α : Type} [BEq α] [LawfulBEq α] (a b : α), (a==b)=true ↔ a=b) ∧
    ∀{α : Type} (l : List α) (p : α→Bool), l.all p=true ↔ ∀x∈l, p x=true :=
  ⟨bool_ok.1,bool_ok.2,fun _ _ => beq_iff_eq,fun _ _ => List.all_eq_true⟩

/-- The rules that list the members of a list that is written out. -/
theorem mem_list :
    (∀{α : Type} (a b : α) (l : List α), a∈b::l ↔ a=b ∨ a∈l) ∧
    (∀{α : Type} (a : α), ¬a∈([] : List α)) ∧ ∀p : Prop, (p ∨ False)=p :=
  ⟨fun _ _ _ => List.mem_cons,fun _ => List.not_mem_nil,or_false⟩

/-- The rules that read a block of optional values that are all there. -/
theorem do_some :
    (∀{α β : Type} (x : Option α) (f : α→Option β), (x >>= f)=x.bind f) ∧
    (∀{α β : Type} (x : Option α) (f : α→Option β) (b : β),
      x.bind f=some b ↔ ∃a, x=some a ∧ f a=some b) ∧
    (∀{α β : Type} (x : Option α) (f : α→β) (b : β), x.map f=some b ↔ ∃a, x=some a ∧ f a=b) ∧
    (∀{α : Type} (a b : α), (some a=some b)=(a=b)) ∧
    ∀{α β : Type} (a : α) (b : β) (c : α) (d : β), ((a,b)=(c,d))=(a=c ∧ b=d) :=
  ⟨fun _ _ => rfl,fun _ _ _ => Option.bind_eq_some_iff,fun _ _ _ => Option.map_eq_some_iff,
    Option.some.injEq,Prod.mk.injEq⟩

@[simp] theorem map_ok (x : Except ε α) (f : α→β) (b : β) :
    x.map f=.ok b ↔ ∃a, x=.ok a ∧ f a=b := by
  cases x with
  | error e | ok a => simp [Except.map]

@[simp] theorem toOption_ok (x : Except ε α) (a : α) : x.toOption=some a ↔ x=.ok a := by
  cases x with
  | error e | ok b => simp [Except.toOption]

variable {l : List α}

theorem foldlM_ok {f : β→α→Except ε β} (P : β→Prop)
    (hP : ∀b a c, a∈l→P b→f b a=.ok c→P c) {b c : β} (hb : P b) (h : l.foldlM f b=.ok c) : P c := by
  induction l generalizing b with
  | nil =>
    simp only [List.foldlM_nil,pure_ok] at h
    exact h ▸ hb
  | cons a l ih =>
    simp only [List.foldlM_cons,bind_ok] at h
    obtain ⟨d,hd,hc⟩ := h
    have hl : ∀b a c, a∈l→P b→f b a=.ok c→P c :=
      fun b a c ha => hP b a c (List.mem_cons_of_mem _ ha)
    exact ih hl (hP b a d List.mem_cons_self hb hd) hc

theorem foldlM_error {f : β→α→Except ε β} {b : β} {e : ε} (h : l.foldlM f b=.error e) :
    ∃c a, f c a=.error e := by
  induction l generalizing b with
  | nil => cases h
  | cons a l ih =>
    rw [List.foldlM_cons,bind_error] at h
    obtain hf | ⟨c,-,hc⟩ := h
    · exact ⟨b,a,hf⟩
    · exact ih hc

variable {r : List β}

theorem mem_mapM_ok {f : α→Except ε β} (h : l.mapM f=.ok r) {y : β}
    (hy : y∈r) : ∃x∈l, f x=.ok y := by
  induction l generalizing r with
  | nil =>
    simp only [List.mapM_nil,pure_ok] at h
    simp [← h] at hy
  | cons x l ih =>
    simp only [List.mapM_cons,do_ok] at h
    obtain ⟨z,hz,zs,hzs,rfl⟩ := h
    cases List.mem_cons.mp hy with
    | inl he => exact ⟨x,List.mem_cons_self,he ▸ hz⟩
    | inr hm =>
      obtain ⟨w,hw,hfw⟩ := ih hzs hm
      exact ⟨w,List.mem_cons_of_mem _ hw,hfw⟩

variable {f : α→Option β}

theorem forall₂_mapM_some (h : l.mapM f=some r) : List.Forall₂ (fun x y => f x=some y) l r := by
  induction l generalizing r with
  | nil =>
    simp only [List.mapM_nil,Option.pure_def,Option.some.injEq] at h
    exact h ▸ .nil
  | cons x l ih =>
    simp only [List.mapM_cons,Option.bind_eq_bind,Option.bind_eq_some_iff,Option.pure_def,
      Option.some.injEq] at h
    obtain ⟨z,hz,zs,hzs,rfl⟩ := h
    exact .cons hz (ih hzs)

theorem mapM_some_of_forall₂
    (h : List.Forall₂ (fun x y => f x=some y) l r) : l.mapM f=some r := by
  induction h with
  | nil => rfl
  | cons hx _ ih => rw [List.mapM_cons,hx,ih]; rfl

theorem mapM_some_of (P : β→Prop)
    (hl : ∀x∈l, ∃y, f x=some y ∧ P y) : ∃r, l.mapM f=some r ∧ ∀y∈r, P y := by
  induction l with
  | nil => exact ⟨[],rfl,by simp⟩
  | cons x l ih =>
    obtain ⟨y,hy,hp⟩ := hl x List.mem_cons_self
    obtain ⟨r,hr,hps⟩ := ih fun z hz => hl z (List.mem_cons_of_mem _ hz)
    refine ⟨y::r,by simp [List.mapM_cons,hy,hr],?_⟩
    intro z hz
    rcases List.mem_cons.mp hz with rfl|hz
    · exact hp
    · exact hps z hz

theorem forall₂_mapM_ok {f : α→Except ε β} (h : l.mapM f=.ok r) :
    List.Forall₂ (fun x y => f x=.ok y) l r := by
  induction l generalizing r with
  | nil =>
    simp only [List.mapM_nil,pure_ok] at h
    exact h ▸ .nil
  | cons x l ih =>
    simp only [List.mapM_cons,do_ok] at h
    obtain ⟨z,hz,zs,hzs,rfl⟩ := h
    exact .cons hz (ih hzs)

variable {R : α→β→Prop}

theorem mem_forall₂ (h : List.Forall₂ R l r) {y : β} (hy : y∈r) : ∃x∈l, R x y := by
  induction h with
  | nil => simp at hy
  | cons hz _ ih =>
    cases List.mem_cons.mp hy with
    | inl he => exact ⟨_,List.mem_cons_self,he ▸ hz⟩
    | inr hm =>
      obtain ⟨w,hw,hfw⟩ := ih hm
      exact ⟨w,List.mem_cons_of_mem _ hw,hfw⟩

theorem forall₂_at (h : List.Forall₂ R l r) {i : Nat}
    {y : β} (hy : r[i]?=some y) : ∃x, l[i]?=some x ∧ R x y := by
  induction h generalizing i with
  | nil => simp at hy
  | @cons a b l r hz _ ih =>
    cases i with
    | zero =>
      rw [List.getElem?_cons_zero,Option.some.injEq] at hy
      exact ⟨a,List.getElem?_cons_zero,hy ▸ hz⟩
    | succ i =>
      rw [List.getElem?_cons_succ] at hy
      obtain ⟨x,hx,hxy⟩ := ih hy
      exact ⟨x,by rwa [List.getElem?_cons_succ],hxy⟩

theorem map_eq_of_forall₂ {γ : Type} {a : α→γ} {b : β→γ}
    (h : List.Forall₂ R l r) (hab : ∀x y, R x y→b y=a x) : r.map b=l.map a := by
  induction h with
  | nil => rfl
  | cons hz _ ih => rw [List.map_cons,List.map_cons,hab _ _ hz,ih]

theorem le_foldl_min {c b : Nat} {l : List Nat} (hb : c≤b) (hl : ∀x∈l, c≤x) :
    c≤l.foldl min b := by
  induction l generalizing b with
  | nil => exact hb
  | cons x l ih =>
    have hx := hl x List.mem_cons_self
    exact ih (Nat.le_min.mpr ⟨hb,hx⟩) fun y hy => hl y (List.mem_cons_of_mem _ hy)

theorem lt_foldl_min {c b : Nat} {l : List Nat} (hb : c<b) (hl : ∀x∈l, c<x) :
    c<l.foldl min b :=
  le_foldl_min (c := c+1) hb hl

theorem foldl_min_le (l : List Nat) (b : Nat) : l.foldl min b≤b ∧ ∀x∈l, l.foldl min b≤x := by
  induction l generalizing b with
  | nil => simp
  | cons y l ih =>
    obtain ⟨hb,hl⟩ := ih (min b y)
    refine ⟨Nat.le_trans hb (Nat.min_le_left b y),?_⟩
    exact List.forall_mem_cons.mpr ⟨Nat.le_trans hb (Nat.min_le_right b y),hl⟩

theorem foldl_min_mem (l : List Nat) (b : Nat) : l.foldl min b=b ∨ l.foldl min b∈l := by
  induction l generalizing b with
  | nil => simp
  | cons y l ih =>
    rw [List.foldl_cons,List.mem_cons]
    rcases ih (min b y) with h|h
    · rcases Nat.le_total b y with hm|hm
      · exact .inl (h.trans (Nat.min_eq_left hm))
      · exact .inr (.inl (h.trans (Nat.min_eq_right hm)))
    · exact .inr (.inr h)

end TuneX.Framework
