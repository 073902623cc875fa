import Mathlib.Data.ENat.Basic
import Mathlib.Data.List.Infix

namespace TuneX.Framework

/-- Sequential code of one party on a connection: each constructor is a call whose answer the
continuation takes. A read answers with a non-empty piece, a write with the number of elements
taken, a check with the reason of a refusal. -/
inductive Proc (β ε α : Type)
  | done (a : α)
  | read (n : Nat) (k : Except ε (β×List β)→Proc β ε α)
  | write (raw : List β) (k : Except ε Nat→Proc β ε α)
  | check (k : Option ε→Proc β ε α)

namespace Proc

variable {β ε α γ : Type}

def bind : Proc β ε α→(α→Proc β ε γ)→Proc β ε γ
  | .done a,f => f a
  | .read n k,f => .read n (fun r => bind (k r) f)
  | .write raw k,f => .write raw (fun r => bind (k r) f)
  | .check k,f => .check (fun r => bind (k r) f)

instance : Monad (Proc β ε) where
  pure := .done
  bind := bind

@[simp] theorem pure_eq (a : α) : (pure a : Proc β ε α)=.done a := rfl

@[simp] theorem done_bind (a : α) (f : α→Proc β ε γ) : (.done a : Proc β ε α)>>=f=f a := rfl

/-- A caller's permission function. -/
def allow : Proc β ε (Option ε) :=
  .check .done

/-- Write until everything is taken; an answer of zero is a short write. -/
def writeAll (short : ε) (raw : List β) : Proc β ε (Option ε) :=
  if raw=[] then .done none
  else .write raw fun
    | .error e => .done (some e)
    | .ok n => if n=0 then .done (some short) else writeAll short (raw.drop n)
termination_by raw.length
decreasing_by
  have := List.length_pos_of_ne_nil ‹raw≠[]›
  rw [List.length_drop]
  omega

/-- Read exactly `n` elements; an end in the middle is reported as unexpected. -/
def readFull [DecidableEq ε] (eof unexpected : ε) (n : Nat) (got : List β) :
    Proc β ε (Except ε (List β)) :=
  if n≤got.length then .done (.ok got)
  else .read (n-got.length) fun
    | .error e => .done (.error (if e=eof ∧ got≠[] then unexpected else e))
    | .ok (b,p) => readFull eof unexpected n (got++b::p)
termination_by n-got.length
decreasing_by
  rw [List.length_append,List.length_cons]
  omega

/-- One answered call of a party that reads from `inp` and writes to `out`, a queue of at most
`cap` elements. -/
inductive Step (cap : ℕ∞) : Proc β ε α→List β→List β→Proc β ε α→List β→List β→Prop
  | read {n : Nat} {k : Except ε (β×List β)→Proc β ε α} {b : β} {p inp out : List β}
      (hn : p.length<n) : Step cap (.read n k) (b::p++inp) out (k (.ok (b,p))) inp out
  | write {raw : List β} {k : Except ε Nat→Proc β ε α} {m : Nat} {inp out : List β}
      (hm : 0 < m) (hr : m ≤ raw.length) (hc : ((out.length+m : Nat) : ℕ∞) ≤ cap) :
      Step cap (.write raw k) inp out (k (.ok m)) inp (out++raw.take m)
  | check {k : Option ε→Proc β ε α} {inp out : List β} :
      Step cap (.check k) inp out (k none) inp out

/-- A call that fails; a failing write may have taken some elements. -/
inductive Fault : Proc β ε α→List β→Proc β ε α→List β→Prop
  | read {n : Nat} {k : Except ε (β×List β)→Proc β ε α} {out : List β} (e : ε) :
      Fault (.read n k) out (k (.error e)) out
  | write {raw : List β} {k : Except ε Nat→Proc β ε α} {out : List β} (e : ε) (m : Nat)
      (hr : m ≤ raw.length) : Fault (.write raw k) out (k (.error e)) (out++raw.take m)
  | check {k : Option ε→Proc β ε α} {out : List β} (e : ε) :
      Fault (.check k) out (k (some e)) out

/-- However its calls are split, the code takes exactly `i` from its input and then puts exactly `o`
on its output, makes at most `c` checks and returns `a`. -/
def Exact : Proc β ε α→List β→List β→Nat→α→Prop
  | .done r,i,o,_,a => i=[] ∧ o=[] ∧ r=a
  | .read n k,i,o,c,a => 0<n ∧ n ≤ i.length ∧
      ∀b p, p.length<n→b::p<+:i→(k (.ok (b,p))).Exact (i.drop (p.length+1)) o c a
  | .write raw k,i,o,c,a => i=[] ∧ raw≠[] ∧ raw<+:o ∧
      ∀m, 0 < m→m ≤ raw.length→(k (.ok m)).Exact [] (o.drop m) c a
  | .check k,i,o,c,a => ∃d, c=d+1 ∧ (k none).Exact i o d a

/-- A failed call ends the code with an answer in `E`. -/
def Stops (E : α→Prop) : Proc β ε α→Prop
  | .done _ => True
  | .read _ k => (∀e, ∃r, k (.error e)=.done r ∧ E r) ∧ ∀x, (k (.ok x)).Stops E
  | .write _ k => (∀e, ∃r, k (.error e)=.done r ∧ E r) ∧ ∀m, (k (.ok m)).Stops E
  | .check k => (∀e, ∃r, k (some e)=.done r ∧ E r) ∧ (k none).Stops E

theorem exact_done (a : α) (c : Nat) : (.done a : Proc β ε α).Exact [] [] c a :=
  ⟨rfl,rfl,rfl⟩

variable {p : Proc β ε α} {i o j q : List β} {c d : Nat} {a : α} {F : γ→Prop}

theorem Exact.weaken (h : p.Exact i o c a) (hcd : c≤d) : p.Exact i o d a := by
  induction p generalizing i o c d with
  | done r => exact h
  | read n k ih => exact ⟨h.1,h.2.1,fun b p hp hpi => ih _ (h.2.2 b p hp hpi) hcd⟩
  | write raw k ih => exact ⟨h.1,h.2.1,h.2.2.1,fun m hm hr => ih _ (h.2.2.2 m hm hr) hcd⟩
  | check k ih =>
    obtain ⟨e,rfl,hk⟩ := h
    exact ⟨d-1,by omega,ih _ hk (by omega)⟩

variable {f : α→Proc β ε γ}

theorem Exact.bind {b : γ} (h : p.Exact i o c a) (k : (f a).Exact j q d b) (hoj : o=[] ∨ j=[]) :
    (p>>=f).Exact (i++j) (o++q) (c+d) b := by
  induction p generalizing i o c with
  | done r =>
    obtain ⟨rfl,rfl,rfl⟩ := h
    exact Exact.weaken k (by omega)
  | read n k' ih =>
    obtain ⟨hn,hi,hk⟩ := h
    refine ⟨hn,by rw [List.length_append]; omega,?_⟩
    intro b' p hp hpre
    have hlen : (b'::p).length ≤ i.length := by
      rw [List.length_cons]
      omega
    have hpi : b'::p<+:i := List.prefix_of_prefix_length_le hpre (List.prefix_append i j) hlen
    rw [List.drop_append_of_le_length (by simpa using hlen)]
    exact ih _ (hk b' p hp hpi) hoj
  | write raw k' ih =>
    obtain ⟨rfl,hne,hpre,hk⟩ := h
    have hj : j=[] := by
      rcases hoj with rfl|hj
      · exact absurd (List.prefix_nil.mp hpre) hne
      · exact hj
    subst hj
    refine ⟨rfl,hne,hpre.trans (List.prefix_append o q),?_⟩
    intro m hm hr
    rw [List.drop_append_of_le_length (hr.trans hpre.length_le)]
    exact ih _ (hk m hm hr) (.inr rfl)
  | check k' ih =>
    obtain ⟨e,rfl,hk⟩ := h
    exact ⟨e+d,by omega,ih _ hk hoj⟩

/-- Sequencing, with the expected input and output cut where the first part ends. -/
theorem Exact.seq {x y : List β} {e : Nat} {b : γ} (h : p.Exact i o c a) (k : (f a).Exact j q d b)
    (hx : i++j=x) (hy : o++q=y) (he : c+d≤e) (hoj : o=[] ∨ j=[]) : (p>>=f).Exact x y e b := by
  rw [← hx,← hy]
  exact (h.bind k hoj).weaken he

theorem Stops.bind {E : α→Prop} (h : p.Stops E) (hf : ∀r, E r→∃q, f r=.done q ∧ F q)
    (k : ∀a, (f a).Stops F) : (p>>=f).Stops F := by
  have lift : ∀{x : Proc β ε α}, (∃r, x=.done r ∧ E r)→∃q, x.bind f=.done q ∧ F q := by
    intro x hx
    obtain ⟨r,rfl,hr⟩ := hx
    exact hf r hr
  induction p with
  | done r => exact k r
  | read n k' ih => exact ⟨fun e => lift (h.1 e),fun x => ih _ (h.2 x)⟩
  | write raw k' ih => exact ⟨fun e => lift (h.1 e),fun m => ih _ (h.2 m)⟩
  | check k' ih => exact ⟨fun e => lift (h.1 e),ih _ h.2⟩

/-- A call that answers with an error or nothing, handed on by its caller. -/
theorem Stops.option {δ : Type} {p : Proc β ε (Option δ)} {f : Option δ→Proc β ε γ}
    (h : p.Stops (·≠none)) (hf : ∀e, ∃q, f (some e)=.done q ∧ F q) (k : (f none).Stops F) :
    (p>>=f).Stops F := by
  have hsome : ∀e, (f (some e)).Stops F := by
    intro e
    obtain ⟨q,hq,-⟩ := hf e
    rw [hq]
    trivial
  apply h.bind
  · intro r hr
    obtain ⟨e,rfl⟩ := Option.ne_none_iff_exists'.mp hr
    exact hf e
  · intro r
    cases r with
    | none => exact k
    | some e => exact hsome e

/-- A call that answers with an error or a value, handed on by its caller. -/
theorem Stops.except {δ ζ : Type} {p : Proc β ε (Except δ ζ)} {f : Except δ ζ→Proc β ε γ}
    (h : p.Stops (fun r => ∃e, r=.error e)) (hf : ∀e, ∃q, f (.error e)=.done q ∧ F q)
    (k : ∀x, (f (.ok x)).Stops F) : (p>>=f).Stops F := by
  have herror : ∀e, (f (.error e)).Stops F := by
    intro e
    obtain ⟨q,hq,-⟩ := hf e
    rw [hq]
    trivial
  apply h.bind
  · intro r hr
    obtain ⟨e,rfl⟩ := hr
    exact hf e
  · intro r
    cases r with
    | error e => exact herror e
    | ok x => exact k x

theorem allow_exact : (allow : Proc β ε (Option ε)).Exact [] [] 1 none :=
  ⟨0,rfl,rfl,rfl,rfl⟩

theorem allow_stops : (allow : Proc β ε (Option ε)).Stops (·≠none) :=
  ⟨fun e => ⟨some e,rfl,by simp⟩,trivial⟩

theorem writeAll_exact (short : ε) (raw : List β) :
    (writeAll short raw).Exact [] raw 0 none := by
  induction hl : raw.length using Nat.strong_induction_on generalizing raw with
  | _ l ih =>
    rw [writeAll]
    split_ifs with hne
    · exact ⟨rfl,hne,rfl⟩
    · refine ⟨rfl,hne,List.prefix_refl raw,?_⟩
      intro m hm hr
      have hlen : (raw.drop m).length<l := by
        rw [List.length_drop]
        omega
      simpa [hm.ne'] using ih _ hlen (raw.drop m) rfl

theorem writeAll_stops (short : ε) (raw : List β) : (writeAll short raw).Stops (·≠none) := by
  induction hl : raw.length using Nat.strong_induction_on generalizing raw with
  | _ l ih =>
    rw [writeAll]
    split_ifs with hne
    · trivial
    · refine ⟨fun e => ⟨some e,rfl,by simp⟩,?_⟩
      intro m
      have hpos := List.length_pos_of_ne_nil hne
      by_cases hm : m=0
      · simp [hm,Stops]
      · have hlen : (raw.drop m).length<l := by
          rw [List.length_drop]
          omega
        simpa [hm] using ih _ hlen (raw.drop m) rfl

section ReadFull

variable [DecidableEq ε] (eof unexpected : ε)

theorem readFull_exact (n : Nat) (got rest : List β) (hn : got.length+rest.length=n) :
    (readFull eof unexpected n got).Exact rest [] 0 (.ok (got++rest)) := by
  induction hl : rest.length using Nat.strong_induction_on generalizing got rest with
  | _ l ih =>
    rw [readFull]
    split_ifs with hle
    · have hrest : rest=[] := List.eq_nil_of_length_eq_zero (by omega)
      simp [hrest,Exact]
    · refine ⟨by omega,by omega,?_⟩
      intro b p hp hpre
      obtain ⟨q,rfl⟩ := hpre
      have hq : (got++b::p).length+q.length=n := by
        simp only [List.length_append,List.length_cons] at hn ⊢
        omega
      have hlen : q.length<l := by
        simp only [List.length_append,List.length_cons] at hl
        omega
      simpa using ih _ hlen (got++b::p) q hq rfl

theorem readFull_stops (n : Nat) (got : List β) :
    (readFull eof unexpected n got).Stops (fun r => ∃e, r=.error e) := by
  induction hl : n-got.length using Nat.strong_induction_on generalizing got with
  | _ l ih =>
    rw [readFull]
    split_ifs with hle
    · trivial
    · refine ⟨fun e => ⟨_,rfl,_,rfl⟩,?_⟩
      intro x
      exact ih _ (by rw [List.length_append,List.length_cons]; omega) (got++x.1::x.2) rfl

end ReadFull

section Steps

variable {cap : ℕ∞} {q : Proc β ε α} {inp inq out outq x : List β}

/-- One answered call takes a piece `r` of the expected input and puts a piece `w` of the expected
output; what is left is expected of the remaining code. -/
theorem Exact.step (h : p.Exact i o c a) (hs : Step cap p inp out q inq outq)
    (hin : inp<+:i++x) : ∃r w j u d, q.Exact j u d a ∧ i=r++j ∧ inp=r++inq ∧ o=w++u ∧
      outq=out++w ∧ (i=[] ∨ w=[]) ∧ j.length+u.length+d < i.length+o.length+c := by
  cases hs with
  | @read n k b piece _ _ hn =>
    obtain ⟨-,hi,hk⟩ := h
    have hlen : (b::piece).length ≤ i.length := by
      rw [List.length_cons]
      omega
    have hpre : b::piece<+:i := by
      have hp : b::piece<+:i++x := (List.prefix_append _ inq).trans hin
      exact List.prefix_of_prefix_length_le hp (List.prefix_append i x) hlen
    refine ⟨b::piece,[],_,_,_,hk b piece hn hpre,?_,rfl,rfl,by simp,.inr rfl,?_⟩
    · obtain ⟨j,rfl⟩ := hpre
      simp
    · simp only [List.length_drop]
      rw [List.length_cons] at hlen
      omega
  | @write raw k m _ _ hm hr _ =>
    obtain ⟨hi,-,hpre,hk⟩ := h
    have hlen := hpre.length_le
    refine ⟨[],raw.take m,_,_,_,hk m hm hr,hi,rfl,?_,rfl,.inl hi,?_⟩
    · obtain ⟨u,rfl⟩ := hpre
      rw [List.drop_append_of_le_length hr,← List.append_assoc,List.take_append_drop]
    · simp only [List.length_drop,List.length_nil]
      omega
  | check =>
    obtain ⟨d,rfl,hk⟩ := h
    exact ⟨[],[],i,o,d,hk,rfl,rfl,rfl,by simp,.inr rfl,by omega⟩

variable {E : α→Prop}

theorem Stops.step (h : p.Stops E) (hs : Step cap p inp out q inq outq) : q.Stops E := by
  cases hs with
  | read | write => exact h.2 _
  | check => exact h.2

theorem Stops.fault (h : p.Stops E) (he : p.Exact i o c a) (hf : Fault p out q outq) :
    ∃r w u, q=.done r ∧ E r ∧ o=w++u ∧ outq=out++w := by
  cases hf with
  | read e | check e =>
    obtain ⟨r,hr,hE⟩ := h.1 e
    exact ⟨r,[],o,hr,hE,rfl,by simp⟩
  | @write raw k _ e m hm =>
    obtain ⟨r,hr,hE⟩ := h.1 e
    obtain ⟨-,-,⟨u,rfl⟩,-⟩ := he
    exact ⟨r,raw.take m,raw.drop m++u,hr,hE,by rw [← List.append_assoc,List.take_append_drop],rfl⟩

/-- Code that expects something is only held up by an empty input or a queue that is not empty. -/
theorem Exact.progress (h : p.Exact i o c a) (hcap : 0<cap) (inp out : List β) :
    (p=.done a ∧ i=[] ∧ o=[]) ∨ (∃q inq outq, Step cap p inp out q inq outq) ∨
      (inp=[] ∧ i≠[]) ∨ out≠[] := by
  cases p with
  | done r =>
    obtain ⟨hi,ho,rfl⟩ := h
    exact .inl ⟨rfl,hi,ho⟩
  | read n k =>
    obtain ⟨hn,hi,-⟩ := h
    cases inp with
    | nil =>
      refine .inr (.inr (.inl ⟨rfl,?_⟩))
      exact List.ne_nil_of_length_pos (by omega)
    | cons b inp => exact .inr (.inl ⟨_,_,_,Step.read (p := []) hn⟩)
  | write raw k =>
    obtain ⟨-,hne,-,-⟩ := h
    cases out with
    | nil =>
      have hcap' : ((([] : List β).length+1 : Nat) : ℕ∞) ≤ cap := by
        simpa using Order.one_le_iff_pos.mpr hcap
      exact .inr (.inl ⟨_,_,_,Step.write Nat.one_pos (List.length_pos_of_ne_nil hne) hcap'⟩)
    | cons b out => simp
  | check k => exact .inr (.inl ⟨_,_,_,Step.check⟩)

end Steps

end Proc
end TuneX.Framework
