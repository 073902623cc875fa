import TuneX.Agent.TransitIntent
import TuneX.Contracts.Canonical
import Mathlib.Data.List.DropRight

namespace TuneX.Contracts

open Agent

structure Instant where
  seconds : Int
  fraction : List Char
  deriving DecidableEq, Repr

def invalidTime : String := "INVALID_CONFIG: Unrepresentable UTC timestamp"

def instant (calendar : Calendar) (value : String) : Except String Instant :=
  match splitClock ['T','t'] value.toList with
  | none => .error invalidTime
  | some (date,time,rest) =>
    let fraction := splitFraction ['.'] rest
    if fraction.2≠['Z'] then .error invalidTime
    else
      match calendar.seconds date time with
      | none => .error invalidTime
      | some seconds => .ok ⟨seconds,fraction.1.rdropWhile (· == '0')⟩

def padEnd (length : Nat) (l : List Char) : List Char := l++List.replicate (length-l.length) '0'

def Instant.compare (a b : Instant) : Ordering :=
  if a.seconds≠b.seconds then compareOfLessAndEq a.seconds b.seconds
  else
    let length := max a.fraction.length b.fraction.length
    compareOfLessAndEq (padEnd length a.fraction) (padEnd length b.fraction)

def compareTimes (calendar : Calendar) (a b : String) : Except String Ordering := do
  let x ← instant calendar a
  let y ← instant calendar b
  pure (x.compare y)

theorem decimal_concat (l : List Char) (c : Char) :
    decimal (l++[c])=10*decimal l+(c.toNat-48) := by
  simp [decimal,List.foldl_append]

theorem decimal_append (a b : List Char) : decimal (a++b)=decimal a*10^b.length+decimal b := by
  induction b using List.reverseRecOn with
  | nil => simp [decimal]
  | append_singleton b c ih =>
    rw [← List.append_assoc,decimal_concat,decimal_concat,ih,List.length_append,List.length_singleton,
      Nat.pow_succ,Nat.mul_add,← Nat.mul_assoc (decimal a),Nat.mul_comm (decimal a*10^b.length) 10,
      Nat.add_assoc]

theorem digit_range {c : Char} (h : c.isDigit) : 48 ≤ c.toNat ∧ c.toNat≤57 := by
  simp only [Char.isDigit,Bool.and_eq_true,decide_eq_true_eq] at h
  exact h

variable {l : List Char}

theorem decimal_lt (h : ∀c∈l, c.isDigit) : decimal l<10^l.length := by
  induction l using List.reverseRecOn with
  | nil => simp [decimal]
  | append_singleton l c ih =>
    have hl := ih fun x hx => h x (List.mem_append_left _ hx)
    have hc := digit_range (h c (List.mem_append_right _ (List.mem_singleton_self c)))
    rw [decimal_concat,List.length_append,List.length_singleton,Nat.pow_succ]
    omega

theorem decimal_cons (c : Char) (l : List Char) :
    decimal (c::l)=(c.toNat-48)*10^l.length+decimal l := by
  have happend := decimal_append [c] l
  simpa [decimal] using happend

theorem lt_iff_decimal {x y : List Char} (hlen : x.length=y.length) (hx : ∀c∈x, c.isDigit)
    (hy : ∀c∈y, c.isDigit) : x<y ↔ decimal x<decimal y := by
  induction x generalizing y with
  | nil =>
    cases y with
    | nil => simp
    | cons d y => simp at hlen
  | cons c x ih =>
    cases y with
    | nil => simp at hlen
    | cons d y =>
      have hl : x.length=y.length := by simpa using hlen
      have hxs : ∀c∈x, c.isDigit := fun e he => hx e (List.mem_cons_of_mem _ he)
      have hys : ∀c∈y, c.isDigit := fun e he => hy e (List.mem_cons_of_mem _ he)
      have hc := digit_range (hx c List.mem_cons_self)
      have hd := digit_range (hy d List.mem_cons_self)
      have hvx := decimal_lt hxs
      have hvy := decimal_lt hys
      have hchar : c<d ↔ c.toNat<d.toNat := Iff.rfl
      have heq : c=d ↔ c.toNat=d.toNat := ⟨congrArg _,Char.toNat_inj.mp⟩
      rw [List.cons_lt_cons_iff,ih hl hxs hys,decimal_cons,decimal_cons,hchar,heq]
      rw [hl] at hvx ⊢
      -- the first digits decide unless they are equal
      obtain hlt | he | hgt := Nat.lt_trichotomy c.toNat d.toNat
      · have hstep : (c.toNat-48+1)*10^y.length≤(d.toNat-48)*10^y.length :=
          Nat.mul_le_mul_right _ (by omega)
        rw [Nat.add_mul] at hstep
        simp only [hlt,true_or,true_iff]
        omega
      · simp [he]
      · have hstep : (d.toNat-48+1)*10^y.length≤(c.toNat-48)*10^y.length :=
          Nat.mul_le_mul_right _ (by omega)
        rw [Nat.add_mul] at hstep
        have hne : ¬(c.toNat<d.toNat ∨ c.toNat=d.toNat ∧ decimal x<decimal y) := by omega
        simp only [hne,false_iff]
        omega

theorem eq_iff_decimal {x y : List Char} (hlen : x.length=y.length) (hx : ∀c∈x, c.isDigit)
    (hy : ∀c∈y, c.isDigit) : x=y ↔ decimal x=decimal y := by
  refine ⟨congrArg _,?_⟩
  intro he
  have hxy : ¬x<y := by
    rw [lt_iff_decimal hlen hx hy,he]
    exact lt_irrefl _
  have hyx : ¬y<x := by
    rw [lt_iff_decimal hlen.symm hy hx,he]
    exact lt_irrefl _
  exact List.le_antisymm hyx hxy

theorem compare_congr {α β : Type} [LT α] [LT β] [DecidableLT α] [DecidableLT β] [DecidableEq α]
    [DecidableEq β] {a b : α} {x y : β} (hlt : a<b ↔ x<y) (heq : a=b ↔ x=y) :
    compareOfLessAndEq a b=compareOfLessAndEq x y := by
  simp only [compareOfLessAndEq,hlt,heq]

theorem decimal_zeros (n : Nat) : decimal (List.replicate n '0')=0 := by
  induction n with
  | zero => rfl
  | succ n ih => rw [List.replicate_succ',decimal_concat,ih]; rfl

theorem padEnd_digits {n : Nat} (h : ∀c∈l, c.isDigit) : ∀c∈padEnd n l, c.isDigit := by
  intro c hc
  obtain hc | hc := List.mem_append.mp hc
  · exact h c hc
  · rw [List.eq_of_mem_replicate hc]
    rfl

theorem padEnd_length {n : Nat} (h : l.length≤n) : (padEnd n l).length=n := by
  simp only [padEnd,List.length_append,List.length_replicate]
  omega

theorem padEnd_rdropWhile (l : List Char) {n : Nat} (h : l.length≤n) :
    padEnd n (l.rdropWhile (· == '0'))=padEnd n l := by
  have hsplit := List.rdropWhile_append_rtakeWhile (l := l) (p := (· == '0'))
  have hzeros : l.rtakeWhile (· == '0')=List.replicate (l.rtakeWhile (· == '0')).length '0' := by
    apply List.eq_replicate_of_mem
    intro c hc
    simpa using List.mem_rtakeWhile_imp hc
  have hlen := congrArg List.length hsplit
  rw [List.length_append] at hlen
  calc padEnd n (l.rdropWhile (· == '0'))
      = l.rdropWhile (· == '0')++(List.replicate (l.rtakeWhile (· == '0')).length '0'++
          List.replicate (n-l.length) '0') := by
        rw [padEnd,← List.replicate_add]
        congr 2
        omega
    _ = padEnd n l := by
        rw [← hzeros,← List.append_assoc,hsplit,padEnd]

theorem splitClock_text {day clock rest marks : List Char} {mark : Char} (hday : day.length=10)
    (hclock : clock.length=8) (hm : mark∈marks) :
    splitClock marks (day++mark::clock++rest)=some (day,clock,rest) := by
  have hget : (day++mark::clock++rest).getD 10 ' '=mark := by
    rw [List.append_assoc,List.getD_eq_getElem?_getD,List.getElem?_append_right hday.le,hday]
    rfl
  have hlen : 19≤(day++mark::clock++rest).length := by
    simp only [List.length_append,List.length_cons,hday,hclock]
    omega
  have htake : (day++mark::clock++rest).take 10=day := by
    rw [List.append_assoc,List.take_append_of_le_length hday.ge,List.take_of_length_le hday.le]
  have hdrop : (day++mark::clock++rest).drop 11=clock++rest := by
    rw [List.append_assoc,List.drop_append,List.drop_of_length_le (by omega),hday]
    rfl
  have hrest : (day++mark::clock++rest).drop 19=rest := by
    have hadd : (day++mark::clock++rest).drop 19=((day++mark::clock++rest).drop 11).drop 8 := by
      rw [List.drop_drop]
    rw [hadd,hdrop,List.drop_append,List.drop_of_length_le hclock.le,hclock]
    rfl
  rw [splitClock,hget,if_pos ⟨hlen,hm⟩,htake,hrest,hdrop,List.take_append_of_le_length hclock.ge,
    List.take_of_length_le hclock.le]

theorem splitFraction_text {fraction rest points : List Char} (hf : ∀c∈fraction, c.isDigit)
    (hp : '.'∈points) (hr : ∀c∈rest.head?, c.isDigit=false ∧ c∉points) :
    splitFraction points ((if fraction=[] then [] else '.' :: fraction)++rest)=(fraction,rest) := by
  cases fraction with
  | nil =>
    match rest,hr with
    | [],_ => rfl
    | [_],_ => rfl
    | p::c::l,hr =>
      have hno : ¬(p∈points ∧ c.isDigit) := fun h => (hr p rfl).2 h.1
      exact if_neg hno
  | cons c l =>
    have hc : c.isDigit := hf c List.mem_cons_self
    have hrest : rest.takeWhile Char.isDigit=[] ∧ rest.dropWhile Char.isDigit=rest := by
      cases rest with
      | nil => exact ⟨rfl,rfl⟩
      | cons x m => simp [(hr x rfl).1]
    have htake : ((c::l)++rest).takeWhile Char.isDigit=c::l := by
      rw [List.takeWhile_append_of_pos hf,hrest.1,List.append_nil]
    have hdrop : ((c::l)++rest).dropWhile Char.isDigit=rest := by
      rw [List.dropWhile_append_of_pos hf,hrest.2]
    simp only [reduceCtorEq,if_false]
    change splitFraction points ('.' :: c::(l++rest))=_
    rw [splitFraction,if_pos ⟨hp,hc⟩]
    exact Prod.ext htake hdrop

theorem splitClock_some {marks value day clock rest : List Char}
    (h : splitClock marks value=some (day,clock,rest)) :
    ∃mark∈marks, value=day++mark::clock++rest ∧ day.length=10 ∧ clock.length=8 := by
  unfold splitClock at h
  split_ifs at h with hc
  cases h
  have hlen : 10<value.length := by omega
  have hget : value.getD 10 ' '=value[10] := by simp [List.getD_eq_getElem?_getD,hlen]
  refine ⟨value[10],hget ▸ hc.2,?_,?_,?_⟩
  · have hdrop : (value.drop 11).take 8++value.drop 19=value.drop 11 := by
      have hall := List.take_append_drop 8 (value.drop 11)
      rwa [List.drop_drop] at hall
    rw [List.append_assoc,List.cons_append,hdrop,List.cons_getElem_drop_succ,List.take_append_drop]
  · rw [List.length_take]
    omega
  · rw [List.length_take,List.length_drop]
    omega

theorem splitFraction_utc {fraction rest : List Char} (h : splitFraction ['.'] rest=(fraction,['Z'])) :
    rest=(if fraction=[] then [] else '.' :: fraction)++['Z'] ∧ ∀c∈fraction, c.isDigit := by
  match rest,h with
  | [],h => simp [splitFraction] at h
  | [x],h =>
    cases h
    exact ⟨rfl,nofun⟩
  | p::c::l,h =>
    rw [splitFraction] at h
    split_ifs at h with hp
    · obtain ⟨hf,hz⟩ := Prod.mk.inj h
      have hne : fraction≠[] := by
        rw [← hf,List.takeWhile_cons_of_pos hp.2]
        exact List.cons_ne_nil _ _
      have hall := List.takeWhile_append_dropWhile (p := Char.isDigit) (l := c::l)
      rw [hf,hz] at hall
      rw [if_neg hne,← hall,List.mem_singleton.mp hp.1]
      refine ⟨rfl,?_⟩
      intro d hd
      rw [← hf] at hd
      exact List.mem_takeWhile_imp hd
    · cases h

/-- A time in UTC with a capital separator, whatever the number of its digits. -/
structure UtcTime (calendar : Calendar) (value : String) (day clock fraction : List Char)
    (seconds : Int) : Prop where
  text : value.toList=day++ 'T' :: clock++((if fraction=[] then [] else '.' :: fraction)++['Z'])
  day_length : day.length=10
  clock_length : clock.length=8
  digits : ∀c∈fraction, c.isDigit
  known : calendar.seconds day clock=some seconds

variable {calendar : Calendar} {value : String} {day clock fraction : List Char} {seconds : Int}

theorem UtcTime.split (h : UtcTime calendar value day clock fraction seconds) {marks : List Char}
    (hm : 'T'∈marks) : splitClock marks value.toList=
      some (day,clock,(if fraction=[] then [] else '.' :: fraction)++['Z']) := by
  rw [h.text]
  exact splitClock_text h.day_length h.clock_length hm

theorem UtcTime.fraction_split (h : UtcTime calendar value day clock fraction seconds)
    (points : List Char) (hp : '.'∈points) (hz : 'Z'∉points) :
    splitFraction points ((if fraction=[] then [] else '.' :: fraction)++['Z'])=(fraction,['Z']) :=
  splitFraction_text h.digits hp (by simpa using hz)

theorem UtcTime.instant (h : UtcTime calendar value day clock fraction seconds) :
    instant calendar value=.ok ⟨seconds,fraction.rdropWhile (· == '0')⟩ := by
  rw [Contracts.instant,h.split (by simp)]
  simp [h.known,h.fraction_split ['.'] (by simp) (by decide)]

theorem UtcTime.parsed (h : UtcTime calendar value day clock fraction seconds) :
    parseRfc3339 calendar value=some (seconds*1000000000+nanoseconds fraction) := by
  rw [parseRfc3339,h.split (by simp)]
  simp [h.known,h.fraction_split ['.',','] (by simp) (by decide),calendar.utc]

/-- A time that both sides read has the separator of one and the zone of the other. -/
theorem utcTime_of_read {i : Instant} {n : Int} (hi : instant calendar value=.ok i)
    (hp : parseRfc3339 calendar value=some n) :
    ∃day clock fraction seconds, UtcTime calendar value day clock fraction seconds := by
  simp only [parseRfc3339,Option.bind_eq_bind,Option.bind_eq_some_iff] at hp
  obtain ⟨⟨day,clock,rest⟩,hclock,seconds,hknown,-⟩ := hp
  obtain ⟨mark,hmark,htext,hday,htime⟩ := splitClock_some hclock
  obtain rfl := List.mem_singleton.mp hmark
  have hsplit : splitClock ['T','t'] value.toList=some (day,clock,rest) := by
    rw [htext]
    exact splitClock_text hday htime (by simp)
  rw [Contracts.instant,hsplit] at hi
  dsimp only at hi
  split_ifs at hi with hzone
  obtain ⟨hrest,hdigits⟩ := splitFraction_utc (Prod.ext rfl (not_not.mp hzone))
  exact ⟨day,clock,_,seconds,by rw [htext,← hrest],hday,htime,hdigits,hknown⟩

end TuneX.Contracts
