import TuneX.Contracts.Times
import Mathlib.Algebra.Order.Field.Basic
import Mathlib.Data.Rat.Cast.Order
import Mathlib.Data.Rat.Floor
import Mathlib.Tactic.FieldSimp
import Mathlib.Tactic.Linarith
import Mathlib.Tactic.Positivity

namespace TuneX.Contracts

open Agent

def withinLease (calendar : Calendar) (issued valid : String) (leaseSeconds : Int) :
    Except String Bool := do
  let start ← instant calendar issued
  let finish ← instant calendar valid
  pure (start.compare finish == .lt &&
    finish.compare ⟨start.seconds+leaseSeconds,start.fraction⟩ != .gt)

/-- `utcInstant` of the Agent, which has the same regular expression. -/
def utcInstant (calendar : Calendar) (value : String) : Option (Int×List Char) :=
  match splitClock ['T','t'] value.toList with
  | none => none
  | some (date,time,rest) =>
    let fraction := splitFraction ['.'] rest
    if fraction.2≠['Z'] then none
    else (calendar.seconds date time).map fun seconds => (seconds,fraction.1.rdropWhile (· == '0'))

def leapYear (year : Nat) : Bool := year%4==0 && (year%100 != 0 || year%400==0)

def monthDays (year : Nat) : List Nat :=
  [31,if leapYear year then 29 else 28,31,30,31,30,31,31,30,31,30,31]

/-- Seconds since 1970; the month and the day are counted from zero. -/
def civilSeconds (year month day hour minute second : Nat) : Int :=
  let days := 365*year+(year+3)/4-(year+99)/100+(year+399)/400+((monthDays year).take month).sum+day
  ((days : Int)-719528)*86400+(hour*3600+minute*60+second : Nat)

def padded : Nat→Nat→List Char
  | 0,_ => []
  | k+1,n => padded k (n/10)++[Char.ofNat (48+n%10)]

/-- A date with a time of day. A leap second has none. -/
structure Moment where
  year : Fin 10000
  month : Fin 12
  day : Nat
  hour : Fin 24
  minute : Fin 60
  second : Fin 60
  valid : day<(monthDays year).getD month 0

namespace Moment

variable (m : Moment)

def date : List Char :=
  padded 4 m.year++ '-' :: padded 2 (m.month+1)++ '-' :: padded 2 (m.day+1)

def clock : List Char := padded 2 m.hour++ ':' :: padded 2 m.minute++ ':' :: padded 2 m.second

def seconds : Int := civilSeconds m.year m.month m.day m.hour m.minute m.second

end Moment

/-- `Date.parse` and `time.Parse` agree with the Gregorian calendar where it has the date; they
may differ on what else they accept, such as hour 24. -/
def Civil (calendar : Calendar) : Prop :=
  ∀m : Moment, calendar.seconds m.date m.clock=some m.seconds

theorem decimal_padded {k n : Nat} (h : n<10^k) : decimal (padded k n)=n := by
  induction k generalizing n with
  | zero =>
    have hn : n=0 := by simpa using h
    simp [padded,decimal,hn]
  | succ k ih =>
    have hdigit : ∀d<10, (Char.ofNat (48+d)).toNat-48=d := by decide
    have hk : n/10<10^k := by
      rw [Nat.pow_succ] at h
      omega
    rw [padded,decimal_concat,ih hk,hdigit _ (Nat.mod_lt _ (by decide))]
    omega

def gregorian : Calendar where
  seconds date clock :=
    let number (l : List Char) (i k : Nat) := decimal ((l.drop i).take k)
    let year := number date 0 4
    let month := number date 5 2-1
    let day := number date 8 2-1
    if day<(monthDays year).getD month 0 ∧ number clock 0 2<24 ∧ number clock 3 2<60 ∧
        number clock 6 2<60 then
      some (civilSeconds year month day (number clock 0 2) (number clock 3 2) (number clock 6 2))
    else none
  zone text := if text=['Z'] then some 0 else none
  utc := if_pos rfl

theorem monthDays_le (year month : Nat) : (monthDays year).getD month 0≤31 := by
  have hall : ∀n∈monthDays year, n≤31 := by
    unfold monthDays
    split <;> decide
  rw [List.getD_eq_getElem?_getD]
  cases h : (monthDays year)[month]? with
  | none => exact Nat.zero_le _
  | some n => exact hall n (List.mem_of_getElem? h)

theorem gregorian_civil : Civil gregorian := by
  intro m
  have hday := m.valid.trans_le (monthDays_le m.year m.month)
  have hy : decimal ((m.date.drop 0).take 4)=m.year := decimal_padded (k := 4) m.year.2
  have hm : decimal ((m.date.drop 5).take 2)=m.month+1 := decimal_padded (k := 2) (by omega)
  have hd : decimal ((m.date.drop 8).take 2)=m.day+1 := decimal_padded (k := 2) (by omega)
  have hh : decimal ((m.clock.drop 0).take 2)=m.hour := decimal_padded (k := 2) (by omega)
  have hi : decimal ((m.clock.drop 3).take 2)=m.minute := decimal_padded (k := 2) (by omega)
  have hs : decimal ((m.clock.drop 6).take 2)=m.second := decimal_padded (k := 2) (by omega)
  simp only [gregorian,hy,hm,hd,hh,hi,hs,Nat.add_sub_cancel]
  exact if_pos ⟨m.valid,m.hour.2,m.minute.2,m.second.2⟩

def share (l : List Char) : ℚ := decimal l/10^l.length

theorem share_padEnd (n : Nat) (l : List Char) : share (padEnd n l)=share l := by
  have hpow : (10 : ℚ)^(n-l.length)≠0 := pow_ne_zero _ (by norm_num)
  rw [share,share,padEnd,decimal_append,decimal_zeros,List.length_append,List.length_replicate,
    pow_add,Nat.add_zero,Nat.cast_mul,Nat.cast_pow,Nat.cast_ofNat]
  exact mul_div_mul_right _ _ hpow

theorem share_rdropWhile (l : List Char) : share (l.rdropWhile (· == '0'))=share l := by
  rw [← share_padEnd l.length,padEnd_rdropWhile l le_rfl,share_padEnd]

theorem share_nonneg (l : List Char) : 0≤ share l := by
  unfold share
  positivity

theorem share_lt_one {l : List Char} (h : ∀c∈l, c.isDigit) : share l<1 := by
  rw [share,div_lt_one (by positivity)]
  exact_mod_cast decimal_lt h

theorem share_append (a b : List Char) : share (a++b)=share a+share b/10^a.length := by
  unfold share
  rw [decimal_append,List.length_append,pow_add]
  push_cast
  field_simp

theorem nanoseconds_share (l : List Char) : (nanoseconds l : ℚ)=share (l.take 9)*10^9 := by
  have hpow : (10 : ℚ)^9=10^(9-l.length)*10^(l.take 9).length := by
    rw [← pow_add,List.length_take]
    congr 1
    omega
  rw [hpow,share]
  change ((decimal (l.take 9)*10^(9-l.length) : Nat) : ℚ)=_
  push_cast
  field_simp

/-- What the Agent keeps of a time is its whole nanoseconds. -/
theorem nanoseconds_floor {l : List Char} (hl : ∀c∈l, c.isDigit) (n : Int) :
    ⌊((n : ℚ)+share l)*10^9⌋=n*1000000000+nanoseconds l := by
  -- the digits after the ninth are less than a nanosecond
  have hrest : share l*10^9=nanoseconds l+share (l.drop 9) := by
    rw [nanoseconds_share]
    conv_lhs => rw [← List.take_append_drop 9 l,share_append]
    by_cases hlen : 9≤l.length
    · rw [List.length_take,Nat.min_eq_left hlen]
      field_simp
    · rw [List.drop_of_length_le (by omega)]
      simp [share,decimal]
  have hzero := share_nonneg (l.drop 9)
  have hone : share (l.drop 9)<1 := share_lt_one fun c hc => hl c (List.mem_of_mem_drop hc)
  rw [Int.floor_eq_iff,add_mul,hrest]
  push_cast
  constructor <;> linarith

theorem decimal_share {x y : List Char} (hlen : x.length=y.length) :
    (decimal x<decimal y ↔ share x<share y) ∧ (decimal x=decimal y ↔ share x=share y) := by
  have hpow : (0 : ℚ)<10^y.length := by positivity
  rw [share,share,hlen,div_lt_div_iff_of_pos_right hpow,div_left_inj' hpow.ne',Nat.cast_lt,Nat.cast_inj]
  exact ⟨Iff.rfl,Iff.rfl⟩

namespace Instant

def exact (i : Instant) : ℚ := i.seconds+share i.fraction

variable {a b : Instant}

theorem exact_lt (hb : ∀c∈a.fraction, c.isDigit) (h : a.seconds<b.seconds) : a.exact<b.exact := by
  have hstep : (a.seconds : ℚ)+1≤b.seconds := by exact_mod_cast h
  have hone := share_lt_one hb
  have hzero := share_nonneg b.fraction
  unfold exact
  linarith

theorem compare_exact (ha : ∀c∈a.fraction, c.isDigit) (hb : ∀c∈b.fraction, c.isDigit) :
    a.compare b=compareOfLessAndEq a.exact b.exact := by
  unfold Instant.compare
  by_cases hs : a.seconds=b.seconds
  · rw [if_neg (not_not.mpr hs)]
    have hlen : (padEnd (max a.fraction.length b.fraction.length) a.fraction).length=
        (padEnd (max a.fraction.length b.fraction.length) b.fraction).length := by
      rw [padEnd_length (le_max_left _ _),padEnd_length (le_max_right _ _)]
    have hshare := decimal_share hlen
    rw [share_padEnd,share_padEnd] at hshare
    apply compare_congr
    · rw [lt_iff_decimal hlen (padEnd_digits ha) (padEnd_digits hb),hshare.1,exact,exact,hs]
      exact (add_lt_add_iff_left _).symm
    · rw [eq_iff_decimal hlen (padEnd_digits ha) (padEnd_digits hb),hshare.2,exact,exact,hs]
      exact (add_right_inj _).symm
  · rw [if_pos hs]
    -- the fractions are less than a second and do not count
    apply compare_congr
    · refine ⟨exact_lt ha,fun h => ?_⟩
      by_contra hle
      exact lt_asymm h (exact_lt hb (lt_of_le_of_ne (not_lt.mp hle) (Ne.symm hs)))
    · refine ⟨fun h => absurd h hs,fun h => ?_⟩
      rcases lt_or_gt_of_ne hs with hlt | hgt
      · exact absurd h (exact_lt ha hlt).ne
      · exact absurd h (exact_lt hb hgt).ne'

theorem compare_library {lib : Library} {left right : String}
    (hl : lib.utcInstant left=some (a.seconds,a.fraction))
    (hr : lib.utcInstant right=some (b.seconds,b.fraction)) :
    lib.compareTimes left right=some (a.compare b) := by
  unfold Library.compareTimes Instant.compare compareOfLessAndEq
  rw [hl,hr]
  rcases lt_trichotomy a.seconds b.seconds with hlt | he | hgt
  · simp [hlt,hlt.ne]
  · simp only [he,lt_irrefl,if_false,ne_eq,not_true_eq_false]
    rfl
  · simp [hgt,hgt.ne',hgt.not_gt]

end Instant

/-- A timestamp in UTC with any number of digits. -/
structure Stamp where
  moment : Moment
  mark : Char
  fraction : List Char
  marked : mark∈['T','t']
  digits : ∀c∈fraction, c.isDigit

namespace Stamp

def text (x : Stamp) : String :=
  String.ofList (x.moment.date++x.mark::x.moment.clock++
    ((if x.fraction=[] then [] else '.' :: x.fraction)++['Z']))

/-- The instant that the text writes. -/
def exact (x : Stamp) : ℚ := x.moment.seconds+share x.fraction

/-- The same timestamp with more zeros at its end. -/
def zeros (x : Stamp) (k : Nat) : Stamp where
  moment := x.moment
  mark := x.mark
  fraction := x.fraction++List.replicate k '0'
  marked := x.marked
  digits := by
    intro c hc
    obtain hc | hc := List.mem_append.mp hc
    · exact x.digits c hc
    · rw [List.eq_of_mem_replicate hc]
      rfl

/-- What is left of a timestamp after its calendar. -/
def instant (x : Stamp) : Instant := ⟨x.moment.seconds,x.fraction.rdropWhile (· == '0')⟩

variable {calendar : Calendar} (x y : Stamp)

theorem instant_digits : ∀c∈x.instant.fraction, c.isDigit :=
  fun c hc => x.digits c ((List.rdropWhile_prefix _ _).subset hc)

theorem instant_exact : x.instant.exact=x.exact := by
  rw [Instant.exact,exact,instant,share_rdropWhile]

theorem exact_zeros (k : Nat) : (x.zeros k).exact=x.exact := by
  have hpad : x.fraction++List.replicate k '0'=padEnd (x.fraction.length+k) x.fraction := by
    rw [padEnd,Nat.add_sub_cancel_left]
  have hshare : share (x.fraction++List.replicate k '0')=share x.fraction := by
    rw [hpad,share_padEnd]
  exact congrArg ((x.moment.seconds : ℚ)+·) hshare

theorem split : splitClock ['T','t'] x.text.toList=some (x.moment.date,x.moment.clock,
    (if x.fraction=[] then [] else '.' :: x.fraction)++['Z']) := by
  rw [text,String.toList_ofList]
  exact splitClock_text rfl rfl x.marked

theorem fraction_split : splitFraction ['.'] ((if x.fraction=[] then [] else '.' :: x.fraction)++['Z'])=
    (x.fraction,['Z']) :=
  splitFraction_text x.digits (by simp) (by simp)

theorem read (h : Civil calendar) : Contracts.instant calendar x.text=.ok x.instant := by
  rw [Contracts.instant,x.split]
  simp [x.fraction_split,h x.moment,instant]

theorem read_library (h : Civil calendar) :
    utcInstant calendar x.text=some (x.instant.seconds,x.instant.fraction) := by
  rw [utcInstant,x.split]
  simp [x.fraction_split,h x.moment,instant]

theorem compareTimes_exact (h : Civil calendar) :
    compareTimes calendar x.text y.text=.ok (compareOfLessAndEq x.exact y.exact) := by
  have hcompare := Instant.compare_exact x.instant_digits y.instant_digits
  rw [x.instant_exact,y.instant_exact] at hcompare
  rw [compareTimes,x.read h,y.read h,← hcompare]
  rfl

theorem withinLease_exact (h : Civil calendar) (n : Int) :
    withinLease calendar x.text y.text n=.ok (decide (x.exact<y.exact ∧ y.exact≤x.exact+n)) := by
  let limit : Instant := ⟨x.instant.seconds+n,x.instant.fraction⟩
  have hlimit : limit.exact=x.exact+n := by
    rw [← x.instant_exact]
    simp only [limit,Instant.exact,Int.cast_add]
    ring
  have hstart := Instant.compare_exact x.instant_digits y.instant_digits
  have hend := Instant.compare_exact (b := limit) y.instant_digits x.instant_digits
  rw [x.instant_exact,y.instant_exact] at hstart
  rw [y.instant_exact,hlimit] at hend
  rw [withinLease,x.read h,y.read h]
  change Except.ok (x.instant.compare y.instant == .lt && y.instant.compare limit != .gt)=_
  rw [hstart,hend,Bool.decide_and]
  have hlt : ∀p q : ℚ, (compareOfLessAndEq p q == .lt)=decide (p<q) := by
    intro p q
    unfold compareOfLessAndEq
    split_ifs <;> simp_all
  have hle : ∀p q : ℚ, (compareOfLessAndEq p q != .gt)=decide (p≤q) := by
    intro p q
    unfold compareOfLessAndEq
    split_ifs with hpq he
    · simp [hpq.le]
    · simp [he]
    · simp [lt_of_le_of_ne (not_lt.mp hpq) (Ne.symm he)]
  rw [hlt,hle]

end Stamp

/-- Both programs compare two timestamps as the instants they write, and the lease is exact. -/
structure ComparedExactly (js : Calendar) (lib : Library) (x y : Stamp) : Prop where
  order : compareTimes js x.text y.text=.ok (compareOfLessAndEq x.exact y.exact)
  agent : lib.compareTimes x.text y.text=some (compareOfLessAndEq x.exact y.exact)
  zeros : ∀k, compareTimes js x.text (x.zeros k).text=.ok .eq
  lease : ∀n : Int, withinLease js x.text y.text n=
    .ok (decide (x.exact<y.exact ∧ y.exact≤x.exact+n))

theorem timestamps_exact (js go : Calendar) (hjs : Civil js) (hgo : Civil go) (lib : Library)
    (hlib : ∀value, lib.utcInstant value=utcInstant go value) (x y : Stamp) :
    ComparedExactly js lib x y := by
  refine ⟨x.compareTimes_exact y hjs,?_,?_,x.withinLease_exact y hjs⟩
  · have hx := (hlib x.text).trans (x.read_library hgo)
    have hy := (hlib y.text).trans (y.read_library hgo)
    rw [Instant.compare_library hx hy,Instant.compare_exact x.instant_digits y.instant_digits,
      x.instant_exact,y.instant_exact]
  · intro k
    rw [x.compareTimes_exact _ hjs,x.exact_zeros]
    simp [compareOfLessAndEq]

namespace Stamp

def newYear : Moment := ⟨⟨2026,by omega⟩,0,0,0,0,0,by decide⟩

def half : Stamp := ⟨newYear,'T',['5'],by simp,by simp⟩

def longer : Stamp := ⟨newYear,'t',['5','0','0','0','0','0','0','0','0','0','1'],by simp,by simp⟩

def library : Library :=
  ⟨fun _ => "",fun _ => true,fun _ => true,fun _ => none,fun _ => none,utcInstant gregorian⟩

end Stamp

open Stamp in
theorem timestamps_exact_longer : half.text="2026-01-01T00:00:00.5Z" ∧
    ComparedExactly gregorian library half longer :=
  ⟨by decide +kernel,
    timestamps_exact gregorian gregorian gregorian_civil gregorian_civil library (fun _ => rfl) half longer⟩

end TuneX.Contracts
