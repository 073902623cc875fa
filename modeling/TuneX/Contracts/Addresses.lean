import TuneX.Contracts.Literals
import TuneX.Contracts.TransitParsers

namespace TuneX.Contracts

open Agent

/-- How many groups are zero from one of them on. -/
def zeroRun (words : List Nat) (start : Nat) : Nat := ((words.drop start).takeWhile (·==0)).length

/-- The leftmost of the longest runs of zero groups. -/
structure LongestRun (words : List Nat) (start : Nat) : Prop where
  most : ∀s, zeroRun words s ≤ zeroRun words start
  first : ∀s<start, zeroRun words s<zeroRun words start

/-- A group in lower case without a leading zero. -/
def ShortGroup (group : List Char) (word : Nat) : Prop :=
  Group group ∧ hexWord group=word ∧ (∀c∈group, c.isUpper=false) ∧
    (group.head?=some '0' → group.length=1)

/-- The text of RFC 5952, and the dotted text of an IPv4 address. -/
inductive Rfc5952 : List Nat→List Char→Prop
  | v4 {bytes : List Nat} {text : List Char} (h : Dotted text bytes) : Rfc5952 bytes text
  | mapped {bytes : List Nat} {tail : List Char} (hm : mapped bytes) (h : Dotted tail (bytes.drop 12)) :
    Rfc5952 bytes ("::ffff:".toList++tail)
  | full {words : List Nat} {groups : List (List Char)} (hlen : words.length=8)
      (hm : ¬mapped (wordBytes words)) (hrun : ∀s, zeroRun words s≤1) (hg : List.Forall₂ ShortGroup groups words) :
    Rfc5952 (wordBytes words) (colons groups)
  | compressed {words : List Nat} {left right : List (List Char)} {start : Nat}
      (hlen : words.length=8) (hm : ¬mapped (wordBytes words)) (hlongest : LongestRun words start)
      (hrun : 2≤zeroRun words start) (hl : List.Forall₂ ShortGroup left (words.take start))
      (hr : List.Forall₂ ShortGroup right (words.drop (start+zeroRun words start))) :
    Rfc5952 (wordBytes words) (colons left++ ':' :: ':' :: colons right)

theorem hexWord_toDigits (w : Nat) : hexWord (Nat.toDigits 16 w)=w := by
  induction w using Nat.strong_induction_on with
  | _ w ih =>
    have hdigit : ∀d<16, hexValue (Nat.digitChar d)=d := by decide
    rw [Nat.toDigits_eq_if (by decide)]
    split_ifs with h
    · simpa [hexWord] using hdigit w h
    · have hstep : hexWord (Nat.toDigits 16 (w/16)++[Nat.digitChar (w%16)])=
          16*hexWord (Nat.toDigits 16 (w/16))+hexValue (Nat.digitChar (w%16)) := by
        simp [hexWord,List.foldl_append]
      rw [hstep,ih (w/16) (by omega),hdigit _ (Nat.mod_lt _ (by decide))]
      omega

theorem toDigits_lower (w : Nat) : ∀c∈Nat.toDigits 16 w, hexDigit c ∧ c.isUpper=false := by
  induction w using Nat.strong_induction_on with
  | _ w ih =>
    have hdigit : ∀d<16, hexDigit (Nat.digitChar d) ∧ (Nat.digitChar d).isUpper=false := by decide
    intro c hc
    rw [Nat.toDigits_eq_if (by decide)] at hc
    split_ifs at hc with h
    · rw [List.mem_singleton.mp hc]
      exact hdigit w h
    · rcases List.mem_append.mp hc with hc | hc
      · exact ih (w/16) (by omega) c hc
      · rw [List.mem_singleton.mp hc]
        exact hdigit _ (Nat.mod_lt _ (by decide))

theorem toDigits_zero_head (w : Nat) (h : (Nat.toDigits 16 w).head?=some '0') : w=0 := by
  induction w using Nat.strong_induction_on with
  | _ w ih =>
    have hdigit : ∀d<16, Nat.digitChar d= '0'→d=0 := by decide
    rw [Nat.toDigits_eq_if (by decide)] at h
    split_ifs at h with hw
    · exact hdigit w hw (by simpa using h)
    · rw [List.head?_append_of_ne_nil _ Nat.toDigits_ne_nil] at h
      have hzero := ih (w/16) (by omega) h
      omega

theorem shortGroup_toDigits {w : Nat} (h : w<65536) : ShortGroup (Nat.toDigits 16 w) w := by
  refine ⟨⟨fun c hc => (toDigits_lower w c hc).1,Nat.length_toDigits_pos,?_⟩,hexWord_toDigits w,
    fun c hc => (toDigits_lower w c hc).2,?_⟩
  · exact (Nat.length_toDigits_le_iff (by decide) (by decide)).mpr h
  · intro hhead
    rw [toDigits_zero_head w hhead]
    rfl

variable {words : List Nat} {text : String} {host : List Char}

theorem shortGroups_toDigits (h : ∀w∈words, w<65536) :
    List.Forall₂ ShortGroup (words.map fun w => Nat.toDigits 16 w) words := by
  rw [List.forall₂_map_left_iff,List.forall₂_same]
  exact fun w hw => shortGroup_toDigits (h w hw)

variable {bytes : List Nat}

theorem dotted_text (hlen : bytes.length=4) (h : ∀n∈bytes, n<256) :
    Dotted (dotted bytes) bytes := by
  have hoctet : ∀n<256, octet (Nat.toDigits 10 n)=some n := by decide +kernel
  refine ⟨bytes.map fun b => Nat.toDigits 10 b,rfl,by simpa using hlen,?_⟩
  rw [List.forall₂_map_left_iff,List.forall₂_same]
  exact fun n hn => octet_some.mp (hoctet n (h n hn))

theorem wordBytes_ipWords (heven : bytes.length%2=0) (h : ∀n∈bytes, n<256) :
    wordBytes (ipWords bytes)=bytes ∧ ∀w∈ipWords bytes, w<65536 := by
  induction bytes using ipWords.induct with
  | case1 a b l ih =>
    have ha := h a (by simp)
    have hb := h b (by simp)
    have hlen : l.length%2=0 := by
      simp only [List.length_cons] at heven
      omega
    obtain ⟨hl,hsmall⟩ := ih hlen fun n hn => h n (by simp [hn])
    refine ⟨?_,?_⟩
    · have hhigh : (256*a+b)/256=a := by omega
      have hlow : (256*a+b)%256=b := by omega
      have hcons : wordBytes (ipWords (a::b::l))=[(256*a+b)/256,(256*a+b)%256]++wordBytes (ipWords l) := rfl
      rw [hcons,hl,hhigh,hlow]
      rfl
    · intro w hw
      rcases List.mem_cons.mp hw with rfl | hw
      · omega
      · exact hsmall w hw
  | case2 l hl =>
    match l,hl with
    | [],_ => exact ⟨rfl,by simp [ipWords]⟩
    | [a],_ => simp at heven
    | a::b::l,hl => exact absurd rfl (hl a b l)

theorem bestRun_spec (l : List Nat) (i : Nat) (best : Nat×Nat) :
    (bestRun i best l=best ∧ ∀s, zeroRun l s ≤ best.2) ∨
      ∃s, bestRun i best l=(i+s,zeroRun l s) ∧ best.2<zeroRun l s ∧ LongestRun l s := by
  induction l generalizing i best with
  | nil => exact .inl ⟨rfl,fun s => by simp [zeroRun]⟩
  | cons w l ih =>
    have hsucc : ∀s, zeroRun (w::l) (s+1)=zeroRun l s := fun _ => rfl
    have hstep : bestRun i best (w::l)=
        bestRun (i+1) (if best.2<zeroRun (w::l) 0 then (i,zeroRun (w::l) 0) else best) l := rfl
    -- the runs of the rest follow the one that starts here
    have hlater : ∀s, zeroRun (w::l) 0<zeroRun l s → LongestRun l s → LongestRun (w::l) (s+1) := by
      intro s hlt h
      refine ⟨fun k => ?_,fun k hk => ?_⟩
      · cases k with
        | zero => exact hlt.le
        | succ k => exact h.most k
      · cases k with
        | zero => exact hlt
        | succ k => exact h.first k (by omega)
    rw [hstep]
    split_ifs with hbest
    · rcases ih (i+1) (i,zeroRun (w::l) 0) with ⟨he,hall⟩ | ⟨s,he,hlt,hlong⟩
      · refine .inr ⟨0,he,hbest,fun k => ?_,fun k hk => absurd hk (Nat.not_lt_zero k)⟩
        cases k with
        | zero => exact le_rfl
        | succ k => exact hall k
      · refine .inr ⟨s+1,?_,hbest.trans hlt,hlater s hlt hlong⟩
        rw [he,hsucc,Nat.add_right_comm]
        rfl
    · rcases ih (i+1) best with ⟨he,hall⟩ | ⟨s,he,hlt,hlong⟩
      · refine .inl ⟨he,fun k => ?_⟩
        cases k with
        | zero => exact not_lt.mp hbest
        | succ k => exact hall k
      · refine .inr ⟨s+1,?_,hlt,hlater s ((not_lt.mp hbest).trans_lt hlt) hlong⟩
        rw [he,hsucc,Nat.add_right_comm]
        rfl

theorem words_split (words : List Nat) (start : Nat) :
    words.take start++List.replicate (zeroRun words start) 0++words.drop (start+zeroRun words start)=
      words := by
  have hzeros : (words.drop start).takeWhile (·==0)=List.replicate (zeroRun words start) 0 := by
    apply List.eq_replicate_of_mem
    intro w hw
    simpa using List.mem_takeWhile_imp hw
  have hcat := List.takeWhile_append_dropWhile (p := (·==0)) (l := words.drop start)
  have hrest : words.drop (start+zeroRun words start)=(words.drop start).dropWhile (·==0) := by
    calc words.drop (start+zeroRun words start)
        = (words.drop start).drop (zeroRun words start) := by rw [List.drop_drop]
      _ = ((words.drop start).takeWhile (·==0)++(words.drop start).dropWhile (·==0)).drop
          (zeroRun words start) := by rw [hcat]
      _ = (words.drop start).dropWhile (·==0) := List.drop_left' rfl
  rw [hrest,← hzeros,List.append_assoc,hcat,List.take_append_drop]

theorem ipText_rfc5952 (hlen : bytes.length=4 ∨ bytes.length=16)
    (h : ∀n∈bytes, n<256) : Rfc5952 bytes (ipText bytes).toList := by
  unfold ipText
  split_ifs with h4 hm
  · rw [String.toList_ofList]
    exact .v4 (dotted_text h4 h)
  · rw [String.toList_ofList]
    refine .mapped hm (dotted_text ?_ fun n hn => h n (List.mem_of_mem_drop hn))
    rw [List.length_drop]
    omega
  · obtain ⟨hwords,hsmall⟩ := wordBytes_ipWords (by omega) h
    have hcount : (ipWords bytes).length=8 := by
      have hbytes := congrArg List.length hwords
      rw [wordBytes_length] at hbytes
      omega
    rw [← hwords] at hm
    dsimp only
    rcases bestRun_spec (ipWords bytes) 0 (0,1) with ⟨he,hall⟩ | ⟨s,he,hlt,hlong⟩
    · rw [he,if_pos rfl,String.toList_ofList]
      have hfull := Rfc5952.full hcount hm hall (shortGroups_toDigits hsmall)
      rwa [hwords] at hfull
    · rw [he,if_neg (Nat.ne_of_gt hlt),String.toList_ofList,Nat.zero_add]
      have hcut := Rfc5952.compressed hcount hm hlong hlt
        (shortGroups_toDigits fun w hw => hsmall w (List.mem_of_mem_take hw))
        (shortGroups_toDigits fun w hw => hsmall w (List.mem_of_mem_drop hw))
      rw [hwords] at hcut
      simpa [joinWords,colons] using hcut

theorem groups_words {groups : List (List Char)} (h : List.Forall₂ ShortGroup groups words) :
    (∀g∈groups, Group g) ∧ groups.map hexWord=words := by
  induction h with
  | nil => exact ⟨by simp,rfl⟩
  | cons hg _ ih =>
    refine ⟨?_,?_⟩
    · rintro x (_ | ⟨_,hx⟩)
      · exact hg.1
      · exact ih.1 x hx
    · rw [List.map_cons,hg.2.1,ih.2]

theorem Rfc5952.literal {text : List Char} (h : Rfc5952 bytes text) : Literal text bytes := by
  cases h with
  | v4 h => exact .v4 h
  | @mapped _ tail hm h =>
    match hd : bytes.drop 12,h.length,h.small,h with
    | [a,b,c,d],_,hsmall,h =>
      have hb : b<256 := hsmall b (by simp)
      have hd' : d<256 := hsmall d (by simp)
      have ha : a<256 := hsmall a (by simp)
      have hc : c<256 := hsmall c (by simp)
      have hbytes : bytes=List.replicate 10 0++[255,255]++[a,b,c,d] := by
        rw [← hd,← beq_iff_eq.mp hm,List.take_append_drop]
      have hgroups : ∀g∈([]++[['f','f','f','f'],Nat.toDigits 16 (256*a+b),Nat.toDigits 16 (256*c+d)] :
          List (List Char)), Group g := by
        intro g hg
        simp only [List.nil_append,List.mem_cons,List.not_mem_nil,or_false] at hg
        rcases hg with rfl | rfl | rfl
        · exact (shortGroup_toDigits (w := 65535) (by decide)).1
        · exact (shortGroup_toDigits (by omega)).1
        · exact (shortGroup_toDigits (by omega)).1
      have hgrouped := Grouped.compressed [] _ hgroups (by simp)
      have hwords : wordBytes ([].map hexWord++List.replicate (8-(0+3)) 0++
          [['f','f','f','f'],Nat.toDigits 16 (256*a+b),Nat.toDigits 16 (256*c+d)].map hexWord)=bytes := by
        have h1 : (256*a+b)/256=a := by omega
        have h2 : (256*a+b)%256=b := by omega
        have h3 : (256*c+d)/256=c := by omega
        have h4 : (256*c+d)%256=d := by omega
        have hf : hexWord ['f','f','f','f']=65535 := by decide
        rw [hbytes]
        simp [wordBytes,hexWord_toDigits,hf,h1,h2,h3,h4,List.replicate]
      rw [show ([] : List (List Char)).length=0 from rfl] at hgrouped
      have htext : Grouped ("::ffff".toList++ ':' :: (Nat.toDigits 16 (256*a+b)++ ':' ::
          Nat.toDigits 16 (256*c+d))) bytes := by
        rw [← hwords]
        simpa [colons,List.intercalate_cons_cons] using hgrouped
      exact @Literal.embedded "::ffff".toList tail a b c d bytes h htext
  | full hlen hm hrun hg =>
    obtain ⟨hgroup,rfl⟩ := groups_words hg
    exact .v6 (.full _ hgroup (by simpa using hlen))
  | @compressed words left right start hlen hm hlongest hrun hl hr =>
    obtain ⟨hgl,hwl⟩ := groups_words hl
    obtain ⟨hgr,hwr⟩ := groups_words hr
    have hsplit := words_split words start
    have hcount := congrArg List.length hsplit
    simp only [List.length_append,List.length_replicate,hlen,← hl.length_eq,← hr.length_eq] at hcount
    have hgrouped := Grouped.compressed left right
      (fun g hg => (List.mem_append.mp hg).elim (hgl g) (hgr g)) (by omega)
    have hzeros : 8-(left.length+right.length)=zeroRun words start := by omega
    rw [hzeros,hwl,hwr,hsplit] at hgrouped
    exact .v6 hgrouped

theorem ipBytes_ipText (hlen : bytes.length=4 ∨ bytes.length=16)
    (h : ∀n∈bytes, n<256) : ipBytes (ipText bytes)=some bytes :=
  ipBytes_iff.mpr (ipText_rfc5952 hlen h).literal

theorem normalizeIp_some (h : ipBytes text=some bytes) :
    normalizeIp text=some (ipText bytes) ∧ ipBytes (ipText bytes)=some bytes ∧
      Rfc5952 bytes (ipText bytes).toList := by
  have hliteral := ipBytes_iff.mp h
  refine ⟨?_,ipBytes_ipText hliteral.length hliteral.small,
    ipText_rfc5952 hliteral.length hliteral.small⟩
  rw [normalizeIp,h,Option.map_some]

/-- One text for each address. -/
structure NormalForm (s t : String) (b c : List Nat) : Prop where
  text : ∃text, normalizeIp s=some text ∧ ipBytes text=some b ∧ normalizeIp text=some text ∧
    Rfc5952 b text.toList
  same : normalizeIp s=normalizeIp t ↔ b=c
  accepted : ∀text bytes, ipBytes text=some bytes ↔ Literal text.toList bytes

theorem normalizeIp_canonical (s t : String) (b c : List Nat) (hs : ipBytes s=some b)
    (ht : ipBytes t=some c) : NormalForm s t b c := by
  obtain ⟨hn,hread,hform⟩ := normalizeIp_some hs
  obtain ⟨hm,hread',-⟩ := normalizeIp_some ht
  refine ⟨⟨ipText b,hn,hread,(normalizeIp_some hread).1,hform⟩,?_,fun _ _ => ipBytes_iff⟩
  rw [hn,hm,Option.some.injEq]
  constructor
  · intro he
    rw [he,hread'] at hread
    exact (Option.some.inj hread).symm
  · rintro rfl
    rfl

theorem normalizeIp_canonical_loopback :
    NormalForm "0:0::1" "::0001" (List.replicate 15 0++[1]) (List.replicate 15 0++[1]) :=
  normalizeIp_canonical "0:0::1" "::0001" _ _ (by decide +kernel) (by decide +kernel)

theorem lower_of_not_upper {c : Char} (h : c.isUpper=false) : c.toLower=c := by
  unfold Char.toLower
  delta Char.isUpper at h
  grind

theorem hostLabels_lower (h : Library.hostLabels host) : ∀c∈host, c≠ ':' ∧ c.toLower=c := by
  intro c hc
  rcases hostLabels_char h c hc with rfl | hlower | hdigit | rfl
  · decide
  · refine ⟨fun h => by simp [h] at hlower,?_⟩
    exact lower_of_not_upper (by delta Char.isLower Char.isUpper at hlower ⊢; grind)
  · refine ⟨fun h => by simp [h] at hdigit,?_⟩
    exact lower_of_not_upper (by delta Char.isDigit Char.isUpper at hdigit ⊢; grind)
  · decide

theorem hostLabels_last (h : Library.hostLabels host) : host.getLast?≠some '.' := by
  intro hlast
  obtain ⟨front,rfl⟩ := List.getLast?_eq_some_iff.mp hlast
  have hempty : []∈(front++['.']).splitOn '.' := by
    rw [List.splitOn_append_cons_self]
    simp
  have hl := List.all_eq_true.mp h [] hempty
  simp [Library.hostLabel] at hl

/-- A name that a host is brought to is no literal and is brought to itself. -/
theorem normalizeTargetHost_name (hlen : ¬253<host.length) (hnumeric : ¬Library.numericHost host)
    (hlabels : Library.hostLabels host) :
    normalizeTargetHost (String.ofList host)=some (String.ofList host) := by
  have hne : host≠[] := by
    rintro rfl
    exact hnumeric rfl
  have hcolon : ':'∉host := fun hc => (hostLabels_lower hlabels _ hc).1 rfl
  have hnone : ipBytes (String.ofList host)=none := by
    rw [Option.eq_none_iff_forall_ne_some]
    intro bytes hb
    rw [ipBytes_iff,String.toList_ofList] at hb
    cases hb with
    | v4 h =>
      refine hnumeric (List.all_eq_true.mpr fun c hc => ?_)
      rcases h.chars c hc with hd | rfl
      · simp [hd]
      · rfl
    | v6 h => exact hcolon h.colon
    | embedded _ _ => exact hcolon (by simp)
  have hlower : host.map Char.toLower=host := by
    have hid : host.map Char.toLower=host.map id :=
      List.map_congr_left fun c hc => (hostLabels_lower hlabels c hc).2
    simpa using hid
  unfold normalizeTargetHost
  rw [hnone,String.toList_ofList,if_neg]
  · simp only [hlower,if_neg (hostLabels_last hlabels)]
    exact if_neg (by simp [hlen,hnumeric,hlabels])
  · simpa [hne] using hostLabels_chars hlabels

theorem normalizeTargetHost_literal (h : ipBytes text=some bytes) (hu : ¬unspecified bytes) :
    normalizeTargetHost (ipText bytes)=some (ipText bytes) := by
  have hread := (normalizeIp_some h).2.1
  have hne : (ipText bytes).toList≠[] := by
    intro he
    simp [ipBytes,ipv4Bytes,he] at hread
  unfold normalizeTargetHost
  rw [hread,if_neg (by simpa [hne] using ipBytes_chars hread)]
  exact if_neg hu

theorem normalizeTargetHost_idem {s t : String} (h : normalizeTargetHost s=some t) :
    normalizeTargetHost t=some t := by
  unfold normalizeTargetHost at h
  rw [Option.ite_none_left_eq_some] at h
  cases hb : ipBytes s with
  | some bytes =>
    rw [hb] at h
    obtain ⟨hu,he⟩ := Option.ite_none_left_eq_some.mp h.2
    cases he
    exact normalizeTargetHost_literal hb hu
  | none =>
    rw [hb] at h
    obtain ⟨hbad,he⟩ := Option.ite_none_left_eq_some.mp h.2
    cases he
    simp only [not_or,not_not] at hbad
    exact normalizeTargetHost_name hbad.1 hbad.2.1 hbad.2.2

/-- The three programs have one notion of a canonical host. -/
structure HostsAgree (lib : Library) (s : String) : Prop where
  canonical : normalizeTargetHost s=some s ↔ lib.canonicalHost s
  relay : lib.canonicalHost s ↔ lib.relayHost s
  fixed : ∀t, normalizeTargetHost s=some t → normalizeTargetHost t=some t
  refused : (∃c∈s.toList, 127<c.toNat)→normalizeTargetHost s=none ∧ lib.normalizedHost s=none ∧
    lib.canonicalHost s=false ∧ lib.relayHost s=false

theorem hosts_agree (lib : Library) (h : NetipExact lib) (s : String) : HostsAgree lib s := by
  have hrelay := h.relayHost_iff s
  have hcanonical : normalizeTargetHost s=some s ↔ lib.canonicalHost s :=
    ⟨h.toNetip.canonicalHost,fun hc => hrelay.mp (canonicalHost_relay hc)⟩
  refine ⟨hcanonical,hcanonical.symm.trans hrelay.symm,fun t => normalizeTargetHost_idem,?_⟩
  rintro ⟨c,hc,hlarge⟩
  have hnone : normalizeTargetHost s=none := by
    unfold normalizeTargetHost
    refine if_pos (by
      simp only [Bool.or_eq_true,List.any_eq_true]
      refine .inr ⟨c,hc,?_⟩
      rw [Bool.not_eq_true',Bool.eq_false_iff]
      intro hchar
      have hsmall := hostChar_ascii hchar
      omega)
  have hgo : lib.normalizedHost s=none :=
    if_pos (List.any_eq_true.mpr ⟨c,hc,decide_eq_true hlarge⟩)
  refine ⟨hnone,hgo,?_,?_⟩
  · rw [Bool.eq_false_iff,ne_eq,← hcanonical,hnone]
    simp
  · rw [Bool.eq_false_iff,ne_eq,hrelay,hnone]
    simp

theorem hosts_agree_name : HostsAgree TransitSample.library.toLibrary "example.com" :=
  hosts_agree TransitSample.library.toLibrary TransitSample.library_exact "example.com"

end TuneX.Contracts
