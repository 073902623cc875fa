import TuneX.Agent.Egress
import TuneX.Contracts.Literals
import Mathlib.Data.Nat.Bitwise
import Mathlib.Tactic.Positivity
import Mathlib.Tactic.Ring

namespace TuneX.Contracts

open Agent (Egress.Addr Egress.Prefix Egress.Netip Egress.sensitivePrefixes Egress.allowed)

def unmap (bytes : List Nat) : List Nat :=
  if bytes.length=16 ∧ mapped bytes then bytes.drop 12 else bytes

/-- The bits of a byte that a prefix length covers. -/
def prefixMask (bits index : Nat) : Nat :=
  let used := min 8 (bits-8*index)
  if used=0 then 0 else 255<<<(8-used)

/-- `Number` of a prefix length. Policies hold plain decimals; without a length it is no number
and every mask is empty. -/
def prefixBits (parts : List (List Char)) : Nat :=
  match parts with
  | _::length::_ => if plainDecimal length then decimal length else 0
  | _ => 0

def contains (cidr : String) (bytes : List Nat) : Bool :=
  let parts := cidr.toList.splitOn '/'
  match ipBytes (String.ofList (parts.headD [])) with
  | none => false
  | some address =>
    decide (address.length=bytes.length) && (address.zip bytes).zipIdx.all fun e =>
      e.1.1 &&& prefixMask (prefixBits parts) e.2==e.1.2 &&& prefixMask (prefixBits parts) e.2

def metadata : List String :=
  ["169.254.0.0/16","100.100.100.200/32","fd00:ec2::254/128","fe80::/10"]

def targetAllowed (host : String) (cidrs : List String) (allowMetadata : Bool) : Bool :=
  match ipBytes host with
  | none => true
  | some literal =>
    let bytes := unmap literal
    if bytes.all (·==0) then false
    else if !allowMetadata && metadata.any (contains · bytes) then false
    else if bytes.length=4 ∧ 224 ≤ bytes.headD 0 ∨ bytes.length=16 ∧ bytes.headD 0=255 then false
    else cidrs.any (contains · bytes)

def value (bytes : List Nat) : Nat := bytes.foldl (fun n b => 256*n+b) 0

def Small (bytes : List Nat) : Prop := ∀b∈bytes, b<256

theorem value_foldl (n : Nat) (bytes : List Nat) :
    bytes.foldl (fun n b => 256*n+b) n=n*256^bytes.length+value bytes := by
  induction bytes generalizing n with
  | nil => simp [value]
  | cons b bytes ih =>
    rw [value,List.foldl_cons,List.foldl_cons,ih,ih (256*0+b),List.length_cons,pow_succ]
    ring

theorem value_cons (b : Nat) (bytes : List Nat) :
    value (b::bytes)=b*256^bytes.length+value bytes := by
  rw [value,List.foldl_cons,value_foldl]
  simp

theorem value_append (x y : List Nat) : value (x++y)=value x*256^y.length+value y := by
  rw [value,List.foldl_append,value_foldl]
  rfl

variable {bytes : List Nat}

theorem value_lt (h : Small bytes) : value bytes<256^bytes.length := by
  induction bytes with
  | nil => simp [value]
  | cons b bytes ih =>
    have hb := h b List.mem_cons_self
    have htail := ih fun x hx => h x (List.mem_cons_of_mem _ hx)
    rw [value_cons,List.length_cons,pow_succ]
    have hstep : b*256^bytes.length≤255*256^bytes.length := Nat.mul_le_mul_right _ (by omega)
    omega

variable {y x : List Nat} {b o bits : Nat} {cidr : String} {cidrs : List String}

theorem value_div (x : List Nat) (h : Small y) : value (x++y)/256^y.length=value x := by
  rw [value_append,Nat.mul_comm,Nat.mul_add_div (by positivity),Nat.div_eq_of_lt (value_lt h),
    Nat.add_zero]

theorem value_mod (x : List Nat) (h : Small y) : value (x++y)%256^y.length=value y := by
  rw [value_append,Nat.mul_comm,Nat.mul_add_mod,Nat.mod_eq_of_lt (value_lt h)]

theorem value_injective (hlen : x.length=y.length) (hx : Small x) (hy : Small y)
    (h : value x=value y) : x=y := by
  induction x generalizing y with
  | nil => exact (List.eq_nil_of_length_eq_zero hlen.symm).symm
  | cons b x ih =>
    cases y with
    | nil => simp at hlen
    | cons o y =>
      have hl : x.length=y.length := by simpa using hlen
      have hxs : Small x := fun c hc => hx c (List.mem_cons_of_mem _ hc)
      have hys : Small y := fun c hc => hy c (List.mem_cons_of_mem _ hc)
      have hhead : b=o := by
        have hb := value_div [b] hxs
        have ho := value_div [o] hys
        rw [List.singleton_append] at hb ho
        rw [h,hl,ho] at hb
        simpa [value] using hb.symm
      have htail : value x=value y := by
        have hb := value_mod [b] hxs
        have ho := value_mod [o] hys
        rw [List.singleton_append] at hb ho
        rw [← hb,← ho,h,hl]
      rw [hhead,ih hl hxs hys htail]

theorem testBit_byte (hb : b<256) {i : Nat} (hi : 8 ≤ i) : b.testBit i=false := by
  have hpow : 2^8≤2^i := Nat.pow_le_pow_right (by omega) hi
  exact Nat.testBit_lt_two_pow (by omega)

theorem testBit_mask (k i : Nat) :
    (255<<<k).testBit i=(decide (k ≤ i) && decide (i-k<8)) := by
  have hones := Nat.testBit_two_pow_sub_one 8 (i-k)
  rw [Nat.testBit_shiftLeft,← hones]

theorem testBit_div (n k i : Nat) : (n/2^k).testBit i=n.testBit (k+i) := by
  rw [← Nat.shiftRight_eq_div_pow,Nat.testBit_shiftRight]

theorem land_mask (hb : b<256) (ho : o<256) (k : Nat) :
    b &&& 255<<<k=o &&& 255<<<k ↔ b/2^k=o/2^k := by
  constructor
  · intro h
    apply Nat.eq_of_testBit_eq
    intro i
    rw [testBit_div,testBit_div]
    by_cases hi : i<8
    · have hbit := congrArg (fun n => n.testBit (k+i)) h
      simp only [Nat.testBit_land,testBit_mask] at hbit
      simpa [hi] using hbit
    · rw [testBit_byte hb (by omega),testBit_byte ho (by omega)]
  · intro h
    apply Nat.eq_of_testBit_eq
    intro i
    simp only [Nat.testBit_land,testBit_mask]
    by_cases hi : k ≤ i
    · have hbit := congrArg (fun n => n.testBit (i-k)) h
      simp only [testBit_div,Nat.add_sub_cancel' hi] at hbit
      rw [hbit]
    · simp [hi]

theorem prefixMask_succ (bits index : Nat) :
    prefixMask bits (index+1)=prefixMask (bits-8) index := by
  have h : bits-8*(index+1)=bits-8-8*index := by omega
  simp only [prefixMask,h]

theorem prefixMask_zero (index : Nat) : prefixMask 0 index=0 := by
  simp [prefixMask]

theorem land_prefixMask (hb : b<256) (ho : o<256) (bits : Nat) :
    b &&& prefixMask bits 0=o &&& prefixMask bits 0 ↔ b/2^(8-bits)=o/2^(8-bits) := by
  unfold prefixMask
  dsimp only
  split_ifs with h
  · have hbits : bits=0 := by omega
    subst hbits
    simp [Nat.div_eq_of_lt hb,Nat.div_eq_of_lt ho]
  · have hk : 8-min 8 (bits-8*0)=8-bits := by omega
    rw [hk]
    exact land_mask hb ho (8-bits)

theorem div_cons_short (hx : Small x) (hb : bits≤8) :
    value (b::x)/2^(8*(x.length+1)-bits)=b/2^(8-bits) := by
  have hpow : 2^(8*(x.length+1)-bits)=256^x.length*2^(8-bits) := by
    rw [show (256 : Nat)=2^8 from rfl,← pow_mul,← pow_add]
    congr 1
    omega
  have hfirst := value_div [b] hx
  rw [List.singleton_append] at hfirst
  rw [hpow,← Nat.div_div_eq_div_mul,hfirst]
  simp [value]

theorem div_cons_long (hx : Small x) (hlow : 8≤bits) (hhigh : bits≤8*(x.length+1)) :
    value (b::x)/2^(8*(x.length+1)-bits)=
      b*2^(bits-8)+value x/2^(8*x.length-(bits-8)) ∧
    value x/2^(8*x.length-(bits-8))<2^(bits-8) := by
  have hsub : 8*(x.length+1)-bits=8*x.length-(bits-8) := by omega
  have hpow : 256^x.length=2^(8*x.length-(bits-8))*2^(bits-8) := by
    rw [show (256 : Nat)=2^8 from rfl,← pow_mul,← pow_add]
    congr 1
    omega
  refine ⟨?_,?_⟩
  · rw [value_cons,hsub,hpow,Nat.mul_left_comm,Nat.mul_add_div (by positivity)]
  · rw [Nat.div_lt_iff_lt_mul (by positivity),Nat.mul_comm,← hpow]
    exact value_lt hx

theorem mul_add_inj {v w m : Nat} (hv : v < m) (hw : w < m) : b*m+v=o*m+w ↔ b=o ∧ v=w := by
  constructor
  · intro h
    have hm : (b*m+v)%m=(o*m+w)%m := by rw [h]
    have hd : (b*m+v)/m=(o*m+w)/m := by rw [h]
    rw [Nat.mul_comm b,Nat.mul_comm o,Nat.mul_add_mod,Nat.mul_add_mod,Nat.mod_eq_of_lt hv,
      Nat.mod_eq_of_lt hw] at hm
    rw [Nat.mul_comm b,Nat.mul_comm o,Nat.mul_add_div (by omega),Nat.mul_add_div (by omega),
      Nat.div_eq_of_lt hv,Nat.div_eq_of_lt hw] at hd
    exact ⟨hd,hm⟩
  · rintro ⟨rfl,rfl⟩
    rfl

theorem all_prefix (hlen : x.length=y.length) (hx : Small x) (hy : Small y) (hb : bits≤8*x.length) :
    ((x.zip y).zipIdx.all fun e => e.1.1 &&& prefixMask bits e.2==e.1.2 &&& prefixMask bits e.2) ↔
      value x/2^(8*x.length-bits)=value y/2^(8*y.length-bits) := by
  induction x generalizing y bits with
  | nil =>
    have hy' : y=[] := List.eq_nil_of_length_eq_zero hlen.symm
    simp [hy']
  | cons b x ih =>
    cases y with
    | nil => simp at hlen
    | cons o y =>
      have hl : x.length=y.length := by simpa using hlen
      have hxs : Small x := fun c hc => hx c (List.mem_cons_of_mem _ hc)
      have hys : Small y := fun c hc => hy c (List.mem_cons_of_mem _ hc)
      have hrest : ((x.zip y).zipIdx 1).all (fun e =>
          e.1.1 &&& prefixMask bits e.2==e.1.2 &&& prefixMask bits e.2)=
          ((x.zip y).zipIdx.all fun e =>
            e.1.1 &&& prefixMask (bits-8) e.2==e.1.2 &&& prefixMask (bits-8) e.2) := by
        rw [List.zipIdx_succ,List.all_map]
        simp [Function.comp_def,prefixMask_succ]
      rw [List.zip_cons_cons,List.zipIdx_cons,List.all_cons,Bool.and_eq_true,beq_iff_eq,
        land_prefixMask (hx b List.mem_cons_self) (hy o List.mem_cons_self),Nat.zero_add,hrest]
      simp only [List.length_cons] at hb ⊢
      by_cases hbits : bits≤8
      · have htail : ((x.zip y).zipIdx.all fun e =>
            e.1.1 &&& prefixMask (bits-8) e.2==e.1.2 &&& prefixMask (bits-8) e.2)=true := by
          rw [Nat.sub_eq_zero_of_le hbits]
          simp [prefixMask_zero]
        rw [htail,div_cons_short hxs hbits,div_cons_short hys hbits]
        simp
      · obtain ⟨hvx,hsx⟩ := div_cons_long (b := b) hxs (by omega) hb
        obtain ⟨hvy,hsy⟩ := div_cons_long (b := o) hys (by omega) (hl ▸ hb)
        rw [hvx,hvy,mul_add_inj hsx hsy,ih hl hxs hys (by omega),
          Nat.sub_eq_zero_of_le (show 8 ≤ bits by omega),pow_zero,Nat.div_one,Nat.div_one]

def address (bytes : List Nat) : Egress.Addr := ⟨8*bytes.length,value bytes,""⟩

/-- `net/netip` reads the texts of addresses and of networks as RFC 4291 writes them. -/
structure Standard (netip : Egress.Netip) : Prop where
  addr : ∀text bytes, Literal text.toList bytes→netip.parseAddr text=some (address bytes)
  net : ∀text network bits bytes, text.toList.splitOn '/'=[network,bits]→Literal network bytes→
    plainDecimal bits→decimal bits≤8*bytes.length→
    netip.parsePrefix text=some ⟨address bytes,decimal bits⟩

theorem unmap_length (h : bytes.length=4 ∨ bytes.length=16) :
    (unmap bytes).length=4 ∨ (unmap bytes).length=16 := by
  unfold unmap
  split_ifs with hm
  · simp [hm.1]
  · exact h

theorem unmap_small (h : Small bytes) : Small (unmap bytes) := by
  unfold unmap
  split_ifs
  · exact fun b hb => h b (List.mem_of_mem_drop hb)
  · exact h

theorem mapped_iff (hlen : bytes.length=16) (hs : Small bytes) :
    mapped bytes ↔ value bytes/2^32=65535 := by
  have hdrop : Small (bytes.drop 12) := fun b hb => hs b (List.mem_of_mem_drop hb)
  have htake : Small (bytes.take 12) := fun b hb => hs b (List.mem_of_mem_take hb)
  have hdiv := value_div (bytes.take 12) hdrop
  have htail : (bytes.drop 12).length=4 := by simp [hlen]
  rw [List.take_append_drop,htail] at hdiv
  rw [show (2 : Nat)^32=256^4 by norm_num,hdiv,mapped,beq_iff_eq]
  constructor
  · intro h
    rw [h]
    decide
  · intro h
    exact value_injective (by simp [hlen]) htake (by unfold Small; decide) (h.trans (by decide))

theorem address_unmap (hlen : bytes.length=4 ∨ bytes.length=16)
    (hs : Small bytes) : (address bytes).unmap=address (unmap bytes) := by
  unfold Egress.Addr.unmap unmap
  rcases hlen with hlen|hlen
  · simp [address,hlen]
  · have hdrop : Small (bytes.drop 12) := fun b hb => hs b (List.mem_of_mem_drop hb)
    have htail : (bytes.drop 12).length=4 := by simp [hlen]
    have hmod := value_mod (bytes.take 12) hdrop
    rw [List.take_append_drop,htail] at hmod
    by_cases hm : mapped bytes
    · rw [if_pos ⟨by simp [address,hlen],(mapped_iff hlen hs).mp hm⟩,if_pos ⟨hlen,hm⟩]
      simp only [address,htail,← hmod]
      norm_num
    · rw [if_neg (fun h => hm ((mapped_iff hlen hs).mpr h.2)),if_neg (fun h => hm h.2)]

variable {netip : Egress.Netip}

theorem contains_agree (h : Standard netip) (hc : validCidr cidr)
    (hlen : bytes.length=4 ∨ bytes.length=16) (hs : Small bytes) :
    ∃p, netip.parsePrefix cidr=some p ∧
      (contains cidr bytes=p.contains (address bytes)) ∧
      (contains cidr bytes→p.addr.bitLen=(address bytes).bitLen) := by
  unfold validCidr at hc
  split at hc
  · next network bits hsplit =>
    rw [Bool.and_eq_true] at hc
    obtain ⟨hbits,hc⟩ := hc
    split at hc
    · next net hnet =>
      simp only [Bool.and_eq_true,decide_eq_true_eq] at hc
      have hliteral : Literal network net := by simpa using ipBytes_iff.mp hnet
      refine ⟨_,h.net cidr network bits net hsplit hliteral hbits hc.1,?_⟩
      have hcontains : contains cidr bytes=(decide (net.length=bytes.length) &&
          (net.zip bytes).zipIdx.all fun e =>
            e.1.1 &&& prefixMask (decimal bits) e.2==e.1.2 &&& prefixMask (decimal bits) e.2) := by
        simp [contains,hsplit,hnet,prefixBits,hbits]
      rw [hcontains]
      by_cases hl : net.length=bytes.length
      · refine ⟨?_,fun _ => by simp [address,hl]⟩
        have hall := all_prefix hl hliteral.small hs hc.1
        have hvalid : (address bytes).isValid := by
          simp only [Egress.Addr.isValid,address,bne_iff_ne]
          omega
        rw [Bool.eq_iff_iff,Bool.and_eq_true,hall]
        simp only [Egress.Prefix.contains,hvalid,Bool.and_true,Bool.and_eq_true,beq_iff_eq]
        simp [address,hl]
      · have hwidth : ¬8*net.length=8*bytes.length := by omega
        simp [hl,Egress.Prefix.contains,address,hwidth]
    · simp at hc
  · simp at hc

theorem value_eq_zero (bytes : List Nat) : value bytes=0 ↔ bytes.all (·==0) := by
  induction bytes with
  | nil => simp [value]
  | cons b bytes ih =>
    rw [value_cons,Nat.add_eq_zero_iff,Nat.mul_eq_zero,ih]
    simp

theorem address_unspecified (hlen : bytes.length=4 ∨ bytes.length=16) :
    (address bytes).isUnspecified=bytes.all (·==0) := by
  rw [Bool.eq_iff_iff,← value_eq_zero]
  have hne : ¬8*bytes.length=0 := by omega
  simp only [Egress.Addr.isUnspecified,Egress.Addr.isValid,address,Bool.and_eq_true,beq_iff_eq,
    bne_iff_ne]
  tauto

theorem address_multicast (hlen : bytes.length=4 ∨ bytes.length=16)
    (hs : Small bytes) : (address bytes).isMulticast ↔
      bytes.length=4 ∧ 224≤bytes.headD 0 ∧ bytes.headD 0<240 ∨
        bytes.length=16 ∧ bytes.headD 0=255 := by
  cases bytes with
  | nil => simp at hlen
  | cons b x =>
    have hx : Small x := fun c hc => hs c (List.mem_cons_of_mem _ hc)
    have hfour := div_cons_short (b := b) hx (show 4 ≤ 8 by decide)
    have height := div_cons_short (b := b) hx (show 8 ≤ 8 by decide)
    simp only [List.length_cons] at hlen
    simp only [Egress.Addr.isMulticast,address,Bool.or_eq_true,Bool.and_eq_true,beq_iff_eq,
      List.length_cons,List.headD_cons]
    rcases hlen with hl|hl
    · rw [hl] at hfour ⊢
      norm_num at hfour ⊢
      omega
    · rw [hl] at height ⊢
      norm_num at height ⊢
      omega

theorem contains_head
    (hnet : ipBytes (String.ofList ((cidr.toList.splitOn '/').headD []))=some (o::y))
    (hbits : 8 ≤ prefixBits (cidr.toList.splitOn '/')) (hb : b<256) (ho : o<256)
    (h : contains cidr (b::x)) : o=b := by
  unfold contains at h
  simp only [hnet,List.zip_cons_cons,List.zipIdx_cons,List.all_cons,Bool.and_eq_true,
    beq_iff_eq] at h
  have hfirst := h.2.1
  rw [land_prefixMask ho hb,Nat.sub_eq_zero_of_le hbits] at hfirst
  simpa using hfirst

theorem metadata_reserved (hlen : bytes.length=4) (hs : Small bytes)
    (hhead : 240 ≤ bytes.headD 0) : metadata.any (contains · bytes)=false := by
  cases bytes with
  | nil => simp at hlen
  | cons b x =>
    have hb := hs b List.mem_cons_self
    rw [List.headD_cons] at hhead
    have hlocal : contains "169.254.0.0/16" (b::x)=false := by
      rw [← Bool.not_eq_true]
      intro hin
      have heq : 169=b := contains_head (y := [254,0,0]) (by decide +kernel) (by decide +kernel) hb
        (by decide) hin
      omega
    have hcloud : contains "100.100.100.200/32" (b::x)=false := by
      rw [← Bool.not_eq_true]
      intro hin
      have heq : 100=b := contains_head (y := [100,100,200]) (by decide +kernel) (by decide +kernel)
        hb (by decide) hin
      omega
    have hwide (cidr : String) (net : List Nat) (hlen16 : net.length=16)
        (hnet : ipBytes (String.ofList ((cidr.toList.splitOn '/').headD []))=some net) :
        contains cidr (b::x)=false := by
      have hne : net.length≠(b::x).length := by omega
      unfold contains
      simp only [hnet,decide_eq_false hne,Bool.false_and]
    have hec2 := hwide "fd00:ec2::254/128" [253,0,14,194,0,0,0,0,0,0,0,0,0,0,2,84] rfl
      (by decide +kernel)
    have hlink := hwide "fe80::/10" [254,128,0,0,0,0,0,0,0,0,0,0,0,0,0,0] rfl (by decide +kernel)
    simp [metadata,hlocal,hcloud,hec2,hlink]

theorem metadata_valid : ∀cidr∈metadata, validCidr cidr := by
  decide +kernel

theorem any_agree (h : Standard netip) (hc : ∀cidr∈cidrs, validCidr cidr)
    (hlen : bytes.length=4 ∨ bytes.length=16) (hs : Small bytes) :
    (cidrs.any fun text => (netip.parsePrefix text).any (·.contains (address bytes)))=
        cidrs.any (contains · bytes) ∧
    (cidrs.any fun text => (netip.parsePrefix text).any fun p =>
        p.addr.bitLen==(address bytes).bitLen && p.contains (address bytes))=
      cidrs.any (contains · bytes) := by
  induction cidrs with
  | nil => simp
  | cons cidr cidrs ih =>
    obtain ⟨p,hp,heq,hwidth⟩ := contains_agree h (hc cidr List.mem_cons_self) hlen hs
    obtain ⟨hall,hpolicy⟩ := ih fun c hm => hc c (List.mem_cons_of_mem _ hm)
    simp only [List.any_cons]
    rw [hall,hpolicy,hp,Option.any_some,Option.any_some,← heq]
    refine ⟨rfl,?_⟩
    congr 1
    cases hin : contains cidr bytes with
    | false => simp
    | true => simp [hwidth hin]

/-- The addresses of 240.0.0.0/4, which only Control refuses. -/
def Reserved4 (bytes : List Nat) : Prop := bytes.length=4 ∧ 240 ≤ bytes.headD 0

theorem targetAllowed_iff {host : String} (hb : ipBytes host=some bytes)
    (cidrs : List String) (allowMetadata : Bool) :
    targetAllowed host cidrs allowMetadata ↔ ¬(unmap bytes).all (·==0) ∧
      (allowMetadata ∨ ¬metadata.any (contains · (unmap bytes))) ∧
      ¬((unmap bytes).length=4 ∧ 224 ≤ (unmap bytes).headD 0 ∨
        (unmap bytes).length=16 ∧ (unmap bytes).headD 0=255) ∧
      cidrs.any (contains · (unmap bytes)) := by
  unfold targetAllowed
  simp only [hb]
  split_ifs with hzero hmeta hclass
  · simp [hzero]
  · simp only [Bool.and_eq_true,Bool.not_eq_true'] at hmeta
    simp only [false_iff]
    rintro ⟨-,hm,-⟩
    simp [hmeta.1,hmeta.2] at hm
  · simp only [false_iff]
    exact fun h => h.2.2.1 hclass
  · simp only [Bool.and_eq_true,Bool.not_eq_true',not_and] at hmeta
    cases allowMetadata <;> simp_all

theorem allowed_iff (h : Standard netip) (hlen : bytes.length=4 ∨ bytes.length=16)
    (hs : Small bytes) (hc : ∀cidr∈cidrs, validCidr cidr) (allowMetadata : Bool) :
    Egress.allowed netip (address bytes) cidrs allowMetadata ↔ ¬(unmap bytes).all (·==0) ∧
      (allowMetadata ∨ ¬metadata.any (contains · (unmap bytes))) ∧
      ¬((unmap bytes).length=4 ∧ 224 ≤ (unmap bytes).headD 0 ∧ (unmap bytes).headD 0<240 ∨
        (unmap bytes).length=16 ∧ (unmap bytes).headD 0=255) ∧
      cidrs.any (contains · (unmap bytes)) := by
  have hulen := unmap_length hlen
  have husmall := unmap_small hs
  have hvalid : (address (unmap bytes)).isValid := by
    simp only [Egress.Addr.isValid,address,bne_iff_ne]
    omega
  have hsensitive := (any_agree h metadata_valid hulen husmall).1
  have hpolicy := (any_agree h hc hulen husmall).2
  have hmulticast := address_multicast hulen husmall
  unfold Egress.allowed
  rw [address_unmap hlen hs]
  simp only [hvalid,address_unspecified hulen,hpolicy,
    show Egress.sensitivePrefixes=metadata from rfl,hsensitive]
  rw [← hmulticast]
  cases (unmap bytes).all (·==0) <;> cases (address (unmap bytes)).isMulticast <;>
    cases allowMetadata <;> cases metadata.any (contains · (unmap bytes)) <;> simp

/-- Control and the Agent decide alike, except on a reserved IPv4 address that one of the networks
contains. -/
theorem policies_agree_iff (netip : Egress.Netip) (h : Standard netip) (host : String)
    (bytes : List Nat) (hb : Literal host.toList bytes) (cidrs : List String)
    (hc : ∀cidr∈cidrs, validCidr cidr) (allowMetadata : Bool) :
    ∃addr, netip.parseAddr host=some addr ∧
      ((targetAllowed host cidrs allowMetadata ↔ Egress.allowed netip addr cidrs allowMetadata) ↔
        ¬(Reserved4 (unmap bytes) ∧ cidrs.any (contains · (unmap bytes)))) := by
  refine ⟨address bytes,h.addr host bytes hb,?_⟩
  rw [targetAllowed_iff (ipBytes_iff.mpr hb),allowed_iff h hb.length hb.small hc]
  have hreserved (hr : Reserved4 (unmap bytes)) :
      (unmap bytes).all (·==0)=false ∧ metadata.any (contains · (unmap bytes))=false := by
    refine ⟨?_,metadata_reserved hr.1 (unmap_small hb.small) hr.2⟩
    rw [← Bool.not_eq_true,List.all_eq_true]
    intro hzero
    have hlen := hr.1
    have hhead := hr.2
    match unmap bytes,hlen,hzero,hhead with
    | b::x,_,hzero,hhead =>
      have hb0 := hzero b List.mem_cons_self
      simp only [beq_iff_eq] at hb0
      simp only [List.headD_cons] at hhead
      omega
  by_cases hr : Reserved4 (unmap bytes)
  · obtain ⟨hzero,hmeta⟩ := hreserved hr
    have hhigh : ¬(unmap bytes).headD 0<240 := Nat.not_lt.mpr hr.2
    have hlow : 224 ≤ (unmap bytes).headD 0 := Nat.le_trans (by decide) hr.2
    simp only [hzero,hmeta,hr.1,hhigh,hlow,hr]
    cases cidrs.any (contains · (unmap bytes)) <;> simp
  · have hsame : (unmap bytes).length=4 ∧ 224 ≤ (unmap bytes).headD 0 ↔
        (unmap bytes).length=4 ∧ 224 ≤ (unmap bytes).headD 0 ∧ (unmap bytes).headD 0<240 := by
      unfold Reserved4 at hr
      omega
    rw [hsame]
    simp [hr]

/-- A reader of addresses and networks as the standard describes it. -/
def reader : Egress.Netip where
  parseAddr text := (ipBytes text).map address
  parsePrefix text :=
    match text.toList.splitOn '/' with
    | [network,bits] =>
      match ipBytes (String.ofList network) with
      | some bytes =>
        if plainDecimal bits ∧ decimal bits≤8*bytes.length then some ⟨address bytes,decimal bits⟩
        else none
      | none => none
    | _ => none

theorem reader_standard : Standard reader where
  addr text bytes h := by simp [reader,ipBytes_iff.mpr h]
  net text network bits bytes hsplit hnet hbits hle := by
    have hread : ipBytes (String.ofList network)=some bytes := ipBytes_iff.mpr (by simpa using hnet)
    simp [reader,hsplit,hread,hbits,hle]

theorem policies_agree_mapped :
    ∃addr, reader.parseAddr "::ffff:10.1.2.3"=some addr ∧
      ((targetAllowed "::ffff:10.1.2.3" ["10.0.0.0/8","fd00::/8"] false ↔
        Egress.allowed reader addr ["10.0.0.0/8","fd00::/8"] false) ↔
        ¬(Reserved4 (unmap [0,0,0,0,0,0,0,0,0,0,255,255,10,1,2,3]) ∧
          ["10.0.0.0/8","fd00::/8"].any
            (contains · (unmap [0,0,0,0,0,0,0,0,0,0,255,255,10,1,2,3])))) :=
  policies_agree_iff reader reader_standard _ _ (ipBytes_iff.mp (by decide +kernel)) _
    (by decide +kernel) false

/-- A policy that allows every IPv4 address admits `240.0.0.1` on the Agent only. -/
theorem reserved_target_differs :
    Standard reader ∧ Literal "240.0.0.1".toList [240,0,0,1] ∧ validCidr "0.0.0.0/0" ∧
    targetAllowed "240.0.0.1" ["0.0.0.0/0"] false=false ∧
    ∃addr, reader.parseAddr "240.0.0.1"=some addr ∧
      Egress.allowed reader addr ["0.0.0.0/0"] false=true :=
  ⟨reader_standard,ipBytes_iff.mp (by decide +kernel),by decide +kernel,by decide +kernel,
    address [240,0,0,1],by decide +kernel,by decide +kernel⟩

end TuneX.Contracts
