import Mathlib.Algebra.Group.Nat.Defs

namespace TuneX.Agent.Egress

/-- A `netip.Addr`: its width in bits, 0 for the zero value, and its value as a number. -/
structure Addr where
  bitLen : Nat
  value : Nat
  zone : String
  deriving DecidableEq, Repr

structure Prefix where
  addr : Addr
  bits : Nat
  deriving DecidableEq, Repr

namespace Addr

def isValid (a : Addr) : Bool := a.bitLen != 0

/-- An IPv4-mapped IPv6 address becomes the IPv4 address it carries. -/
def unmap (a : Addr) : Addr :=
  if a.bitLen=128 ∧ a.value/2^32=65535 then ⟨32,a.value%2^32,""⟩ else a

def isUnspecified (a : Addr) : Bool := a.isValid && a.value==0 && a.zone == ""

def isMulticast (a : Addr) : Bool :=
  a.bitLen==32 && a.value/2^28==14 || a.bitLen==128 && a.value/2^120==255

end Addr

/-- An address lies in a prefix of its own family when their leading bits agree. -/
def Prefix.contains (p : Prefix) (a : Addr) : Bool :=
  a.zone == "" && a.isValid && p.addr.bitLen==a.bitLen &&
    p.addr.value/2^(a.bitLen-p.bits)==a.value/2^(a.bitLen-p.bits)

/-- The two readers of `net/netip`. -/
structure Netip where
  parseAddr : String→Option Addr
  parsePrefix : String→Option Prefix

def sensitivePrefixes : List String :=
  ["169.254.0.0/16","100.100.100.200/32","fd00:ec2::254/128","fe80::/10"]

def allowed (netip : Netip) (addr : Addr) (cidrs : List String) (allowMetadata : Bool) : Bool :=
  let addr := addr.unmap
  if !addr.isValid || addr.isUnspecified || addr.isMulticast then false
  else if !allowMetadata &&
      sensitivePrefixes.any fun text => (netip.parsePrefix text).any (·.contains addr) then false
  else cidrs.any fun text => (netip.parsePrefix text).any fun p =>
    p.addr.bitLen==addr.bitLen && p.contains addr

end TuneX.Agent.Egress
