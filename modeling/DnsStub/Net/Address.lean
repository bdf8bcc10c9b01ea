import DnsStub.Text.Ascii
/-!
# IP and socket addresses

IPv4 and IPv6 addresses as their octets, and the socket addresses name servers listen on.
An IPv4 address is written in dotted decimal. An IPv6 address is written compressed: the
first longest run of two or more zero groups becomes "::", groups are lowercase hexadecimal
without leading zeros, and an IPv4-mapped address keeps its last four octets dotted.
-/
namespace DnsStub

structure Ipv4Address where
  octets : Vector UInt8 4
  deriving DecidableEq

structure Ipv6Address where
  octets : Vector UInt8 16
  deriving DecidableEq

namespace Ipv4Address

/-- The address from its four octets, most significant first. -/
def ofOctets (a b c d : UInt8) : Ipv4Address :=
  ⟨#v[a, b, c, d]⟩

/-- Dotted decimal. -/
def display (ip : Ipv4Address) : String :=
  ".".intercalate (ip.octets.toList.map fun o => toString o.toNat)

instance : ToString Ipv4Address := ⟨display⟩

end Ipv4Address

namespace Ipv6Address

/-- The eight sixteen-bit groups, most significant first. -/
def segments (ip : Ipv6Address) : List UInt16 :=
  (List.range 8).map fun i =>
    (ip.octets.toList.getD (2 * i) 0).toUInt16 * 256 + (ip.octets.toList.getD (2 * i + 1) 0).toUInt16

def ofSegments (gs : Vector UInt16 8) : Ipv6Address :=
  ⟨Vector.ofFn fun i =>
    let g := gs.get ⟨i.val / 2, by omega⟩
    if i.val % 2 = 0 then (g >>> 8).toUInt8 else g.toUInt8⟩

/-- The address of sixteen octets, most significant first. -/
def ofBytes? (bs : List UInt8) : Option Ipv6Address :=
  if h : bs.length = 16 then some ⟨⟨bs.toArray, by simp [h]⟩⟩ else none

/-- The embedded IPv4 address of an IPv4-mapped address (::ffff:a.b.c.d). -/
def toIpv4Mapped? (ip : Ipv6Address) : Option Ipv4Address :=
  let o := ip.octets.toList
  if o.take 10 = List.replicate 10 0 ∧ o.getD 10 0 = 255 ∧ o.getD 11 0 = 255 then
    some (Ipv4Address.ofOctets (o.getD 12 0) (o.getD 13 0) (o.getD 14 0) (o.getD 15 0))
  else none

/-- Start and length of the first longest run of zero groups, scanning from the given index
with the current run and the best run so far. -/
def longestZeroRun : List UInt16 → Nat → (Nat × Nat) → (Nat × Nat) → Nat × Nat
  | [], _, _, best => best
  | g :: gs, i, (cs, cl), best =>
    if g = 0 then
      let cur := if cl = 0 then (i, 1) else (cs, cl + 1)
      longestZeroRun gs (i + 1) cur (if cur.2 > best.2 then cur else best)
    else longestZeroRun gs (i + 1) (0, 0) best

/-- Groups in lowercase hexadecimal, joined by colons. -/
def groupsText (gs : List UInt16) : String :=
  ":".intercalate (gs.map fun g => Hex.ofNat g.toNat)

/-- The compressed text form. -/
def display (ip : Ipv6Address) : String :=
  match ip.toIpv4Mapped? with
  | some v4 => "::ffff:" ++ v4.display
  | none =>
    let gs := ip.segments
    let (start, len) := longestZeroRun gs 0 (0, 0) (0, 0)
    if len > 1 then
      groupsText (gs.take start) ++ "::" ++ groupsText (gs.drop (start + len))
    else groupsText gs

instance : ToString Ipv6Address := ⟨display⟩

end Ipv6Address

inductive IpAddress where
  | v4 (ip : Ipv4Address)
  | v6 (ip : Ipv6Address)
  deriving DecidableEq

/-- An address and port; an IPv6 one also carries a scope id, zero when absent. -/
inductive SocketAddress where
  | v4 (ip : Ipv4Address) (port : UInt16)
  | v6 (ip : Ipv6Address) (port : UInt16) (scope : UInt32)
  deriving DecidableEq

namespace SocketAddress

def ofIp (ip : IpAddress) (port : UInt16) : SocketAddress :=
  match ip with
  | .v4 a => .v4 a port
  | .v6 a => .v6 a port 0

def port : SocketAddress → UInt16
  | .v4 _ p => p
  | .v6 _ p _ => p

def isIpv6 : SocketAddress → Bool
  | .v4 .. => false
  | .v6 .. => true

/-- "a.b.c.d:port", or "[addr]:port" with "%scope" inside the brackets when the scope is not
zero. -/
def display : SocketAddress → String
  | .v4 ip p => ip.display ++ ":" ++ toString p.toNat
  | .v6 ip p s =>
    "[" ++ ip.display ++ (if s = 0 then "" else "%" ++ toString s.toNat) ++ "]:" ++ toString p.toNat

instance : ToString SocketAddress := ⟨display⟩

end SocketAddress

end DnsStub
