import DnsStub.Net.Address
/-!
# Reading addresses

The text forms of IP and socket addresses:

* IPv4: four decimal numbers from 0 to 255 joined by dots, each of at most three digits and
  without a leading zero;
* IPv6: up to eight groups of one to four hexadecimal digits joined by colons, one "::"
  standing for one or more zero groups, and optionally an IPv4 address as the last two groups;
* a socket address: an IPv4 address and ":port", or an IPv6 address in brackets, optionally
  with "%scope" inside them, and ":port". Ports and scopes are decimal and may have leading
  zeros.

A text is an address only if all of it is read.
-/
namespace DnsStub

namespace AddressSyntax

/-- The value of a digit in the radix. -/
def digitValue? (radix : Nat) (c : Char) : Option Nat :=
  let n := c.toNat
  let v := if 48 ≤ n ∧ n ≤ 57 then n - 48
    else if 97 ≤ n ∧ n ≤ 122 then n - 87
    else if 65 ≤ n ∧ n ≤ 90 then n - 55 else radix
  if v < radix then some v else none

/-- The value of digits, most significant first. -/
def digitsValue (radix : Nat) (ds : List Nat) : Nat :=
  ds.foldl (fun acc d => acc * radix + d) 0

/-- Reads a number: all the digits that follow, at least one, at most maxDigits if that is
given, without a leading zero before further digits unless allowed, and with a value below
bound. -/
def readNumber (radix : Nat) (maxDigits : Option Nat) (allowZeroPrefix : Bool) (bound : Nat)
    (cs : List Char) : Option (Nat × List Char) :=
  let ds := cs.takeWhile fun c => (digitValue? radix c).isSome
  let rest := cs.dropWhile fun c => (digitValue? radix c).isSome
  let value := digitsValue radix (ds.map fun c => (digitValue? radix c).getD 0)
  if ds.isEmpty then none
  else if maxDigits.any (· < ds.length) then none
  else if !allowZeroPrefix ∧ ds.head? = some '0' ∧ 1 < ds.length then none
  else if bound ≤ value then none
  else some (value, rest)

def expect (c : Char) : List Char → Option (List Char)
  | d :: rest => if d = c then some rest else none
  | [] => none

def readIpv4 (cs : List Char) : Option (Ipv4Address × List Char) := do
  let (a, r) ← readNumber 10 (some 3) false 256 cs
  let (b, r) ← readNumber 10 (some 3) false 256 (← expect '.' r)
  let (c, r) ← readNumber 10 (some 3) false 256 (← expect '.' r)
  let (d, r) ← readNumber 10 (some 3) false 256 (← expect '.' r)
  pure (Ipv4Address.ofOctets a.toUInt8 b.toUInt8 c.toUInt8 d.toUInt8, r)

/-- Reads up to limit colon-separated groups, where the last two may be an IPv4 address. Yields
the groups, whether an IPv4 address ended them, and the rest of the text. -/
def readGroups (limit i : Nat) (acc : List Nat) (cs : List Char) : List Nat × Bool × List Char :=
  if i < limit then
    let afterSep := if i = 0 then some cs else expect ':' cs
    let v4 := if i + 1 < limit then afterSep.bind readIpv4 else none
    match v4 with
    | some (ip, rest) =>
      let o := ip.octets.toList.map UInt8.toNat
      (acc ++ [o.getD 0 0 * 256 + o.getD 1 0, o.getD 2 0 * 256 + o.getD 3 0], true, rest)
    | none =>
      match afterSep.bind (readNumber 16 (some 4) true 65536) with
      | some (g, rest) => readGroups limit (i + 1) (acc ++ [g]) rest
      | none => (acc, false, cs)
  else (acc, false, cs)
termination_by limit - i

def ofGroups (gs : List Nat) : Ipv6Address :=
  Ipv6Address.ofSegments (Vector.ofFn fun i => (gs.getD i.val 0).toUInt16)

/-- Reads an IPv6 address: eight groups, or groups, "::" and groups. -/
def readIpv6 (cs : List Char) : Option (Ipv6Address × List Char) :=
  let (head, headV4, r1) := readGroups 8 0 [] cs
  if head.length = 8 then some (ofGroups head, r1)
  else if headV4 then none
  else
    match r1 with
    | ':' :: ':' :: r2 =>
      let (tail, _, r3) := readGroups (8 - (head.length + 1)) 0 [] r2
      some (ofGroups (head ++ List.replicate (8 - head.length - tail.length) 0 ++ tail), r3)
    | _ => none

/-- Reads ":port". -/
def readPort (cs : List Char) : Option (UInt16 × List Char) := do
  let (p, r) ← readNumber 10 none true 65536 (← expect ':' cs)
  pure (p.toUInt16, r)

def readSocketV4 (cs : List Char) : Option (SocketAddress × List Char) := do
  let (ip, r) ← readIpv4 cs
  let (p, r) ← readPort r
  pure (.v4 ip p, r)

/-- Reads a bracketed IPv6 socket address. -/
def readSocketV6 (cs : List Char) : Option (SocketAddress × List Char) := do
  let (ip, r) ← readIpv6 (← expect '[' cs)
  let (scope, r) := match expect '%' r with
    | some r' => match readNumber 10 none true 4294967296 r' with
      | some (s, r'') => (s, r'')
      | none => (0, r)
    | none => (0, r)
  let (p, r) ← readPort (← expect ']' r)
  pure (.v6 ip p scope.toUInt32, r)

/-- The value read from the whole text, or nothing. -/
def whole {α : Type} (read : List Char → Option (α × List Char)) (s : String) : Option α :=
  match read s.toList with
  | some (a, []) => some a
  | _ => none

end AddressSyntax

namespace Ipv4Address

/-- Reads a dotted IPv4 address from the whole text. -/
def parse? (s : String) : Option Ipv4Address :=
  AddressSyntax.whole AddressSyntax.readIpv4 s

end Ipv4Address

namespace IpAddress

/-- Reads an IPv4 or else an IPv6 address from the whole text. -/
def parse? (s : String) : Option IpAddress :=
  match Ipv4Address.parse? s with
  | some a => some (.v4 a)
  | none => (AddressSyntax.whole AddressSyntax.readIpv6 s).map .v6

end IpAddress

namespace SocketAddress

/-- Reads an IPv4 or else an IPv6 socket address from the whole text. -/
def parse? (s : String) : Option SocketAddress :=
  match AddressSyntax.whole AddressSyntax.readSocketV4 s with
  | some a => some a
  | none => AddressSyntax.whole AddressSyntax.readSocketV6 s

end SocketAddress

end DnsStub
