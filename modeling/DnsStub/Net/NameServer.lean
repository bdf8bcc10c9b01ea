import DnsStub.Net.AddressSyntax
/-!
# Name servers

A name server is the socket address queries are sent to. It is written as a socket address,
"address:port" or "[address]:port", or as a bare IP address, which means the standard DNS
port 53. The text form of a server is that of its socket address, so a server read from
either spelling shows its port.

The servers of a resolv.conf text come from its "nameserver" lines only. A line is trimmed of
white space first; an empty line or one starting with ';' or '#' is a comment. The remaining
lines are split into words at white space. A line whose first word is exactly "nameserver"
names the server its second word reads as; a second word that is no server, a missing one, and
any further words are ignored. White space is every character of the Unicode White_Space
property.
-/
namespace DnsStub

structure NameServer where
  addr : SocketAddress
  deriving DecidableEq

namespace NameServer

def defaultPort : UInt16 := 53

/-- The server at an IP address, on the standard port. -/
def ofIp (ip : IpAddress) : NameServer :=
  ⟨SocketAddress.ofIp ip defaultPort⟩

/-- The message for a text that is neither a socket address nor an IP address. -/
def parseError : String := "invalid IP address syntax"

/-- Reads a socket address, or else a bare IP address on the standard port. -/
def parse? (s : String) : Option NameServer :=
  match SocketAddress.parse? s with
  | some a => some ⟨a⟩
  | none => (IpAddress.parse? s).map ofIp

/-- The socket address, with its port. -/
def display (n : NameServer) : String := n.addr.display

instance : ToString NameServer := ⟨display⟩

end NameServer

namespace ResolvConf

/-- Unicode white space: tab to carriage return, space, next line, no-break space, Ogham
space mark, the spaces from en quad to hair space, line and paragraph separators, narrow
no-break space, medium mathematical space and ideographic space. -/
def isSpace (c : Char) : Bool :=
  let n := c.toNat
  (0x09 ≤ n && n ≤ 0x0D) || n == 0x20 || n == 0x85 || n == 0xA0 || n == 0x1680 ||
    (0x2000 ≤ n && n ≤ 0x200A) || n == 0x2028 || n == 0x2029 || n == 0x202F ||
    n == 0x205F || n == 0x3000

/-- The characters with white space removed from both ends. -/
def trim (cs : List Char) : List Char :=
  ((cs.dropWhile isSpace).reverse.dropWhile isSpace).reverse

/-- The words of a line: the longest runs of characters that are not white space. -/
def words (cs : List Char) : List String :=
  ((cs.splitBy fun a b => isSpace a == isSpace b).filter fun w => !w.all isSpace).map String.ofList

/-- The server a line names, if it is a "nameserver" line with a readable address. -/
def lineServer (line : List Char) : Option NameServer :=
  let line := trim line
  match line with
  | [] => none
  | c :: _ =>
    if c == ';' || c == '#' then none
    else match words line with
      | w :: addr :: _ => if w == "nameserver" then NameServer.parse? addr else none
      | _ => none

/-- The servers of the "nameserver" lines, in order. -/
def parse (text : String) : List NameServer :=
  (text.toList.splitOn '\n').filterMap lineServer

end ResolvConf

end DnsStub
