import DnsStub.Message.Builder
import DnsStub.Net.NameServer
/-!
# Scripted name servers

A simulated network in which every server works through a queue of replies, one per exchange.
A reply refuses the connection, never comes, comes as given bytes, or is a response made for the
question asked. A server with no reply left refuses.

The made responses follow a template: a recursive response to the question, with a number of
answers "name IN ttl A 192.0.2.1", then the response code and the TC bit.
-/
namespace DnsStub

/-- A response made for a question. -/
structure ReplyTemplate where
  /-- The response code; only its low four bits reach the header. -/
  rcode : UInt16 := 0
  truncated : Bool := false
  ttl : UInt32 := 300
  /-- How many answers. -/
  count : Nat := 1
  deriving DecidableEq, Repr

namespace ReplyTemplate

/-- The data of every answer. -/
def address : RecordData := .a (Ipv4Address.ofOctets 192 0 2 1)

/-- The message answering a question under an id. -/
def build (t : ReplyTemplate) (id : UInt16) (q : Question) : Except WireError (List UInt8) := do
  let b ← (Builder.newResponse id true false).addQuestion (Nat.le_refl _) q.qname q.qtype q.qclass
  let b ← if h : b.stage.rank ≤ Section.answer.rank then
      b.addAnswerCopies h q.qname RecordClass.inet t.ttl address t.count
    else pure b
  let b := b.setResponseCode (.wire t.rcode)
  let b := if t.truncated then b.setTruncated else b
  pure b.build.bytes

end ReplyTemplate

/-- What a scripted server does with one exchange. -/
inductive Reply where
  /-- Refuses the connection. -/
  | fail
  /-- Never answers. -/
  | hang
  /-- Answers these bytes at once. -/
  | bytes (data : List UInt8)
  /-- Answers at once with a response made for the question. -/
  | template (t : ReplyTemplate)
  deriving DecidableEq, Repr

/-- The replies each server has left, by address. -/
structure Script where
  queues : List (SocketAddress × List Reply)

namespace Script

def queue (s : Script) (addr : SocketAddress) : List Reply :=
  match s.queues.find? (·.1 = addr) with
  | some (_, q) => q
  | none => []

/-- The queues with the one of a server replaced. -/
def setQueue (qs : List (SocketAddress × List Reply)) (addr : SocketAddress) (q : List Reply) :
    List (SocketAddress × List Reply) :=
  qs.map fun e => if e.1 = addr then (addr, q) else e

/-- The next reply of a server, and the script without it; a server with none left refuses. -/
def pop (s : Script) (addr : SocketAddress) : Reply × Script :=
  match s.queue addr with
  | r :: rest => (r, ⟨setQueue s.queues addr rest⟩)
  | [] => (.fail, s)

/-- Whether some server may leave an exchange without any reply. -/
def mayHang (s : Script) : Bool :=
  s.queues.any fun e => e.2.contains .hang

end Script

end DnsStub
