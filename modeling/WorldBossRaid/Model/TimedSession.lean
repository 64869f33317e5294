import WorldBossRaid.Framework.Eval
import WorldBossRaid.Model.ClientHandler
import WorldBossRaid.Properties.Framing

/-!
# One session in time

The worker of `handle_client` against a client whose packets come in at given instants.  Instants
are counted in milliseconds, and `time(NULL)` is the instant in whole seconds.  The packets are
well formed and have numbers that are accepted; they come in TLS records, which may be cut anywhere
and may take their time, and after them the client may close the connection.

A receive waits in `select` until something is to be seen on the socket, at most as long as its
timeout, and then in `SSL_read` for each record that it takes.  `select` does not see what lies
inside the SSL object.  Taking the lock and sending may take any time; everything else takes none.
What the other workers do to the game state, the rolls and the success of every send are supplied
from outside, one supply for each operation.
-/

namespace WorldBossRaid

open Bytes Interaction Prog

/-! ## The client -/

/-- A TLS record with some data in it. -/
structure TimedRecord where
  /-- The instant at which its beginning reaches the socket. -/
  begins : ℤ
  /-- The instant at which it is there as a whole. -/
  ends : ℤ
  first : UInt8
  more : List UInt8
  inTime : begins ≤ ends

namespace TimedRecord

/-- What `SSL_read` gets. -/
def arrival (r : TimedRecord) : Arrival := .record r.first r.more

/-- Its bytes, with the instant at which they can be read. -/
def stream (r : TimedRecord) : List (ℤ × UInt8) := r.arrival.data.map (Prod.mk r.ends)

end TimedRecord

/-- A client, as the server's end of the connection sees it. -/
structure TimedClient where
  messages : List Message
  records : List TimedRecord
  /-- The instant at which the end of the stream reaches the socket, if the client closes it. -/
  closes : Option ℤ
  bytes : (records.map TimedRecord.arrival).flatMap Arrival.data = messages.flatMap Message.wire
  ordered : records.Pairwise fun r r' => r.ends ≤ r'.begins
  closesLast : ∀ x ∈ closes, ∀ r ∈ records, r.ends ≤ x
  fresh : ∀ v ∈ verdicts replayProtectionInit (seqNums messages), v.2 = true

namespace TimedClient

/-- All bytes of the client, with the instants at which they arrive. -/
def stream (client : TimedClient) : List (ℤ × UInt8) := client.records.flatMap TimedRecord.stream

/-- The number of bytes up to the end of packet `k`, counted from 0. -/
def bytesTo (client : TimedClient) (k : ℕ) : ℕ :=
  ((client.messages.take (k + 1)).flatMap Message.wire).length

/-- Packet `k` is `m`, and its last byte arrives at the instant `x`. -/
structure Arrives (client : TimedClient) (k : ℕ) (m : Message) (x : ℤ) : Prop where
  message : client.messages[k]? = some m
  lastByte : ∃ b, client.stream[client.bytesTo k - 1]? = some (x, b)

end TimedClient

/-! ## The worker's surroundings -/

/-- What is supplied to one operation. -/
structure TimedSupply where
  /-- How long it takes to get the lock or to send. -/
  delay : ℕ
  /-- The game state when the lock has been taken. -/
  shm : GameSharedData
  /-- The value of `rand()`. -/
  roll : ℕ
  /-- Does a send succeed? -/
  sent : Bool

/-- What surrounds the worker. -/
structure TimedWorld where
  client : TimedClient
  /-- The present instant. -/
  clock : ℤ
  /-- The connection; the records that have still to come are among those that arrive. -/
  conn : Connection
  /-- The number of packets received so far. -/
  received : ℕ
  /-- The supplies of the operations to come. -/
  supply : ℕ → TimedSupply

namespace TimedWorld

/-- The number of records that have been taken out of the socket. -/
def decrypted (w : TimedWorld) : ℕ := w.client.records.length - w.conn.ssl.arriving.length

/-- The records that are in the socket or have still to come. -/
def coming (w : TimedWorld) : List TimedRecord := w.client.records.drop w.decrypted

/-- The instant from which on there is something to be seen on the socket. -/
def nextEvent (w : TimedWorld) : Option ℤ :=
  match w.coming with
  | r :: _ => some r.begins
  | [] => w.client.closes

/-- `select` on the socket, and the instant at which it returns. -/
def select (timeoutSec : ℕ) (w : TimedWorld) : SelectRet × ℤ :=
  let deadline := w.clock + 1000 * timeoutSec
  match w.nextEvent with
  | some instant =>
      if instant ≤ deadline then (.ready, max w.clock instant) else (.timedOut, deadline)
  | none => (.timedOut, deadline)

/-- `recv_packet_with_timeout` from the instant on at which `select` has returned: `SSL_read` waits
for the records that it takes. -/
def read (sel : SelectRet × ℤ) (timeoutSec : ℕ) (w : TimedWorld) :
    Option GamePacket × TimedWorld :=
  let r := recvPacketWithTimeout sel.1 timeoutSec w.conn
  let w' := { w with
    conn := r.2
    received := if r.1.isSome then w.received + 1 else w.received }
  let taken := w.coming.take (w'.decrypted - w.decrypted)
  (r.1, { w' with clock := taken.foldl (fun x record => max x record.ends) sel.2 })

/-- `recv_packet_with_timeout`.  (With no timeout and nothing to come it would not return; here it
fails, and there is no session.) -/
def recv (timeoutSec : ℕ) (w : TimedWorld) : Option GamePacket × TimedWorld :=
  w.read (if timeoutSec > 0 then w.select timeoutSec else (.ready, w.clock)) timeoutSec

/-- The world when an operation has used up its supply. -/
def next (w : TimedWorld) : TimedWorld :=
  { w with clock := w.clock + (w.supply 0).delay, supply := fun n => w.supply (n + 1) }

/-- The effect of a worker's operation. -/
def exec : (o : WorkerOp) → TimedWorld → o.Ret × TimedWorld
  | .game o, w => ((o.exec (timeNull w.next.clock) (w.supply 0).shm).1, w.next)
  | .rand, w => ((w.supply 0).roll, { w with supply := fun n => w.supply (n + 1) })
  | .time, w => (timeNull w.clock, w)
  | .recv timeoutSec, w => w.recv timeoutSec
  | .send _, w => ((w.supply 0).sent, w.next)
  | .tlsShutdown, w => ((), w)
  | .mark _, w => ((), w)

/-- The world when the connection has been accepted; the packet buffer holds whatever was in
memory. -/
def accepted (client : TimedClient) (clock : ℤ) (packet : GamePacket)
    (supply : ℕ → TimedSupply) : TimedWorld where
  client := client
  clock := clock
  conn := ⟨⟨[], client.records.map TimedRecord.arrival, [], []⟩, packet, replayProtectionInit⟩
  received := 0
  supply := supply

end TimedWorld

/-- The local variables of `handle_client` and the world after `n` turns of its loop, if the
client has been admitted and the session still lasts. -/
def sessionAt (w : TimedWorld) : ℕ → Option (ClientLocals × TimedWorld) :=
  atHead TimedWorld.exec handleClient handleClientLoop w

end WorldBossRaid
