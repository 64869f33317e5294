import WorldBossRaid.Model.Security

/-!
# Packets over TLS (`client_handler.c`, `client.c`)

OpenSSL is not part of the repository; `Ssl` states what the code relies on.  The peer's bytes
arrive as records.  `SSL_read` decrypts one record when it has nothing left of the previous one,
hands out no more than it is asked for, keeps the rest inside the SSL object, and may at any time
have nothing yet (`SSL_ERROR_WANT_READ` or `SSL_ERROR_WANT_WRITE`) or fail.  Since the records may
be cut anywhere, this covers every way of handing a byte stream out in pieces: a piece no longer
than asked for is a record of its own.  `SSL_write` takes a non-empty part of what it is given, or
fails.

Both receive functions read a header, then as many bytes as its length field announces, each in a
loop around `SSL_read`.  A `Connection` is the memory a worker keeps for its client: the SSL
object, the one packet buffer that is reused for every packet, and the replay protection.
-/

namespace WorldBossRaid

open Bytes

/-! ## The SSL object -/

/-- What the socket delivers next. -/
inductive Arrival where
  /-- A record with at least one byte of data. -/
  | record (b : UInt8) (bs : List UInt8)
  /-- Nothing yet: the call is to be retried. -/
  | want
  /-- The call fails for good. -/
  | failure
  deriving DecidableEq, Repr

/-- The data an arrival carries. -/
def Arrival.data : Arrival → List UInt8
  | record b bs => b :: bs
  | want => []
  | failure => []

/-- How a call of `SSL_write` goes. -/
inductive WriteTurn where
  /-- At most `k + 1` bytes are taken. -/
  | accept (k : ℕ)
  | failure
  deriving DecidableEq, Repr

/-- An SSL object. -/
structure Ssl where
  /-- The unread rest of the record decrypted last. -/
  pending : List UInt8
  /-- What arrives after it; then the peer has closed the connection. -/
  arriving : List Arrival
  /-- How the next calls of `SSL_write` go; after these they take all they are given. -/
  writes : List WriteTurn
  /-- The bytes written so far. -/
  sent : List UInt8
  deriving DecidableEq, Repr

/-- All bytes still to be read, in order. -/
def Ssl.plaintext (s : Ssl) : List UInt8 := s.pending ++ s.arriving.flatMap Arrival.data

/-- No call of `SSL_read` fails before the bytes are used up. -/
def Ssl.Intact (s : Ssl) : Prop := Arrival.failure ∉ s.arriving

/-- The outcome of `SSL_read`. -/
inductive ReadRet where
  | data (bs : List UInt8)
  | want
  | failed
  deriving DecidableEq, Repr

/-- `SSL_read` of at most `n` bytes. -/
def sslRead (n : ℕ) (s : Ssl) : ReadRet × Ssl :=
  match s.pending, s.arriving with
  | b :: bs, _ => (.data ((b :: bs).take n), { s with pending := (b :: bs).drop n })
  | [], [] => (.failed, s)
  | [], .want :: rest => (.want, { s with arriving := rest })
  | [], .failure :: rest => (.failed, { s with arriving := rest })
  | [], .record b bs :: rest =>
      (.data ((b :: bs).take n), { s with pending := (b :: bs).drop n, arriving := rest })

/-- `SSL_write`: how many bytes it took, `none` for a failure. -/
def sslWrite (bs : List UInt8) (s : Ssl) : Option ℕ × Ssl :=
  match s.writes with
  | [] => (some bs.length, { s with sent := s.sent ++ bs })
  | .accept k :: rest =>
      (some (min (k + 1) bs.length),
        { s with writes := rest, sent := s.sent ++ bs.take (k + 1) })
  | .failure :: rest => (none, { s with writes := rest })

/-! ## Receiving -/

/-- The loop `while (received < want)` around `SSL_read`.  `fuel` bounds its iterations:
`recvExactly` supplies enough for every outcome. -/
def recvLoop (want : ℕ) : ℕ → List UInt8 → Ssl → Option (List UInt8) × Ssl
  | 0, received, s => (if received.length < want then none else some received, s)
  | fuel + 1, received, s =>
    if received.length < want then
      match sslRead (want - received.length) s with
      | (.data bs, s') => recvLoop want fuel (received ++ bs) s'
      | (.want, s') => recvLoop want fuel received s'
      | (.failed, s') => (none, s')
    else (some received, s)

/-- Read exactly `want` bytes, or fail. -/
def recvExactly (want : ℕ) (s : Ssl) : Option (List UInt8) × Ssl :=
  recvLoop want (want + s.arriving.length) [] s

/-- The memory a worker keeps for its client. -/
structure Connection where
  ssl : Ssl
  packet : GamePacket
  rp : ReplayProtection
  deriving DecidableEq

/-- The bounds both receive functions put on the length field. -/
def PacketHeader.validLength (h : PacketHeader) : Bool :=
  sizeofPacketHeader ≤ h.length.toNat && h.length.toNat ≤ sizeofGamePacket

/-- The number of body bytes the header announces. -/
def PacketHeader.bodyLen (h : PacketHeader) : ℕ := h.length.toNat - sizeofPacketHeader

/-- The receive loops of `recv_packet_with_timeout`.  Where it fails, the caller gives the
connection up and does not look at the packet buffer again. -/
def recvPacket (c : Connection) : Option GamePacket × Connection :=
  match recvExactly sizeofPacketHeader c.ssl with
  | (none, ssl) => (none, { c with ssl })
  | (some head, ssl) =>
    let header := PacketHeader.ofBytes head
    if !header.validLength then
      (none, { c with ssl })
    else
      match replayProtectionValidate c.rp header.seqNum with
      | (false, rp) => (none, { c with ssl, rp })
      | (true, rp) =>
        match recvExactly header.bodyLen ssl with
        | (none, ssl) => (none, { c with ssl, rp })
        | (some body, ssl) =>
          let packet : GamePacket := ⟨header, c.packet.body.write body⟩
          if calcChecksum (packet.body.bytes.take header.bodyLen) ≠ header.checksum then
            (none, { ssl, packet, rp })
          else
            (some packet, { ssl, packet, rp })

/-- The outcome of `select` on the socket. -/
inductive SelectRet where
  | ready | timedOut | failed
  deriving DecidableEq, Repr

/-- `recv_packet_with_timeout`, when `select` returns `sel`. -/
def recvPacketWithTimeout (sel : SelectRet) (timeoutSec : ℕ) (c : Connection) :
    Option GamePacket × Connection :=
  if timeoutSec > 0 ∧ sel ≠ .ready then (none, c) else recvPacket c

/-- `pkt_recv_local`: the client's receive function checks no sequence number, and a wrong
checksum only makes it print a warning. -/
def pktRecvLocal (ssl : Ssl) (packet : GamePacket) : Option GamePacket × Ssl :=
  match recvExactly sizeofPacketHeader ssl with
  | (none, ssl) => (none, ssl)
  | (some head, ssl) =>
    let header := PacketHeader.ofBytes head
    if !header.validLength then
      (none, ssl)
    else
      match recvExactly header.bodyLen ssl with
      | (none, ssl) => (none, ssl)
      | (some body, ssl) => (some ⟨header, packet.body.write body⟩, ssl)

/-! ## Sending -/

/-- The length and checksum fields, as both send functions fill them in. -/
def GamePacket.seal (pkt : GamePacket) (payloadSize : ℕ) : GamePacket :=
  { pkt with
    header := { pkt.header with
      length := UInt32.ofNat (sizeofPacketHeader + payloadSize)
      checksum := calcChecksum (pkt.body.bytes.take payloadSize) } }

/-- The first `header.length` bytes of a packet in memory. -/
def GamePacket.wire (pkt : GamePacket) : List UInt8 :=
  (pkt.header.bytes ++ pkt.body.bytes).take pkt.header.length.toNat

/-- The loop `while (sent_total < total)` around `SSL_write`; every turn takes at least one byte,
so `fuel` need not exceed their number. -/
def sendLoop : ℕ → List UInt8 → Ssl → Bool × Ssl
  | _, [], s => (true, s)
  | 0, _ :: _, s => (false, s)
  | fuel + 1, b :: bs, s =>
    match sslWrite (b :: bs) s with
    | (none, s') => (false, s')
    | (some n, s') => sendLoop fuel ((b :: bs).drop n) s'

/-- `send_packet`. -/
def sendPacket (pkt : GamePacket) (payloadSize : ℕ) (ssl : Ssl) : Bool × Ssl :=
  let bytes := (pkt.seal payloadSize).wire
  sendLoop bytes.length bytes ssl

/-- `pkt_send_local`: one call of `SSL_write`, and a short write is an error. -/
def pktSendLocal (pkt : GamePacket) (payloadSize : ℕ) (ssl : Ssl) : Bool × Ssl :=
  let bytes := (pkt.seal payloadSize).wire
  match sslWrite bytes ssl with
  | (none, s) => (false, s)
  | (some n, s) => (n == bytes.length, s)

/-- `pkt_init_local`, with the counter `g_seq_num` it draws from. -/
def pktInitLocal (gSeqNum : UInt32) (opcode : UInt16) : GamePacket × UInt32 :=
  ({ GamePacket.zero with
      header := { GamePacket.zero.header with opcode, seqNum := gSeqNum } }, gSeqNum + 1)

/-- A packet as the client makes it: initialised, its payload stored, and sealed for sending. -/
def clientPacket (gSeqNum : UInt32) (opcode : UInt16) (payload : List UInt8) : GamePacket :=
  let pkt := (pktInitLocal gSeqNum opcode).1
  { pkt with body := pkt.body.write payload }.seal payload.length

end WorldBossRaid
