import WorldBossRaid.Framework.Parallel
import WorldBossRaid.Model.Client
import WorldBossRaid.Model.Server

/-!
# Clients and server together (`client.c`, `client_handler.c`)

Every session has a client process and a worker process, joined by one connection.  A client
joins, and then makes one request after another and waits for the reply to each; which request
comes next, and when the client quits, is up to its surroundings, as are the keys in the
interactive mode and the other thread in the threaded one.  (A process in the stress mode has many
sessions, which draw their sequence numbers from one counter; that is not modelled here.)  The
workers are those of `handle_client`, and what they receive is what their client has sent.

The bytes on their way are a queue in each direction.  A receive takes them in pieces cut
anywhere, with retries in between, or fails.  A TLS record that has not been written whole cannot
be read, so a call of `SSL_write` that fails delivers nothing.  A worker that gives up shuts its
TLS session down.  A client that has read everything up to there gets 0 from `SSL_read`, and can
still write, to nobody; after any other failure its SSL object is of no further use.
-/

namespace WorldBossRaid

open Bytes Interaction

/-! ## The client's packets -/

lemma playerId_fits : 0 + 4 ≤ maxPayloadSize := by decide

/-- `pkt->body.join_resp`. -/
def GamePacket.joinResp (pkt : GamePacket) : PayloadJoinResp where
  playerId := int32Value (pkt.body.member 0 4 playerId_fits).bytes
  status := pkt.body.bytes.getD 4 0

/-- `pkt.body.join` as `send_join_and_wait_resp` fills it in. -/
def joinPayload (username : Buffer maxPlayerName) : Buffer maxPlayerName :=
  ((Buffer.zero maxPlayerName).strncpy username 31 nameCopy_fits).setByte 31 0

/-! ## The client's code -/

/-- What a client asks of its surroundings. -/
inductive PlayerOp where
  /-- `pkt_init_local`, the payload, and `pkt_send_local`. -/
  | send (opcode : OpCode) (payload : List UInt8)
  /-- `pkt_recv_local` into the buffer `pkt`. -/
  | recv (pkt : GamePacket)
  /-- What is to be done next? -/
  | next
  /-- A callback has got this state from the server. -/
  | deliver (state : PayloadGameState)
  deriving DecidableEq

/-- The answers.  A send is answered by the packet buffer afterwards and a receive by the packet,
or both by `none` for -1. -/
abbrev PlayerOp.Ret : PlayerOp → Type
  | send _ _ => Option GamePacket
  | recv _ => Option GamePacket
  | next => UiAction
  | deliver _ => Unit

/-- Client code. -/
abbrev Player : Type → Type := Prog PlayerOp PlayerOp.Ret

/-- What a client has done so far, newest first. -/
abbrev PlayerPast : Type := Prog.History PlayerOp PlayerOp.Ret

/-- Does the client go on? -/
inductive PlayerPoint where
  | playing | ended
  deriving DecidableEq, Repr

namespace Player

abbrev send (opcode : OpCode) (payload : List UInt8) : Player (Option GamePacket) :=
  @Prog.perform PlayerOp PlayerOp.Ret (.send opcode payload)

abbrev recv (pkt : GamePacket) : Player (Option GamePacket) :=
  @Prog.perform PlayerOp PlayerOp.Ret (.recv pkt)

abbrev next : Player UiAction := @Prog.perform PlayerOp PlayerOp.Ret .next

abbrev deliver (state : PayloadGameState) : Player Unit :=
  @Prog.perform PlayerOp PlayerOp.Ret (.deliver state)

/-- `send_join_and_wait_resp`. -/
def sendJoinAndWaitResp (username : Buffer maxPlayerName) : Player ℤ := do
  match ← send .join (joinPayload username).bytes with
  | none => return -1
  | some pkt =>
    match ← recv pkt with
    | none => return -1
    | some pkt =>
      if pkt.header.opcode ≠ OpCode.joinResp.code then
        return -1
      else if pkt.joinResp.status = 1 then
        return pkt.joinResp.playerId
      else
        return -1

/-- What `net_attack_and_get_state` and `net_heartbeat_get_state` have in common. -/
def exchange (opcode : OpCode) (payload : List UInt8) : Player (Option PayloadGameState) := do
  match ← send opcode payload with
  | none => return none
  | some pkt =>
    match ← recv pkt with
    | none => return none
    | some pkt =>
      if pkt.header.opcode ≠ OpCode.gameState.code then
        return none
      else
        return some pkt.gameState

/-- `net_attack_and_get_state`: the damage is only a placeholder. -/
def netAttackAndGetState : Player (Option PayloadGameState) := exchange .attack (int32Bytes 0)

/-- `net_heartbeat_get_state`. -/
def netHeartbeatGetState : Player (Option PayloadGameState) := exchange .heartbeat []

/-- A request and what comes of it. -/
def report (request : Player (Option PayloadGameState)) : Player PlayerPoint := do
  match ← request with
  | some state =>
      deliver state
      return .playing
  | none => return .playing

/-- A client up to its first request. -/
def start (username : Buffer maxPlayerName) : Player PlayerPoint := do
  let playerId ← sendJoinAndWaitResp username
  if playerId < 0 then return .ended else return .playing

/-- One request of a client. -/
def turn : Player PlayerPoint := do
  match ← next with
  | .attack => report netAttackAndGetState
  | .heartbeat => report netHeartbeatGetState
  | .quit => return .ended

end Player

/-! ## Connections -/

/-- How the bytes of a receive come in. -/
inductive Cut where
  /-- A record of at most `k + 1` bytes. -/
  | piece (k : ℕ)
  | want
  | failure
  deriving DecidableEq, Repr

/-- Cut bytes into records; what no record takes is left. -/
def chop : List Cut → List UInt8 → List Arrival × List UInt8
  | [], bs => ([], bs)
  | .want :: cuts, bs => (.want :: (chop cuts bs).1, (chop cuts bs).2)
  | .failure :: cuts, bs => (.failure :: (chop cuts bs).1, (chop cuts bs).2)
  | .piece _ :: cuts, [] => chop cuts []
  | .piece k :: cuts, b :: bs =>
      (.record b (bs.take k) :: (chop cuts (bs.drop k)).1, (chop cuts (bs.drop k)).2)

/-- A connection, with what both of its ends keep for it. -/
structure Line where
  /-- The bytes that the worker has not read yet. -/
  toServer : List UInt8
  /-- The bytes that the client has not read yet. -/
  toClient : List UInt8
  /-- The worker's packet buffer. -/
  packet : GamePacket
  /-- The worker's replay protection. -/
  rp : ReplayProtection
  /-- The client's `g_seq_num`. -/
  gSeqNum : UInt32
  /-- Has the worker shut the TLS session down? -/
  closed : Bool
  /-- Has a call on the client's SSL object failed for good? -/
  down : Bool
  deriving DecidableEq

/-- A connection that has just been set up; the packet buffer holds whatever was in memory. -/
def Line.fresh (packet : GamePacket) : Line :=
  ⟨[], [], packet, replayProtectionInit, 1, false, false⟩

/-- What the surroundings supply to one operation. -/
structure LineEnv where
  now : ℤ
  roll : ℕ
  select : SelectRet
  cuts : List Cut
  /-- Does `SSL_write` succeed? -/
  writable : Bool
  action : UiAction

/-- An SSL object to receive with. -/
def Ssl.reading (arriving : List Arrival) : Ssl := ⟨[], arriving, [], []⟩

/-- An SSL object to send with. -/
def Ssl.writing (writable : Bool) : Ssl := ⟨[], [], if writable then [] else [.failure], []⟩

/-- The packet that a client sends next. -/
def Line.request (l : Line) (opcode : OpCode) (payload : List UInt8) : GamePacket :=
  let pkt := (pktInitLocal l.gSeqNum opcode.code).1
  { pkt with body := pkt.body.write payload }

/-- Has a receive that failed met the end of the stream, and nothing worse?  The worker has shut
the session down, all of its bytes have been read, and no call has failed. -/
def Line.atEnd (l : Line) (cuts : List Cut) (left : List UInt8) : Bool :=
  l.closed && left.isEmpty && !cuts.contains .failure

/-- The effect of a client's operation. -/
def PlayerOp.exec (e : LineEnv) : (o : PlayerOp) → Line → o.Ret × Line
  | .send opcode payload, l =>
      let pkt := l.request opcode payload
      let r := pktSendLocal pkt payload.length (Ssl.writing (e.writable && !l.down))
      (if r.1 then some (pkt.seal payload.length) else none,
        { l with
          toServer := l.toServer ++ r.2.sent
          gSeqNum := (pktInitLocal l.gSeqNum opcode.code).2
          down := l.down || !r.1 })
  | .recv pkt, l =>
      if l.down then
        (none, l)
      else
        let pieces := chop e.cuts l.toClient
        let r := pktRecvLocal (Ssl.reading pieces.1) pkt
        let left := r.2.plaintext ++ pieces.2
        (r.1, { l with toClient := left, down := r.1.isNone && !l.atEnd e.cuts left })
  | .next, l => (e.action, l)
  | .deliver _, l => ((), l)

/-- The effect of a worker's receive. -/
def Line.serverRecv (e : LineEnv) (timeoutSec : ℕ) (l : Line) : Option GamePacket × Line :=
  let pieces := chop e.cuts l.toServer
  let r := recvPacketWithTimeout e.select timeoutSec ⟨Ssl.reading pieces.1, l.packet, l.rp⟩
  (r.1, { l with
    toServer := r.2.ssl.plaintext ++ pieces.2
    packet := r.2.packet
    rp := r.2.rp })

/-- The effect of a worker's send. -/
def Line.serverSend (e : LineEnv) (m : Response) (l : Line) : Bool × Line :=
  let r := sendPacket m.packet m.payload.length (Ssl.writing e.writable)
  (r.1, { l with toClient := l.toClient ++ r.2.sent })

/-! ## The whole -/

/-- The shared game state, and the connection of every session. -/
structure World (ι : Type) where
  shm : GameSharedData
  line : ι → Line

section World

variable {ι : Type} [DecidableEq ι]

def World.setLine (w : World ι) (i : ι) (l : Line) : World ι :=
  { w with line := Function.update w.line i l }

@[simp] lemma World.shm_setLine (w : World ι) (i : ι) (l : Line) : (w.setLine i l).shm = w.shm :=
  rfl

@[simp] lemma World.line_setLine_self (w : World ι) (i : ι) (l : Line) :
    (w.setLine i l).line i = l := by
  simp only [setLine, Function.update_self]

lemma World.line_setLine_of_ne (w : World ι) {i j : ι} (hij : i ≠ j) (l : Line) :
    (w.setLine j l).line i = w.line i := by
  simp only [setLine, Function.update_of_ne hij]

/-- The effect of an operation of worker `i`. -/
def World.exec (i : ι) (e : LineEnv) : (o : WorkerOp) → World ι → o.Ret × World ι
  | .game o, w => ((o.exec e.now w.shm).1, { w with shm := (o.exec e.now w.shm).2 })
  | .rand, w => (e.roll, w)
  | .time, w => (e.now, w)
  | .recv timeoutSec, w =>
      let r := (w.line i).serverRecv e timeoutSec
      (r.1, w.setLine i r.2)
  | .send m, w =>
      let r := (w.line i).serverSend e m
      (r.1, w.setLine i r.2)
  | .tlsShutdown, w => ((), w.setLine i { w.line i with closed := true })
  | .mark _, w => ((), w)

/-- The clients. -/
def players (ι : Type) [DecidableEq ι] :
    Machine ι PlayerOp PlayerOp.Ret PlayerPoint (World ι) LineEnv where
  exec i e o w :=
    let r := o.exec e (w.line i)
    (r.1, w.setLine i r.2)
  resume
    | .playing => some Player.turn
    | .ended => none

/-- The workers. -/
def workers (ι : Type) [DecidableEq ι] :
    Machine ι WorkerOp WorkerOp.Ret (Option ClientLocals) (World ι) LineEnv where
  exec i e o w := w.exec i e o
  resume v := v.map handleClientLoop

/-- Clients and workers together. -/
def endToEnd (ι : Type) [DecidableEq ι] :
    Machine (Side × ι) (PlayerOp ⊕ WorkerOp) (Sum.elim PlayerOp.Ret WorkerOp.Ret)
      (PlayerPoint ⊕ Option ClientLocals) (World ι) LineEnv :=
  (players ι).beside (workers ι)

/-- The world when all connections have been set up. -/
def World.init (buffer : ι → GamePacket) : World ι := ⟨gamestateInit, fun i => .fresh (buffer i)⟩

/-- The start, for the names that the players have typed in. -/
def endToEndInit (username : ι → Buffer maxPlayerName) (buffer : ι → GamePacket) :
    Config (Side × ι) (PlayerOp ⊕ WorkerOp) (Sum.elim PlayerOp.Ret WorkerOp.Ret)
      (PlayerPoint ⊕ Option ClientLocals) (World ι) :=
  besideInit (World.init buffer) (fun i => Player.start (username i)) fun _ => handleClient

lemma workers_resume (ι : Type) [DecidableEq ι] : (raid ι).resume = (workers ι).resume := rfl

/-- The workers see their clients as a raid sees its surroundings. -/
def workersRaid (ι : Type) [DecidableEq ι] : Projection (workers ι) (raid ι) where
  state := World.shm
  env i e o w :=
    { now := e.now
      roll := e.roll
      received :=
        match o with
        | .recv timeoutSec => ((w.line i).serverRecv e timeoutSec).1
        | _ => none
      sent :=
        match o with
        | .send m => ((w.line i).serverSend e m).1
        | _ => false }
  exec_eq i e o w := by cases o <;> rfl
  resume_eq := workers_resume ι

end World

end WorldBossRaid
