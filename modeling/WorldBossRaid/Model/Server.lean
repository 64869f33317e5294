import WorldBossRaid.Framework.Projection
import WorldBossRaid.Model.ClientHandler
import WorldBossRaid.Model.Transport

/-!
# The server: workers over one shared game state

`main` forks one process for each accepted connection, and every process runs `handle_client`
over the same `GameSharedData`.  Both machines of this module run these workers, for any set `ι`
of sessions, and take each operation of a worker as one atomic step.

In `raid` only the game state is the machine's own: the clock, the rolls, the packets received
and the success of every send are whatever the environment supplies.  In `server` each session
also has its `Connection`, and what a worker receives and sends are the bytes of that connection.
`serverRaid` projects the second machine to the first.
-/

namespace WorldBossRaid

open Bytes Interaction

/-! ## The shared game state under any input -/

/-- What the environment of a worker supplies for one operation. -/
structure RaidEnv where
  /-- The clock. -/
  now : ℤ
  /-- The value of `rand()`. -/
  roll : ℕ
  /-- The packet buffer after a receive, if it succeeds. -/
  received : Option GamePacket
  /-- Does a send succeed? -/
  sent : Bool

/-- The effect of a worker's operation on the game state. -/
def WorkerOp.exec (e : RaidEnv) : (o : WorkerOp) → GameSharedData → o.Ret × GameSharedData
  | .game o, shm => o.exec e.now shm
  | .rand, shm => (e.roll, shm)
  | .time, shm => (e.now, shm)
  | .recv _, shm => (e.received, shm)
  | .send _, shm => (e.sent, shm)
  | .tlsShutdown, shm => ((), shm)
  | .mark _, shm => ((), shm)

/-- The workers under any input. -/
def raid (ι : Type) :
    Machine ι WorkerOp WorkerOp.Ret (Option ClientLocals) GameSharedData RaidEnv where
  exec _ e o shm := o.exec e shm
  resume v := v.map handleClientLoop

/-- The game state after `gamestate_init`, and a worker for every session. -/
def raidInit (ι : Type) : Config ι WorkerOp WorkerOp.Ret (Option ClientLocals) GameSharedData where
  shared := gamestateInit
  threads _ := handleClient

/-! ## The server on byte streams -/

/-- The game state, and the connection of every session. -/
structure ServerState (ι : Type) where
  shm : GameSharedData
  conn : ι → Connection

/-- What the environment of the server supplies for one operation. -/
structure ServerEnv where
  now : ℤ
  roll : ℕ
  /-- The outcome of `select`. -/
  select : SelectRet

section Server

variable {ι : Type} [DecidableEq ι]

/-- Replace one session's connection. -/
def ServerState.setConn (s : ServerState ι) (i : ι) (c : Connection) : ServerState ι :=
  { s with conn := Function.update s.conn i c }

@[simp] lemma ServerState.conn_setConn_self (s : ServerState ι) (i : ι) (c : Connection) :
    (s.setConn i c).conn i = c := by
  simp only [setConn, Function.update_self]

lemma ServerState.conn_setConn_of_ne (s : ServerState ι) {i j : ι} (hij : i ≠ j)
    (c : Connection) : (s.setConn j c).conn i = s.conn i := by
  simp only [setConn, Function.update_of_ne hij]

/-- The effect of an operation of worker `i`. -/
def ServerState.exec (i : ι) (e : ServerEnv) :
    (o : WorkerOp) → ServerState ι → o.Ret × ServerState ι
  | .game o, s => ((o.exec e.now s.shm).1, { s with shm := (o.exec e.now s.shm).2 })
  | .rand, s => (e.roll, s)
  | .time, s => (e.now, s)
  | .recv timeoutSec, s =>
      let r := recvPacketWithTimeout e.select timeoutSec (s.conn i)
      (r.1, s.setConn i r.2)
  | .send m, s =>
      let r := sendPacket m.packet m.payload.length (s.conn i).ssl
      (r.1, s.setConn i { s.conn i with ssl := r.2 })
  | .tlsShutdown, s => ((), s)
  | .mark _, s => ((), s)

lemma ServerState.conn_exec_of_ne {i j : ι} (hij : i ≠ j) (e : ServerEnv) (o : WorkerOp)
    (s : ServerState ι) : (s.exec j e o).2.conn i = s.conn i := by
  cases o with
  | recv t => exact s.conn_setConn_of_ne hij _
  | send r => exact s.conn_setConn_of_ne hij _
  | _ => rfl

/-- The workers on their byte streams. -/
def server (ι : Type) [DecidableEq ι] :
    Machine ι WorkerOp WorkerOp.Ret (Option ClientLocals) (ServerState ι) ServerEnv where
  exec i e o s := s.exec i e o
  resume v := v.map handleClientLoop

/-- The state of a connection when its worker starts: the peer's bytes, and a packet buffer that
holds whatever was in memory. -/
def Connection.fresh (ssl : Ssl) (buffer : GamePacket) : Connection :=
  ⟨ssl, buffer, replayProtectionInit⟩

/-- The server at its start, for the given byte streams and contents of the packet buffers. -/
def serverInit (ssl : ι → Ssl) (buffer : ι → GamePacket) :
    Config ι WorkerOp WorkerOp.Ret (Option ClientLocals) (ServerState ι) where
  shared := ⟨gamestateInit, fun i => .fresh (ssl i) (buffer i)⟩
  threads _ := handleClient

/-! ## The server without its byte streams -/

/-- What the server's connections and its environment supply to a worker of the raid. -/
def ServerState.supply (i : ι) (e : ServerEnv) (o : WorkerOp) (s : ServerState ι) : RaidEnv where
  now := e.now
  roll := e.roll
  received :=
    match o with
    | .recv timeoutSec => (recvPacketWithTimeout e.select timeoutSec (s.conn i)).1
    | _ => none
  sent :=
    match o with
    | .send m => (sendPacket m.packet m.payload.length (s.conn i).ssl).1
    | _ => false

/-- The server is a raid in which the byte streams decide what is received and sent. -/
def serverRaid (ι : Type) [DecidableEq ι] : Projection (server ι) (raid ι) where
  state := ServerState.shm
  env i e o s := s.supply i e o
  exec_eq i e o s := by cases o <;> rfl
  resume_eq := rfl

end Server

end WorldBossRaid
