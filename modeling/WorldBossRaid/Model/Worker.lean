import WorldBossRaid.Framework.Prog
import WorldBossRaid.Model.GameState
import WorldBossRaid.Model.Security

/-!
# The operations of a worker process

One process serves one client.  Its code is an interaction program: a critical section of the
game state, a call of `rand`, a clock reading, a receive and a send are its operations, in the
order of the source.

`Mark` is no operation of the source.  It records in the history where a packet is acted on and
what `game_process_attack` returned, and has no effect.
-/

namespace WorldBossRaid

open Bytes Interaction

/-! ## Operations -/

/-- `AttackResult`. -/
structure AttackResult where
  bossDice : ℤ
  dmgDealt : ℤ
  dmgTaken : ℤ
  isWin : Bool
  isCrit : Bool
  bossJustDied : Bool
  isLuckyKill : Bool
  currentStreak : ℤ
  deriving DecidableEq, Repr

/-- An `AttackResult` after `memset(.., 0, ..)`. -/
def AttackResult.zero : AttackResult := ⟨0, 0, 0, false, false, false, false, 0⟩

/-- History marks. -/
inductive Mark where
  /-- `handle_client` is about to admit the client through `handle_join`. -/
  | admitted (pkt : GamePacket)
  /-- The `switch` has chosen the case of an attack, a heartbeat or a leave. -/
  | dispatched (pkt : GamePacket)
  /-- `game_process_attack` has returned. -/
  | attackReturned (result : AttackResult) (state : PayloadGameState)
  deriving DecidableEq

/-- What a worker asks of its surroundings. -/
inductive WorkerOp where
  | game (o : GameOp)
  | rand
  /-- `time(NULL)` outside the lock. -/
  | time
  /-- `recv_packet_with_timeout` into the worker's packet buffer. -/
  | recv (timeoutSec : ℕ)
  /-- `send_packet`. -/
  | send (r : Response)
  /-- `tls_shutdown`: the client is told that nothing more will come. -/
  | tlsShutdown
  | mark (m : Mark)
  deriving DecidableEq

/-- The answers.  A receive is answered by the packet buffer, or `none` for -1; a send by whether
it succeeded. -/
abbrev WorkerOp.Ret : WorkerOp → Type
  | game o => o.Ret
  | rand => ℕ
  | time => ℤ
  | recv _ => Option GamePacket
  | send _ => Bool
  | tlsShutdown => Unit
  | mark _ => Unit

/-- Worker code. -/
abbrev Worker : Type → Type := Prog WorkerOp WorkerOp.Ret

/-- What a worker has done so far, newest first. -/
abbrev WorkerHistory : Type := Prog.History WorkerOp WorkerOp.Ret

namespace Worker

abbrev game (o : GameOp) : Worker o.Ret := @Prog.perform WorkerOp WorkerOp.Ret (.game o)

abbrev rand : Worker ℕ := @Prog.perform WorkerOp WorkerOp.Ret .rand

abbrev time : Worker ℤ := @Prog.perform WorkerOp WorkerOp.Ret .time

abbrev recv (timeoutSec : ℕ) : Worker (Option GamePacket) :=
  @Prog.perform WorkerOp WorkerOp.Ret (.recv timeoutSec)

abbrev send (r : Response) : Worker Bool := @Prog.perform WorkerOp WorkerOp.Ret (.send r)

abbrev tlsShutdown : Worker Unit := @Prog.perform WorkerOp WorkerOp.Ret .tlsShutdown

abbrev mark (m : Mark) : Worker Unit := @Prog.perform WorkerOp WorkerOp.Ret (.mark m)

end Worker

end WorldBossRaid
