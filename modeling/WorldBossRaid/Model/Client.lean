import WorldBossRaid.Framework.Interleave
import WorldBossRaid.Model.Protocol

/-!
# The client (`client.c`, `client_ui.c`)

`UiGameState` is what the two callbacks hand to `ui_game_loop`; the first section has the copies
that fill it, in the single-threaded and in the threaded client, and the next two the parts of the
loop that decide on the victory screen and on the god screen.

The threaded client is two interaction programs over one `SharedGameState`.  Each locked section
is one operation; so are the sending of a request and the arrival of its reply, which may be any
time apart.  `pthread_cond_timedwait` gives the lock up, so a turn of `attack_cb_impl`'s waiting
loop is two operations: the test under the lock, and the wake-up, by a signal or by the timeout.
-/

namespace WorldBossRaid

open Bytes Interaction

/-! ## The state handed to the user interface -/

/-- `UI_MAX_NAME`. -/
abbrev uiMaxName : ℕ := 32

/-- `UiGameState`. -/
structure UiGameState where
  bossHp : ℤ
  maxHp : ℤ
  onlineCount : ℤ
  stage : UInt8
  isRespawning : UInt8
  isCrit : UInt8
  isLucky : UInt8
  lastPlayerDamage : ℤ
  lastBossDice : ℤ
  lastPlayerStreak : ℤ
  dmgTaken : ℤ
  lastKiller : Buffer uiMaxName
  deriving DecidableEq

/-- A `UiGameState` after `memset(.., 0, ..)`. -/
def UiGameState.zero : UiGameState := ⟨0, 0, 0, 0, 0, 0, 0, 0, 0, 0, 0, .zero _⟩

/-- The bounded copy of a name that all of the client's copies are: 31 bytes and a NUL. -/
def copyName (dst src : Buffer 32) : Buffer 32 := (dst.strncpy src 31 nameCopy_fits).setByte 31 0

/-- The fields about the raid, copied from a reply. -/
def UiGameState.copyWorld (s : PayloadGameState) (g : UiGameState) : UiGameState :=
  { g with
    bossHp := s.bossHp
    maxHp := s.maxHp
    onlineCount := s.onlineCount
    stage := s.stage
    isRespawning := s.isRespawning
    lastKiller := copyName g.lastKiller s.lastKiller }

/-- The fields about one's own attack, copied from a reply. -/
def UiGameState.copyBattle (s : PayloadGameState) (g : UiGameState) : UiGameState :=
  { g with
    isCrit := s.isCrit
    isLucky := s.isLucky
    lastPlayerDamage := s.lastPlayerDamage
    lastBossDice := s.lastBossDice
    lastPlayerStreak := s.lastPlayerStreak
    dmgTaken := s.dmgTaken }

/-- The fields about one's own attack but `is_lucky`, cleared. -/
def UiGameState.clearBattle (g : UiGameState) : UiGameState :=
  { g with
    isCrit := 0
    lastPlayerDamage := 0
    lastBossDice := 0
    lastPlayerStreak := 0
    dmgTaken := 0 }

/-- `attack_cb_impl` of the single-threaded client, and the copy that `network_thread_func` makes
of the reply to an attack. -/
def UiGameState.ofAttack (s : PayloadGameState) (g : UiGameState) : UiGameState :=
  (g.copyWorld s).copyBattle s

/-- `heartbeat_cb_impl` of the single-threaded client. -/
def UiGameState.ofHeartbeat (s : PayloadGameState) (g : UiGameState) : UiGameState :=
  { (g.copyWorld s).clearBattle with isLucky := 0 }

/-- The copy that `network_thread_func` makes of the reply to its first heartbeat. -/
def UiGameState.ofFirstHeartbeat (s : PayloadGameState) (g : UiGameState) : UiGameState :=
  { (g.copyWorld s).clearBattle with isLucky := s.isLucky }

/-- The copy that `network_thread_func` makes of the reply to every other heartbeat: during a
lucky kill the figures of the last attack stay. -/
def UiGameState.ofLoopHeartbeat (s : PayloadGameState) (g : UiGameState) : UiGameState :=
  let g := { g.copyWorld s with isLucky := s.isLucky }
  if s.isLucky = 0 then g.clearBattle else g

/-! ## The victory screen -/

/-- The test of `ui_game_loop` that leads to the victory screen. -/
def UiGameState.victory (g : UiGameState) : Bool :=
  g.stage == 2 && g.bossHp ≤ 0 && g.isRespawning == 0

/-- `state.last_killer` after `ui_game_loop` has taken over `g`. -/
def UiGameState.winner (old : Buffer uiMaxName) (g : UiGameState) : Buffer uiMaxName :=
  copyName old g.lastKiller

/-- The name that `ui_show_victory_screen` puts into its message. -/
def shownWinner (winnerName : Buffer uiMaxName) : List UInt8 :=
  if winnerName.bytes.head? = some 0 then "UNKNOWN HERO".toUTF8.toList else winnerName.cstr

/-! ## The god screen -/

/-- `has_shown_lucky_kill`, and how often `ui_game_loop` has called `ui_show_god_screen`. -/
structure GodScreen where
  hasShownLuckyKill : Bool
  calls : ℕ
  deriving DecidableEq

/-- What `ui_game_loop` does about a lucky kill after `attack_cb` has returned 0. -/
def GodScreen.afterAttack (g : UiGameState) (u : GodScreen) : GodScreen :=
  if g.isLucky ≠ 0 ∧ u.hasShownLuckyKill = false then ⟨true, u.calls + 1⟩ else u

/-- What it does after `heartbeat_cb` has returned 0: the same, and the mark is reset when the
event seems to be over. -/
def GodScreen.afterHeartbeat (g : UiGameState) (u : GodScreen) : GodScreen :=
  let u := u.afterAttack g
  if g.isLucky = 0 ∧ u.hasShownLuckyKill = true then { u with hasShownLuckyKill := false } else u

/-! ## The shared slot of the threaded client -/

/-- `SharedGameState`, without its lock and condition variables. -/
structure SharedGameState where
  latestState : UiGameState
  stateUpdated : Bool
  attackRequested : Bool
  attackCompleted : Bool
  shouldExit : Bool
  networkError : ℤ
  deriving DecidableEq

/-- As `run_interactive_mode_threaded` initialises it. -/
def SharedGameState.init : SharedGameState := ⟨.zero, false, false, false, false, 0⟩

/-- The two threads. -/
inductive ClientThread where
  | ui | network
  deriving DecidableEq, Repr

/-- What `ui_game_loop` does next: it calls a callback, or it ends. -/
inductive UiAction where
  | attack | heartbeat | quit
  deriving DecidableEq, Repr

/-- The outcome of a test of the waiting condition of `attack_cb_impl`. -/
inductive PollRet where
  /-- Not yet: the thread waits on the condition variable. -/
  | waiting
  /-- The callback returns -1. -/
  | failed
  /-- The callback returns 0, with a copy of the latest state. -/
  | copied (g : UiGameState)
  deriving DecidableEq

/-- The steps of both threads. -/
inductive ClientOp where
  -- the UI thread
  | nextAction
  | requestAttack
  | pollAttack
  /-- `pthread_cond_timedwait` returns; the answer tells whether with `ETIMEDOUT`. -/
  | wakeUp
  /-- `heartbeat_cb_impl`. -/
  | readState
  | announceExit
  -- the network thread
  | clearError
  /-- The condition of its `while`. -/
  | readExit
  | takeRequest
  /-- A request is sent; the answer is `pkt_send_local`'s success. -/
  | sendRequest (opcode : OpCode)
  /-- The reply to it comes in, or the receive fails. -/
  | receiveReply (opcode : OpCode)
  | publishFirst (s : PayloadGameState)
  | publishAttack (s : PayloadGameState)
  | publishHeartbeat (s : PayloadGameState)
  | failAttack
  | failHeartbeat
  | sleep
  deriving DecidableEq

/-- Their answers. -/
abbrev ClientOp.Ret : ClientOp → Type
  | nextAction => UiAction
  | requestAttack => Unit
  | pollAttack => PollRet
  | wakeUp => Bool
  | readState => UiGameState
  | announceExit => Unit
  | clearError => Unit
  | readExit => Bool
  | takeRequest => Bool
  | sendRequest _ => Bool
  | receiveReply _ => Option PayloadGameState
  | publishFirst _ => Unit
  | publishAttack _ => Unit
  | publishHeartbeat _ => Unit
  | failAttack => Unit
  | failHeartbeat => Unit
  | sleep => Unit

/-- What the environment supplies: the player, the timeout, and the server. -/
structure ClientEnv where
  action : UiAction
  timedOut : Bool
  sent : Bool
  reply : Option PayloadGameState

/-- The locked test and copy of `attack_cb_impl`. -/
def SharedGameState.poll (shared : SharedGameState) : PollRet × SharedGameState :=
  if !shared.attackCompleted && !shared.shouldExit then
    (.waiting, shared)
  else if shared.networkError ≠ 0 ∨ shared.shouldExit = true then
    (.failed, shared)
  else
    (.copied shared.latestState, { shared with stateUpdated := false })

/-- The effect of the steps. -/
def ClientOp.exec (e : ClientEnv) : (o : ClientOp) → SharedGameState → o.Ret × SharedGameState
  | nextAction, shared => (e.action, shared)
  | requestAttack, shared => ((), { shared with attackRequested := true, attackCompleted := false })
  | pollAttack, shared => shared.poll
  | wakeUp, shared => (e.timedOut, shared)
  | readState, shared => (shared.latestState, { shared with stateUpdated := false })
  | announceExit, shared => ((), { shared with shouldExit := true })
  | clearError, shared => ((), { shared with networkError := 0 })
  | readExit, shared => (shared.shouldExit, shared)
  | takeRequest, shared => (shared.attackRequested, { shared with attackRequested := false })
  | sendRequest _, shared => (e.sent, shared)
  | receiveReply _, shared => (e.reply, shared)
  | publishFirst s, shared =>
      ((), { shared with
        latestState := shared.latestState.ofFirstHeartbeat s
        stateUpdated := true })
  | publishAttack s, shared =>
      ((), { shared with
        latestState := shared.latestState.ofAttack s
        stateUpdated := true
        attackCompleted := true })
  | publishHeartbeat s, shared =>
      ((), { shared with
        latestState := shared.latestState.ofLoopHeartbeat s
        stateUpdated := true })
  | failAttack, shared => ((), { shared with networkError := -1, attackCompleted := true })
  | failHeartbeat, shared => ((), { shared with networkError := -1, shouldExit := true })
  | sleep, shared => ((), shared)

/-! ## The threads -/

/-- Client code. -/
abbrev ClientProg : Type → Type := Prog ClientOp ClientOp.Ret

/-- What a thread has done so far, newest first. -/
abbrev ClientHistory : Type := Prog.History ClientOp ClientOp.Ret

/-- Issue a step. -/
abbrev ClientOp.step (o : ClientOp) : ClientProg o.Ret := @Prog.perform ClientOp ClientOp.Ret o

/-- Where a thread stands at the head of a loop, or after it. -/
inductive ClientPoint where
  /-- `ui_game_loop`. -/
  | uiLoop
  /-- The waiting loop of `attack_cb_impl`. -/
  | attackWait
  /-- The `while` of `network_thread_func`. -/
  | networkLoop
  | ended
  deriving DecidableEq, Repr

/-- The next callback of `ui_game_loop`; a call of `attack_cb_impl` begins with the request. -/
def uiLoop : ClientProg ClientPoint := do
  let action ← ClientOp.nextAction.step
  match action with
  | .attack => do
      ClientOp.requestAttack.step
      return .attackWait
  | .heartbeat => do
      let _ ← ClientOp.readState.step
      return .uiLoop
  | .quit => do
      ClientOp.announceExit.step
      return .ended

/-- One turn of the waiting loop of `attack_cb_impl`. -/
def attackWait : ClientProg ClientPoint := do
  match ← ClientOp.pollAttack.step with
  | .waiting =>
      let timedOut ← ClientOp.wakeUp.step
      return if timedOut then .uiLoop else .attackWait
  | .failed => return .uiLoop
  | .copied _ => return .uiLoop

/-- `net_attack_and_get_state` and `net_heartbeat_get_state`. -/
def netGetState (opcode : OpCode) : ClientProg (Option PayloadGameState) := do
  let sent ← (ClientOp.sendRequest opcode).step
  if sent then (ClientOp.receiveReply opcode).step else return none

/-- `network_thread_func`, up to its loop. -/
def networkStart : ClientProg ClientPoint := do
  ClientOp.clearError.step
  match ← netGetState .heartbeat with
  | some s =>
      (ClientOp.publishFirst s).step
      return .networkLoop
  | none => return .networkLoop

/-- The exchange for an attack request. -/
def networkAttack : ClientProg ClientPoint := do
  match ← netGetState .attack with
  | some s =>
      (ClientOp.publishAttack s).step
      return .networkLoop
  | none =>
      ClientOp.failAttack.step
      return .networkLoop

/-- The exchange of a heartbeat. -/
def networkHeartbeat : ClientProg ClientPoint := do
  match ← netGetState .heartbeat with
  | some s =>
      (ClientOp.publishHeartbeat s).step
      ClientOp.sleep.step
      return .networkLoop
  | none =>
      ClientOp.failHeartbeat.step
      return .ended

/-- One turn of the loop of `network_thread_func`. -/
def networkLoop : ClientProg ClientPoint := do
  let exit ← ClientOp.readExit.step
  if exit then
    return .ended
  else
    let hasAttack ← ClientOp.takeRequest.step
    if hasAttack then networkAttack else networkHeartbeat

/-- The god screen after a history of the UI thread. -/
def godScreen : ClientHistory → GodScreen
  | [] => ⟨false, 0⟩
  | ⟨.pollAttack, .copied g⟩ :: h => (godScreen h).afterAttack g
  | ⟨.readState, g⟩ :: h => (godScreen h).afterHeartbeat g
  | _ :: h => godScreen h

/-- The threaded client. -/
def client :
    Machine ClientThread ClientOp ClientOp.Ret ClientPoint SharedGameState ClientEnv where
  exec _ e o shared := o.exec e shared
  resume
    | .uiLoop => some uiLoop
    | .attackWait => some attackWait
    | .networkLoop => some networkLoop
    | .ended => none

/-- The client when both threads start. -/
def clientInit : Config ClientThread ClientOp ClientOp.Ret ClientPoint SharedGameState where
  shared := .init
  threads
    | .ui => uiLoop
    | .network => networkStart

end WorldBossRaid
