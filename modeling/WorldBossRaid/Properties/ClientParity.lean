import WorldBossRaid.Model.ClientHandler
import WorldBossRaid.Properties.ClientRace

/-!
# What the two clients show after a heartbeat

Both clients hand `ui_game_loop` a function `heartbeat_cb_impl`.  In the single-threaded client it
does the exchange itself; in the threaded client it only copies `latest_state`, into which the
network thread has put what it made of the exchange, perhaps over the reply to an attack.

`processed` is the exchange that the network thread has dealt with last.  At every point of every
run of the threaded client its callback shows what the other client's callback would have shown for
that exchange exactly if it brought a reply without `is_lucky`: a failed exchange is -1 in the one
client and 0 in the other, and a lucky kill is kept from the user in the one and shown in the other.
-/

namespace WorldBossRaid

open Bytes Interaction Prog

/-! ## The two callbacks -/

/-- `heartbeat_cb_impl` of the single-threaded client, for an outcome of
`net_heartbeat_get_state`: the return code and `*out_state`. -/
def heartbeatCbImpl (outcome : Option PayloadGameState) (outState : UiGameState) :
    ℤ × UiGameState :=
  match outcome with
  | none => (-1, outState)
  | some s => (0, outState.ofHeartbeat s)

/-- `heartbeat_cb_impl` of the threaded client: the return code and `*out_state`, and the slot
afterwards. -/
def SharedGameState.heartbeatCbImpl (shared : SharedGameState) :
    (ℤ × UiGameState) × SharedGameState :=
  if shared.stateUpdated then
    ((0, shared.latestState), { shared with stateUpdated := false })
  else
    ((0, shared.latestState), shared)

/-- It is the step `readState` of the user interface, and it always returns 0. -/
lemma SharedGameState.heartbeatCbImpl_eq (shared : SharedGameState) (e : ClientEnv) :
    shared.heartbeatCbImpl =
      ((0, (ClientOp.readState.exec e shared).1), (ClientOp.readState.exec e shared).2) := by
  obtain ⟨latest, updated, requested, completed, exit, error⟩ := shared
  cases updated <;> rfl

lemma SharedGameState.heartbeatCbImpl_fst (shared : SharedGameState) :
    shared.heartbeatCbImpl.1 = (0, shared.latestState) := by
  unfold heartbeatCbImpl
  split_ifs <;> rfl

/-! ## The copies -/

lemma copyName_congr (dst dst' src : Buffer 32) : copyName dst src = copyName dst' src :=
  Buffer.strncpy_setByte_congr dst dst' src

/-- The network thread's copies are that of the single-threaded client exactly if the reply is
without `is_lucky`; what was in the slot does not matter then. -/
lemma UiGameState.ofFirstHeartbeat_eq_iff (s : PayloadGameState) (g g' : UiGameState) :
    g.ofFirstHeartbeat s = g'.ofHeartbeat s ↔ s.isLucky = 0 := by
  simp [ofFirstHeartbeat, ofHeartbeat, copyWorld, clearBattle,
    copyName_congr g.lastKiller g'.lastKiller]

lemma UiGameState.ofLoopHeartbeat_eq_iff (s : PayloadGameState) (g g' : UiGameState) :
    g.ofLoopHeartbeat s = g'.ofHeartbeat s ↔ s.isLucky = 0 := by
  by_cases hlucky : s.isLucky = 0
  · simp [ofLoopHeartbeat, ofHeartbeat, copyWorld, clearBattle, hlucky,
      copyName_congr g.lastKiller g'.lastKiller]
  · simp [ofLoopHeartbeat, ofHeartbeat, copyWorld, clearBattle, hlucky]

/-! ## The slot after an exchange -/

/-- The outcome of the heartbeat exchange that the network thread has dealt with last, unless it
has dealt with an attack since.  Nothing follows a failure of the first exchange; after every other
failure comes `failHeartbeat`. -/
def processed : ClientHistory → Option (Option PayloadGameState)
  | [] => none
  | ⟨.publishFirst s, _⟩ :: _ => some (some s)
  | ⟨.publishHeartbeat s, _⟩ :: _ => some (some s)
  | ⟨.failHeartbeat, _⟩ :: _ => some none
  | ⟨.sendRequest .heartbeat, false⟩ :: h => if started h then processed h else some none
  | ⟨.receiveReply .heartbeat, none⟩ :: h => if started h then processed h else some none
  | ⟨.publishAttack _, _⟩ :: _ => none
  | ⟨.failAttack, _⟩ :: _ => none
  | _ :: h => processed h

/-- The slot holds what the network thread made of a reply. -/
def UiGameState.TakenFrom (s : PayloadGameState) (g : UiGameState) : Prop :=
  ∃ g' : UiGameState, g = g'.ofFirstHeartbeat s ∨ g = g'.ofLoopHeartbeat s

lemma UiGameState.TakenFrom.eq_iff {s : PayloadGameState} {g : UiGameState}
    (taken : g.TakenFrom s) (outState : UiGameState) :
    g = outState.ofHeartbeat s ↔ s.isLucky = 0 := by
  obtain ⟨g', rfl | rfl⟩ := taken
  · exact g'.ofFirstHeartbeat_eq_iff s outState
  · exact g'.ofLoopHeartbeat_eq_iff s outState

variable {log : List ClientEvent}
  {c : Config ClientThread ClientOp ClientOp.Ret ClientPoint SharedGameState}

lemma latestState_of_ui {h : ClientHistory} {o : ClientOp} (allowed : ClientThread.ui.Allowed h o)
    (e : ClientEnv) (shared : SharedGameState) :
    (o.exec e shared).2.latestState = shared.latestState := by
  cases o with
  | pollAttack =>
      obtain ⟨stateUpdated, hpoll⟩ := poll_keeps shared
      change shared.poll.2.latestState = shared.latestState
      rw [hpoll]
  | nextAction => rfl
  | requestAttack => rfl
  | wakeUp => rfl
  | readState => rfl
  | announceExit => rfl
  | _ => exact allowed.elim

/-- A request or a reply by itself brings no new outcome but a failure. -/
lemma processed_sendRequest {h : ClientHistory} {opcode : OpCode} {sent : Bool}
    {s : PayloadGameState}
    (hs : processed (⟨.sendRequest opcode, sent⟩ :: h) = some (some s)) :
    processed h = some (some s) := by
  cases opcode with
  | heartbeat =>
      cases sent with
      | true => exact hs
      | false =>
          rw [processed] at hs
          split_ifs at hs with hstarted
          · exact hs
          · exact nomatch Option.some.inj hs
  | _ => exact hs

lemma processed_receiveReply {h : ClientHistory} {opcode : OpCode}
    {reply : Option PayloadGameState} {s : PayloadGameState}
    (hs : processed (⟨.receiveReply opcode, reply⟩ :: h) = some (some s)) :
    processed h = some (some s) := by
  cases opcode with
  | heartbeat =>
      cases reply with
      | some r => exact hs
      | none =>
          rw [processed] at hs
          split_ifs at hs with hstarted
          · exact hs
          · exact nomatch Option.some.inj hs
  | _ => exact hs

lemma takenFrom_network {h : ClientHistory} {shared : SharedGameState}
    (taken : ∀ s, processed h = some (some s) → shared.latestState.TakenFrom s) (e : ClientEnv)
    {o : ClientOp} (allowed : ClientThread.network.Allowed h o) (s : PayloadGameState)
    (hs : processed (⟨o, (o.exec e shared).1⟩ :: h) = some (some s)) :
    (o.exec e shared).2.latestState.TakenFrom s := by
  cases o with
  | publishFirst r =>
      obtain rfl : r = s := Option.some.inj (Option.some.inj hs)
      exact ⟨shared.latestState, Or.inl rfl⟩
  | publishHeartbeat r =>
      obtain rfl : r = s := Option.some.inj (Option.some.inj hs)
      exact ⟨shared.latestState, Or.inr rfl⟩
  | sendRequest opcode => exact taken s (processed_sendRequest hs)
  | receiveReply opcode => exact taken s (processed_receiveReply hs)
  | publishAttack r => exact nomatch hs
  | failAttack => exact nomatch hs
  | failHeartbeat => exact nomatch hs
  | clearError => exact taken s hs
  | readExit => exact taken s hs
  | takeRequest => exact taken s hs
  | sleep => exact taken s hs
  | _ => exact allowed.elim

/-- After a reply has been dealt with, the slot holds what the network thread made of it. -/
theorem takenFrom_of_processed (run : client.Run clientInit log c) :
    ∀ s, processed (own .network log) = some (some s) → c.shared.latestState.TakenFrom s := by
  refine run.invariant client_disciplined
    (fun log shared => ∀ s, processed (own .network log) = some (some s) →
      shared.latestState.TakenFrom s)
    nofun fun log shared i e o taken allowed => ?_
  cases i with
  | ui =>
      rw [client.own_event_of_ne (by decide)]
      intro s hs
      change (o.exec e shared).2.latestState.TakenFrom s
      rw [latestState_of_ui allowed]
      exact taken s hs
  | network =>
      rw [client.own_event_self]
      exact takenFrom_network taken e allowed

/-! ## The two clients compared -/

/-- **What the clients show after a heartbeat.**  At every point of every run of the threaded
client, whatever attacks it has made before, its `heartbeat_cb_impl` returns the code and the state
that the single-threaded one returns for the outcome dealt with last exactly if that is a reply
without `is_lucky`. -/
theorem heartbeat_parity_iff (run : client.Run clientInit log c)
    {outcome : Option PayloadGameState} (last : processed (own .network log) = some outcome)
    (outState : UiGameState) :
    c.shared.heartbeatCbImpl.1 = heartbeatCbImpl outcome outState ↔
      ∃ s, outcome = some s ∧ s.isLucky = 0 := by
  rw [SharedGameState.heartbeatCbImpl_fst]
  cases outcome with
  | none =>
      refine iff_of_false (fun h => ?_) nofun
      have hcode : (0 : ℤ) = -1 := congrArg Prod.fst h
      omega
  | some s =>
      have shown := (takenFrom_of_processed run s last).eq_iff outState
      simp [heartbeatCbImpl, shown]

theorem heartbeat_parity_networkStarts :
    (client.play clientInit networkStarts).2.shared.heartbeatCbImpl.1 =
        heartbeatCbImpl (some (attackReply 0)) .zero ↔
      ∃ s, some (attackReply 0) = some s ∧ s.isLucky = 0 :=
  heartbeat_parity_iff (Machine.run_play clientInit networkStarts) (by decide +kernel) .zero

/-! ## Exchanges after which they differ -/

/-- The raid after its only player has killed the first boss by a lucky roll. -/
def luckyKilled : GameSharedData :=
  let shm := gamestateMarkLuckyKill 1000 (gamestatePlayerJoin gamestateInit).2
  gamestateSpawnNextBoss (gamestateApplyDamage instantKillDamage ((Buffer.zero _).write [97]) shm).2

/-- The reply to a heartbeat within the next five seconds. -/
def luckyHeartbeat : PayloadGameState :=
  { PayloadGameState.ofSnapshot luckyKilled with isLucky := 1 }

/-- The first exchange brings this reply. -/
def luckyStart : List (ClientThread × ClientEnv) := List.replicate 5 (networkTurn luckyHeartbeat)

/-- The first exchange succeeds, and the connection breaks in the second. -/
def brokenConnection : List (ClientThread × ClientEnv) :=
  networkStarts ++ List.replicate 5 (.network, ⟨.heartbeat, false, true, none⟩)

/-- After the first of these runs one client announces the lucky kill and the other does not; after
the second one reports no error and the other does. -/
theorem heartbeat_disparity :
    (processed (own .network (client.play clientInit luckyStart).1) = some (some luckyHeartbeat) ∧
      (client.play clientInit luckyStart).2.shared.heartbeatCbImpl.1 ≠
        heartbeatCbImpl (some luckyHeartbeat) .zero) ∧
    (processed (own .network (client.play clientInit brokenConnection).1) = some none ∧
      (client.play clientInit brokenConnection).2.shared.heartbeatCbImpl.1 ≠
        heartbeatCbImpl none .zero) := by
  decide +kernel

end WorldBossRaid
