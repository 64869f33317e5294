import WorldBossRaid.Framework.Roster
import WorldBossRaid.Model.Server
import WorldBossRaid.Properties.SessionRule

/-!
# The online count

Whichever way a session ends, `handle_client` has called `gamestate_player_leave` once if it has
called `gamestate_player_join`, and not otherwise.  The decision hangs on `player_id`, which is -1
until the join and positive after it, because `gamestate_player_join` answers with a count.  So
`online_count` is a roster of the sessions that have joined and not left, on the raid as on the
byte streams of the server.
-/

namespace WorldBossRaid

open Bytes Interaction Prog

/-! ## Statement -/

/-- A `gamestate_player_join`. -/
def WorkerOp.joins : WorkerOp → Bool
  | .game .playerJoin => true
  | _ => false

/-- A `gamestate_player_leave`. -/
def WorkerOp.leaves : WorkerOp → Bool
  | .game .playerLeave => true
  | _ => false

/-- The joins in a history. -/
abbrev timesJoined (h : WorkerHistory) : ℕ := times WorkerOp.joins h

/-- The leaves in a history. -/
abbrev timesLeft (h : WorkerHistory) : ℕ := times WorkerOp.leaves h

/-- The sessions that have joined and not left. -/
abbrev online {ι σ ε : Type} [DecidableEq ι] (log : List (Event ι WorkerOp WorkerOp.Ret σ ε)) :
    Finset ι := present WorkerOp.joins WorkerOp.leaves log

/-- The count, and what the sessions do to it, when the log `log` has led to the game state `shm`
and the rests `threads` of the sessions' programs. -/
structure OnlineCounted {ι σ ε : Type} [DecidableEq ι]
    (log : List (Event ι WorkerOp WorkerOp.Ret σ ε)) (threads : ι → Worker (Option ClientLocals))
    (shm : σ → GameSharedData) (s : σ) : Prop where
  /-- The count is the number of sessions that have joined and not left. -/
  count_eq : (shm s).onlineCount = (online log).card
  mem_online : ∀ i, i ∈ online log ↔ timesJoined (own i log) ≠ 0 ∧ timesLeft (own i log) = 0
  joins_once : ∀ i, timesJoined (own i log) ≤ 1
  /-- A second `OP_JOIN` does nothing. -/
  rejoin : ∀ l pkt, pkt.header.opcode = OpCode.join.code → dispatch l pkt = pure (some l)
  leaves_only_joined : ∀ i, timesLeft (own i log) ≤ timesJoined (own i log)
  /-- A session that has ended has left if it had joined. -/
  leaves_at_end : ∀ i, threads i = .done none → timesLeft (own i log) = timesJoined (own i log)
  /-- The guard of `gamestate_player_leave` always succeeds. -/
  guard_idle : ∀ e ∈ log, e.op = .game .playerLeave → 0 < (shm e.before).onlineCount

/-! ## The discipline -/

/-- The id that the worker's `gamestate_player_join` returned. -/
def joinedAs : WorkerHistory → Option ℤ
  | [] => none
  | ⟨.game .playerJoin, playerId⟩ :: _ => some playerId
  | _ :: h => joinedAs h

/-- The worker has joined as `playerId` and not left. -/
def Aboard (playerId : ℤ) (h : WorkerHistory) : Prop :=
  timesJoined h = 1 ∧ timesLeft h = 0 ∧ joinedAs h = some playerId

/-- A worker joins first, if at all, announces the id it was given, and leaves after that. -/
def JoinsThenLeaves (h : WorkerHistory) : WorkerOp → Prop
  | .game .playerJoin => timesJoined h = 0 ∧ timesLeft h = 0
  | .game .playerLeave => timesJoined h = 1 ∧ timesLeft h = 0
  | .send (.joinResp resp) => Aboard resp.playerId h
  | _ => True

/-- The operations that have to do with joining. -/
def WorkerOp.boards : WorkerOp → Bool
  | .game .playerJoin => true
  | .game .playerLeave => true
  | .send (.joinResp _) => true
  | _ => false

/-- A worker that has ended has left if it had joined under a proper id. -/
def SquaredUp (h : WorkerHistory) : Prop :=
  timesLeft h = timesJoined h ∨ ∃ playerId < 0, joinedAs h = some playerId

variable {h : WorkerHistory} {playerId : ℤ}

lemma joinedAs_cons {o : WorkerOp} (hjoins : o.joins = false) (r : o.Ret) :
    joinedAs (⟨o, r⟩ :: h) = joinedAs h := by
  cases o with
  | game o => cases o <;> first | rfl | cases hjoins
  | _ => rfl

lemma Aboard.cons (aboard : Aboard playerId h) {o : WorkerOp} (hjoins : o.joins = false)
    (hleaves : o.leaves = false) (r : o.Ret) : Aboard playerId (⟨o, r⟩ :: h) := by
  obtain ⟨joined, left_, id_⟩ := aboard
  exact ⟨(times_cons_of_neg hjoins r h).trans joined, (times_cons_of_neg hleaves r h).trans left_,
    (joinedAs_cons hjoins r).trans id_⟩

/-- An operation has nothing to do with joining, or is one of three. -/
lemma WorkerOp.boards_cases (o : WorkerOp) :
    o.boards = false ∨ o = .game .playerJoin ∨ o = .game .playerLeave ∨
      ∃ resp, o = .send (.joinResp resp) := by
  cases o with
  | game o =>
      cases o with
      | playerJoin => exact Or.inr (Or.inl rfl)
      | playerLeave => exact Or.inr (Or.inr (Or.inl rfl))
      | _ => exact Or.inl rfl
  | send r =>
      cases r with
      | joinResp resp => exact Or.inr (Or.inr (Or.inr ⟨resp, rfl⟩))
      | gameState => exact Or.inl rfl
  | _ => exact Or.inl rfl

lemma WorkerOp.of_not_boards {o : WorkerOp} (ho : o.boards = false) :
    o.joins = false ∧ o.leaves = false ∧ JoinsThenLeaves h o := by
  cases o with
  | game o => cases o <;> first | exact ⟨rfl, rfl, trivial⟩ | cases ho
  | send r =>
      cases r with
      | joinResp => cases ho
      | gameState => exact ⟨rfl, rfl, trivial⟩
  | _ => exact ⟨rfl, rfl, trivial⟩

lemma stays_aboard {α : Type} {p : Worker α} (hp : Issues (fun o => o.boards = false) p)
    (aboard : Aboard playerId h) :
    Conforms JoinsThenLeaves (fun h' _ => Aboard playerId h') h p := by
  refine hp.conforms (fun h o _ ho => ?_) (fun h o r aboard ho => ?_) aboard
  · exact (WorkerOp.of_not_boards ho).2.2
  · obtain ⟨hjoins, hleaves, -⟩ := WorkerOp.of_not_boards (h := h) ho
    exact aboard.cons hjoins hleaves r

lemma WorkerOp.InAttack.not_boards {name : Buffer maxPlayerName} {o : WorkerOp}
    (ho : o.InAttack name) : o.boards = false :=
  ho.each rfl (fun _ => rfl) rfl (fun _ _ => rfl) rfl rfl (fun _ _ => rfl) fun _ => rfl

lemma WorkerOp.InHeartbeat.not_boards {o : WorkerOp} (ho : o.InHeartbeat) : o.boards = false :=
  ho.each rfl rfl rfl fun _ => rfl

/-! ## The paths of `handle_client` -/

/-- The cleanup leaves, unless the id is negative. -/
lemma cleanupClient_aboard (aboard : Aboard playerId h) :
    Conforms JoinsThenLeaves (fun h' _ => SquaredUp h') h (cleanupClient playerId) := by
  obtain ⟨joined, unleft, hid⟩ := aboard
  simp only [cleanupClient, perform_bind, conforms_call]
  refine ⟨trivial, fun _ => ?_⟩
  split
  · refine ⟨⟨joined, unleft⟩, fun _ => Or.inl ?_⟩
    change timesLeft (⟨.game .playerLeave, ()⟩ :: h) = timesJoined (⟨.game .playerLeave, ()⟩ :: h)
    rw [timesLeft, timesJoined, times_cons_of_pos rfl, times_cons_of_neg rfl]
    rw [show times WorkerOp.leaves h = 0 from unleft, show times WorkerOp.joins h = 1 from joined]
  · next hneg => exact Or.inr ⟨playerId, not_le.1 hneg, hid⟩

lemma WorkerOp.InLoop.not_boards {o : WorkerOp} (ho : o.InLoop) : o.boards = false :=
  ho.each rfl rfl fun _ => rfl

/-- A worker stays aboard through its whole loop. -/
lemma aboardRule : LoopRule JoinsThenLeaves (fun l => Aboard l.playerId) SquaredUp where
  allows _ _ _ _ ho := (WorkerOp.of_not_boards ho.not_boards).2.2
  keeps _ h _ r aboard ho := by
    obtain ⟨hjoins, hleaves, -⟩ := WorkerOp.of_not_boards (h := h) ho.not_boards
    exact aboard.cons hjoins hleaves r
  limiter _ _ _ aboard := aboard
  attack _ _ pkt aboard :=
    stays_aboard ((handleAttack_issues pkt).mono fun _ ho => ho.not_boards) aboard
  heartbeat _ _ aboard :=
    stays_aboard (handleHeartbeat_issues.mono fun _ ho => ho.not_boards) aboard
  cleanup _ _ aboard := cleanupClient_aboard aboard

lemma dispatch_join (l : ClientLocals) {pkt : GamePacket}
    (hopcode : pkt.header.opcode = OpCode.join.code) : dispatch l pkt = pure (some l) := by
  have hne {o : OpCode} (ho : OpCode.join.code ≠ o.code) : ¬pkt.header.opcode = o.code := by
    rwa [hopcode]
  rw [dispatch, if_neg (hne (by decide)), if_neg (hne (by decide)), if_neg (hne (by decide))]

/-- The paths up to the loop: before the join the id is -1, and closing does not leave. -/
lemma handleClient_joinsThenLeaves :
    Conforms JoinsThenLeaves (AtHeadOrEnd (fun l => Aboard l.playerId) SquaredUp) []
      handleClient := by
  simp only [handleClient, handleJoin, perform_bind, conforms_call]
  refine ⟨trivial, fun now => ⟨trivial, fun received => ?_⟩⟩
  cases received with
  | none => exact ⟨trivial, fun _ => Or.inl rfl⟩
  | some pkt =>
      dsimp only
      split_ifs
      · exact ⟨trivial, fun _ => Or.inl rfl⟩
      · exact ⟨trivial, fun _ => Or.inl rfl⟩
      · refine ⟨trivial, fun _ => ⟨⟨rfl, rfl⟩, fun playerId => ⟨⟨rfl, rfl, rfl⟩, fun sent => ?_⟩⟩⟩
        cases sent with
        | false => exact (cleanupClient_aboard ⟨rfl, rfl, rfl⟩).seq fun _ _ squared => squared
        | true => exact ⟨rfl, rfl, rfl⟩

/-- Every session of the raid joins first and leaves after that. -/
theorem raid_joinsThenLeaves (ι : Type) :
    (raid ι).Disciplined (fun _ => JoinsThenLeaves)
      (fun _ => AtHeadOrEnd (fun l => Aboard l.playerId) SquaredUp) (raidInit ι) where
  first _ := handleClient_joinsThenLeaves
  again _ _ _ _ := aboardRule.dispatchRule.again

/-! ## The count -/

lemma onlineCount_exec {o : WorkerOp} (hjoins : o.joins = false) (hleaves : o.leaves = false)
    (e : RaidEnv) (shm : GameSharedData) : (o.exec e shm).2.onlineCount = shm.onlineCount := by
  cases o with
  | game o =>
      cases o with
      | playerJoin => cases hjoins
      | playerLeave => cases hleaves
      | applyDamage damage name =>
          change (gamestateApplyDamage damage name shm).2.onlineCount = _
          rw [gamestateApplyDamage_frame]
      | spawnNextBoss =>
          change (gamestateSpawnNextBoss shm).onlineCount = _
          rw [gamestateSpawnNextBoss_frame]
      | updateStreak name dice isWin =>
          change (gamestateUpdateStreak name dice isWin shm).2.onlineCount = _
          rw [gamestateUpdateStreak_frame]
      | _ => rfl
  | _ => rfl

lemma eq_join {o : WorkerOp} (ho : o.joins = true) : o = .game .playerJoin := by
  cases o with
  | game o =>
      cases o with
      | playerJoin => rfl
      | _ => cases ho
  | _ => cases ho

lemma eq_leave {o : WorkerOp} (ho : o.leaves = true) : o = .game .playerLeave := by
  cases o with
  | game o =>
      cases o with
      | playerLeave => rfl
      | _ => cases ho
  | _ => cases ho

/-- The sessions on the roster of the raid. -/
def onlineRoster (ι : Type) : Roster (raid ι) (fun _ => JoinsThenLeaves) where
  enters := WorkerOp.joins
  leaves := WorkerOp.leaves
  count := GameSharedData.onlineCount
  enters_first _ _ o allowed ho := by
    obtain rfl := eq_join ho
    exact allowed
  leaves_after _ _ o allowed ho := by
    obtain rfl := eq_leave ho
    exact allowed
  count_enters _ e o shm ho := by
    obtain rfl := eq_join ho
    rfl
  count_leaves _ e o shm ho hpos := by
    obtain rfl := eq_leave ho
    change (gamestatePlayerLeave shm).onlineCount = _
    rw [gamestatePlayerLeave, if_pos hpos]
  count_keeps _ e o shm hjoins hleaves := onlineCount_exec hjoins hleaves e shm

section Run

variable {ι : Type} [DecidableEq ι]

lemma mem_of_joinedAs (hid : joinedAs h = some playerId) :
    (⟨.game .playerJoin, playerId⟩ : Answered WorkerOp WorkerOp.Ret) ∈ h := by
  induction h with
  | nil => cases hid
  | cons a h ih =>
      obtain ⟨o, r⟩ := a
      cases o with
      | game o =>
          cases o with
          | playerJoin =>
              obtain rfl := Option.some.inj hid
              exact List.mem_cons_self ..
          | _ => exact List.mem_cons_of_mem _ (ih hid)
      | _ => exact List.mem_cons_of_mem _ (ih hid)

/-- A join is answered by the count before it and one more. -/
lemma join_answer {log : List (Event ι WorkerOp WorkerOp.Ret GameSharedData RaidEnv)}
    {c : Config ι WorkerOp WorkerOp.Ret (Option ClientLocals) GameSharedData}
    (run : (raid ι).Run (raidInit ι) log c)
    {e : Event ι WorkerOp WorkerOp.Ret GameSharedData RaidEnv} (he : e ∈ log)
    (hanswered : e.answered = ⟨.game .playerJoin, playerId⟩) :
    playerId = e.before.onlineCount + 1 := by
  have hevent := run.event_eq he
  obtain ⟨j, env, op, ret, before, after⟩ := e
  cases hanswered
  exact eq_of_heq (Sigma.mk.inj (congrArg Event.answered hevent)).2

variable {log : List (Event ι WorkerOp WorkerOp.Ret GameSharedData RaidEnv)}
  {c : Config ι WorkerOp WorkerOp.Ret (Option ClientLocals) GameSharedData}

lemma raid_booked (run : (raid ι).Run (raidInit ι) log c) :
    (onlineRoster ι).Booked log c.shared :=
  (onlineRoster ι).booked (raid_joinsThenLeaves ι) rfl run

lemma onlineCount_nonneg (run : (raid ι).Run (raidInit ι) log c) : 0 ≤ c.shared.onlineCount := by
  have hcount := (raid_booked run).count_present
  rw [show c.shared.onlineCount = _ from hcount]
  exact Int.natCast_nonneg _

lemma joinedAs_pos (run : (raid ι).Run (raidInit ι) log c) {i : ι}
    (hid : joinedAs (own i log) = some playerId) : 0 < playerId := by
  obtain ⟨h₂, h₁, hsplit⟩ := List.append_of_mem (mem_of_joinedAs hid)
  obtain ⟨log₂, e, log₁, rfl, -, hanswered, -⟩ := exists_split_of_own hsplit
  obtain ⟨c', run', hbefore⟩ := run.before_event
  have hnonneg := onlineCount_nonneg run'
  rw [join_answer run (by simp) hanswered, hbefore]
  omega

lemma raid_onlineCounted (run : (raid ι).Run (raidInit ι) log c) :
    OnlineCounted log c.threads id c.shared := by
  have booked := raid_booked run
  refine ⟨booked.count_present, fun i => mem_present, booked.enters_le,
    fun l pkt => dispatch_join l, booked.leaves_le, fun i ended => ?_, fun e he hop => ?_⟩
  · have hend := run.conforms (raid_joinsThenLeaves ι) i
    rw [ended] at hend
    rcases hend with hleft | ⟨playerId, hneg, hid⟩
    · exact hleft
    · exact absurd (joinedAs_pos run hid) (not_lt_of_gt hneg)
  · exact (onlineRoster ι).count_pos (raid_joinsThenLeaves ι) rfl run he
      (show WorkerOp.leaves e.op = true by rw [hop]; rfl)

end Run

/-! ## The server -/

section Server

variable {ι : Type} [DecidableEq ι] {ssl : ι → Ssl} {buffer : ι → GamePacket}

lemma online_map_event (log : List (Event ι WorkerOp WorkerOp.Ret (ServerState ι) ServerEnv)) :
    online (log.map (serverRaid ι).event) = online log := by
  ext i
  rw [mem_present, mem_present, Projection.own_map_event]

/-- **The online count is right** at every point of every run of the server: for any number of
sessions, any byte streams, any failing receive or send and any interleaving, it is the number of
sessions that have joined and not left.  A session joins at most once, leaves only after that and
at most once, and has left when it ends if it had joined; and no leave finds a count of 0. -/
theorem server_onlineCounted
    {log : List (Event ι WorkerOp WorkerOp.Ret (ServerState ι) ServerEnv)}
    {c : Config ι WorkerOp WorkerOp.Ret (Option ClientLocals) (ServerState ι)}
    (run : (server ι).Run (serverInit ssl buffer) log c) :
    OnlineCounted log c.threads ServerState.shm c.shared := by
  have counted := raid_onlineCounted ((serverRaid ι).run run)
  have hown (i : ι) : own i (log.map (serverRaid ι).event) = own i log :=
    (serverRaid ι).own_map_event i log
  have honline := online_map_event log
  refine ⟨?_, fun i => mem_present, fun i => ?_, counted.rejoin, fun i => ?_, fun i ended => ?_,
    fun e he hop => ?_⟩
  · rw [← honline]
    exact counted.count_eq
  · rw [← hown]
    exact counted.joins_once i
  · rw [← hown]
    exact counted.leaves_only_joined i
  · rw [← hown]
    exact counted.leaves_at_end i ended
  · exact counted.guard_idle _ (List.mem_map_of_mem he) hop

end Server

/-- The connection of a client that sends a join and cannot be answered. -/
def unansweredSsl : Ssl where
  pending := (clientPacket 0 OpCode.join.code (97 :: List.replicate 31 0)).wire
  arriving := []
  writes := [.failure]
  sent := []

/-- The worker of that client: the clock, the packet, the mark, the join, the failing send, the
shutdown, the leave. -/
def unanswered : List (Unit × ServerEnv) := List.replicate 7 ((), ⟨1000, 0, .ready⟩)

theorem server_onlineCounted_unanswered :
    let x := (server Unit).play (serverInit (fun _ => unansweredSsl) fun _ => .zero) unanswered
    OnlineCounted x.1 x.2.threads ServerState.shm x.2.shared ∧
      timesJoined (own () x.1) = 1 ∧ timesLeft (own () x.1) = 1 :=
  ⟨server_onlineCounted (Machine.run_play _ unanswered), by decide +kernel, by decide +kernel⟩

end WorldBossRaid
