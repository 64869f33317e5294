import WorldBossRaid.Framework.Eval
import WorldBossRaid.Properties.ComboIndependence

/-!
# The full table

The other way in which a combo depends on other players.  A hundred players join one after the
other, each under a name of their own, and lose one attack; then the table has no slot for the next
name, and its first win is reported with the streak 0.
-/

namespace WorldBossRaid

open Bytes Interaction Prog SlotTable

/-! ## A visit -/

/-- The operations of a worker, all with the same supplies. -/
abbrev underEnv (e : RaidEnv) (o : WorkerOp) (s : GameSharedData) : o.Ret × GameSharedData :=
  o.exec e s

variable {s : GameSharedData} {pkt : GamePacket}

/-- The locals of a client that has just been admitted. -/
def newcomer (pkt : GamePacket) (s : GameSharedData) : ClientLocals :=
  ⟨(gamestatePlayerJoin s).1, pkt.username, 0, rateLimiterInit 5 1 1000⟩

/-- What a worker does up to its loop. -/
def joinHistory (pkt : GamePacket) (s : GameSharedData) : WorkerHistory :=
  [⟨.send (.joinResp ⟨(gamestatePlayerJoin s).1, 1⟩), true⟩,
    ⟨.game .playerJoin, (gamestatePlayerJoin s).1⟩, ⟨.mark (.admitted pkt), ()⟩,
    ⟨.recv 0, some pkt⟩, ⟨.time, 1000⟩]

lemma eval_handleClient_unlucky (join : pkt.header.opcode = OpCode.join.code)
    (valid : inputValidateUsername pkt.joinUsername = true) :
    eval (underEnv (unluckyReceiving pkt)) handleClient s =
        (some (newcomer pkt s), (gamestatePlayerJoin s).2) ∧
      trace (underEnv (unluckyReceiving pkt)) handleClient s =
        joinHistory pkt s := by
  simp [handleClient, handleJoin, underEnv, WorkerOp.exec, GameOp.exec, unluckyReceiving,
    unluckyEnv, luckyEnv, join, valid, newcomer, joinHistory, eval_bind, trace_bind]

/-- An attack packet that passes all checks, with dice that count. -/
structure FairAttack (pkt : GamePacket) (dice : ℤ) : Prop where
  opcode : pkt.header.opcode = OpCode.attack.code
  size : inputValidatePacketSize OpCode.attack.code pkt.header.length = true
  damage : pkt.attackDamage = dice
  pos : 0 < dice
  le : dice ≤ 6

section Attack

variable {name : Buffer maxPlayerName} {playerId dice : ℤ}

/-- The first packet of a newcomer is an attack: what comes before the battle and after it. -/
lemma eval_firstAttack (fair : FairAttack pkt dice)
    {battle : (AttackResult × PayloadGameState) × GameSharedData}
    (fought : eval (underEnv (unluckyReceiving pkt)) (gameProcessAttack dice name) s = battle) :
    (eval (underEnv (unluckyReceiving pkt))
        (handleClientLoop ⟨playerId, name, 0, rateLimiterInit 5 1 1000⟩) s).2 = battle.2 ∧
      trace (underEnv (unluckyReceiving pkt))
          (handleClientLoop ⟨playerId, name, 0, rateLimiterInit 5 1 1000⟩) s =
        [⟨.send (.gameState (battle.1.1.reply battle.1.2)), true⟩,
          ⟨.mark (.attackReturned battle.1.1 battle.1.2), ()⟩] ++
        trace (underEnv (unluckyReceiving pkt)) (gameProcessAttack dice name) s ++
        [⟨.mark (.dispatched pkt), ()⟩, ⟨.time, 1000⟩, ⟨.recv 5, some pkt⟩] := by
  obtain ⟨opcode, size, damage, pos, le⟩ := fair
  have limiter : (rateLimiterCheck (rateLimiterInit 5 1 1000) 1000).1 = true := by decide +kernel
  have valid : inputValidateOpcode OpCode.attack.code = true := by decide +kernel
  have counts : ¬(dice ≤ 0 ∨ dice > 6) := by omega
  unfold unluckyReceiving unluckyEnv luckyEnv at *
  simp [handleClientLoop, heartbeatExpired, handlePacket, dispatch, handleAttack, attackDice,
    WorkerOp.exec, opcode, limiter, valid, size, damage, counts, fought, eval_bind, trace_bind]

/-- With dice 1 the attack is no win, and only leaves its trace in the table. -/
lemma eval_battle_one (alive : s.inert = false) :
    (eval (underEnv (unluckyReceiving pkt)) (gameProcessAttack 1 name) s).2 =
      (gamestateUpdateStreak name 1 false s).2 := by
  simp [gameProcessAttack, resolveAttack, rollOf, WorkerOp.exec, GameOp.exec, unluckyReceiving,
    unluckyEnv, luckyEnv, alive, eval_bind]

/-- With dice 3 it wins, and reports the streak that its update returns. -/
lemma eval_battle_three (alive : s.inert = false) {streak : ℤ} {s₁ s₂ : GameSharedData}
    (updated : gamestateUpdateStreak name 3 true s = (streak, s₁)) (few : streak < 3)
    (hit : gamestateApplyDamage 3 name s₁ = (false, s₂)) :
    eval (underEnv (unluckyReceiving pkt)) (gameProcessAttack 3 name) s =
        (({ AttackResult.zero with
            bossDice := 1
            isWin := true
            dmgDealt := 3
            currentStreak := streak }, .ofSnapshot s₂), s₂) ∧
      trace (underEnv (unluckyReceiving pkt)) (gameProcessAttack 3 name) s =
        [⟨.game .getSnapshot, s₂⟩, ⟨.game (.applyDamage 3 name), false⟩,
          ⟨.game (.updateStreak name 3 true), streak⟩, ⟨.rand, 6⟩, ⟨.rand, 6⟩,
          ⟨.game .getSnapshot, s⟩] := by
  constructor
  · simp [gameProcessAttack, resolveAttack, strike, rollOf, WorkerOp.exec, GameOp.exec,
      unluckyReceiving, unluckyEnv, luckyEnv, AttackResult.zero, alive, updated, few.not_ge, hit,
      eval_bind]
  · simp [gameProcessAttack, resolveAttack, strike, rollOf, WorkerOp.exec, GameOp.exec,
      unluckyReceiving, unluckyEnv, luckyEnv, alive, updated, few.not_ge, hit, trace_bind]

end Attack

variable {i : ℕ} {log : List (RaidEvent ℕ)}
  {c : Config ℕ WorkerOp WorkerOp.Ret (Option ClientLocals) GameSharedData}

/-- A session joins and attacks, while all others wait. -/
lemma visit (run : (raid ℕ).Run (raidInit ℕ) log c) (fresh : c.threads i = handleClient)
    (join : pkt.header.opcode = OpCode.join.code)
    (valid : inputValidateUsername pkt.joinUsername = true) (attack : GamePacket) :
    ∃ log' v, (raid ℕ).Run (raidInit ℕ) (log' ++ log)
        ⟨(eval (underEnv (unluckyReceiving attack)) (handleClientLoop (newcomer pkt c.shared))
          (gamestatePlayerJoin c.shared).2).2, Function.update c.threads i (done v)⟩ ∧
      own i log' = trace (underEnv (unluckyReceiving attack))
        (handleClientLoop (newcomer pkt c.shared)) (gamestatePlayerJoin c.shared).2 ++
          joinHistory pkt c.shared ∧
      sessionPacket i (log' ++ log) = some pkt ∧ ∀ ev ∈ log', ev.thread = i := by
  obtain ⟨joined, admitted⟩ := @eval_handleClient_unlucky c.shared pkt join valid
  obtain ⟨log₁, run₁, own₁, alone₁⟩ := run.alone i fun _ => unluckyReceiving pkt
  rw [fresh] at run₁ own₁
  change (raid ℕ).Run _ _ ⟨(eval (underEnv (unluckyReceiving pkt)) handleClient c.shared).2,
    Function.update c.threads i
      (done (eval (underEnv (unluckyReceiving pkt)) handleClient c.shared).1)⟩ at run₁
  rw [joined] at run₁
  have looping := run₁.resume i (Function.update_self i _ c.threads)
    (show (raid ℕ).resume (some (newcomer pkt c.shared)) =
      some (handleClientLoop (newcomer pkt c.shared)) from rfl)
  obtain ⟨log₂, run₂, own₂, alone₂⟩ := looping.alone i fun _ => unluckyReceiving attack
  simp only [Function.update_idem, Function.update_self] at run₂ own₂
  have packet : sessionPacket i (log₁ ++ log) = some pkt := by
    rw [sessionPacket, own_append, own₁]
    exact congrArg (fun h => admittedWith (h ++ own i log)) admitted
  refine ⟨log₂ ++ log₁, _, by rw [List.append_assoc]; exact run₂, ?_, ?_, ?_⟩
  · rw [own_append, own₂, own₁]
    exact congrArg (_ ++ ·) admitted
  · rw [List.append_assoc]
    exact sessionPacket_later run₂ packet
  · intro ev hev
    exact (List.mem_append.1 hev).elim (alone₂ ev) (alone₁ ev)

/-! ## The crowd -/

/-- The name of the `n`-th player of the crowd. -/
def crowdName (n : ℕ) : List UInt8 := [.ofNat (65 + n / 10), .ofNat (48 + n % 10)]

lemma crowdName_valid : ∀ n < 100,
    inputValidateUsername (joinPacket (crowdName n)).joinUsername = true ∧
      (joinPacket (crowdName n)).username.cstr = crowdName n := by
  decide +kernel

lemma crowdName_injective {m n : ℕ} (hm : m < 100) (hn : n < 100)
    (same : crowdName m = crowdName n) : m = n := by
  obtain ⟨tens, ones⟩ := List.cons.inj same
  have htens := congrArg UInt8.toNat tens
  have hones := congrArg UInt8.toNat (List.cons.inj ones).1
  rw [UInt8.toNat_ofNat', UInt8.toNat_ofNat'] at htens hones
  omega

/-- The first `n` players of the crowd have come and gone through an attack each. -/
structure Crowd (n : ℕ) (log : List (RaidEvent ℕ))
    (c : Config ℕ WorkerOp WorkerOp.Ret (Option ClientLocals) GameSharedData) : Prop where
  run : (raid ℕ).Run (raidInit ℕ) log c
  waiting : ∀ i, n ≤ i → c.threads i = handleClient
  members : ∀ ev ∈ log, ev.thread < n
  names : ∀ m < n, sessionPacket m log = some (joinPacket (crowdName m))
  boss : SameBoss gamestateInit c.shared
  terminated : c.shared.players.Terminated
  room : c.shared.players.freeSlots = maxTrackedPlayers - n
  unrecorded : ∀ k, (∀ m < n, k ≠ crowdName m) → c.shared.players.recordOf k = none

lemma SameBoss.alive (boss : SameBoss gamestateInit s) : s.inert = false := by
  obtain ⟨-, -, stage, respawning, -⟩ := boss
  rw [GameSharedData.inert, stage, respawning]
  rfl

lemma own_eq_nil {log : List (RaidEvent ℕ)} (others : ∀ ev ∈ log, ev.thread ≠ i) :
    own i log = [] := by
  rw [own, List.map_eq_nil_iff, List.filter_eq_nil_iff]
  intro ev hev
  simpa using others ev hev

lemma Crowd.start : Crowd 0 [] (raidInit ℕ) where
  run := .start
  waiting _ _ := rfl
  members := List.forall_mem_nil _
  names m hm := absurd hm (Nat.not_lt_zero m)
  boss := ⟨rfl, rfl, rfl, rfl, rfl⟩
  terminated := .zero
  room := by decide +kernel
  unrecorded k _ := by
    have unrecorded : PlayerTable.zero.TellsBy (· + 1) k [] := PlayerTable.TellsBy.zero k
    rw [PlayerTable.TellsBy, if_pos rfl, Option.map_eq_none_iff] at unrecorded
    exact unrecorded

lemma Crowd.next {n : ℕ} (crowd : Crowd n log c) (hn : n < 100) :
    ∃ log' c', Crowd (n + 1) (log' ++ log) c' := by
  obtain ⟨valid, name⟩ := crowdName_valid n hn
  have fair : FairAttack (attackPacket 1) 1 :=
    ⟨rfl, by decide +kernel, by decide +kernel, by decide, by decide⟩
  obtain ⟨log', v, run, -, packet, alone⟩ :=
    visit crowd.run (crowd.waiting n le_rfl) rfl valid (attackPacket 1)
  have alive : (gamestatePlayerJoin c.shared).2.inert = false := crowd.boss.alive
  rw [newcomer, (eval_firstAttack fair rfl).1, eval_battle_one alive] at run
  have proper : Proper (joinPacket (crowdName n)).username := proper_username valid
  have unrecorded : c.shared.players.recordOf (joinPacket (crowdName n)).username.cstr = none := by
    rw [name]
    exact crowd.unrecorded _ fun m hm same =>
      hm.ne (crowdName_injective (hm.trans hn) hn same.symm)
  refine ⟨log', _, run, fun i hi => ?_, fun ev hev => ?_, fun m hm => ?_, ?_, ?_, ?_,
    fun k hk => ?_⟩
  · exact (Function.update_of_ne (by omega) _ _).trans (crowd.waiting i (by omega))
  · obtain hev | hev := List.mem_append.1 hev
    · exact alone ev hev ▸ Nat.lt_succ_self n
    · exact (crowd.members ev hev).trans (Nat.lt_succ_self n)
  · obtain hm | rfl := Nat.lt_succ_iff_lt_or_eq.1 hm
    · exact sessionPacket_later run (crowd.names m hm)
    · exact packet
  · exact crowd.boss.trans (sameBoss_updateStreak (gamestatePlayerJoin c.shared).2 _ 1 false)
  · exact PlayerTable.Terminated.updateStreak crowd.terminated
  · have taken := @freeSlots_updateStreak_of_new (· + 1) _ 1 false (gamestatePlayerJoin c.shared).2
      unrecorded crowd.terminated proper
    exact taken.trans ((congrArg (· - 1) crowd.room).trans (Nat.sub_sub _ n 1))
  · have other : k ≠ (joinPacket (crowdName n)).username.cstr := by
      rw [name]
      exact hk n (Nat.lt_succ_self n)
    have kept := @recordOf_updateStreak_of_ne (· + 1) _ 1 false (gamestatePlayerJoin c.shared).2 k
      other crowd.terminated proper
    exact kept.trans (crowd.unrecorded k fun m hm => hk m (hm.trans (Nat.lt_succ_self n)))

lemma crowd_of_le {n : ℕ} (hn : n ≤ 100) : ∃ log c, Crowd n log c := by
  induction n with
  | zero => exact ⟨[], _, .start⟩
  | succ n ih =>
      obtain ⟨log, c, crowd⟩ := ih (by omega)
      obtain ⟨log', c', next⟩ := crowd.next hn
      exact ⟨_, c', next⟩

/-! ## The next player -/

/-- The name of the player that comes then. -/
def lateName : List UInt8 := [97]

lemma lateName_ne (m : ℕ) : lateName ≠ crowdName m :=
  fun same => Nat.succ_ne_self 1 (congrArg List.length same).symm

/-- The first boss survives a hit with dice 3. -/
lemma SameBoss.survives (boss : SameBoss gamestateInit s) (name : Buffer maxPlayerName) :
    ∃ s', gamestateApplyDamage 3 name s = (false, s') := by
  have hp : ¬s.currentHp - 3 ≤ 0 := by
    rw [boss.1]
    decide
  refine ⟨{ s with currentHp := s.currentHp - 3 }, ?_⟩
  rw [gamestateApplyDamage, boss.alive, if_neg Bool.false_ne_true]
  exact if_neg hp

/-- A session joins under this name and wins an attack. -/
lemma lateWin (run : (raid ℕ).Run (raidInit ℕ) log c) (fresh : c.threads i = handleClient)
    (unseen : ∀ ev ∈ log, ev.thread ≠ i) (boss : SameBoss gamestateInit c.shared) {streak : ℤ}
    (answer : (gamestateUpdateStreak (joinPacket lateName).username 3 true
      (gamestatePlayerJoin c.shared).2).1 = streak) (few : streak < 3) :
    ∃ log' c', (raid ℕ).Run (raidInit ℕ) (log' ++ log) c' ∧
      sessionPacket i (log' ++ log) = some (joinPacket lateName) ∧
      fights (own i (log' ++ log)) = [⟨3, [6, 6]⟩] ∧
      comboReports (own i (log' ++ log)) = [(streak, false)] ∧ ∀ ev ∈ log', ev.thread = i := by
  have fair : FairAttack (attackPacket 3) 3 :=
    ⟨rfl, by decide +kernel, by decide +kernel, by decide, by decide⟩
  have valid : inputValidateUsername (joinPacket lateName).joinUsername = true := by decide +kernel
  have alive : (gamestatePlayerJoin c.shared).2.inert = false := boss.alive
  have updated : gamestateUpdateStreak (joinPacket lateName).username 3 true
      (gamestatePlayerJoin c.shared).2 = (streak, _) := Prod.ext answer rfl
  have aimed : SameBoss gamestateInit (gamestateUpdateStreak (joinPacket lateName).username 3 true
      (gamestatePlayerJoin c.shared).2).2 :=
    boss.trans (sameBoss_updateStreak (gamestatePlayerJoin c.shared).2 _ 3 true)
  obtain ⟨s₂, hit⟩ := aimed.survives (joinPacket lateName).username
  obtain ⟨fought, battle⟩ := @eval_battle_three _ (attackPacket 3) _ alive _ _ _ updated few hit
  obtain ⟨log', v, run', history, packet, alone⟩ :=
    visit run fresh rfl valid (attackPacket 3)
  have attacked := (@eval_firstAttack _ _ _ (gamestatePlayerJoin c.shared).1 _ fair _ fought).2
  rw [battle] at attacked
  have whole : own i (log' ++ log) = own i log' := by
    rw [own_append, own_eq_nil unseen, List.append_nil]
  rw [newcomer, attacked] at history
  refine ⟨log', _, run', packet, ?_, ?_, alone⟩
  · rw [whole, history]
    rfl
  · rw [whole, history]
    rfl

/-- **A full table disturbs a combo.**  Two runs in which one session fights the same fight, under a
name that no other session uses: if it comes first its win is reported with the streak 1, and if it
comes after a hundred others with the streak 0. -/
theorem fullTable_disturbs :
    ∃ log c log' c', (raid ℕ).Run (raidInit ℕ) log c ∧ (raid ℕ).Run (raidInit ℕ) log' c' ∧
      NameOfOwn 100 log ∧ NameOfOwn 100 log' ∧
      sessionPacket 100 log = some (joinPacket lateName) ∧
      sessionPacket 100 log' = some (joinPacket lateName) ∧
      fights (own 100 log) = [⟨3, [6, 6]⟩] ∧ fights (own 100 log') = [⟨3, [6, 6]⟩] ∧
      comboReports (own 100 log) = [(1, false)] ∧ comboReports (own 100 log') = [(0, false)] := by
  have string : (joinPacket lateName).username.cstr = lateName := by decide +kernel
  obtain ⟨log, c, run, packet, fought, reports, alone⟩ :=
    @lateWin 100 [] (raidInit ℕ) .start rfl (List.forall_mem_nil _) ⟨rfl, rfl, rfl, rfl, rfl⟩ 1
      (by decide +kernel) (by decide)
  obtain ⟨before, c₀, crowd⟩ := crowd_of_le le_rfl
  have full : c₀.shared.players.hasRoom (joinPacket lateName).username = false := by
    refine PlayerTable.hasRoom_of_freeSlots ?_ crowd.room
    rw [string]
    exact crowd.unrecorded _ fun m _ => lateName_ne m
  obtain ⟨log', c', run', packet', fought', reports', alone'⟩ :=
    lateWin crowd.run (crowd.waiting 100 le_rfl) (fun ev hev => (crowd.members ev hev).ne)
      crowd.boss (updateStreak_of_full full) (by decide)
  refine ⟨_, c, _, c', run, run', ?_, ?_, packet, packet', fought, fought', reports, reports'⟩
  · intro ev hev hi
    rw [List.append_nil] at hev
    exact absurd (alone ev hev) hi
  · intro ev hev hi name hname pkt hpkt
    obtain ⟨-, pkt', hpkt', rfl⟩ := updateStreak_name run' hev hname
    have member : ev.thread < 100 :=
      crowd.members ev ((List.mem_append.1 hev).resolve_left fun later => hi (alone' ev later))
    obtain rfl := Option.some.inj
      ((sessionPacket_later run' (crowd.names ev.thread member)).symm.trans hpkt')
    obtain rfl := Option.some.inj (packet'.symm.trans hpkt)
    rw [(crowdName_valid ev.thread member).2, string]
    exact (lateName_ne ev.thread).symm

end WorldBossRaid
