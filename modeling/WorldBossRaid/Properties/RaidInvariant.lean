import WorldBossRaid.Properties.Boss

/-!
# The invariant of the shared state

`GameSharedData.Sound` is what the boss fields of the shared state satisfy at every point of every
run, and `PayloadGameState.Sound` the same for a reply.  A reply is copied from the snapshot its
worker took last (`send_snapshot`), so it inherits the invariant from the state of that moment.
-/

namespace WorldBossRaid

open Bytes Interaction Campaign

/-! ## Statement -/

/-- The full hit points of the boss shown in a stage. -/
def BossStage.maxHp : BossStage → ℤ
  | stage1 => 1000
  | stage2 => 2000
  | dead => 2000

/-- The constraints on the boss fields. -/
structure GameSharedData.Sound (s : GameSharedData) : Prop where
  hp_nonneg : 0 ≤ s.currentHp
  hp_le : s.currentHp ≤ s.maxHp
  maxHp_eq : s.maxHp = s.stage.maxHp
  of_dead : s.stage = .dead → s.currentHp = 0 ∧ s.isRespawning = false
  of_alive : s.stage ≠ .dead → (s.currentHp = 0 ↔ s.isRespawning = true)

/-- The same constraints on the fields of a reply. -/
structure PayloadGameState.Sound (p : PayloadGameState) : Prop where
  hp_nonneg : 0 ≤ p.bossHp
  hp_le : p.bossHp ≤ p.maxHp
  stage_cases : p.stage = 0 ∧ p.maxHp = 1000 ∨ (p.stage = 1 ∨ p.stage = 2) ∧ p.maxHp = 2000
  of_dead : p.stage = 2 → p.bossHp = 0 ∧ p.isRespawning = 0
  of_alive : p.stage ≠ 2 → (p.bossHp = 0 ↔ p.isRespawning = 1)

lemma BossStage.code_eq_two_iff (st : BossStage) : st.code = 2 ↔ st = .dead := by
  cases st <;> decide

lemma PayloadGameState.Sound.ofSnapshot {s : GameSharedData} (hs : s.Sound)
    {p : PayloadGameState} (hp : p.world = .ofSnapshot s) : p.Sound := by
  have hhp : p.bossHp = s.currentHp := congrArg PayloadGameState.bossHp hp
  have hmax : p.maxHp = s.maxHp := congrArg PayloadGameState.maxHp hp
  have hstage : p.stage = s.stage.code := congrArg PayloadGameState.stage hp
  have hresp : p.isRespawning = if s.isRespawning then 1 else 0 :=
    congrArg PayloadGameState.isRespawning hp
  refine ⟨?_, ?_, ?_, fun hdead => ?_, fun halive => ?_⟩
  · rw [hhp]
    exact hs.hp_nonneg
  · rw [hhp, hmax]
    exact hs.hp_le
  · rw [hstage, hmax, hs.maxHp_eq]
    cases s.stage <;> simp [BossStage.code, BossStage.maxHp]
  · rw [hstage, BossStage.code_eq_two_iff] at hdead
    obtain ⟨hzero, hnot⟩ := hs.of_dead hdead
    rw [hhp, hresp, hzero, hnot]
    exact ⟨rfl, rfl⟩
  · rw [hstage, Ne, BossStage.code_eq_two_iff] at halive
    rw [hhp, hresp, hs.of_alive halive]
    cases s.isRespawning <;> decide

/-! ## The state -/

section Run

variable {ι : Type} [DecidableEq ι] {log : List (RaidEvent ι)}
  {c : Config ι WorkerOp WorkerOp.Ret (Option ClientLocals) GameSharedData}

lemma maxHp_stageOf (k : Fin 2) : bossMaxHp k = (stageOf k).maxHp := by
  revert k
  decide

omit [DecidableEq ι] in
lemma Represents.sound {s : GameSharedData} {S : Situation ι bossMaxHp} (h : Represents s S) :
    s.Sound := by
  cases S with
  | standing k hp hpos hle =>
      obtain ⟨hhp, hmax, hstage, hresp⟩ := h
      have halive : s.stage ≠ .dead := hstage ▸ stageOf_ne_dead k
      refine ⟨by omega, by omega, ?_, fun hdead => absurd hdead halive, fun _ => ?_⟩
      · rw [hmax, hstage, maxHp_stageOf]
      · rw [hresp]
        exact iff_of_false (by omega) Bool.false_ne_true
  | fallen k i =>
      obtain ⟨hhp, hmax, hstage, hresp⟩ := h
      have halive : s.stage ≠ .dead := hstage ▸ stageOf_ne_dead k
      have hmaxpos := bossMaxHp_pos k
      refine ⟨by omega, by omega, ?_, fun hdead => absurd hdead halive, fun _ => ?_⟩
      · rw [hmax, hstage, maxHp_stageOf]
      · exact iff_of_true hhp hresp
  | ended =>
      obtain ⟨hhp, hmax, hstage, hresp⟩ := h
      have hmaxpos : (0 : ℤ) ≤ boss2MaxHp := by decide
      refine ⟨by omega, by omega, ?_, fun _ => ⟨hhp, hresp⟩, fun halive => absurd hstage halive⟩
      rw [hmax, hstage]
      rfl

lemma run_shared_sound (run : (raid ι).Run (raidInit ι) log c) : c.shared.Sound := by
  obtain ⟨S, -, represents, -⟩ := run_raid run
  exact represents.sound

lemma before_sound (run : (raid ι).Run (raidInit ι) log c) {e : RaidEvent ι} (he : e ∈ log) :
    e.before.Sound := by
  obtain ⟨log', log₀, rfl⟩ := List.append_of_mem he
  obtain ⟨c', run', hbefore⟩ := run.before_event
  rw [hbefore]
  exact run_shared_sound run'

/-! ## Replies and their snapshots -/

/-- The snapshot a thread has taken last. -/
def snapshotOf (i : ι) (log : List (RaidEvent ι)) : Option (RaidEvent ι) :=
  log.find? fun e => e.thread = i ∧ e.op = .game .getSnapshot

lemma snapshotOf_of_lastSnapshot {i : ι} {snap : GameSharedData}
    (h : lastSnapshot (own i log) = some snap) :
    ∃ e, snapshotOf i log = some e ∧ e.answered = ⟨.game .getSnapshot, snap⟩ := by
  induction log with
  | nil => simp [lastSnapshot] at h
  | cons e log ih =>
      rw [own_cons] at h
      by_cases hi : e.thread = i
      · rw [if_pos hi] at h
        by_cases hop : e.op = .game .getSnapshot
        · refine ⟨e, by simp [snapshotOf, hi, hop], ?_⟩
          obtain ⟨j, env, op, ret, before, after⟩ := e
          obtain rfl : op = .game .getSnapshot := hop
          obtain rfl : ret = snap := Option.some.inj h
          rfl
        · have hskip : lastSnapshot (e.answered :: own i log) = lastSnapshot (own i log) := by
            obtain ⟨j, env, op, ret, before, after⟩ := e
            cases op with
            | game o => cases o <;> first | rfl | exact absurd rfl hop
            | _ => rfl
          rw [hskip] at h
          obtain ⟨s, hs, hanswered⟩ := ih h
          exact ⟨s, by simpa [snapshotOf, hop] using hs, hanswered⟩
      · rw [if_neg hi] at h
        obtain ⟨s, hs, hanswered⟩ := ih h
        exact ⟨s, by simpa [snapshotOf, hi] using hs, hanswered⟩

lemma snapshot_ret (run : (raid ι).Run (raidInit ι) log c) {e : RaidEvent ι} (he : e ∈ log)
    {snap : GameSharedData} (hanswered : e.answered = ⟨.game .getSnapshot, snap⟩) :
    snap = e.before := by
  have hevent := run.event_eq he
  obtain ⟨j, env, op, ret, before, after⟩ := e
  cases hanswered
  have hret := congrArg Event.answered hevent
  exact eq_of_heq (Sigma.mk.inj hret).2

/-- **Every reply describes the state that its worker's last snapshot found.** -/
theorem send_snapshot {post pre : List (RaidEvent ι)} {e : RaidEvent ι}
    (run : (raid ι).Run (raidInit ι) (post ++ e :: pre) c) {p : PayloadGameState}
    (hop : e.op = .send (.gameState p)) :
    ∃ s ∈ pre, snapshotOf e.thread pre = some s ∧ p.world = .ofSnapshot s.before := by
  have hallowed := run.allowed (raid_disciplined ι)
  rw [hop] at hallowed
  obtain ⟨-, snap, hlast, hworld⟩ := hallowed
  obtain ⟨s, hs, hanswered⟩ := snapshotOf_of_lastSnapshot hlast
  have hmem : s ∈ pre := List.mem_of_find?_eq_some hs
  refine ⟨s, hmem, hs, ?_⟩
  rw [hworld, snapshot_ret run (by simp [hmem]) hanswered]

lemma reply_sound (run : (raid ι).Run (raidInit ι) log c) {e : RaidEvent ι} (he : e ∈ log)
    {p : PayloadGameState} (hop : e.op = .send (.gameState p)) : p.Sound := by
  obtain ⟨post, pre, rfl⟩ := List.append_of_mem he
  obtain ⟨s, hs, -, hworld⟩ := send_snapshot run hop
  exact .ofSnapshot (before_sound run (by simp [hs])) hworld

/-! ## The invariant -/

/-- **The invariant of the raid.**  For any number of sessions, any packets, clock readings and
rolls and any interleaving, the shared state is sound; a boss is respawning exactly when one
worker is between its killing `apply_damage` and its `spawn_next_boss`, and then only one is; and
every reply ever sent is sound. -/
theorem run_sound (run : (raid ι).Run (raidInit ι) log c) :
    c.shared.Sound ∧
      (c.shared.isRespawning = true ↔ ∃! i, owesSpawn (own i log) = true) ∧
      (c.shared.isRespawning = false → ∀ i, owesSpawn (own i log) = false) ∧
      ∀ e ∈ log, ∀ p, e.op = .send (.gameState p) → p.Sound := by
  obtain ⟨S, plays, represents, owes⟩ := run_raid run
  have hnone (hS : ∀ i, ¬Owes S i) (i : ι) : owesSpawn (own i log) = false :=
    Bool.eq_false_iff.2 fun h => hS i ((owes i).1 h)
  refine ⟨represents.sound, ?_, fun hresp => ?_, fun e he p hop => ?_⟩
  · cases S with
    | standing =>
        refine iff_of_false (by rw [represents.2.2.2]; decide) fun ⟨i, hi, _⟩ => (owes i).1 hi
    | fallen k i =>
        exact iff_of_true represents.2.2.2 ⟨i, (owes i).2 rfl, fun j hj => (owes j).1 hj⟩
    | ended =>
        refine iff_of_false (by rw [represents.2.2.2]; decide) fun ⟨i, hi, _⟩ => (owes i).1 hi
  · cases S with
    | standing => exact hnone fun _ => id
    | fallen k i => exact absurd (hresp.symm.trans represents.2.2.2) Bool.false_ne_true
    | ended => exact hnone fun _ => id
  · obtain ⟨post, pre, rfl⟩ := List.append_of_mem he
    obtain ⟨s, hs, -, hworld⟩ := send_snapshot run hop
    exact .ofSnapshot (before_sound run (by simp [hs])) hworld

end Run

/-! ## A run -/

/-- An environment that supplies the clock reading 1000, the roll 0 and successful sends.  The
roll 0 is a lucky one. -/
def luckyEnv : RaidEnv := ⟨1000, 0, none, true⟩

/-- The same, with a packet that comes in. -/
def receiving (pkt : GamePacket) : RaidEnv := { luckyEnv with received := some pkt }

/-- The join packet of a player. -/
def joinPacket (name : List UInt8) : GamePacket :=
  clientPacket 0 OpCode.join.code (name ++ List.replicate (maxPlayerName - name.length) 0)

/-- The players of the runs below. -/
def firstPlayer : Fin 2 := ⟨0, Nat.zero_lt_two⟩

/-- The other player. -/
def secondPlayer : Fin 2 := ⟨1, Nat.one_lt_two⟩

/-- Player `i` joins: the clock, the packet, the mark, the join, the response, the loop. -/
def joins (i : Fin 2) (name : List UInt8) : List (Fin 2 × RaidEnv) :=
  [(i, luckyEnv), (i, receiving (joinPacket name)), (i, luckyEnv), (i, luckyEnv), (i, luckyEnv),
    (i, luckyEnv)]

/-- Player `i` attacks with dice 3: the packet, the clock, the mark, the snapshot, two rolls, the
lucky event. -/
def aims (i : Fin 2) : List (Fin 2 × RaidEnv) :=
  [(i, receiving (clientPacket 1 OpCode.attack.code (int32Bytes 3))), (i, luckyEnv), (i, luckyEnv),
    (i, luckyEnv), (i, luckyEnv), (i, luckyEnv), (i, luckyEnv)]

/-- An environment like `luckyEnv`, but with the roll 6, for which the boss's dice is 1 and the
attack not lucky. -/
def unluckyEnv : RaidEnv := { luckyEnv with roll := 6 }

/-- The same, with a packet that comes in. -/
def unluckyReceiving (pkt : GamePacket) : RaidEnv := { unluckyEnv with received := some pkt }

/-- The attack packet with the given dice. -/
def attackPacket (dice : ℤ) : GamePacket := clientPacket 1 OpCode.attack.code (int32Bytes dice)

/-- Player `i` attacks with the given dice: the packet, and the steps up to the head of the loop. -/
def attacks (i : Fin 2) (dice : ℤ) : List (Fin 2 × RaidEnv) :=
  (i, unluckyReceiving (attackPacket dice)) :: List.replicate 11 (i, unluckyEnv)

/-- Two players join, and the first one's hit has just killed the first boss. -/
def killedNotSpawned : List (Fin 2 × RaidEnv) :=
  joins firstPlayer [97] ++ joins secondPlayer [98] ++ aims firstPlayer ++ [(firstPlayer, luckyEnv)]

theorem run_sound_killedNotSpawned :
    ((raid (Fin 2)).play (raidInit _) killedNotSpawned).2.shared.Sound ∧
      ∃! i, owesSpawn (own i ((raid (Fin 2)).play (raidInit _) killedNotSpawned).1) = true :=
  have sound := run_sound (Machine.run_play (raidInit (Fin 2)) killedNotSpawned)
  ⟨sound.1, sound.2.1.1 (by decide +kernel)⟩

end WorldBossRaid
