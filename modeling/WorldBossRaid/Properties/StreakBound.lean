import WorldBossRaid.Framework.Roster
import WorldBossRaid.Properties.ComboIndependence
import WorldBossRaid.Properties.Progress

/-!
# How long a streak can get in a raid

`streak_count` is an `int`, and `gamestate_update_streak` increments it without looking at its
size.  In a raid it need not look.  A session that has won strikes before it can win again; a
strike takes hit points, of which the raid has three thousand, or it comes too late, because a boss
has fallen since the attack began, and only two bosses fall.  So the wins of a raid are no more than
the hit points and three for each session (`run_wins_le`), and no streak is longer.

For the raids of up to `2 ^ 29` sessions this makes `gamestate_update_streak` on an `int` of 32 bits
the function that the raid is made of (`run_updateStreakInt`).
-/

namespace WorldBossRaid

open Bytes Interaction Prog

/-! ## One worker -/

/-- The snapshot with which an attack began that has not struck yet. -/
def aimed : WorkerHistory → Option GameSharedData
  | [] => none
  | ⟨.game .getSnapshot, snap⟩ :: _ => some snap
  | ⟨.game (.applyDamage _ _), _⟩ :: _ => none
  | _ :: h => aimed h

/-- Has the worker recorded a win and not struck since? -/
def hasWon : WorkerHistory → Bool
  | [] => false
  | ⟨.game (.updateStreak _ _ isWin), _⟩ :: h => isWin || hasWon h
  | ⟨.game (.applyDamage _ _), _⟩ :: _ => false
  | _ :: h => hasWon h

/-- Between two wins a worker strikes, and it strikes once after a snapshot that saw a boss. -/
def StrikesOnce (h : WorkerHistory) : WorkerOp → Prop
  | .game (.updateStreak _ _ isWin) => isWin = true → hasWon h = false
  | .game (.applyDamage _ _) => ∃ snap, aimed h = some snap ∧ snap.inert = false
  | _ => True

/-- The operations that are neither. -/
def WorkerOp.peaceful : WorkerOp → Bool
  | .game (.updateStreak _ _ _) => false
  | .game (.applyDamage _ _) => false
  | _ => true

variable {h : WorkerHistory} {name : Buffer maxPlayerName}

lemma WorkerOp.strikesOnce {o : WorkerOp} (ho : o.peaceful = true) : StrikesOnce h o := by
  cases o with
  | game o =>
      cases o with
      | updateStreak => cases ho
      | applyDamage => cases ho
      | _ => trivial
  | _ => trivial

lemma hasWon_cons {o : WorkerOp} (ho : o.peaceful = true) (r : o.Ret) :
    hasWon (⟨o, r⟩ :: h) = hasWon h := by
  cases o with
  | game o =>
      cases o with
      | updateStreak => cases ho
      | applyDamage => cases ho
      | _ => rfl
  | _ => rfl

lemma aimed_cons {o : WorkerOp} (ho : o.peaceful = true) (snapshot : o ≠ .game .getSnapshot)
    (r : o.Ret) : aimed (⟨o, r⟩ :: h) = aimed h := by
  cases o with
  | game o =>
      cases o with
      | getSnapshot => exact absurd rfl snapshot
      | updateStreak => cases ho
      | applyDamage => cases ho
      | _ => rfl
  | _ => rfl

lemma stays_peaceful {α : Type} {p : Worker α} (hp : Issues (fun o => o.peaceful = true) p)
    (resting : hasWon h = false) :
    Conforms StrikesOnce (fun h' _ => hasWon h' = false) h p :=
  hp.conforms (fun _ _ _ ho => WorkerOp.strikesOnce ho)
    (fun _ _ r resting ho => (hasWon_cons ho r).trans resting) resting

lemma strike_strikesOnce (aims : ∃ snap, aimed h = some snap ∧ snap.inert = false)
    (result : AttackResult) :
    Conforms StrikesOnce (fun h' _ => hasWon h' = false) h (strike name result) := by
  refine ⟨aims, fun killed => ?_⟩
  cases killed with
  | false => exact rfl
  | true => exact ⟨trivial, fun _ => rfl⟩

lemma resolveAttack_strikesOnce (resting : hasWon h = false)
    (aims : ∃ snap, aimed h = some snap ∧ snap.inert = false) (playerDice bossDice : ℤ)
    (luckyRoll : ℕ) :
    Conforms StrikesOnce (fun h' _ => hasWon h' = false) h
      (resolveAttack playerDice name bossDice luckyRoll) := by
  obtain ⟨snap, haim, alive⟩ := aims
  simp only [resolveAttack, perform_bind]
  split
  · exact ⟨trivial, fun _ => strike_strikesOnce ⟨snap, by exact haim, alive⟩ _⟩
  · split
    · exact ⟨fun _ => resting, fun _ => strike_strikesOnce ⟨snap, by exact haim, alive⟩ _⟩
    · exact ⟨fun won => absurd won Bool.false_ne_true, fun _ => resting⟩

lemma gameProcessAttack_strikesOnce (resting : hasWon h = false) (playerDice : ℤ) :
    Conforms StrikesOnce (fun h' _ => hasWon h' = false) h
      (gameProcessAttack playerDice name) := by
  simp only [gameProcessAttack, perform_bind, conforms_call]
  refine ⟨trivial, fun snap => ?_⟩
  split
  · exact resting
  · next alive =>
      refine ⟨trivial, fun bossRoll => ⟨trivial, fun luckyRoll => ?_⟩⟩
      refine Conforms.seq (resolveAttack_strikesOnce (by exact resting) ?_ playerDice
        (rollOf bossRoll) luckyRoll) fun h' result resting' => ⟨trivial, fun _ => resting'⟩
      exact ⟨snap, rfl, by simpa using alive⟩

lemma handleAttack_strikesOnce (resting : hasWon h = false) (pkt : GamePacket) :
    Conforms StrikesOnce (fun h' _ => hasWon h' = false) h (handleAttack pkt name) := by
  have dice : Conforms StrikesOnce (fun h' _ => hasWon h' = false) h (attackDice pkt) := by
    unfold attackDice
    split
    · exact ⟨trivial, fun _ => resting⟩
    · exact resting
  apply dice.seq
  intro h₁ playerDice resting₁
  apply (gameProcessAttack_strikesOnce resting₁ playerDice).seq
  intro h₂ outcome resting₂
  exact ⟨trivial, fun _ => ⟨trivial, fun _ => resting₂⟩⟩

lemma WorkerOp.InHeartbeat.peaceful {o : WorkerOp} (ho : o.InHeartbeat) : o.peaceful = true :=
  ho.each rfl rfl rfl fun _ => rfl

lemma WorkerOp.InCleanup.peaceful {o : WorkerOp} (ho : o.InCleanup) : o.peaceful = true :=
  ho.each rfl rfl

lemma WorkerOp.InLoop.peaceful {o : WorkerOp} (ho : o.InLoop) : o.peaceful = true :=
  ho.each rfl rfl fun _ => rfl

lemma WorkerOp.InPrelude.peaceful {o : WorkerOp} (ho : o.InPrelude) : o.peaceful = true :=
  ho.each rfl rfl rfl rfl rfl (fun _ => rfl) fun _ => rfl

lemma strikesOnceRule :
    LoopRule StrikesOnce (fun _ h => hasWon h = false) fun h => hasWon h = false where
  allows _ _ _ _ ho := WorkerOp.strikesOnce ho.peaceful
  keeps _ _ _ r resting ho := (hasWon_cons ho.peaceful r).trans resting
  limiter _ _ _ resting := resting
  attack _ _ pkt resting := handleAttack_strikesOnce resting pkt
  heartbeat _ _ resting :=
    stays_peaceful (handleHeartbeat_issues.mono fun _ ho => ho.peaceful) resting
  cleanup l _ resting :=
    stays_peaceful ((cleanupClient_issues l.playerId).mono fun _ ho => ho.peaceful) resting

theorem raid_strikesOnce (ι : Type) :
    (raid ι).Disciplined (fun _ => StrikesOnce)
      (fun _ => AtHeadOrEnd (fun _ h => hasWon h = false) fun h => hasWon h = false)
      (raidInit ι) where
  first _ := (stays_peaceful (handleClient_issues.mono fun _ ho => ho.peaceful) rfl).weaken
    fun _ v resting => atHeadOrEnd_of (fun _ => resting) resting v
  again _ _ _ _ := strikesOnceRule.dispatchRule.again

/-! ## The bosses that have fallen -/

/-- How many bosses have fallen in a game that stands at `s`. -/
def fallen (s : GameSharedData) : ℕ :=
  match s.stage with
  | .stage1 => s.isRespawning.toNat
  | .stage2 => 1 + s.isRespawning.toNat
  | .dead => 2

section Fallen

variable {s t : GameSharedData}

lemma fallen_le_two (s : GameSharedData) : fallen s ≤ 2 := by
  unfold fallen
  cases s.stage <;> cases s.isRespawning <;> decide

lemma fallen_bounds (s : GameSharedData) :
    s.stage.code.toNat ≤ fallen s ∧ fallen s ≤ s.stage.code.toNat + 1 := by
  unfold fallen
  cases s.stage <;> cases s.isRespawning <;> decide

lemma fallen_of_standing (standing : s.inert = false) : fallen s = s.stage.code.toNat := by
  obtain ⟨alive, calm⟩ := alive_of_not_inert standing
  unfold fallen
  rw [calm]
  cases hs : s.stage with
  | dead => exact absurd hs alive
  | _ => rfl

lemma fallen_of_respawning (alive : s.stage ≠ .dead) (respawning : s.isRespawning = true) :
    fallen s = s.stage.code.toNat + 1 := by
  unfold fallen
  rw [respawning]
  cases hs : s.stage with
  | dead => exact absurd hs alive
  | _ => rfl

lemma GameSharedData.Advanced.stage_lt (later : s.Advanced t) (moved : t.stage ≠ s.stage) :
    s.stage.code.toNat < t.stage.code.toNat := by
  refine lt_of_le_of_ne (UInt8.le_iff_toNat_le.1 later.stage_le) fun h => moved ?_
  exact (BossStage.code_injective (UInt8.toNat_inj.1 h)).symm

lemma GameSharedData.Advanced.fallen_le (later : s.Advanced t) : fallen s ≤ fallen t := by
  by_cases same : t.stage = s.stage
  · have respawning : s.isRespawning.toNat ≤ t.isRespawning.toNat := by
      cases hs : s.isRespawning with
      | false => exact Nat.zero_le _
      | true => rw [later.respawning same hs]
    unfold fallen
    rw [same]
    cases s.stage <;> dsimp only <;> omega
  · exact ((fallen_bounds s).2.trans (later.stage_lt same)).trans (fallen_bounds t).1

/-- If a boss was standing and none is now, one has fallen. -/
lemma GameSharedData.Advanced.fallen_lt (later : s.Advanced t) (standing : s.inert = false)
    (down : t.inert = true) : fallen s < fallen t := by
  rw [fallen_of_standing standing]
  by_cases same : t.stage = s.stage
  · have alive : t.stage ≠ .dead := same ▸ (alive_of_not_inert standing).1
    have respawning : t.isRespawning = true := by
      rw [GameSharedData.inert, Bool.or_eq_true, beq_iff_eq] at down
      exact down.resolve_right alive
    rw [fallen_of_respawning alive respawning, same]
    exact Nat.lt_succ_self _
  · exact (later.stage_lt same).trans_le (fallen_bounds t).1

end Fallen

/-! ## One session -/

section Session

variable {ι : Type}

/-- An update of a streak after a win. -/
def wins (ev : RaidEvent ι) : Bool :=
  match ev.op with
  | .game (.updateStreak _ _ isWin) => isWin
  | _ => false

/-- An `apply_damage` that is accepted. -/
def lands (ev : RaidEvent ι) : Bool :=
  match ev.op with
  | .game (.applyDamage _ _) => !ev.before.inert
  | _ => false

/-- One that comes too late. -/
def misses (ev : RaidEvent ι) : Bool :=
  match ev.op with
  | .game (.applyDamage _ _) => ev.before.inert
  | _ => false

variable [DecidableEq ι]

/-- What session `i` has done in the game that stands at `s`: it has struck for each of its wins
but perhaps the last, and for each strike that came too late a boss had fallen since its attack
began. -/
structure Spent (i : ι) (log : List (RaidEvent ι)) (s : GameSharedData) : Prop where
  wins_le : countOf i wins log ≤
    countOf i lands log + countOf i misses log + (hasWon (own i log)).toNat
  misses_le : countOf i misses log ≤ fallen s
  aimed_le : ∀ snap, aimed (own i log) = some snap → snap.inert = false →
    countOf i misses log ≤ fallen snap ∧ snap.Advanced s

variable {i j : ι} {log : List (RaidEvent ι)} {s t : GameSharedData} {o : WorkerOp} {e : RaidEnv}

lemma spent_nil (i : ι) (s : GameSharedData) : Spent i [] s :=
  ⟨Nat.zero_le _, Nat.zero_le _, fun _ h => by cases h⟩

lemma Spent.later (spent : Spent i log s) (later : s.Advanced t) : Spent i log t where
  wins_le := spent.wins_le
  misses_le := spent.misses_le.trans later.fallen_le
  aimed_le snap aims alive :=
    ⟨(spent.aimed_le snap aims alive).1, (spent.aimed_le snap aims alive).2.trans later⟩

lemma Spent.other (spent : Spent i log s) (hij : j ≠ i) :
    Spent i ((raid ι).event j e o t :: log) s := by
  have hown := (raid ι).own_event_of_ne hij e o t log
  have hcount (P : RaidEvent ι → Bool) :
      countOf i P ((raid ι).event j e o t :: log) = countOf i P log := countOf_cons_of_ne hij P log
  obtain ⟨wins_le, misses_le, aimed_le⟩ := spent
  refine ⟨?_, ?_, ?_⟩
  · rwa [hcount, hcount, hcount, hown]
  · rwa [hcount]
  · rwa [hcount, hown]

lemma countOf_event (P : RaidEvent ι → Bool) :
    countOf i P ((raid ι).event i e o s :: log) =
      countOf i P log + (P ((raid ι).event i e o s)).toNat :=
  countOf_cons_self P ((raid ι).event i e o s) log

/-- A peaceful operation is neither a win nor a strike. -/
lemma countOf_peaceful (i : ι) (log : List (RaidEvent ι)) (s : GameSharedData) (e : RaidEnv)
    (ho : o.peaceful = true) :
    countOf i wins ((raid ι).event i e o s :: log) = countOf i wins log ∧
      countOf i lands ((raid ι).event i e o s :: log) = countOf i lands log ∧
      countOf i misses ((raid ι).event i e o s :: log) = countOf i misses log := by
  rw [countOf_event, countOf_event, countOf_event]
  cases o with
  | game o =>
      cases o with
      | updateStreak => cases ho
      | applyDamage => cases ho
      | _ => exact ⟨rfl, rfl, rfl⟩
  | _ => exact ⟨rfl, rfl, rfl⟩

lemma Spent.peaceful (spent : Spent i log s) (ho : o.peaceful = true)
    (snapshot : o ≠ .game .getSnapshot) : Spent i ((raid ι).event i e o s :: log) s := by
  obtain ⟨wins_le, misses_le, aimed_le⟩ := spent
  obtain ⟨hwins, hlands, hmisses⟩ := countOf_peaceful i log s e ho
  have hown := (raid ι).own_event_self i e o s log
  refine ⟨?_, ?_, ?_⟩
  · rwa [hwins, hlands, hmisses, hown, hasWon_cons ho]
  · rwa [hmisses]
  · rwa [hmisses, hown, aimed_cons ho snapshot]

lemma Spent.snapshot (spent : Spent i log s) :
    Spent i ((raid ι).event i e (.game .getSnapshot) s :: log) s := by
  obtain ⟨wins_le, misses_le, -⟩ := spent
  obtain ⟨hwins, hlands, hmisses⟩ :=
    countOf_peaceful i log s e (show WorkerOp.peaceful (.game .getSnapshot) = true by rfl)
  have hown := (raid ι).own_event_self i e (.game .getSnapshot) s log
  refine ⟨?_, ?_, fun snap aims _ => ?_⟩
  · rw [hwins, hlands, hmisses, hown]
    exact wins_le
  · rwa [hmisses]
  · rw [hown] at aims
    obtain rfl : s = snap := Option.some.inj aims
    rw [hmisses]
    exact ⟨misses_le, .refl s⟩

/-- A win waits for its strike. -/
lemma Spent.update (spent : Spent i log s) {name : Buffer maxPlayerName} {dice : ℤ} {isWin : Bool}
    (allowed : isWin = true → hasWon (own i log) = false) :
    Spent i ((raid ι).event i e (.game (.updateStreak name dice isWin)) s :: log) s := by
  obtain ⟨wins_le, misses_le, aimed_le⟩ := spent
  have hown := (raid ι).own_event_self i e (.game (.updateStreak name dice isWin)) s log
  refine ⟨?_, ?_, fun snap aims alive => ?_⟩
  · rw [countOf_event, countOf_event, countOf_event, hown]
    change _ + isWin.toNat ≤ _ + 0 + (_ + 0) + (isWin || hasWon (own i log)).toNat
    cases isWin with
    | false => exact wins_le
    | true =>
        rw [allowed rfl] at wins_le
        exact Nat.succ_le_succ wins_le
  · rw [countOf_event]
    exact misses_le
  · rw [countOf_event]
    rw [hown] at aims
    exact aimed_le snap aims alive

/-- A strike settles a win, and if it comes too late a boss has fallen since the aim. -/
lemma Spent.strike (spent : Spent i log s) {damage : ℤ} {name : Buffer maxPlayerName}
    (allowed : ∃ snap, aimed (own i log) = some snap ∧ snap.inert = false) :
    Spent i ((raid ι).event i e (.game (.applyDamage damage name)) s :: log) s := by
  obtain ⟨wins_le, misses_le, aimed_le⟩ := spent
  obtain ⟨snap, aims, alive⟩ := allowed
  obtain ⟨before, later⟩ := aimed_le snap aims alive
  have hown := (raid ι).own_event_self i e (.game (.applyDamage damage name)) s log
  refine ⟨?_, ?_, fun snap aims => ?_⟩
  · rw [countOf_event, countOf_event, countOf_event, hown]
    change _ + 0 ≤ _ + (!s.inert).toNat + (_ + s.inert.toNat) + 0
    have settled := Bool.toNat_le (hasWon (own i log))
    have once : (!s.inert).toNat + s.inert.toNat = 1 := by cases s.inert <;> rfl
    omega
  · rw [countOf_event]
    change _ + s.inert.toNat ≤ _
    cases hinert : s.inert with
    | false => exact misses_le
    | true => exact before.trans_lt (later.fallen_lt alive hinert)
  · rw [hown] at aims
    cases aims

lemma Spent.event (spent : Spent i log s) (allowed : StrikesOnce (own i log) o) :
    Spent i ((raid ι).event i e o s :: log) s := by
  cases o with
  | game o =>
      cases o with
      | getSnapshot => exact spent.snapshot
      | updateStreak => exact spent.update allowed
      | applyDamage => exact spent.strike allowed
      | _ => exact spent.peaceful rfl (by simp)
  | _ => exact spent.peaceful rfl (by simp)

variable {c : Config ι WorkerOp WorkerOp.Ret (Option ClientLocals) GameSharedData}

/-- The books of every session are right in every run. -/
lemma run_spent (run : (raid ι).Run (raidInit ι) log c) (i : ι) : Spent i log c.shared := by
  induction run with
  | start => exact spent_nil i _
  | @act log c run j e o k next ih =>
      have conforms := run.conforms (raid_strikesOnce ι) j
      have behaves := run.conforms (raid_disciplined ι) j
      rw [next] at conforms behaves
      refine Spent.later ?_ (advanced_exec (run_raid run) behaves.1 e)
      by_cases hij : j = i
      · subst hij
        exact ih.event conforms.1
      · exact ih.other hij
  | resume _ _ _ _ ih => exact ih

end Session

/-! ## The whole raid -/

section Raid

variable {ι : Type} [DecidableEq ι] {log : List (RaidEvent ι)} {s : GameSharedData}
  {c : Config ι WorkerOp WorkerOp.Ret (Option ClientLocals) GameSharedData}

/-- A strike that is accepted takes a hit point at least. -/
lemma raidHp_applyDamage {damage : ℤ} (hpos : 0 < damage) (name : Buffer maxPlayerName)
    (sound : s.Sound) (standing : s.inert = false) :
    (gamestateApplyDamage damage name s).2.raidHp + 1 ≤ s.raidHp := by
  obtain ⟨alive, calm⟩ := alive_of_not_inert standing
  have left : s.currentHp ≠ 0 := fun h =>
    Bool.false_ne_true (calm.symm.trans ((sound.of_alive alive).1 h))
  have nonneg := sound.hp_nonneg
  have same (t : GameSharedData) (less : t.currentHp + 1 ≤ s.currentHp)
      (hstage : t.stage = s.stage) : t.raidHp + 1 ≤ s.raidHp := by
    rw [GameSharedData.raidHp, GameSharedData.raidHp, hstage]
    cases hs : s.stage with
    | dead => exact absurd hs alive
    | _ => dsimp only; omega
  rcases applyDamage_cases damage name s with ⟨refused, -⟩ | ⟨-, -, hret⟩ | ⟨-, -, hret⟩
  · exact absurd (standing.symm.trans refused) Bool.false_ne_true
  · rw [hret]
    exact same _ (by dsimp only; omega) rfl
  · rw [hret]
    exact same _ (by dsimp only; omega) rfl

omit [DecidableEq ι] in
lemma lands_event {i : ι} {e : RaidEnv} {o : WorkerOp}
    (h : lands ((raid ι).event i e o s) = true) :
    s.inert = false ∧ ∃ damage name, o = .game (.applyDamage damage name) := by
  cases o with
  | game o =>
      cases o with
      | applyDamage damage name =>
          have standing : (!s.inert) = true := h
          exact ⟨by simpa using standing, damage, name, rfl⟩
      | _ => cases h
  | _ => cases h

lemma run_lands (run : (raid ι).Run (raidInit ι) log c) :
    (log.countP lands : ℤ) + c.shared.raidHp ≤ 3000 := by
  induction run with
  | start => exact (show (0 : ℤ) + gamestateInit.raidHp ≤ 3000 by decide)
  | @act log c run i e o k next ih =>
      have behaves := run.conforms (raid_disciplined ι) i
      rw [next] at behaves
      rw [List.countP_cons]
      cases hlands : lands ((raid ι).event i e o c.shared) with
      | false =>
          have later := (advanced_exec (run_raid run) behaves.1 e).raidHp_le
          exact (Int.add_le_add_left later _).trans ih
      | true =>
          obtain ⟨standing, damage, name, rfl⟩ := lands_event hlands
          have taken :
              ((raid ι).exec i e (.game (.applyDamage damage name)) c.shared).2.raidHp + 1 ≤
                c.shared.raidHp :=
            raidHp_applyDamage behaves.1.2.1 name (run_shared_sound run) standing
          push_cast
          omega
  | resume _ _ _ _ ih => exact ih

/-- **The wins of a raid**, whatever the sessions do and in whatever order. -/
theorem run_wins_le (run : (raid ι).Run (raidInit ι) log c) :
    log.countP wins ≤ 3000 + 3 * (log.map Event.thread).toFinset.card := by
  have covers : ∀ ev ∈ log, ev.thread ∈ (log.map Event.thread).toFinset := fun ev hev =>
    List.mem_toFinset.2 (List.mem_map_of_mem hev)
  have each (i : ι) : countOf i wins log ≤ countOf i lands log + 3 := by
    obtain ⟨wins_le, misses_le, -⟩ := run_spent run i
    have two := fallen_le_two c.shared
    have one := Bool.toNat_le (hasWon (own i log))
    omega
  have landed := run_lands run
  have left : 0 ≤ c.shared.raidHp := by
    have nonneg := (run_shared_sound run).hp_nonneg
    unfold GameSharedData.raidHp
    split <;> omega
  calc log.countP wins
      = ∑ i ∈ (log.map Event.thread).toFinset, countOf i wins log := (sum_countOf covers wins).symm
    _ ≤ ∑ i ∈ (log.map Event.thread).toFinset, (countOf i lands log + 3) :=
        Finset.sum_le_sum fun i _ => each i
    _ = log.countP lands + 3 * (log.map Event.thread).toFinset.card := by
        rw [Finset.sum_add_distrib, sum_countOf covers lands, Finset.sum_const, smul_eq_mul,
          Nat.mul_comm]
    _ ≤ 3000 + 3 * (log.map Event.thread).toFinset.card := by omega

/-! ## Streaks -/

/-- No streak in the table is longer than there have been wins. -/
def StreaksWithin (wins : ℕ) (t : PlayerTable) : Prop :=
  ∀ p ∈ t.slots, 0 ≤ p.streakCount ∧ p.streakCount ≤ wins

variable {t : PlayerTable} {n : ℕ}

lemma StreaksWithin.mono {m : ℕ} (within : StreaksWithin n t) (le : n ≤ m) : StreaksWithin m t :=
  fun p hp => ⟨(within p hp).1, (within p hp).2.trans (by exact_mod_cast le)⟩

lemma StreaksWithin.modifySlot {m : ℕ} (within : StreaksWithin n t) (le : n ≤ m) (i : ℕ)
    {f : PlayerHistory → PlayerHistory}
    (hf : ∀ p ∈ t.slots, 0 ≤ (f p).streakCount ∧ (f p).streakCount ≤ m) :
    StreaksWithin m (t.modifySlot i f) := by
  intro p hp
  obtain ⟨j, hj⟩ := List.mem_iff_getElem?.1 hp
  rw [PlayerTable.modifySlot, List.getElem?_modify] at hj
  obtain ⟨q, hq, rfl⟩ := Option.map_eq_some_iff.1 hj
  have hmem := List.mem_of_getElem? hq
  split_ifs
  · exact hf q hmem
  · exact within.mono le q hmem

lemma streakCount_record {p : PlayerHistory} (within : 0 ≤ p.streakCount ∧ p.streakCount ≤ n)
    (currentDice : ℤ) (isWin : Bool) :
    0 ≤ (p.record currentDice isWin).streakCount ∧
      (p.record currentDice isWin).streakCount ≤ (n + isWin.toNat : ℕ) := by
  obtain ⟨nonneg, le⟩ := within
  cases isWin with
  | false => exact ⟨le_rfl, Int.natCast_nonneg _⟩
  | true =>
      simp only [PlayerHistory.recordBy, if_true, Bool.toNat_true]
      split_ifs <;> constructor <;> push_cast <;> omega

lemma StreaksWithin.updateStreak (within : StreaksWithin n s.players) (name : Buffer maxPlayerName)
    (currentDice : ℤ) (isWin : Bool) :
    StreaksWithin (n + isWin.toNat)
      (gamestateUpdateStreak name currentDice isWin s).2.players := by
  unfold gamestateUpdateStreak gamestateUpdateStreakBy
  split
  · exact within.modifySlot (Nat.le_add_right _ _) _ fun p hp =>
      streakCount_record (within p hp) currentDice isWin
  · split
    · exact within.modifySlot (Nat.le_add_right _ _) _ fun p _ =>
        streakCount_record ⟨le_rfl, Int.natCast_nonneg _⟩ currentDice isWin
    · exact within.mono (Nat.le_add_right _ _)

lemma streaksWithin_zero : StreaksWithin 0 PlayerTable.zero := by
  intro p hp
  rw [List.eq_of_mem_replicate hp]
  exact ⟨le_rfl, le_rfl⟩

/-- **No streak is longer than there have been wins.** -/
theorem run_streaksWithin (run : (raid ι).Run (raidInit ι) log c) :
    StreaksWithin (log.countP wins) c.shared.players := by
  induction run with
  | start => exact streaksWithin_zero
  | @act log c run i e o k next ih =>
      rw [List.countP_cons]
      have still (ho : o.updatedName = none) : StreaksWithin (log.countP wins +
          if wins ((raid ι).event i e o c.shared) = true then 1 else 0)
          (o.exec e c.shared).2.players := by
        rw [players_exec ho]
        exact ih.mono (Nat.le_add_right _ _)
      cases o with
      | game o =>
          cases o with
          | updateStreak name dice isWin =>
              have counted : (if isWin = true then 1 else 0) = isWin.toNat := by
                cases isWin <;> rfl
              exact counted ▸ ih.updateStreak name dice isWin
          | _ => exact still rfl
      | _ => exact still rfl
  | resume _ _ _ _ ih => exact ih

lemma recordBy_incrementInt {p : PlayerHistory} (within : 0 ≤ p.streakCount)
    (small : p.streakCount + 1 < 2 ^ 31) (currentDice : ℤ) (isWin : Bool) :
    p.recordBy incrementInt currentDice isWin = p.record currentDice isWin := by
  have counted : incrementInt p.streakCount = p.streakCount + 1 :=
    Int.bmod_eq_of_le (by push_cast; omega) (by push_cast; omega)
  rw [PlayerHistory.record, PlayerHistory.recordBy, PlayerHistory.recordBy, counted]

lemma PlayerTable.modifySlot_congr {f g : PlayerHistory → PlayerHistory}
    (h : ∀ p ∈ t.slots, f p = g p) (i : ℕ) : t.modifySlot i f = t.modifySlot i g := by
  rw [PlayerTable.modifySlot, PlayerTable.modifySlot, PlayerTable.mk.injEq]
  apply List.ext_getElem?
  intro j
  rw [List.getElem?_modify, List.getElem?_modify]
  cases hj : t.slots[j]? with
  | none => rfl
  | some p => simp only [Option.map_eq_map, Option.map_some, h p (List.mem_of_getElem? hj)]

/-- Short streaks are counted right on 32 bits. -/
lemma updateStreakInt_eq (within : StreaksWithin n s.players) (few : n + 1 < 2 ^ 31)
    (name : Buffer maxPlayerName) (currentDice : ℤ) (isWin : Bool) :
    gamestateUpdateStreakInt name currentDice isWin s =
      gamestateUpdateStreak name currentDice isWin s := by
  have small : (n : ℤ) + 1 < 2 ^ 31 := by exact_mod_cast few
  have known : ∀ p ∈ s.players.slots,
      p.recordBy incrementInt currentDice isWin = p.record currentDice isWin := fun p hp =>
    recordBy_incrementInt (within p hp).1 (by have := (within p hp).2; omega) currentDice isWin
  have claimed : ∀ p ∈ s.players.slots, (p.claim name).recordBy incrementInt currentDice isWin =
      (p.claim name).record currentDice isWin := fun p _ =>
    recordBy_incrementInt le_rfl (show (0 : ℤ) + 1 < 2 ^ 31 by decide) currentDice isWin
  unfold gamestateUpdateStreakInt gamestateUpdateStreak gamestateUpdateStreakBy
  split
  · rw [PlayerTable.modifySlot_congr known]
  · split
    · rw [PlayerTable.modifySlot_congr claimed]
    · rfl

/-- **In a raid `streak_count` does not overflow.**  As long as no more than `2 ^ 29` sessions have
done anything, every call of `gamestate_update_streak` does on 32 bits what it does in the raid. -/
theorem run_updateStreakInt (run : (raid ι).Run (raidInit ι) log c)
    (few : (log.map Event.thread).toFinset.card ≤ 2 ^ 29) (name : Buffer maxPlayerName)
    (currentDice : ℤ) (isWin : Bool) :
    gamestateUpdateStreakInt name currentDice isWin c.shared =
      gamestateUpdateStreak name currentDice isWin c.shared := by
  have total := run_wins_le run
  exact updateStreakInt_eq (run_streaksWithin run) (by omega) name currentDice isWin

end Raid

end WorldBossRaid
