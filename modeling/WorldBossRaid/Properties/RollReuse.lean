import WorldBossRaid.Model.Dice
import WorldBossRaid.Properties.Combo
import WorldBossRaid.Properties.RaidInvariant

/-!
# The rolls of different sessions

Every worker reads the outputs of one and the same generator from the first on.
`draws_eq` says so of its positions and `allRolls_eq` of its values, and `rollsApart_iff` draws the
conclusion: no output decides attacks of two sessions exactly as long as only one session's attacks
have been decided by any.
-/

namespace WorldBossRaid

open Bytes Interaction Prog

/-! ## The positions that decide an attack -/

section Positions

variable {ι : Type} [DecidableEq ι]

/-- The positions that session `i` has drawn since its last attack returned, newest first. -/
def pendingDraws (i : ι) : List (SeededEvent ι) → List ℕ
  | [] => []
  | e :: log =>
    if e.thread = i then
      match e.op with
      | .mark (.attackReturned _ _) => []
      | .rand => (e.before.generator i).drawn :: pendingDraws i log
      | _ => pendingDraws i log
    else pendingDraws i log

/-- The positions that decided the attacks of session `i`, newest first: a list for every attack
that has returned. -/
def decidedBy (i : ι) : List (SeededEvent ι) → List (List ℕ)
  | [] => []
  | e :: log =>
    if e.thread = i then
      match e.op with
      | .mark (.attackReturned _ _) => pendingDraws i log :: decidedBy i log
      | _ => decidedBy i log
    else decidedBy i log

/-- No two attacks of different sessions are decided by the same output. -/
def RollsApart (log : List (SeededEvent ι)) : Prop :=
  ∀ i j, i ≠ j → ∀ a ∈ decidedBy i log, ∀ b ∈ decidedBy j log, ∀ p ∈ a, p ∉ b

end Positions

/-! ## Attacks that need rolls -/

/-- The snapshot with which the handling of the present packet began. -/
def openingSnapshot : WorkerHistory → Option GameSharedData
  | [] => none
  | ⟨.mark (.dispatched _), _⟩ :: _ => none
  | ⟨.game .getSnapshot, snap⟩ :: h => (openingSnapshot h).or (some snap)
  | _ :: h => openingSnapshot h

/-- Has the packet no dice that counts? -/
def GamePacket.foul (pkt : GamePacket) : Bool := pkt.attackDamage ≤ 0 ∨ pkt.attackDamage > 6

/-- Does the present attack call for rolls?  Its packet has no dice that counts, or the boss was
there when it began. -/
def callsForRolls (h : WorkerHistory) : Bool :=
  (present h).any GamePacket.foul || (openingSnapshot h).any fun snap => !snap.inert

/-- Has an attack that called for rolls returned? -/
def hasRolled : WorkerHistory → Bool
  | [] => false
  | ⟨.mark (.attackReturned _ _), _⟩ :: h => callsForRolls h || hasRolled h
  | _ :: h => hasRolled h

/-- Has there been a roll since the last attack returned? -/
def rolledSince : WorkerHistory → Bool
  | [] => false
  | ⟨.mark (.attackReturned _ _), _⟩ :: _ => false
  | ⟨.rand, _⟩ :: _ => true
  | _ :: h => rolledSince h

/-! ## One worker -/

/-- An attack returns with rolls exactly if it has called for them. -/
def RollsAsCalled (h : WorkerHistory) : WorkerOp → Prop
  | .mark (.attackReturned _ _) => rolledSince h = callsForRolls h
  | _ => True

/-- In an attack: how it began, and whether it has rolled. -/
structure Rolling (pkt : GamePacket) (aim : Option GameSharedData) (rolled : Bool)
    (h : WorkerHistory) : Prop where
  present : present h = some pkt
  aim : openingSnapshot h = aim
  rolled : rolledSince h = rolled

variable {pkt : GamePacket} {aim : Option GameSharedData} {rolled : Bool} {h : WorkerHistory}
  {l : ClientLocals}

/-- Does the operation roll, or end an attack? -/
def WorkerOp.rolls : WorkerOp → Bool
  | .rand => true
  | .mark (.attackReturned _ _) => true
  | _ => false

lemma rollsAsCalled_of_not_rolls {o : WorkerOp} (ho : o.rolls = false) : RollsAsCalled h o := by
  cases o with
  | mark m =>
      cases m with
      | attackReturned => cases ho
      | _ => exact trivial
  | _ => exact trivial

lemma rolledSince_of_not_rolls {o : WorkerOp} (ho : o.rolls = false) (r : o.Ret) :
    rolledSince (⟨o, r⟩ :: h) = rolledSince h := by
  cases o with
  | mark m =>
      cases m with
      | attackReturned => cases ho
      | _ => rfl
  | rand => cases ho
  | _ => rfl

/-- The operations of a battle once the dice are thrown. -/
def WorkerOp.Strikes : WorkerOp → Prop
  | .game .getSnapshot => False
  | .game _ => True
  | _ => False

lemma WorkerOp.Strikes.not_rolls {o : WorkerOp} (ho : o.Strikes) : o.rolls = false := by
  cases o with
  | game o => rfl
  | _ => exact ho.elim

lemma strike_strikes (name : Buffer maxPlayerName) (result : AttackResult) :
    Issues WorkerOp.Strikes (strike name result) := by
  refine ⟨trivial, fun killed => ?_⟩
  cases killed with
  | false => exact issues_done
  | true => exact ⟨trivial, fun _ => issues_done⟩

lemma resolveAttack_strikes (playerDice bossDice : ℤ) (name : Buffer maxPlayerName)
    (luckyRoll : ℕ) :
    Issues WorkerOp.Strikes (resolveAttack playerDice name bossDice luckyRoll) := by
  simp only [resolveAttack, perform_bind]
  split
  · exact ⟨trivial, fun _ => strike_strikes name _⟩
  · split
    · exact ⟨trivial, fun _ => strike_strikes name _⟩
    · exact ⟨trivial, fun _ => issues_done⟩

lemma Rolling.strikes (rolling : Rolling pkt aim rolled h) {o : WorkerOp} (ho : o.Strikes)
    (r : o.Ret) : Rolling pkt aim rolled (⟨o, r⟩ :: h) := by
  obtain ⟨hpresent, haim, hrolled⟩ := rolling
  cases o with
  | game o =>
      cases o with
      | getSnapshot => exact ho.elim
      | _ => exact ⟨hpresent, haim, hrolled⟩
  | _ => exact ho.elim

lemma Rolling.rand (rolling : Rolling pkt aim rolled h) (roll : ℕ) :
    Rolling pkt aim true (⟨.rand, roll⟩ :: h) := ⟨rolling.present, rolling.aim, rfl⟩

lemma Rolling.snapshot (rolling : Rolling pkt aim rolled h) (snap : GameSharedData) :
    Rolling pkt (aim.or (some snap)) rolled (⟨.game .getSnapshot, snap⟩ :: h) where
  present := rolling.present
  aim := congrArg (·.or (some snap)) rolling.aim
  rolled := rolling.rolled

lemma attackDice_rolls (rolling : Rolling pkt none false h) :
    Conforms RollsAsCalled (fun h' _ => Rolling pkt none pkt.foul h') h (attackDice pkt) := by
  unfold attackDice
  by_cases foul : pkt.attackDamage ≤ 0 ∨ pkt.attackDamage > 6
  · rw [if_pos foul, GamePacket.foul, decide_eq_true foul]
    exact ⟨trivial, fun roll => rolling.rand roll⟩
  · rw [if_neg foul, GamePacket.foul, decide_eq_false foul]
    exact rolling

/-- When the battle is over, it has rolled if it was called for. -/
lemma gameProcessAttack_rolls (rolling : Rolling pkt none pkt.foul h) (playerDice : ℤ)
    (name : Buffer maxPlayerName) :
    Conforms RollsAsCalled (fun h' _ => rolledSince h' = callsForRolls h') h
      (gameProcessAttack playerDice name) := by
  simp only [gameProcessAttack, perform_bind, conforms_call]
  refine ⟨trivial, fun snap => ?_⟩
  have aimed : Rolling pkt (some snap) pkt.foul _ := rolling.snapshot snap
  cases inert : snap.inert with
  | true =>
      rw [if_pos rfl]
      change rolledSince _ = callsForRolls _
      rw [callsForRolls, aimed.present, aimed.aim, aimed.rolled]
      simp [inert]
  | false =>
      rw [if_neg Bool.false_ne_true]
      refine ⟨trivial, fun bossRoll => ⟨trivial, fun luckyRoll => ?_⟩⟩
      have struck : Conforms RollsAsCalled (fun h' _ => Rolling pkt (some snap) true h') _
          (resolveAttack playerDice name (rollOf bossRoll) luckyRoll) :=
        (resolveAttack_strikes playerDice (rollOf bossRoll) name luckyRoll).conforms
          (fun _ _ _ ho => rollsAsCalled_of_not_rolls ho.not_rolls)
          (fun _ _ r rolling ho => rolling.strikes ho r)
          ((aimed.rand bossRoll).rand luckyRoll)
      apply struck.seq
      intro h' result after
      refine ⟨trivial, fun last => ?_⟩
      change rolledSince _ = callsForRolls _
      have seen := after.snapshot last
      rw [callsForRolls, seen.present, seen.aim, seen.rolled]
      simp [inert]

lemma handleAttack_rolls (settled : rolledSince h = false) :
    Conforms RollsAsCalled (fun h' _ => rolledSince h' = false) (⟨.mark (.dispatched pkt), ()⟩ :: h)
      (handleAttack pkt l.username) := by
  have start : Rolling pkt none false (⟨.mark (.dispatched pkt), ()⟩ :: h) := ⟨rfl, rfl, settled⟩
  apply (attackDice_rolls start).seq
  intro h₁ playerDice rolling
  apply (gameProcessAttack_rolls rolling playerDice l.username).seq
  intro h₂ outcome rolled
  exact ⟨rolled, fun _ => ⟨trivial, fun _ => rfl⟩⟩

lemma WorkerOp.InLoop.not_rolls {o : WorkerOp} (ho : o.InLoop) : o.rolls = false :=
  ho.each rfl rfl fun _ => rfl

lemma WorkerOp.InHeartbeat.not_rolls {o : WorkerOp} (ho : o.InHeartbeat) : o.rolls = false :=
  ho.each rfl rfl rfl fun _ => rfl

lemma WorkerOp.InPrelude.not_rolls {o : WorkerOp} (ho : o.InPrelude) : o.rolls = false :=
  ho.each rfl rfl rfl rfl rfl (fun _ => rfl) fun _ => rfl

/-- A program that does not roll leaves nothing open. -/
lemma settled_of_issues {α : Type} {p : Worker α} (hp : Issues (fun o => o.rolls = false) p)
    (settled : rolledSince h = false) :
    Conforms RollsAsCalled (fun h' _ => rolledSince h' = false) h p :=
  hp.conforms (fun _ _ _ ho => rollsAsCalled_of_not_rolls ho)
    (fun _ _ r settled ho => (rolledSince_of_not_rolls ho r).trans settled) settled

lemma rollRule : DispatchRule RollsAsCalled (fun _ h => rolledSince h = false) fun _ => True where
  allows _ _ _ _ ho := rollsAsCalled_of_not_rolls ho.not_rolls
  keeps _ _ _ r settled ho := (rolledSince_of_not_rolls ho.not_rolls r).trans settled
  limiter _ _ _ settled := settled
  attack _ _ _ settled _ := handleAttack_rolls settled
  heartbeat _ _ _ settled _ :=
    settled_of_issues (handleHeartbeat_issues.mono fun _ ho => ho.not_rolls) settled
  cleanup l _ settled :=
    (settled_of_issues ((cleanupClient_issues l.playerId).mono fun _ ho => ho.each rfl rfl)
      settled).weaken fun _ _ _ => trivial

lemma raid_rollsAsCalled (ι : Type) :
    (raid ι).Disciplined (fun _ => RollsAsCalled)
      (fun _ => AtHeadOrEnd (fun _ h => rolledSince h = false) fun _ => True) (raidInit ι) where
  first _ := (settled_of_issues (handleClient_issues.mono fun _ ho => ho.not_rolls) rfl).weaken
    fun _ v settled => atHeadOrEnd_of (fun _ => settled) trivial v
  again _ _ _ _ := rollRule.again

/-! ## The sequence that a worker reads -/

/-- All rolls of a worker, newest first. -/
def allRolls : WorkerHistory → List ℕ
  | [] => []
  | ⟨.rand, roll⟩ :: h => roll :: allRolls h
  | _ :: h => allRolls h

section Run

variable {ι : Type} [DecidableEq ι] {outputs : ℤ → ℕ → ℕ} {now : ℤ} {i j : ι} {e : RaidEnv}
  {o : WorkerOp} {s : SeededState ι} {log : List (SeededEvent ι)}
  {c : Config ι WorkerOp WorkerOp.Ret (Option ClientLocals) (SeededState ι)}

/-- Session `i` has read the outputs from the first on: those that decided its attacks, and those
drawn for the attack that has not returned yet. -/
structure ReadsFromStart (outputs : ℤ → ℕ → ℕ) (now : ℤ) (i : ι) (log : List (SeededEvent ι))
    (s : SeededState ι) : Prop where
  seed : (s.generator i).seed = now
  positions : pendingDraws i log ++ (decidedBy i log).flatten =
    (List.range (s.generator i).drawn).reverse
  rolls : allRolls (own i log) = ((List.range (s.generator i).drawn).map (outputs now)).reverse

/-- What is not a draw of session `i` adds no position: a returned attack takes over those that are
pending. -/
lemma positions_aside (aside : i ≠ j ∨ o ≠ .rand) :
    pendingDraws i ((seeded ι outputs).event j e o s :: log) ++
        (decidedBy i ((seeded ι outputs).event j e o s :: log)).flatten =
      pendingDraws i log ++ (decidedBy i log).flatten := by
  by_cases hij : j = i
  · subst hij
    have ho := aside.resolve_left (not_not.2 rfl)
    have itself : ((seeded ι outputs).event j e o s).thread = j := rfl
    rw [pendingDraws, decidedBy, if_pos itself, if_pos itself]
    cases o with
    | rand => exact absurd rfl ho
    | mark m => cases m <;> rfl
    | _ => rfl
  · have other : ¬((seeded ι outputs).event j e o s).thread = i := hij
    rw [pendingDraws, decidedBy, if_neg other, if_neg other]

lemma allRolls_aside (aside : i ≠ j ∨ o ≠ .rand) :
    allRolls (own i ((seeded ι outputs).event j e o s :: log)) = allRolls (own i log) := by
  by_cases hij : j = i
  · subst hij
    have ho := aside.resolve_left (not_not.2 rfl)
    rw [Machine.own_event_self]
    cases o with
    | rand => exact absurd rfl ho
    | _ => rfl
  · rw [Machine.own_event_of_ne _ hij]

lemma ReadsFromStart.step (reads : ReadsFromStart outputs now i log s) :
    ReadsFromStart outputs now i ((seeded ι outputs).event j e o s :: log)
      (s.exec outputs j e o).2 := by
  obtain ⟨seed, positions, rolls⟩ := reads
  by_cases aside : i ≠ j ∨ o ≠ .rand
  · have generator := @SeededState.generator_exec ι _ outputs i j e o aside s
    refine ⟨?_, ?_, ?_⟩
    · rw [generator]
      exact seed
    · rw [positions_aside aside, generator]
      exact positions
    · rw [allRolls_aside aside, generator]
      exact rolls
  · obtain ⟨hij, ho⟩ := not_or.1 aside
    obtain rfl := not_not.1 hij
    obtain rfl := not_not.1 ho
    have generator : (s.exec outputs i e .rand).2.generator i =
        ⟨(s.generator i).seed, (s.generator i).drawn + 1⟩ := Function.update_self i _ s.generator
    refine ⟨?_, ?_, ?_⟩
    · rw [generator]
      exact seed
    · have itself : ((seeded ι outputs).event i e .rand s).thread = i := rfl
      rw [pendingDraws, decidedBy, if_pos itself, if_pos itself, generator, List.range_succ,
        List.reverse_append, ← positions]
      rfl
    · rw [Machine.own_event_self, generator, List.range_succ, List.map_append, List.reverse_append,
        ← rolls, ← seed]
      rfl

/-- **Every session reads the outputs of the generator from the first on.** -/
theorem run_readsFromStart (run : (seeded ι outputs).Run (seededInit ι now) log c) (i : ι) :
    ReadsFromStart outputs now i log c.shared := by
  induction run with
  | start => exact ⟨rfl, rfl, rfl⟩
  | act _ _ _ _ ih => exact ih.step
  | resume _ _ _ _ ih => exact ih

/-- So the rolls of one of two sessions are the beginning of those of the other. -/
theorem allRolls_prefix (run : (seeded ι outputs).Run (seededInit ι now) log c) (i j : ι) :
    (allRolls (own i log)).reverse <+: (allRolls (own j log)).reverse ∨
      (allRolls (own j log)).reverse <+: (allRolls (own i log)).reverse := by
  have rolls (i : ι) := (run_readsFromStart run i).rolls
  rw [rolls i, rolls j, List.reverse_reverse, List.reverse_reverse]
  have shorter {m n : ℕ} (h : m ≤ n) : (List.range m).map (outputs now) <+:
      (List.range n).map (outputs now) := by
    obtain ⟨k, rfl⟩ := Nat.exists_eq_add_of_le h
    rw [List.range_add, List.map_append]
    exact List.prefix_append _ _
  exact (le_total _ _).imp shorter shorter

/-! ## Attacks that were decided by rolls -/

lemma pendingDraws_eq_nil_iff (i : ι) (log : List (SeededEvent ι)) :
    pendingDraws i log = [] ↔ rolledSince (own i log) = false := by
  induction log with
  | nil => exact iff_of_true rfl rfl
  | cons ev log ih =>
      obtain ⟨j, env, o, ret, before, after⟩ := ev
      rw [pendingDraws, own_cons]
      split_ifs
      · cases o with
        | rand => exact iff_of_false (List.cons_ne_nil _ _) Bool.noConfusion
        | mark m =>
            cases m with
            | attackReturned => exact iff_of_true rfl rfl
            | _ => exact ih
        | _ => exact ih
      · exact ih

lemma seeded_rollsAsCalled {ev : SeededEvent ι}
    (run : (seeded ι outputs).Run (seededInit ι now) (ev :: log) c) :
    RollsAsCalled (own ev.thread log) ev.op := by
  have raided := (seededRaid ι outputs).run run
  have allowed := @Machine.Run.allowed _ _ _ _ _ _ _ (raid ι) _ _ _ _ _ (raid_rollsAsCalled ι) []
    ((seededRaid ι outputs).event ev) raided
  rw [Projection.own_map_event] at allowed
  exact allowed

/-- The attacks that called for rolls are those that were decided by some. -/
lemma hasRolled_iff (run : (seeded ι outputs).Run (seededInit ι now) log c) (i : ι) :
    hasRolled (own i log) = true ↔ ∃ a ∈ decidedBy i log, a ≠ [] := by
  induction log generalizing c with
  | nil => exact iff_of_false Bool.noConfusion (by simp [decidedBy])
  | cons ev log ih =>
      obtain ⟨c', run'⟩ := (show (seeded ι outputs).Run (seededInit ι now) ([ev] ++ log) c from
        run).earlier
      have earlier := ih run'
      have allowed := seeded_rollsAsCalled run
      obtain ⟨j, env, o, ret, before, after⟩ := ev
      rw [decidedBy, own_cons]
      split_ifs with hij
      · subst hij
        cases o with
        | mark m =>
            cases m with
            | attackReturned result state =>
                have called : callsForRolls (own j log) = true ↔ pendingDraws j log ≠ [] := by
                  rw [← show rolledSince (own j log) = callsForRolls (own j log) from allowed, Ne,
                    pendingDraws_eq_nil_iff, Bool.not_eq_false]
                change (callsForRolls (own j log) || hasRolled (own j log)) = true ↔
                  ∃ a ∈ pendingDraws j log :: decidedBy j log, a ≠ []
                rw [Bool.or_eq_true, called, earlier, List.exists_mem_cons_iff]
            | _ => exact earlier
        | _ => exact earlier
      · exact earlier

/-- A session with such an attack has used the first output for one of them. -/
lemma first_output_used (run : (seeded ι outputs).Run (seededInit ι now) log c)
    (rolled : hasRolled (own i log) = true) : ∃ a ∈ decidedBy i log, 0 ∈ a := by
  obtain ⟨a, ha, hne⟩ := (hasRolled_iff run i).1 rolled
  have positions := (run_readsFromStart run i).positions
  have used : (decidedBy i log).flatten ≠ [] := by
    rw [Ne, List.flatten_eq_nil_iff]
    exact fun empty => hne (empty a ha)
  -- the oldest position drawn is 0, and it is among those of the returned attacks
  have oldest : (decidedBy i log).flatten.getLast? =
      (List.range (c.shared.generator i).drawn).head? := by
    rw [← List.getLast?_reverse, ← positions, List.getLast?_append_of_ne_nil _ used]
  rw [List.getLast?_eq_some_getLast used, List.head?_range] at oldest
  split_ifs at oldest
  have zero : 0 ∈ (decidedBy i log).flatten :=
    Option.some.inj oldest ▸ List.getLast_mem used
  exact List.mem_flatten.1 zero

/-- **The rolls of different sessions are apart exactly as long as the attacks of only one have
called for any.** -/
theorem rollsApart_iff (run : (seeded ι outputs).Run (seededInit ι now) log c) :
    RollsApart log ↔
      ∀ i j, hasRolled (own i log) = true → hasRolled (own j log) = true → i = j := by
  constructor
  · intro apart i j hi hj
    obtain ⟨a, ha, zero⟩ := first_output_used run hi
    obtain ⟨b, hb, zero'⟩ := first_output_used run hj
    by_contra hij
    exact apart i j hij a ha b hb 0 zero zero'
  · intro single i j hij a ha b hb p hpa hpb
    have hi := (hasRolled_iff run i).2 ⟨a, ha, List.ne_nil_of_mem hpa⟩
    have hj := (hasRolled_iff run j).2 ⟨b, hb, List.ne_nil_of_mem hpb⟩
    exact hij (single i j hi hj)

end Run

/-- Outputs that count up. -/
def counting (_ : ℤ) (n : ℕ) : ℕ := n + 1

/-- The log of a run with these outputs. -/
def countingLog (schedule : List (Fin 2 × RaidEnv)) : List (SeededEvent (Fin 2)) :=
  ((seeded (Fin 2) counting).play (seededInit _ 1000) schedule).1

/-- Two players join, and the first one attacks twice. -/
theorem rollsApart_oneAttacker :
    RollsApart (countingLog (joins firstPlayer [97] ++ joins secondPlayer [98] ++
      attacks firstPlayer 3 ++ attacks firstPlayer 4)) :=
  (rollsApart_iff (Machine.run_play _ _)).2 (by decide +kernel)

/-- Two players join, and each attacks once: the outputs at the positions 0 and 1 decide both
attacks. -/
theorem rolls_reused :
    decidedBy firstPlayer (countingLog (joins firstPlayer [97] ++ joins secondPlayer [98] ++
        attacks firstPlayer 3 ++ attacks secondPlayer 3)) = [[1, 0]] ∧
      decidedBy secondPlayer (countingLog (joins firstPlayer [97] ++ joins secondPlayer [98] ++
        attacks firstPlayer 3 ++ attacks secondPlayer 3)) = [[1, 0]] ∧
      ¬RollsApart (countingLog (joins firstPlayer [97] ++ joins secondPlayer [98] ++
        attacks firstPlayer 3 ++ attacks secondPlayer 3)) := by
  unfold RollsApart
  decide +kernel

end WorldBossRaid
