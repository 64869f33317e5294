import WorldBossRaid.Model.SharedMemory
import WorldBossRaid.Properties.RaidInvariant

/-!
# The critical sections are atomic

`gamestate.c` reads and writes the shared memory field by field, and the workers are scheduled
between any two of these accesses.  Each function is a section of the mutex
(`SharedMemory.code_section`) that, undisturbed, does what its one-step form does
(`SharedMemory.code_sound`), so `gamestateLocking` is a locking of the raid and the results of
`Locking` apply: the raid that is proved about elsewhere is what the code shows of itself under
any schedule of the single accesses.
-/

namespace WorldBossRaid

open Bytes Interaction Locked

instance : Nonempty RaidEnv := ⟨⟨0, 0, none, false⟩⟩

/-! ## Fields -/

section Fields

variable (t : PlayerTable) (s : GameSharedData) (i j : Fin maxTrackedPlayers)
  (f g : PlayerHistory → PlayerHistory)

lemma PlayerTable.slot_modifySlot :
    (t.modifySlot j f).slot i = if j = i then f (t.slot i) else t.slot i := by
  simp [PlayerTable.slot, PlayerTable.modifySlot, List.getElem_modify, Fin.ext_iff]

lemma PlayerTable.ext_slot {t t' : PlayerTable} (h : ∀ i, t.slot i = t'.slot i) : t = t' := by
  have hslots : t.slots = t'.slots := by
    refine List.ext_getElem (by rw [t.size_eq, t'.size_eq]) fun n hn hn' => ?_
    exact h ⟨n, by rwa [t.size_eq] at hn⟩
  cases t
  cases t'
  cases hslots
  rfl

@[simp] lemma GameSharedData.players_modifySlot :
    (s.modifySlot i f).players = s.players.modifySlot i f := rfl

@[simp] lemma GameSharedData.modifySlot_modifySlot :
    (s.modifySlot i f).modifySlot i g = s.modifySlot i (g ∘ f) := by
  simp [GameSharedData.modifySlot, PlayerTable.modifySlot, List.modify_modify_eq]

variable {f g} in
lemma GameSharedData.modifySlot_congr (h : f (s.players.slot i) = g (s.players.slot i)) :
    s.modifySlot i f = s.modifySlot i g := by
  have hplayers : s.players.modifySlot i f = s.players.modifySlot i g :=
    PlayerTable.ext_slot fun j => by
      rw [PlayerTable.slot_modifySlot, PlayerTable.slot_modifySlot]
      split_ifs with hij
      · rw [← hij, h]
      · rfl
  rw [GameSharedData.modifySlot, GameSharedData.modifySlot, hplayers]

lemma GameSharedData.get_set_self (f : ShmField) (v : f.Val) : (s.set f v).get f = v := by
  cases f <;> simp [GameSharedData.get, GameSharedData.set, PlayerTable.slot_modifySlot]

lemma GameSharedData.get_set_of_ne {f g : ShmField} (h : f ≠ g) (v : f.Val) :
    (s.set f v).get g = s.get g := by
  cases f <;> cases g <;> first
    | rfl
    | exact absurd rfl h
    | next i j =>
        simp only [GameSharedData.get, GameSharedData.set, GameSharedData.players_modifySlot,
          PlayerTable.slot_modifySlot]
        split_ifs with hij
        · first
            | rfl
            | exact absurd (congrArg _ hij) h
        · rfl

variable {s} in
lemma GameSharedData.ext_get {s' : GameSharedData} (h : ∀ f, s.get f = s'.get f) : s = s' := by
  have hplayers : s.players = s'.players := PlayerTable.ext_slot fun i => by
    have hname : (s.players.slot i).name = (s'.players.slot i).name := h (.name i)
    have hdice : (s.players.slot i).lastDice = (s'.players.slot i).lastDice := h (.lastDice i)
    have hstreak : (s.players.slot i).streakCount = (s'.players.slot i).streakCount :=
      h (.streakCount i)
    rw [PlayerHistory.mk.injEq]
    exact ⟨hname, hdice, hstreak⟩
  rw [GameSharedData.mk.injEq]
  exact ⟨h .currentHp, h .maxHp, h .stage, h .onlineCount, h .isRespawning, h .lastKiller,
    h .hasLuckyKillEvent, h .luckyKillTimestamp, hplayers⟩

lemma ShmField.mem_all (f : ShmField) : f ∈ ShmField.all := by
  cases f <;> simp [ShmField.all, ShmField.ofSlot]

/-- A structure into which some fields have been copied agrees with the original on them. -/
lemma get_foldl_set (s : GameSharedData) {fs : List ShmField} {out : GameSharedData}
    {f : ShmField} (h : f ∈ fs ∨ out.get f = s.get f) :
    (fs.foldl (fun out g => out.set g (s.get g)) out).get f = s.get f := by
  induction fs generalizing out with
  | nil => exact h.resolve_left List.not_mem_nil
  | cons g fs ih =>
      refine ih ?_
      by_cases hfg : g = f
      · subst hfg
        exact .inr (out.get_set_self g _)
      · obtain hmem | hget := h
        · exact .inl ((List.mem_cons.1 hmem).resolve_left (Ne.symm hfg))
        · exact .inr ((out.get_set_of_ne hfg _).trans hget)

/-- A structure into which all fields have been copied is the original. -/
lemma foldl_set_all (s out : GameSharedData) :
    ShmField.all.foldl (fun out f => out.set f (s.get f)) out = s :=
  GameSharedData.ext_get fun f => get_foldl_set s (.inl f.mem_all)

end Fields

/-! ## Accesses -/

namespace SharedMemory

section Executes

variable {s s' : GameSharedData} {α : Type} {r : α}

@[simp] lemma executes_read {f : ShmField} {k : f.Val → Code α} :
    Executes ShmAccess.exec (.call (.access (.read f)) k) s r s' ↔
      Executes ShmAccess.exec (k (s.get f)) s r s' :=
  ⟨fun ⟨_, h⟩ => h, fun h => ⟨Classical.arbitrary RaidEnv, h⟩⟩

@[simp] lemma executes_write {f : ShmField} {v : f.Val} {k : Unit → Code α} :
    Executes ShmAccess.exec (.call (.access (.write f v)) k) s r s' ↔
      Executes ShmAccess.exec (k ()) (s.set f v) r s' :=
  ⟨fun ⟨_, h⟩ => h, fun h => ⟨Classical.arbitrary RaidEnv, h⟩⟩

@[simp] lemma executes_time {k : ℤ → Code α} :
    Executes ShmAccess.exec (.call (.access .time) k) s r s' ↔
      ∃ e : RaidEnv, Executes ShmAccess.exec (k e.now) s r s' := Iff.rfl

@[simp] lemma executes_unlock {u : Unit} : Executes ShmAccess.exec unlock s u s' ↔ s' = s :=
  ⟨And.right, fun h => ⟨rfl, h⟩⟩

lemma executes_last_read {f : ShmField} {v : f.Val} :
    Executes ShmAccess.exec (read f) s v s' ↔ v = s.get f ∧ s' = s :=
  executes_read

lemma executes_last_write {f : ShmField} {v : f.Val} {u : Unit} :
    Executes ShmAccess.exec (write f v) s u s' ↔ s' = s.set f v :=
  executes_write.trans ⟨And.right, fun h => ⟨rfl, h⟩⟩

lemma executes_copyFields {fs : List ShmField} {out r : GameSharedData} :
    Executes ShmAccess.exec (copyFields fs out) s r s' ↔
      r = fs.foldl (fun out f => out.set f (s.get f)) out ∧ s' = s := by
  induction fs generalizing out with
  | nil => rfl
  | cons f fs ih =>
      rw [copyFields, Prog.perform_bind, executes_read, ih]
      rfl

/-- Does the name in a slot belong to the player `name`? -/
def Known (name : Buffer maxPlayerName) (p : PlayerHistory) : Bool :=
  !p.isFree && p.name.sameString name

lemma executes_searchPlayer {name : Buffer maxPlayerName} {slots : List (Fin maxTrackedPlayers)}
    {r : Option (Fin maxTrackedPlayers)} :
    Executes ShmAccess.exec (searchPlayer name slots) s r s' ↔
      r = slots.find? (fun i => Known name (s.players.slot i)) ∧ s' = s := by
  induction slots with
  | nil => rfl
  | cons i slots ih =>
      rw [searchPlayer, Prog.perform_bind, executes_read, List.find?_cons]
      change Executes ShmAccess.exec (if (s.players.slot i).isFree = true then _ else _) s r s' ↔ _
      cases hfree : (s.players.slot i).isFree with
      | true => simp [Known, hfree, ih]
      | false =>
          rw [if_neg Bool.false_ne_true, Prog.perform_bind, executes_read]
          change Executes ShmAccess.exec
            (if (s.players.slot i).name.sameString name = true then _ else _) s r s' ↔ _
          cases hname : (s.players.slot i).name.sameString name with
          | true => simp [Known, hfree, hname]
          | false => simp [Known, hfree, hname, ih]

lemma executes_claimSlot {name : Buffer maxPlayerName} {slots : List (Fin maxTrackedPlayers)}
    {r : Option (Fin maxTrackedPlayers)} :
    Executes ShmAccess.exec (claimSlot name slots) s r s' ↔
      r = slots.find? (fun i => (s.players.slot i).isFree) ∧
        s' = r.elim s fun i => s.modifySlot i (·.claim name) := by
  induction slots with
  | nil =>
      refine and_congr_right fun hr => ?_
      rw [hr]
      rfl
  | cons i slots ih =>
      rw [claimSlot, Prog.perform_bind, executes_read, List.find?_cons]
      change Executes ShmAccess.exec (if (s.players.slot i).isFree = true then _ else _) s r s' ↔ _
      cases hfree : (s.players.slot i).isFree with
      | false => simp [ih]
      | true =>
          have hclaim : s.modifySlot i (fun _ => (s.players.slot i).claim name) =
              s.modifySlot i (·.claim name) := s.modifySlot_congr i rfl
          simp only [if_true, Prog.perform_bind, executes_read, executes_write]
          refine and_congr_right fun hr => ?_
          rw [hr, Option.elim_some, ← hclaim]
          simp [GameSharedData.set, GameSharedData.get, Function.comp_def, PlayerHistory.claim]

lemma executes_countWin {currentDice : ℤ} {isWin : Bool} {i : Fin maxTrackedPlayers} {u : Unit} :
    Executes ShmAccess.exec (countWin i currentDice isWin) s u s' ↔
      s' = s.set (.streakCount i) ((s.players.slot i).record currentDice isWin).streakCount := by
  cases isWin with
  | false => exact executes_last_write
  | true =>
      change Executes ShmAccess.exec (Prog.call _ _) s u s' ↔ _
      rw [executes_read]
      change Executes ShmAccess.exec
          (if (s.players.slot i).lastDice = currentDice then _ else _) s u s' ↔
        s' = s.set _ (if (s.players.slot i).lastDice = currentDice then _ else _)
      split_ifs
      · rw [Prog.perform_bind, executes_read, executes_last_write]
        rfl
      · exact executes_last_write

lemma executes_recordStreak {currentDice : ℤ} {isWin : Bool} {i : Fin maxTrackedPlayers} {r : ℤ}
    (h : Executes ShmAccess.exec (recordStreak currentDice isWin (some i)) s r s') :
    r = ((s.players.slot i).record currentDice isWin).streakCount ∧
      s' = s.modifySlot i (·.record currentDice isWin) := by
  obtain ⟨u, m, hcount, h⟩ := executes_bind.1 h
  obtain rfl := executes_countWin.1 hcount
  rw [Prog.perform_bind, executes_write] at h
  obtain ⟨rfl, rfl⟩ := executes_last_read.1 h
  refine ⟨?_, (s.modifySlot_modifySlot i _ _).trans (s.modifySlot_congr i rfl)⟩
  simp [GameSharedData.get, GameSharedData.set, PlayerTable.slot_modifySlot]

end Executes

/-! ## Sections -/

section Sections

lemma issues_copyFields (fs : List ShmField) (out : GameSharedData) :
    Prog.Issues IsAccess (copyFields fs out) := by
  induction fs generalizing out with
  | nil => trivial
  | cons f fs ih => exact ⟨trivial, fun v => ih _⟩

lemma issues_searchPlayer (name : Buffer maxPlayerName) (slots : List (Fin maxTrackedPlayers)) :
    Prog.Issues IsAccess (searchPlayer name slots) := by
  induction slots with
  | nil => trivial
  | cons i slots ih =>
      refine ⟨trivial, fun v => ?_⟩
      change Prog.Issues IsAccess (if _ then _ else _)
      split_ifs
      · exact ih
      · refine ⟨trivial, fun v => ?_⟩
        change Prog.Issues IsAccess (if _ then _ else _)
        split_ifs
        · trivial
        · exact ih

lemma issues_claimSlot (name : Buffer maxPlayerName) (slots : List (Fin maxTrackedPlayers)) :
    Prog.Issues IsAccess (claimSlot name slots) := by
  induction slots with
  | nil => trivial
  | cons i slots ih =>
      refine ⟨trivial, fun v => ?_⟩
      change Prog.Issues IsAccess (if _ then _ else _)
      split_ifs
      · exact ⟨trivial, fun _ => ⟨trivial, fun _ => ⟨trivial, fun _ => ⟨trivial, fun _ =>
          trivial⟩⟩⟩⟩
      · exact ih

@[simp] lemma holding_unlock : Holding unlock := ⟨(), rfl⟩

lemma issues_isInert : Prog.Issues IsAccess isInert := by
  refine ⟨trivial, fun v => ?_⟩
  change Prog.Issues IsAccess (if _ then _ else _)
  split_ifs
  · trivial
  · exact ⟨trivial, fun _ => trivial⟩

lemma issues_kill (attackerName : Buffer maxPlayerName) :
    Prog.Issues IsAccess (kill attackerName) := by
  refine ⟨trivial, fun _ => ⟨trivial, fun v => ?_⟩⟩
  change Prog.Issues IsAccess (if _ then _ else _)
  split_ifs
  · trivial
  · exact ⟨trivial, fun _ => ⟨trivial, fun _ => ⟨trivial, fun _ => trivial⟩⟩⟩

lemma issues_hit (damage : ℤ) (attackerName : Buffer maxPlayerName) :
    Prog.Issues IsAccess (hit damage attackerName) := by
  refine ⟨trivial, fun _ => ⟨trivial, fun _ => ⟨trivial, fun currentHp => ?_⟩⟩⟩
  change Prog.Issues IsAccess (if currentHp ≤ 0 then _ else _)
  split_ifs
  · exact issues_kill attackerName
  · trivial

lemma issues_findSlot (name : Buffer maxPlayerName) : Prog.Issues IsAccess (findSlot name) := by
  refine (issues_searchPlayer name _).bind fun known => ?_
  cases known with
  | none => exact issues_claimSlot name _
  | some i => trivial

lemma issues_switchBoss : Prog.Issues IsAccess switchBoss := by
  refine ⟨trivial, fun stage => ?_⟩
  change Prog.Issues IsAccess (if stage = .stage1 then _ else _)
  split_ifs
  · exact ⟨trivial, fun _ => ⟨trivial, fun _ => ⟨trivial, fun _ => trivial⟩⟩⟩
  · exact ⟨trivial, fun _ => ⟨trivial, fun _ => trivial⟩⟩

lemma issues_countWin (i : Fin maxTrackedPlayers) (currentDice : ℤ) (isWin : Bool) :
    Prog.Issues IsAccess (countWin i currentDice isWin) := by
  cases isWin with
  | false => exact ⟨trivial, fun _ => trivial⟩
  | true =>
      refine ⟨trivial, fun lastDice => ?_⟩
      change Prog.Issues IsAccess (if lastDice = currentDice then _ else _)
      split_ifs
      · exact ⟨trivial, fun _ => ⟨trivial, fun _ => trivial⟩⟩
      · exact ⟨trivial, fun _ => trivial⟩

lemma issues_recordStreak (currentDice : ℤ) (isWin : Bool) (i : Option (Fin maxTrackedPlayers)) :
    Prog.Issues IsAccess (recordStreak currentDice isWin i) := by
  cases i with
  | none => trivial
  | some i =>
      exact (issues_countWin i currentDice isWin).bind fun _ =>
        ⟨trivial, fun _ => ⟨trivial, fun _ => trivial⟩⟩

/-- **Every function is a section of the mutex.** -/
theorem code_section (outData : GameSharedData) (o : GameOp) : Section (code outData o) := by
  cases o with
  | playerJoin => simp [code, gamestatePlayerJoin]
  | playerLeave =>
      intro onlineCount
      change Holding (if onlineCount > 0 then _ else _)
      split_ifs
      · exact fun _ _ => holding_unlock
      · exact holding_unlock
  | getSnapshot =>
      exact Holding.bind (p := copyFields _ _) (issues_copyFields _ _) fun out => ⟨out, rfl⟩
  | applyDamage damage name =>
      refine Holding.bind (p := isInert) issues_isInert fun inert => ?_
      split_ifs
      · exact ⟨false, rfl⟩
      · exact Holding.bind (issues_hit damage name) fun justKilled => ⟨justKilled, rfl⟩
  | spawnNextBoss =>
      refine Holding.bind (p := switchBoss) issues_switchBoss fun _ _ stage => ?_
      change Holding (if stage = .stage2 then _ else _)
      split_ifs
      · exact fun _ => holding_unlock
      · exact holding_unlock
  | updateStreak name dice isWin =>
      refine Holding.bind (p := findSlot name) (issues_findSlot name) fun slotIndex => ?_
      exact Holding.bind (issues_recordStreak _ _ slotIndex) fun streak => ⟨streak, rfl⟩
  | markLuckyKill => exact fun _ _ _ => holding_unlock
  | clearLuckyKill => exact fun _ _ => holding_unlock

end Sections

/-! ## What the sections do -/

section Sound

variable {s s' : GameSharedData}

lemma executes_isInert {inert : Bool} :
    Executes ShmAccess.exec isInert s inert s' ↔ inert = s.inert ∧ s' = s := by
  rw [isInert, Prog.perform_bind, executes_read]
  change Executes ShmAccess.exec (if s.isRespawning = true then _ else _) s inert s' ↔ _
  unfold GameSharedData.inert
  cases s.isRespawning with
  | true => rfl
  | false => exact executes_read

lemma executes_hit {damage : ℤ} {attackerName : Buffer maxPlayerName} {r : Bool}
    (alive : s.inert = false) (h : Executes ShmAccess.exec (hit damage attackerName) s r s') :
    WorldBossRaid.gamestateApplyDamage damage attackerName s = (r, s') := by
  have hresp : s.isRespawning = false := (Bool.or_eq_false_iff.1 alive).1
  rw [hit, Prog.perform_bind, executes_read, Prog.perform_bind, executes_write, Prog.perform_bind,
    executes_read] at h
  change Executes ShmAccess.exec (if s.currentHp - damage ≤ 0 then _ else _) _ r s' at h
  rw [WorldBossRaid.gamestateApplyDamage, alive, if_neg Bool.false_ne_true]
  dsimp only
  split_ifs with hp
  · rw [if_pos hp, kill, Prog.perform_bind, executes_write, Prog.perform_bind, executes_read] at h
    change Executes ShmAccess.exec (if s.isRespawning = true then _ else _) _ r s' at h
    rw [hresp, if_neg Bool.false_ne_true, Prog.perform_bind, executes_write, Prog.perform_bind,
      executes_read, Prog.perform_bind, executes_write] at h
    obtain ⟨rfl, rfl⟩ := h
    rfl
  · rw [if_neg hp] at h
    obtain ⟨rfl, rfl⟩ := h
    rfl

lemma executes_switchBoss {u : Unit}
    (h : Executes ShmAccess.exec switchBoss s u s') :
    WorldBossRaid.gamestateSpawnNextBoss s = { s' with
      isRespawning := false
      lastKiller := if s'.stage = .stage2 then .zero _ else s'.lastKiller } := by
  rw [switchBoss, Prog.perform_bind, executes_read] at h
  change Executes ShmAccess.exec (if s.stage = .stage1 then _ else _) s u s' at h
  unfold WorldBossRaid.gamestateSpawnNextBoss
  by_cases hstage : s.stage = .stage1
  · rw [if_pos hstage, Prog.perform_bind, executes_write, Prog.perform_bind, executes_write,
      executes_last_write] at h
    rw [if_pos hstage, h]
    rfl
  · rw [if_neg hstage, Prog.perform_bind, executes_write, executes_last_write] at h
    rw [if_neg hstage, h]
    rfl

/-- A search over the slots' indices is one over the slots. -/
lemma find?_slot (t : PlayerTable) (P : PlayerHistory → Bool) :
    t.slots.findIdx? P =
      ((List.finRange maxTrackedPlayers).find? fun i => P (t.slot i)).map Fin.val := by
  have hsearch : ∀ {n : ℕ} (l : List PlayerHistory) (hl : l.length = n),
      l.findIdx? P = ((List.finRange n).find? fun i => P (l.get (i.cast hl.symm))).map Fin.val := by
    intro n l hl
    induction l generalizing n with
    | nil =>
        subst hl
        rfl
    | cons p l ih =>
        subst hl
        change _ = ((List.finRange (l.length + 1)).find? fun i => P ((p :: l).get i)).map Fin.val
        rw [List.findIdx?_cons, List.finRange_succ, List.find?_cons]
        cases hp : P p with
        | true => simp [hp]
        | false => simp [hp, ih rfl, List.find?_map, Function.comp_def]
  exact hsearch t.slots t.size_eq

lemma streakAt_modifySlot (t : PlayerTable) (i : Fin maxTrackedPlayers)
    (f : PlayerHistory → PlayerHistory) :
    (t.modifySlot i f).streakAt i = (f (t.slot i)).streakCount := by
  simp [PlayerTable.streakAt, PlayerTable.modifySlot, PlayerTable.slot, t.size_eq]

lemma executes_gamestateUpdateStreak {name : Buffer maxPlayerName} {currentDice : ℤ} {isWin : Bool}
    {r : ℤ}
    (h : Executes ShmAccess.exec (gamestateUpdateStreak name currentDice isWin) s r s') :
    WorldBossRaid.gamestateUpdateStreak name currentDice isWin s = (r, s') := by
  rw [gamestateUpdateStreak, Prog.perform_bind, executes_acquire] at h
  obtain ⟨slotIndex, m, hslot, h⟩ := executes_bind.1 h
  obtain ⟨streak, m', hrecord, hr, hs'⟩ := executes_bind.1 h
  obtain ⟨known, m₀, hsearch, hclaim⟩ := executes_bind.1 hslot
  obtain ⟨hknown, rfl⟩ := executes_searchPlayer.1 hsearch
  subst hr hs'
  have hfind : m₀.players.find name = known.map Fin.val := by
    rw [hknown]
    exact find?_slot m₀.players (Known name)
  unfold WorldBossRaid.gamestateUpdateStreak gamestateUpdateStreakBy
  rw [hfind]
  cases known with
  | some i =>
      obtain ⟨rfl, rfl⟩ := hclaim
      obtain ⟨rfl, rfl⟩ := executes_recordStreak hrecord
      exact Prod.ext (streakAt_modifySlot _ i _) rfl
  | none =>
      obtain ⟨hfree, hm⟩ := executes_claimSlot.1 hclaim
      have hfirst : m₀.players.firstFree = slotIndex.map Fin.val := by
        rw [hfree]
        exact find?_slot m₀.players (·.isFree)
      dsimp only [Option.map_none]
      rw [hfirst]
      cases slotIndex with
      | none =>
          obtain ⟨rfl, rfl⟩ := hrecord
          rw [hm]
          rfl
      | some i =>
          rw [Option.elim_some] at hm
          subst hm
          obtain ⟨rfl, rfl⟩ := executes_recordStreak hrecord
          refine Prod.ext ?_ ?_
          · refine (streakAt_modifySlot _ i _).trans ?_
            simp [PlayerTable.slot_modifySlot]
          · exact (m₀.modifySlot_modifySlot i (·.claim name) (·.record currentDice isWin)).symm

/-- **Undisturbed, every function does what its one-step form does.** -/
theorem code_sound {outData : GameSharedData} {o : GameOp} {r : o.Ret}
    (h : Executes ShmAccess.exec (code outData o) s r s') : ∃ now, o.exec now s = (r, s') := by
  cases o with
  | playerJoin =>
      rw [code, gamestatePlayerJoin] at h
      obtain ⟨hr, hs⟩ : r = _ ∧ s' = _ := by simpa using h
      exact ⟨0, Prod.ext hr.symm hs.symm⟩
  | playerLeave =>
      rw [code, gamestatePlayerLeave, Prog.perform_bind, executes_acquire, Prog.perform_bind,
        executes_read] at h
      change Executes ShmAccess.exec (if s.onlineCount > 0 then _ else _) s r s' at h
      refine ⟨0, Prod.ext rfl ?_⟩
      change (if s.onlineCount > 0 then _ else _) = s'
      split_ifs at h ⊢
      · rw [Prog.perform_bind, executes_read, Prog.perform_bind, executes_write] at h
        exact (executes_unlock.1 h).symm
      · exact (executes_unlock.1 h).symm
  | getSnapshot =>
      rw [code, gamestateGetSnapshot, Prog.perform_bind, executes_acquire] at h
      obtain ⟨out, m, hcopy, rfl, rfl⟩ := executes_bind.1 h
      obtain ⟨hout, rfl⟩ := executes_copyFields.1 hcopy
      rw [foldl_set_all] at hout
      exact ⟨0, Prod.ext hout.symm rfl⟩
  | applyDamage damage name =>
      rw [code, gamestateApplyDamage, Prog.perform_bind, executes_acquire] at h
      obtain ⟨inert, m, hinert, h⟩ := executes_bind.1 h
      obtain ⟨rfl, rfl⟩ := executes_isInert.1 hinert
      refine ⟨0, ?_⟩
      cases halive : m.inert with
      | true =>
          rw [halive] at h
          obtain ⟨rfl, rfl⟩ := h
          change WorldBossRaid.gamestateApplyDamage damage name s' = _
          rw [WorldBossRaid.gamestateApplyDamage, halive, if_pos rfl]
      | false =>
          rw [halive] at h
          obtain ⟨justKilled, m', hhit, rfl, rfl⟩ := executes_bind.1 h
          exact executes_hit halive hhit
  | spawnNextBoss =>
      rw [code, gamestateSpawnNextBoss, Prog.perform_bind, executes_acquire] at h
      obtain ⟨u, m, hswitch, h⟩ := executes_bind.1 h
      rw [Prog.perform_bind, executes_write, Prog.perform_bind, executes_read] at h
      change Executes ShmAccess.exec (if m.stage = .stage2 then _ else _) _ r s' at h
      refine ⟨0, Prod.ext rfl ((executes_switchBoss hswitch).trans ?_)⟩
      split_ifs at h ⊢
      · rw [Prog.perform_bind, executes_write] at h
        exact (executes_unlock.1 h).symm
      · exact (executes_unlock.1 h).symm
  | updateStreak name dice isWin => exact ⟨0, executes_gamestateUpdateStreak h⟩
  | markLuckyKill =>
      rw [code, gamestateMarkLuckyKill, Prog.perform_bind, executes_acquire, Prog.perform_bind,
        executes_write, Prog.perform_bind, executes_time] at h
      obtain ⟨e, h⟩ := h
      rw [Prog.perform_bind, executes_write] at h
      exact ⟨e.now, Prod.ext rfl (executes_unlock.1 h).symm⟩
  | clearLuckyKill =>
      rw [code, gamestateClearLuckyKill, Prog.perform_bind, executes_acquire, Prog.perform_bind,
        executes_write, Prog.perform_bind, executes_write] at h
      exact ⟨0, Prod.ext rfl (executes_unlock.1 h).symm⟩

end Sound

end SharedMemory

/-! ## The raid, access by access -/

/-- The functions of `gamestate.c` in place of the raid's operations. -/
def gamestateLocking (ι : Type) (outData : GameSharedData) :
    Locking (raid ι) ShmAccess ShmAccess.Answer where
  access := ShmAccess.exec
  body := SharedMemory.body outData
  critical {o p} h := by
    cases o with
    | game o => exact Option.some.inj h ▸ SharedMemory.code_section outData o
    | _ => cases h
  sound {o p s r s'} h executes i := by
    cases o with
    | game o =>
        obtain rfl := Option.some.inj h
        obtain ⟨now, hnow⟩ := SharedMemory.code_sound executes
        exact ⟨⟨now, 0, none, false⟩, hnow⟩
    | _ => cases h
  outer_answer {o} h i e s s' := by
    cases o with
    | game o => cases h
    | _ => rfl
  outer_state {o} h i e s := by
    cases o with
    | game o => cases h
    | _ => rfl

/-- The workers, with every access to the shared memory a step of its own. -/
abbrev lockedRaid (ι : Type) (outData : GameSharedData) :
    Machine ι (LockOp WorkerOp ShmAccess) (LockOp.Ret WorkerOp.Ret ShmAccess.Answer)
      (Option ClientLocals) (Guarded ι GameSharedData) RaidEnv :=
  (gamestateLocking ι outData).machine

/-- The shared memory after `gamestate_init`, its mutex free, and a worker for every session. -/
abbrev lockedInit (ι : Type) (outData : GameSharedData) :
    Config ι (LockOp WorkerOp ShmAccess) (LockOp.Ret WorkerOp.Ret ShmAccess.Answer)
      (Option ClientLocals) (Guarded ι GameSharedData) :=
  (gamestateLocking ι outData).config (raidInit ι)

section Run

variable {ι : Type} [DecidableEq ι] {outData : GameSharedData}
  {log : List (Event ι (LockOp WorkerOp ShmAccess) (LockOp.Ret WorkerOp.Ret ShmAccess.Answer)
    (Guarded ι GameSharedData) RaidEnv)}
  {c : Config ι (LockOp WorkerOp ShmAccess) (LockOp.Ret WorkerOp.Ret ShmAccess.Answer)
    (Option ClientLocals) (Guarded ι GameSharedData)}

/-- **The code of `gamestate.c` refines its one-step form**: for every schedule of the single
accesses there is a run of the raid with the same sends, receives, clock readings and rolls and
the same sequence of memories at the releases, which is at the same place whenever the mutex is
free. -/
theorem lockedRaid_refines (run : (lockedRaid ι outData).Run (lockedInit ι outData) log c)
    (hlog : Exclusive log) :
    ∃ log' a, (raid ι).Run (raidInit ι) log' a ∧
      log.filterMap Locking.observe = log'.map (gamestateLocking ι outData).seen ∧
      (c.shared.owner = none → c.shared.memory = a.shared ∧
        ∀ i, c.threads i = (gamestateLocking ι outData).implement (a.threads i)) := by
  obtain ⟨log', a, run', S, hseen⟩ := Locking.refines run hlog
  exact ⟨log', a, run', hseen, S.of_free⟩

/-- **No data race, and no lock kept**: the shared memory is only accessed by the holder of the
mutex, and the holder, left to itself, releases it. -/
theorem lockedRaid_exclusive (run : (lockedRaid ι outData).Run (lockedInit ι outData) log c)
    (hlog : Exclusive log) :
    (∀ e ∈ log, e.op.inside = true → e.before.owner = some e.thread) ∧
      ∀ i, c.shared.owner = some i →
        ∃ log' c', (lockedRaid ι outData).Run (lockedInit ι outData) (log' ++ log) c' ∧
          Exclusive (log' ++ log) ∧ (∀ e ∈ log', e.thread = i) ∧ c'.shared.owner = none :=
  ⟨fun _ he inside => Locking.guarded run hlog he inside,
    fun _ hi => Locking.frees run hlog hi ⟨0, 0, none, false⟩⟩

/-- **The invariant, access by access**: under any schedule of the single accesses the memory is
sound whenever the mutex is free, and every reply is sound. -/
theorem lockedRaid_sound (run : (lockedRaid ι outData).Run (lockedInit ι outData) log c)
    (hlog : Exclusive log) :
    (c.shared.owner = none → c.shared.memory.Sound) ∧
      (∀ e ∈ log, e.op = .release → e.after.memory.Sound) ∧
      ∀ e ∈ log, ∀ p, e.op = .outer (.send (.gameState p)) → p.Sound := by
  obtain ⟨log', a, run', S, hseen⟩ := Locking.refines run hlog
  refine ⟨fun hfree => ?_, fun e he hop => ?_, fun e he p hop => ?_⟩
  · rw [(S.of_free hfree).1]
    exact run_shared_sound run'
  · obtain ⟨e', he', hafter⟩ := Locking.event_of_release hseen he hop
    obtain ⟨post, pre, rfl⟩ := List.append_of_mem he'
    obtain ⟨c', run'', hshared⟩ := run'.after_event
    rw [← hafter, hshared]
    exact run_shared_sound run''
  · obtain ⟨e', he', -, hop'⟩ := Locking.event_of_outer hseen he hop
    exact reply_sound run' he' hop'

end Run

/-! ## A run -/

/-- Two players join; the second one's receive falls between the first one's accesses. -/
def entangledJoins : List (Fin 2 × RaidEnv) :=
  [(firstPlayer, luckyEnv), (firstPlayer, receiving (joinPacket [97])), (firstPlayer, luckyEnv),
    -- the first worker takes the mutex and reads the counter
    (firstPlayer, luckyEnv), (firstPlayer, luckyEnv),
    (secondPlayer, luckyEnv), (secondPlayer, receiving (joinPacket [98])), (secondPlayer, luckyEnv)]
  ++ List.replicate 4 (firstPlayer, luckyEnv) ++ List.replicate 6 (secondPlayer, luckyEnv)

/-- The run of this schedule. -/
abbrev entangled (steps : ℕ) :=
  (lockedRaid (Fin 2) gamestateInit).play (lockedInit _ gamestateInit) (entangledJoins.take steps)

theorem lockedRaid_refines_entangled :
    ∃ log' a, (raid (Fin 2)).Run (raidInit _) log' a ∧ a.shared.onlineCount = 2 :=
  have ⟨log', a, run', _, hfree⟩ :=
    lockedRaid_refines (Machine.run_play (lockedInit (Fin 2) gamestateInit) entangledJoins)
      (by decide +kernel)
  have hcount : ((lockedRaid (Fin 2) gamestateInit).play (lockedInit _ gamestateInit)
    entangledJoins).2.shared.memory.onlineCount = 2 := by decide +kernel
  ⟨log', a, run', by rw [← (hfree (by decide +kernel)).1]; exact hcount⟩

theorem lockedRaid_exclusive_entangled :
    ∃ log' c', (lockedRaid (Fin 2) gamestateInit).Run (lockedInit _ gamestateInit)
      (log' ++ (entangled 8).1) c' ∧ c'.shared.owner = none :=
  have ⟨_, hfrees⟩ := lockedRaid_exclusive
    (Machine.run_play (lockedInit (Fin 2) gamestateInit) (entangledJoins.take 8))
    (by decide +kernel)
  have ⟨log', c', run', _, _, hfree⟩ := hfrees firstPlayer (by decide +kernel)
  ⟨log', c', run', hfree⟩

theorem lockedRaid_sound_entangled : (entangled 18).2.shared.memory.Sound :=
  (lockedRaid_sound
    (Machine.run_play (lockedInit (Fin 2) gamestateInit) (entangledJoins.take 18))
    (by decide +kernel)).1 (by decide +kernel)

end WorldBossRaid
