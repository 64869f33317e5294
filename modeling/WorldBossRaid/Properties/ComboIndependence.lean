import WorldBossRaid.Properties.Combo
import WorldBossRaid.Properties.Victory

/-!
# On what a combo depends

The streak of a player is kept in a table that all workers share, under the player's name.  Names
are not unique, and the slots of the table are bounded and never given back.  `Recorded` follows the
record of a session's name through a run in which no other session updates streaks under that name:
the session's first update finds a slot for it or does not, `seat` says which, and from then on the
record tells the session's own updates or there never is one.  `Reported` draws the conclusion for
the replies, and `combo_independent` compares two runs.
-/

namespace WorldBossRaid

open Bytes Interaction Prog

variable {ι : Type} [DecidableEq ι]

/-! ## Slots and names -/

/-- The name under which the operation updates a streak, if it does. -/
def WorkerOp.updatedName : WorkerOp → Option (Buffer maxPlayerName)
  | .game (.updateStreak name _ _) => some name
  | _ => none

/-- If the event is an update by session `i`: is there a slot for its name? -/
def roomFound (i : ι) (e : RaidEvent ι) : Option Bool :=
  if e.thread = i then e.op.updatedName.map e.before.players.hasRoom else none

/-- What session `i`'s first update found, if there was one. -/
def seat (i : ι) (log : List (RaidEvent ι)) : Option Bool :=
  (log.filterMap (roomFound i)).getLast?

/-- No other session has updated a streak under the name of session `i`. -/
def NameOfOwn (i : ι) (log : List (RaidEvent ι)) : Prop :=
  ∀ e ∈ log, e.thread ≠ i → ∀ name ∈ e.op.updatedName, ∀ pkt ∈ sessionPacket i log,
    name.cstr ≠ pkt.username.cstr

instance (i : ι) (log : List (RaidEvent ι)) : Decidable (NameOfOwn i log) :=
  inferInstanceAs (Decidable (∀ e ∈ log, e.thread ≠ i → ∀ name ∈ e.op.updatedName,
    ∀ pkt ∈ sessionPacket i log, name.cstr ≠ pkt.username.cstr))

/-- Is this a reply with the state of the game? -/
def WorkerOp.replies : WorkerOp → Bool
  | .send (.gameState _) => true
  | _ => false

section Event

variable {i j : ι} {e : RaidEnv} {o : WorkerOp} {s : GameSharedData} {log : List (RaidEvent ι)}

lemma players_exec (ho : o.updatedName = none) (e : RaidEnv) (s : GameSharedData) :
    (o.exec e s).2.players = s.players := by
  cases o with
  | game o =>
      cases o with
      | playerLeave =>
          change (gamestatePlayerLeave s).players = _
          rw [gamestatePlayerLeave_frame]
      | applyDamage damage name =>
          change (gamestateApplyDamage damage name s).2.players = _
          rw [gamestateApplyDamage_frame]
      | spawnNextBoss =>
          change (gamestateSpawnNextBoss s).players = _
          rw [gamestateSpawnNextBoss_frame]
      | updateStreak => cases ho
      | _ => rfl
  | _ => rfl

lemma ownUpdates_cons (ho : o.updatedName = none) (r : o.Ret) (h : WorkerHistory) :
    ownUpdates (⟨o, r⟩ :: h) = ownUpdates h ∧ lastStreak (⟨o, r⟩ :: h) = lastStreak h := by
  cases o with
  | game o =>
      cases o with
      | updateStreak => cases ho
      | _ => exact ⟨rfl, rfl⟩
  | _ => exact ⟨rfl, rfl⟩

lemma comboReports_cons (ho : o.replies = false) (r : o.Ret) (h : WorkerHistory) :
    comboReports (⟨o, r⟩ :: h) = comboReports h ∧ fights (⟨o, r⟩ :: h) = fights h := by
  cases o with
  | send m =>
      cases m with
      | gameState => cases ho
      | joinResp => exact ⟨rfl, rfl⟩
  | _ => exact ⟨rfl, rfl⟩

lemma seat_cons (ev : RaidEvent ι) :
    seat i (ev :: log) = ((roomFound i ev).map (seat i log).getD).or (seat i log) := by
  rw [seat, List.filterMap_cons]
  cases roomFound i ev with
  | none => rfl
  | some room => exact List.getLast?_cons

/-- A seat is kept, and so is none. -/
lemma seat_later {room : Bool} (h : seat i log = some room) (ev : RaidEvent ι) :
    seat i (ev :: log) = some room := by
  rw [seat_cons, h]
  cases roomFound i ev <;> rfl

lemma seat_event (aside : j ≠ i ∨ o.updatedName = none) :
    seat i ((raid ι).event j e o s :: log) = seat i log := by
  have nothing : roomFound i ((raid ι).event j e o s) = none := by
    unfold roomFound
    split_ifs with own
    · have ho := aside.resolve_left (not_not.2 own)
      cases o with
      | game o =>
          cases o with
          | updateStreak => cases ho
          | _ => rfl
      | _ => rfl
    · rfl
  rw [seat_cons, nothing]
  rfl

/-- What the session does later that is no reply is not reported. -/
lemma comboReports_event (aside : j ≠ i ∨ o.replies = false) :
    comboReports (own i ((raid ι).event j e o s :: log)) = comboReports (own i log) ∧
      fights (own i ((raid ι).event j e o s :: log)) = fights (own i log) := by
  by_cases hij : j = i
  · subst hij
    rw [Machine.own_event_self]
    exact comboReports_cons (aside.resolve_left (not_not.2 rfl)) _ _
  · rw [Machine.own_event_of_ne _ hij]
    exact ⟨rfl, rfl⟩

lemma ownUpdates_event (aside : j ≠ i ∨ o.updatedName = none) :
    ownUpdates (own i ((raid ι).event j e o s :: log)) = ownUpdates (own i log) ∧
      lastStreak (own i ((raid ι).event j e o s :: log)) = lastStreak (own i log) := by
  by_cases hij : j = i
  · subst hij
    rw [Machine.own_event_self]
    exact ownUpdates_cons (aside.resolve_left (not_not.2 rfl)) _ _
  · rw [Machine.own_event_of_ne _ hij]
    exact ⟨rfl, rfl⟩

end Event

/-! ## The record of one name -/

/-- Session `i` updates streaks under the name `k`, and nobody else does. -/
structure OwnName (i : ι) (k : List UInt8) (log : List (RaidEvent ι)) : Prop where
  own : ∀ e ∈ log, e.thread = i → ∀ name ∈ e.op.updatedName, name.cstr = k
  others : ∀ e ∈ log, e.thread ≠ i → ∀ name ∈ e.op.updatedName, name.cstr ≠ k

omit [DecidableEq ι] in
lemma OwnName.earlier {i : ι} {k : List UInt8} {ev : RaidEvent ι} {log : List (RaidEvent ι)}
    (named : OwnName i k (ev :: log)) : OwnName i k log where
  own e he := named.own e (List.mem_cons_of_mem ev he)
  others e he := named.others e (List.mem_cons_of_mem ev he)

/-- The table tells the updates of session `i`, whose name is `k`, or has no slot for them. -/
structure Recorded (i : ι) (k : List UInt8) (log : List (RaidEvent ι)) (s : GameSharedData) :
    Prop where
  terminated : s.players.Terminated
  first : seat i log = none → ownUpdates (own i log) = []
  told : seat i log ≠ some false → s.players.TellsBy (· + 1) k (ownUpdates (own i log))
  full : seat i log = some false →
    ∀ name : Buffer maxPlayerName, name.cstr = k → s.players.hasRoom name = false
  returned : ∀ room, seat i log = some room → ownUpdates (own i log) ≠ [] ∧
    lastStreak (own i log) = if room then (streakAfter (ownUpdates (own i log))).2 else 0

section Step

variable {i j : ι} {k : List UInt8} {e : RaidEnv} {o : WorkerOp} {s : GameSharedData}
  {log : List (RaidEvent ι)} {name : Buffer maxPlayerName} {currentDice : ℤ} {isWin : Bool}

/-- An event that is no update of this session and leaves the record and the room for it. -/
lemma Recorded.aside (recorded : Recorded i k log s) {t : GameSharedData}
    (aside : j ≠ i ∨ o.updatedName = none) (terminated : t.players.Terminated)
    (record : t.players.recordOf k = s.players.recordOf k)
    (room : ∀ name : Buffer maxPlayerName, s.players.hasRoom name = false →
      t.players.hasRoom name = false) :
    Recorded i k ((raid ι).event j e o s :: log) t := by
  obtain ⟨updates, streak⟩ := @ownUpdates_event ι _ i j e o s log aside
  have seats := @seat_event ι _ i j e o s log aside
  refine ⟨terminated, ?_, ?_, ?_, ?_⟩
  · rw [seats, updates]
    exact recorded.first
  · rw [seats, updates, PlayerTable.TellsBy, record]
    exact recorded.told
  · rw [seats]
    exact fun unseated name hname => room name (recorded.full unseated name hname)
  · rw [seats, updates, streak]
    exact recorded.returned

lemma Recorded.updated_other (recorded : Recorded i k log s) (hij : j ≠ i) (proper : Proper name)
    (hne : name.cstr ≠ k) :
    Recorded i k ((raid ι).event j e (.game (.updateStreak name currentDice isWin)) s :: log)
      (gamestateUpdateStreak name currentDice isWin s).2 :=
  recorded.aside (.inl hij) recorded.terminated.updateStreak
    (recordOf_updateStreak_of_ne hne.symm recorded.terminated proper)
    fun _ full => hasRoom_updateStreak_of_full full recorded.terminated proper

/-- A session that has updated before with a slot finds its record. -/
lemma Recorded.hasRoom (recorded : Recorded i k log s) (seated : seat i log = some true)
    (hname : name.cstr = k) : s.players.hasRoom name = true := by
  have told := recorded.told (by rw [seated]; decide)
  rw [PlayerTable.TellsBy, if_neg (recorded.returned true seated).1] at told
  rw [PlayerTable.hasRoom_eq, hname]
  cases found : s.players.recordOf k with
  | none => rw [found] at told; cases told
  | some p => rfl

lemma Recorded.updated_self (recorded : Recorded i k log s) (proper : Proper name)
    (hname : name.cstr = k) :
    Recorded i k ((raid ι).event i e (.game (.updateStreak name currentDice isWin)) s :: log)
      (gamestateUpdateStreak name currentDice isWin s).2 := by
  have found : roomFound i ((raid ι).event i e (.game (.updateStreak name currentDice isWin)) s) =
      some (s.players.hasRoom name) := if_pos rfl
  -- the first update decides, and the table stays as that update found it
  have decided : seat i ((raid ι).event i e (.game (.updateStreak name currentDice isWin)) s :: log)
      = some (s.players.hasRoom name) := by
    rw [seat_cons, found]
    change some ((seat i log).getD (s.players.hasRoom name)) = _
    cases seated : seat i log with
    | none => rfl
    | some room =>
        cases room with
        | true => rw [recorded.hasRoom seated hname]; rfl
        | false => rw [recorded.full seated name hname]; rfl
  have unseated (room : s.players.hasRoom name = true) : seat i log ≠ some false := by
    intro full
    rw [recorded.full full name hname] at room
    cases room
  have told (room : s.players.hasRoom name = true) :=
    @PlayerTable.TellsBy.updateStreak _ name currentDice isWin s _
      (hname.symm ▸ recorded.told (unseated room)) recorded.terminated proper room
  refine ⟨recorded.terminated.updateStreak, ?_, ?_, ?_, ?_⟩
  · rw [decided]
    exact fun h => nomatch h
  · rw [decided, Machine.own_event_self]
    intro room
    have hroom : s.players.hasRoom name = true := by simpa using room
    rw [← hname]
    exact (told hroom).1
  · rw [decided]
    intro full name' hname'
    have hfull : s.players.hasRoom name' = false := by
      rw [PlayerTable.hasRoom_eq, hname', ← hname, ← PlayerTable.hasRoom_eq]
      exact Option.some.inj full
    exact hasRoom_updateStreak_of_full hfull recorded.terminated proper
  · rw [decided, Machine.own_event_self]
    intro room hroom
    obtain rfl := Option.some.inj hroom
    refine ⟨List.cons_ne_nil _ _, ?_⟩
    change (gamestateUpdateStreak name currentDice isWin s).1 = _
    cases hroom : s.players.hasRoom name with
    | true => exact (told hroom).2
    | false => exact updateStreak_of_full hroom

lemma Recorded.step (recorded : Recorded i k log s)
    (named : OwnName i k ((raid ι).event j e o s :: log)) (keeps : KeepsTally (own j log) o) :
    Recorded i k ((raid ι).event j e o s :: log) (o.exec e s).2 := by
  cases ho : o.updatedName with
  | none =>
      have players := players_exec ho e s
      exact recorded.aside (.inr ho) (players ▸ recorded.terminated) (by rw [players])
        fun name full => by rw [players]; exact full
  | some name =>
      cases o with
      | game o =>
          cases o with
          | updateStreak name currentDice isWin =>
              by_cases hij : j = i
              · subst hij
                exact recorded.updated_self keeps.1
                  (named.own _ List.mem_cons_self rfl name rfl)
              · exact recorded.updated_other hij keeps.1
                  (named.others _ List.mem_cons_self hij name rfl)
          | _ => cases ho
      | _ => cases ho

end Step

/-! ## The replies -/

/-- What has been reported to session `i`, whatever it may find if it has not updated yet. -/
def Reported (i : ι) (log : List (RaidEvent ι)) : Prop :=
  ∀ room, (∀ room', seat i log = some room' → room' = room) →
    comboReports (own i log) = reportsOf room (fights (own i log))

section Step

variable {i j : ι} {k : List UInt8} {e : RaidEnv} {o : WorkerOp} {s : GameSharedData}
  {log : List (RaidEvent ι)}

/-- A reply reports its fight with the streak of the session's own updates. -/
lemma Recorded.report (recorded : Recorded i k log s) {f : Fight} {fs : List Fight}
    (updates : ownUpdates (own i log) = (f :: fs).filterMap Fight.update) {room : Bool}
    (hroom : ∀ room', seat i log = some room' → room' = room) :
    f.report (lastStreak (own i log)) =
      f.report (if room then (streakAfter ((f :: fs).filterMap Fight.update)).2 else 0) := by
  cases seated : seat i log with
  | some room' =>
      obtain rfl := hroom room' seated
      rw [(recorded.returned room' seated).2, updates]
  | none =>
      have none_made := recorded.first seated
      rw [updates, List.filterMap_eq_nil_iff] at none_made
      rw [Fight.report_of_none (none_made f List.mem_cons_self),
        Fight.report_of_none (none_made f List.mem_cons_self)]

lemma Reported.step (reported : Reported i log) (recorded : Recorded i k log s)
    (keeps : KeepsTally (own j log) o) : Reported i ((raid ι).event j e o s :: log) := by
  intro room hroom
  have hbefore (room' : Bool) (h : seat i log = some room') : room' = room :=
    hroom room' (seat_later h _)
  by_cases aside : j ≠ i ∨ o.replies = false
  · obtain ⟨reports, fought⟩ := @comboReports_event ι _ i j e o s log aside
    rw [reports, fought]
    exact reported room hbefore
  · obtain ⟨hij, replies⟩ := not_or.1 aside
    obtain rfl := not_not.1 hij
    cases o with
    | send m =>
        cases m with
        | joinResp m => exact absurd rfl replies
        | gameState p =>
            rw [Machine.own_event_self]
            change (if attacking (own j log) then p.combo :: comboReports (own j log)
                else comboReports (own j log)) =
              reportsOf room (if attacking (own j log) then fightOf (own j log) ::
                fights (own j log) else fights (own j log))
            cases attack : attacking (own j log) with
            | false => exact reported room hbefore
            | true =>
                obtain ⟨updates, combo⟩ := keeps attack
                rw [if_pos rfl, if_pos rfl, reportsOf, combo, recorded.report updates hbefore,
                  reported room hbefore]
    | _ => exact absurd rfl replies

end Step

section Run

variable {i : ι} {log : List (RaidEvent ι)}
  {c : Config ι WorkerOp WorkerOp.Ret (Option ClientLocals) GameSharedData}

/-- Sessions update streaks under the names with which they were admitted. -/
lemma updateStreak_name (run : (raid ι).Run (raidInit ι) log c) {ev : RaidEvent ι} (hev : ev ∈ log)
    {name : Buffer maxPlayerName} (hop : name ∈ ev.op.updatedName) :
    Proper name ∧ ∃ pkt, sessionPacket ev.thread log = some pkt ∧ name = pkt.username := by
  obtain ⟨post, pre, rfl⟩ := List.append_of_mem hev
  have allowed := run.allowed (raid_keepsTally ι)
  obtain ⟨j, env, op, ret, before, after⟩ := ev
  cases op with
  | game o =>
      cases o with
      | updateStreak name' currentDice isWin =>
          obtain rfl : name' = name := Option.some.inj hop
          obtain ⟨proper, pkt, hpkt, hname⟩ := allowed
          refine ⟨proper, pkt, sessionPacket_later run ?_, hname⟩
          rw [sessionPacket, own_cons, if_pos rfl]
          exact hpkt
      | _ => cases hop
  | _ => cases hop

lemma NameOfOwn.ownName (run : (raid ι).Run (raidInit ι) log c) (named : NameOfOwn i log) :
    ∃ k, OwnName i k log := by
  cases packet : sessionPacket i log with
  | none =>
      refine ⟨[], ⟨fun ev hev hi name hop => ?_, fun ev hev hi name hop => ?_⟩⟩
      · obtain ⟨-, pkt, hpkt, -⟩ := updateStreak_name run hev hop
        rw [hi, packet] at hpkt
        cases hpkt
      · obtain ⟨proper, -⟩ := updateStreak_name run hev hop
        exact List.ne_nil_of_length_pos proper.1
  | some pkt =>
      refine ⟨pkt.username.cstr, ⟨fun ev hev hi name hop => ?_,
        fun ev hev hi name hop => named ev hev hi name hop pkt packet⟩⟩
      obtain ⟨-, pkt', hpkt, hname⟩ := updateStreak_name run hev hop
      rw [hi, packet] at hpkt
      rw [hname, Option.some.inj hpkt]

/-- In a run in which nobody else uses the name of session `i`. -/
lemma run_recorded {k : List UInt8} (run : (raid ι).Run (raidInit ι) log c)
    (named : OwnName i k log) : Recorded i k log c.shared ∧ Reported i log := by
  refine run.invariant (raid_keepsTally ι)
    (fun log s => OwnName i k log → Recorded i k log s ∧ Reported i log) ?_ ?_ named
  · intro _
    exact ⟨⟨.zero, fun _ => rfl, fun _ => .zero k, fun h => (nomatch h), fun _ h => (nomatch h)⟩,
      fun room _ => rfl⟩
  · intro log s j e o ih keeps named
    obtain ⟨recorded, reported⟩ := ih named.earlier
    exact ⟨recorded.step named keeps, reported.step recorded keeps⟩

/-- **What a session's replies report about its combo is a function of its fights and of whether
its first update found a slot.** -/
theorem comboReports_eq (run : (raid ι).Run (raidInit ι) log c) (named : NameOfOwn i log)
    {room : Bool} (hroom : ∀ room', seat i log = some room' → room' = room) :
    comboReports (own i log) = reportsOf room (fights (own i log)) := by
  obtain ⟨k, ownName⟩ := named.ownName run
  exact (run_recorded run ownName).2 room hroom

end Run

/-! ## Two runs -/

/-- **A combo depends on its player only**, if the name is the player's own.  In any two runs in
which a session has fought the same fights, no other session has updated streaks under the
session's name, and a slot of the table was found for it in both runs or in neither, the replies
to its attacks have reported the same streaks and the same combo kills. -/
theorem combo_independent {ι' : Type} [DecidableEq ι'] {i : ι} {i' : ι'} {log : List (RaidEvent ι)}
    {log' : List (RaidEvent ι')}
    {c : Config ι WorkerOp WorkerOp.Ret (Option ClientLocals) GameSharedData}
    {c' : Config ι' WorkerOp WorkerOp.Ret (Option ClientLocals) GameSharedData}
    (run : (raid ι).Run (raidInit ι) log c) (run' : (raid ι').Run (raidInit ι') log' c')
    (named : NameOfOwn i log) (named' : NameOfOwn i' log')
    (sameFights : fights (own i log) = fights (own i' log'))
    (sameRoom : ∀ room room', seat i log = some room → seat i' log' = some room' → room = room') :
    comboReports (own i log) = comboReports (own i' log') := by
  have hrooms : ∃ room, (∀ room', seat i log = some room' → room' = room) ∧
      ∀ room', seat i' log' = some room' → room' = room := by
    cases seated : seat i log with
    | some room =>
        exact ⟨room, fun room' h => (Option.some.inj h).symm,
          fun room' seated' => (sameRoom room room' seated seated').symm⟩
    | none =>
        cases seated' : seat i' log' with
        | some room => exact ⟨room, fun _ h => (nomatch h), fun room' h => (Option.some.inj h).symm⟩
        | none => exact ⟨true, fun _ h => (nomatch h), fun _ h => (nomatch h)⟩
  obtain ⟨room, hroom, hroom'⟩ := hrooms
  rw [comboReports_eq run named hroom, comboReports_eq run' named' hroom', sameFights]

/-- The first player attacks three times with dice 3, and before the third time another player,
whose name is given, attacks with dice 2. -/
def threeThrees (name : List UInt8) : List (Fin 2 × RaidEnv) :=
  joins firstPlayer [97] ++ joins secondPlayer name ++ attacks firstPlayer 3 ++
    attacks firstPlayer 3 ++ attacks secondPlayer 2 ++ attacks firstPlayer 3

/-- The log of such a run. -/
def threeThreesLog (name : List UInt8) : List (RaidEvent (Fin 2)) :=
  ((raid (Fin 2)).play (raidInit _) (threeThrees name)).1

/-- The other player may have one name or another, as long as it is not the first player's. -/
theorem combo_independent_threeThrees :
    comboReports (own firstPlayer (threeThreesLog [98])) =
      comboReports (own firstPlayer (threeThreesLog [99])) :=
  combo_independent (Machine.run_play _ _) (Machine.run_play _ _) (by decide +kernel)
    (by decide +kernel) (by decide +kernel) (by decide +kernel)

/-- If it is, the third attack is no combo kill any more, with the same fights against a boss that
was alive. -/
theorem combo_disturbed :
    sessionPacket firstPlayer (threeThreesLog [97]) =
        sessionPacket firstPlayer (threeThreesLog [98]) ∧
      fights (own firstPlayer (threeThreesLog [97])) =
        fights (own firstPlayer (threeThreesLog [98])) ∧
      (∀ f ∈ fights (own firstPlayer (threeThreesLog [98])), f.thrown.isSome = true) ∧
      comboReports (own firstPlayer (threeThreesLog [98])) = [(3, true), (2, false), (1, false)] ∧
      comboReports (own firstPlayer (threeThreesLog [97])) =
        [(1, false), (2, false), (1, false)] := by
  decide +kernel

end WorldBossRaid
