import WorldBossRaid.Properties.RaidInvariant
import WorldBossRaid.Properties.SessionRule

/-!
# How long a lucky kill is announced

A lucky kill sets a flag and a timestamp, and the first heartbeat that finds the event more than
five seconds old clears it.  The heartbeat decides on a snapshot and clears in a later critical
section, so it may erase an event that was marked in between.  `announcementKept_iff` says that
this is the only way to lose one.
-/

namespace WorldBossRaid

open Bytes Interaction Prog

variable {ι : Type}

/-! ## Statement -/

/-- A `gamestate_mark_lucky_kill`. -/
def WorkerOp.marksLucky : WorkerOp → Bool
  | .game .markLuckyKill => true
  | _ => false

/-- A `gamestate_clear_lucky_kill`. -/
def WorkerOp.clearsLucky : WorkerOp → Bool
  | .game .clearLuckyKill => true
  | _ => false

/-- No clock reading is smaller than an earlier one. -/
def ClockMonotone (log : List (RaidEvent ι)) : Prop :=
  log.Pairwise fun later earlier => earlier.env.now ≤ later.env.now

/-- An event that is cleared is more than five seconds old. -/
def ErasesOld (log : List (RaidEvent ι)) : Prop :=
  ∀ e ∈ log, e.op.clearsLucky = true → e.before.hasLuckyKillEvent = true →
    e.before.luckyKillTimestamp + 5 < e.env.now

/-- Lucky kills are announced for as long as they should be. -/
structure AnnouncementKept (log : List (RaidEvent ι)) : Prop where
  /-- Every snapshot up to five seconds after a mark shows an event. -/
  visible : ∀ post s mid m pre snap, log = post ++ s :: (mid ++ m :: pre) →
    m.op.marksLucky = true → s.answered = ⟨.game .getSnapshot, snap⟩ →
    s.env.now ≤ m.env.now + 5 → snap.hasLuckyKillEvent = true
  erases_old : ErasesOld log

variable [DecidableEq ι]

/-- The log back to the last snapshot of thread `i`. -/
def sinceSnapshot (i : ι) (log : List (RaidEvent ι)) : List (RaidEvent ι) :=
  log.takeWhile fun e => !decide (e.thread = i ∧ e.op = .game .getSnapshot)

/-- Whatever is marked between a heartbeat's snapshot and its clear is more than five seconds old
by then. -/
def NoFreshMark (log : List (RaidEvent ι)) : Prop :=
  ∀ post e pre, log = post ++ e :: pre → e.op.clearsLucky = true →
    ∀ m ∈ sinceSnapshot e.thread pre, m.op.marksLucky = true → m.env.now + 5 < e.env.now

lemma eq_mark {o : WorkerOp} (ho : o.marksLucky = true) : o = .game .markLuckyKill := by
  cases o with
  | game o =>
      cases o with
      | markLuckyKill => rfl
      | _ => cases ho
  | _ => cases ho

lemma eq_clear {o : WorkerOp} (ho : o.clearsLucky = true) : o = .game .clearLuckyKill := by
  cases o with
  | game o =>
      cases o with
      | clearLuckyKill => rfl
      | _ => cases ho
  | _ => cases ho

/-! ## When a heartbeat clears -/

/-- A worker clears right after it has read the clock, right after a snapshot that showed an
event more than five seconds old. -/
def ClearsExpired (h : WorkerHistory) : WorkerOp → Prop
  | .game .clearLuckyKill => ∃ (now : ℤ) (snap : GameSharedData) (h₀ : WorkerHistory),
      h = ⟨.time, now⟩ :: ⟨.game .getSnapshot, snap⟩ :: h₀ ∧ snap.hasLuckyKillEvent = true ∧
        now - snap.luckyKillTimestamp > 5
  | _ => True

lemma clearsExpired_of_not_clears {h : WorkerHistory} {o : WorkerOp} (ho : o.clearsLucky = false) :
    ClearsExpired h o := by
  cases o with
  | game o =>
      cases o with
      | clearLuckyKill => cases ho
      | _ => trivial
  | _ => trivial

lemma clearsExpired_of_issues {α : Type} {p : Worker α}
    (hp : Issues (fun o => o.clearsLucky = false) p) (h : WorkerHistory) :
    Conforms ClearsExpired (fun _ _ => True) h p :=
  hp.conforms (fun _ _ _ ho => clearsExpired_of_not_clears ho) (fun _ _ _ _ _ => trivial) trivial

lemma WorkerOp.InAttack.not_clears {name : Buffer maxPlayerName} {o : WorkerOp}
    (ho : o.InAttack name) : o.clearsLucky = false :=
  ho.each rfl (fun _ => rfl) rfl (fun _ _ => rfl) rfl rfl (fun _ _ => rfl) fun _ => rfl

lemma WorkerOp.InCleanup.not_clears {o : WorkerOp} (ho : o.InCleanup) : o.clearsLucky = false :=
  ho.each rfl rfl

lemma WorkerOp.InLoop.not_clears {o : WorkerOp} (ho : o.InLoop) : o.clearsLucky = false :=
  ho.each rfl rfl fun _ => rfl

lemma WorkerOp.InPrelude.not_clears {o : WorkerOp} (ho : o.InPrelude) : o.clearsLucky = false :=
  ho.each rfl rfl rfl rfl rfl (fun _ => rfl) fun _ => rfl

lemma handleHeartbeat_clearsExpired (h : WorkerHistory) :
    Conforms ClearsExpired (fun _ _ => True) h handleHeartbeat := by
  simp only [handleHeartbeat, perform_bind, conforms_call]
  refine ⟨trivial, fun now => ⟨trivial, fun snap => conforms_bind.2 ?_⟩⟩
  simp only [luckyEventFlag, perform_bind]
  split
  · next shown =>
      rw [conforms_call]
      refine ⟨trivial, fun now' => ?_⟩
      split
      · next old =>
          exact ⟨⟨now', snap, _, rfl, shown, old⟩, fun _ => ⟨trivial, fun _ => trivial⟩⟩
      · exact ⟨trivial, fun _ => trivial⟩
  · exact ⟨trivial, fun _ => trivial⟩

lemma clearsExpiredRule : LoopRule ClearsExpired (fun _ _ => True) (fun _ => True) where
  allows _ _ _ _ ho := clearsExpired_of_not_clears ho.not_clears
  keeps _ _ _ _ _ _ := trivial
  limiter _ _ _ _ := trivial
  attack _ h pkt _ :=
    clearsExpired_of_issues ((handleAttack_issues pkt).mono fun _ ho => ho.not_clears) h
  heartbeat _ h _ := handleHeartbeat_clearsExpired h
  cleanup l h _ :=
    clearsExpired_of_issues ((cleanupClient_issues l.playerId).mono fun _ ho => ho.not_clears) h

theorem raid_clearsExpired (ι : Type) :
    (raid ι).Disciplined (fun _ => ClearsExpired)
      (fun _ => AtHeadOrEnd (fun _ _ => True) fun _ => True) (raidInit ι) where
  first _ :=
    (clearsExpired_of_issues (handleClient_issues.mono fun _ ho => ho.not_clears) []).weaken
      fun _ v _ => atHeadOrEnd_of (fun _ => trivial) trivial v
  again _ _ _ _ := clearsExpiredRule.dispatchRule.again

/-! ## What the flag shows -/

/-- The mark whose event is set at the end of the log, if there is one. -/
def lastMark (log : List (RaidEvent ι)) : Option (RaidEvent ι) :=
  (log.find? fun e => e.op.marksLucky || e.op.clearsLucky).filter fun e => e.op.marksLucky

/-- The flag and the timestamp are those of the last mark. -/
def Shown (log : List (RaidEvent ι)) (s : GameSharedData) : Prop :=
  (lastMark log = none → s.hasLuckyKillEvent = false) ∧
    ∀ m, lastMark log = some m → s.hasLuckyKillEvent = true ∧ s.luckyKillTimestamp = m.env.now

variable {log : List (RaidEvent ι)}
  {c : Config ι WorkerOp WorkerOp.Ret (Option ClientLocals) GameSharedData}

omit [DecidableEq ι] in
lemma lastMark_cons_mark {e : RaidEvent ι} (he : e.op.marksLucky = true) :
    lastMark (e :: log) = some e := by
  simp [lastMark, he]

omit [DecidableEq ι] in
lemma lastMark_cons_clear {e : RaidEvent ι} (he : e.op.clearsLucky = true) :
    lastMark (e :: log) = none := by
  have hmarks : e.op.marksLucky = false := by
    rw [eq_clear he]
    rfl
  simp [lastMark, he, hmarks]

omit [DecidableEq ι] in
lemma lastMark_cons_other {e : RaidEvent ι} (hmarks : e.op.marksLucky = false)
    (hclears : e.op.clearsLucky = false) : lastMark (e :: log) = lastMark log := by
  simp [lastMark, hmarks, hclears]

lemma luckyEvent_exec {o : WorkerOp} (hmarks : o.marksLucky = false)
    (hclears : o.clearsLucky = false) (e : RaidEnv) (s : GameSharedData) :
    (o.exec e s).2.hasLuckyKillEvent = s.hasLuckyKillEvent ∧
      (o.exec e s).2.luckyKillTimestamp = s.luckyKillTimestamp := by
  cases o with
  | game o =>
      cases o with
      | markLuckyKill => cases hmarks
      | clearLuckyKill => cases hclears
      | playerLeave =>
          change (gamestatePlayerLeave s).hasLuckyKillEvent = _ ∧
            (gamestatePlayerLeave s).luckyKillTimestamp = _
          rw [gamestatePlayerLeave_frame]
          exact ⟨rfl, rfl⟩
      | applyDamage damage name =>
          change (gamestateApplyDamage damage name s).2.hasLuckyKillEvent = _ ∧
            (gamestateApplyDamage damage name s).2.luckyKillTimestamp = _
          rw [gamestateApplyDamage_frame]
          exact ⟨rfl, rfl⟩
      | spawnNextBoss =>
          change (gamestateSpawnNextBoss s).hasLuckyKillEvent = _ ∧
            (gamestateSpawnNextBoss s).luckyKillTimestamp = _
          rw [gamestateSpawnNextBoss_frame]
          exact ⟨rfl, rfl⟩
      | updateStreak name dice isWin =>
          change (gamestateUpdateStreak name dice isWin s).2.hasLuckyKillEvent = _ ∧
            (gamestateUpdateStreak name dice isWin s).2.luckyKillTimestamp = _
          rw [gamestateUpdateStreak_frame]
          exact ⟨rfl, rfl⟩
      | _ => exact ⟨rfl, rfl⟩
  | _ => exact ⟨rfl, rfl⟩

omit [DecidableEq ι] in
lemma Shown.step {s : GameSharedData} (shown : Shown log s) (i : ι) (e : RaidEnv)
    (o : WorkerOp) : Shown ((raid ι).event i e o s :: log) (o.exec e s).2 := by
  cases hmarks : o.marksLucky with
  | true =>
      rw [Shown, lastMark_cons_mark
        (show ((raid ι).event i e o s).op.marksLucky = true from hmarks)]
      refine ⟨fun h => (nomatch h), fun m hm => ?_⟩
      obtain rfl := Option.some.inj hm
      obtain rfl := eq_mark hmarks
      exact ⟨rfl, rfl⟩
  | false =>
      cases hclears : o.clearsLucky with
      | true =>
          rw [Shown, lastMark_cons_clear
            (show ((raid ι).event i e o s).op.clearsLucky = true from hclears)]
          refine ⟨fun _ => ?_, fun m hm => (nomatch hm)⟩
          obtain rfl := eq_clear hclears
          rfl
      | false =>
          obtain ⟨hflag, htime⟩ := luckyEvent_exec hmarks hclears e s
          rw [Shown, hflag, htime, lastMark_cons_other
            (show ((raid ι).event i e o s).op.marksLucky = false from hmarks)
            (show ((raid ι).event i e o s).op.clearsLucky = false from hclears)]
          exact shown

lemma run_shown (run : (raid ι).Run (raidInit ι) log c) : Shown log c.shared := by
  refine run.invariant (raid_clearsExpired ι) Shown ?_ fun log s i e o shown _ =>
    shown.step i e o
  exact ⟨fun _ => rfl, fun m hm => (nomatch hm)⟩

/-- The state before an event of a run shows what was marked last before it. -/
lemma before_shown {post pre : List (RaidEvent ι)} {e : RaidEvent ι}
    (run : (raid ι).Run (raidInit ι) (post ++ e :: pre) c) : Shown pre e.before := by
  obtain ⟨c', run', hbefore⟩ := run.before_event
  rw [hbefore]
  exact run_shown run'

/-! ## When an event is lost -/

/-- While only events more than five seconds old are cleared, a mark is not lost before that: the
event set is this one or a later one. -/
lemma kept_of_erasesOld {base : List (RaidEvent ι)} {m : RaidEvent ι} (hm : m.op.marksLucky = true)
    {bound : ℤ} (hbound : bound ≤ m.env.now + 5) {l : List (RaidEvent ι)}
    (run : (raid ι).Run (raidInit ι) (l ++ m :: base) c) (clock : ClockMonotone (l ++ m :: base))
    (old : ErasesOld (l ++ m :: base)) (early : ∀ e ∈ l, e.env.now ≤ bound) :
    ∃ m', lastMark (l ++ m :: base) = some m' ∧ m.env.now ≤ m'.env.now := by
  induction l generalizing c with
  | nil => exact ⟨m, lastMark_cons_mark hm, le_rfl⟩
  | cons e l ih =>
      have hrun : (raid ι).Run (raidInit ι) ([e] ++ (l ++ m :: base)) c := run
      obtain ⟨c', run'⟩ := hrun.earlier
      obtain ⟨hhead, htail⟩ := List.pairwise_cons.1 clock
      obtain ⟨m', hm', hle⟩ := ih run' htail (fun e' he' => old e' (List.mem_cons_of_mem _ he'))
        fun e' he' => early e' (List.mem_cons_of_mem _ he')
      by_cases hmarks : e.op.marksLucky = true
      · exact ⟨e, lastMark_cons_mark hmarks, hhead m (by simp)⟩
      · by_cases hclears : e.op.clearsLucky = true
        · have shown : Shown (l ++ m :: base) e.before :=
            before_shown (show (raid ι).Run (raidInit ι) ([] ++ e :: (l ++ m :: base)) c from run)
          obtain ⟨hflag, htime⟩ := shown.2 m' hm'
          have hold := old e (List.mem_cons_self ..) hclears hflag
          have hearly := early e (List.mem_cons_self ..)
          omega
        · refine ⟨m', ?_, hle⟩
          rw [List.cons_append,
            lastMark_cons_other (by simpa using hmarks) (by simpa using hclears)]
          exact hm'

/-- Then every snapshot up to five seconds after a mark shows an event. -/
lemma visible_of_erasesOld {post mid pre : List (RaidEvent ι)} {s m : RaidEvent ι}
    {snap : GameSharedData}
    (run : (raid ι).Run (raidInit ι) (post ++ s :: (mid ++ m :: pre)) c)
    (clock : ClockMonotone (post ++ s :: (mid ++ m :: pre)))
    (old : ErasesOld (post ++ s :: (mid ++ m :: pre))) (hm : m.op.marksLucky = true)
    (hs : s.answered = ⟨.game .getSnapshot, snap⟩) (soon : s.env.now ≤ m.env.now + 5) :
    snap.hasLuckyKillEvent = true := by
  have hsplit : post ++ s :: (mid ++ m :: pre) = (post ++ [s]) ++ (mid ++ m :: pre) := by simp
  have hsuffix : mid ++ m :: pre <:+ post ++ s :: (mid ++ m :: pre) := ⟨_, hsplit.symm⟩
  obtain ⟨hhead, -⟩ := List.pairwise_cons.1 (List.pairwise_append.1 clock).2.1
  have shown := before_shown run
  have hsnap := snapshot_ret run (by simp) hs
  rw [hsplit] at run
  obtain ⟨c', run'⟩ := run.earlier
  obtain ⟨m', hm', -⟩ := kept_of_erasesOld hm soon run' (clock.sublist hsuffix.sublist)
    (fun e he => old e (hsuffix.subset he)) fun e he => hhead e (by simp [he])
  rw [hsnap]
  exact (shown.2 m' hm').1

/-- Then no clear comes too soon after a mark it has not seen. -/
lemma noFreshMark_of_erasesOld (run : (raid ι).Run (raidInit ι) log c)
    (clock : ClockMonotone log) (old : ErasesOld log) : NoFreshMark log := by
  rintro post e pre rfl hclears m hm hmarks
  by_contra hfresh
  obtain ⟨l, base, rfl⟩ := List.append_of_mem ((List.takeWhile_prefix _).subset hm)
  have hsuffix : l ++ m :: base <:+ post ++ e :: (l ++ m :: base) := ⟨post ++ [e], by simp⟩
  obtain ⟨hhead, -⟩ := List.pairwise_cons.1 (List.pairwise_append.1 clock).2.1
  have shown := before_shown run
  have run' := run
  rw [show post ++ e :: (l ++ m :: base) = (post ++ [e]) ++ (l ++ m :: base) by simp] at run'
  obtain ⟨c', run''⟩ := run'.earlier
  obtain ⟨m', hm', hle⟩ := kept_of_erasesOld hmarks (not_lt.1 hfresh) run''
    (clock.sublist hsuffix.sublist) (fun e' he' => old e' (hsuffix.subset he'))
    fun e' he' => hhead e' (by simp [he'])
  obtain ⟨hflag, htime⟩ := shown.2 m' hm'
  have hold := old e (by simp) hclears hflag
  omega

omit [DecidableEq ι] in
/-- The last mark of a log is in any part of it that has a mark or a clear. -/
lemma lastMark_append {l base : List (RaidEvent ι)} {m : RaidEvent ι}
    (hm : lastMark (l ++ base) = some m) :
    (m ∈ l ∧ m.op.marksLucky = true) ∨ lastMark base = some m := by
  induction l with
  | nil => exact Or.inr hm
  | cons e l ih =>
      by_cases hmarks : e.op.marksLucky = true
      · rw [List.cons_append, lastMark_cons_mark hmarks] at hm
        obtain rfl := Option.some.inj hm
        exact Or.inl ⟨List.mem_cons_self .., hmarks⟩
      · by_cases hclears : e.op.clearsLucky = true
        · rw [List.cons_append, lastMark_cons_clear hclears] at hm
          cases hm
        · rw [List.cons_append,
            lastMark_cons_other (by simpa using hmarks) (by simpa using hclears)] at hm
          exact (ih hm).imp_left fun h => ⟨List.mem_cons_of_mem _ h.1, h.2⟩

/-- A clock reading outside the lock is the clock of its moment. -/
lemma time_ret (run : (raid ι).Run (raidInit ι) log c) {e : RaidEvent ι} (he : e ∈ log)
    {now : ℤ} (hanswered : e.answered = ⟨.time, now⟩) : now = e.env.now := by
  have hevent := run.event_eq he
  obtain ⟨j, env, op, ret, before, after⟩ := e
  cases hanswered
  exact eq_of_heq (Sigma.mk.inj (congrArg Event.answered hevent)).2

/-- The parts of the log around the snapshot that a worker took last. -/
lemma snapshot_parts {i : ι} {later pre : List (RaidEvent ι)} {snap : GameSharedData}
    (run : (raid ι).Run (raidInit ι) (later ++ pre) c)
    (hlast : lastSnapshot (own i pre) = some snap) :
    ∃ s base, pre = sinceSnapshot i pre ++ s :: base ∧ s.op = .game .getSnapshot ∧
      snap = s.before := by
  obtain ⟨s, hs, hanswered⟩ := snapshotOf_of_lastSnapshot hlast
  obtain ⟨hsop, mid, base, rfl, hmid⟩ := List.find?_eq_some_iff_append.1 hs
  have hsince : sinceSnapshot i (mid ++ s :: base) = mid := by
    rw [sinceSnapshot, List.takeWhile_append_of_pos hmid,
      List.takeWhile_cons_of_neg (by simpa using of_decide_eq_true hsop), List.append_nil]
  refine ⟨s, base, by rw [hsince], (of_decide_eq_true hsop).2, ?_⟩
  exact snapshot_ret run (by simp) hanswered

/-- The parts of the log before a clear: the clock reading that decided it, and before that the
snapshot it was decided on. -/
lemma clear_parts {post pre : List (RaidEvent ι)} {e : RaidEvent ι}
    (run : (raid ι).Run (raidInit ι) (post ++ e :: pre) c) (hclears : e.op.clearsLucky = true) :
    ∃ t ∈ pre, ∃ s base, pre = sinceSnapshot e.thread pre ++ s :: base ∧
      s.op = .game .getSnapshot ∧ s.before.hasLuckyKillEvent = true ∧
        s.before.luckyKillTimestamp + 5 < t.env.now := by
  have hallowed := run.allowed (raid_clearsExpired ι)
  rw [eq_clear hclears] at hallowed
  obtain ⟨now, snap, h₀, hown, hflag, hold⟩ := hallowed
  have hlast : lastSnapshot (own e.thread pre) = some snap := by
    rw [hown]
    rfl
  have hrun : (raid ι).Run (raidInit ι) ((post ++ [e]) ++ pre) c := by simpa using run
  obtain ⟨s, base, hpre, hsop, hseen⟩ := snapshot_parts hrun hlast
  obtain ⟨l₂, t, l₁, hsplit, -, ht, -⟩ := exists_split_of_own
    (show own e.thread pre = [] ++ ⟨.time, now⟩ :: ⟨.game .getSnapshot, snap⟩ :: h₀ from hown)
  have hnow : now = t.env.now := time_ret run (by simp [hsplit]) ht
  refine ⟨t, by simp [hsplit], s, base, hpre, hsop, ?_, ?_⟩
  · rw [← hseen]
    exact hflag
  · rw [← hseen, ← hnow]
    omega

/-- If no clear comes too soon after a mark it has not seen, only old events are cleared. -/
lemma erasesOld_of_noFreshMark (run : (raid ι).Run (raidInit ι) log c)
    (clock : ClockMonotone log) (noFresh : NoFreshMark log) : ErasesOld log := by
  intro e he hclears hflag
  obtain ⟨post, pre, rfl⟩ := List.append_of_mem he
  obtain ⟨t, ht, s, base, hpre, hsop, hseen, hold⟩ := clear_parts run hclears
  obtain ⟨hhead, -⟩ := List.pairwise_cons.1 (List.pairwise_append.1 clock).2.1
  have htime : t.env.now ≤ e.env.now := hhead t ht
  have shown := before_shown run
  cases hlast : lastMark pre with
  | none =>
      rw [shown.1 hlast] at hflag
      cases hflag
  | some m =>
      rw [(shown.2 m hlast).2]
      rw [hpre] at hlast
      rcases lastMark_append hlast with ⟨hm, hmarks⟩ | hbase
      · exact noFresh post e pre rfl hclears m hm hmarks
      · -- the event is the one the snapshot has shown
        have run' := run
        rw [hpre, show post ++ e :: (sinceSnapshot e.thread pre ++ s :: base) =
          (post ++ e :: sinceSnapshot e.thread pre) ++ s :: base by simp] at run'
        rw [lastMark_cons_other (by rw [hsop]; rfl) (by rw [hsop]; rfl)] at hbase
        have hthen := ((before_shown run').2 m hbase).2
        omega

/-- **A lucky kill is announced for five seconds, exactly if no heartbeat's clear follows within
five seconds on a mark that its snapshot has not seen**: for any number of sessions and any
interleaving, on a clock that does not go back. -/
theorem announcementKept_iff (run : (raid ι).Run (raidInit ι) log c)
    (clock : ClockMonotone log) : AnnouncementKept log ↔ NoFreshMark log := by
  constructor
  · intro kept
    exact noFreshMark_of_erasesOld run clock kept.erases_old
  · intro noFresh
    have old := erasesOld_of_noFreshMark run clock noFresh
    refine ⟨?_, old⟩
    rintro post s mid m pre snap rfl hmarks hs soon
    exact visible_of_erasesOld run clock old hmarks hs soon

/-! ## A clear that comes too soon -/

/-- The same steps at another time. -/
def atTime (now : ℤ) (schedule : List (Fin 2 × RaidEnv)) : List (Fin 2 × RaidEnv) :=
  schedule.map fun turn => (turn.1, { turn.2 with now })

/-- Player `i` sends a heartbeat and is about to clear: the packet, the clock, the mark, the clock,
the snapshot, the clock. -/
def looks (i : Fin 2) : List (Fin 2 × RaidEnv) :=
  (i, receiving (clientPacket 1 OpCode.heartbeat.code [])) :: List.replicate 5 (i, luckyEnv)

/-- The second player's lucky kill at 1000 is seen by the first player's heartbeat at 1006, which
clears only after another lucky kill has been marked. -/
def staleClear : List (Fin 2 × RaidEnv) :=
  joins firstPlayer [97] ++ joins secondPlayer [98] ++ aims secondPlayer ++
    List.replicate 6 (secondPlayer, luckyEnv) ++
    atTime 1006 (looks firstPlayer ++ aims secondPlayer ++ [(firstPlayer, luckyEnv)])

/-- The event erased is not even a second old. -/
lemma staleClear_young :
    ∃ e ∈ ((raid (Fin 2)).play (raidInit _) staleClear).1, e.op.clearsLucky = true ∧
      e.before.hasLuckyKillEvent = true ∧ e.env.now ≤ e.before.luckyKillTimestamp := by
  have hany : (((raid (Fin 2)).play (raidInit _) staleClear).1.any fun e =>
      e.op.clearsLucky && e.before.hasLuckyKillEvent &&
        decide (e.env.now ≤ e.before.luckyKillTimestamp)) = true := by decide +kernel
  obtain ⟨e, he, hyoung⟩ := List.any_eq_true.1 hany
  simp only [Bool.and_eq_true, decide_eq_true_eq] at hyoung
  exact ⟨e, he, hyoung.1.1, hyoung.1.2, hyoung.2⟩

omit [DecidableEq ι] in
lemma not_kept_of_young (young : ∃ e ∈ log, e.op.clearsLucky = true ∧
    e.before.hasLuckyKillEvent = true ∧ e.env.now ≤ e.before.luckyKillTimestamp) :
    ¬AnnouncementKept log := by
  intro kept
  obtain ⟨e, he, hclears, hflag, hyoung⟩ := young
  have hold := kept.erases_old e he hclears hflag
  omega

theorem staleClear_not_kept :
    ¬AnnouncementKept ((raid (Fin 2)).play (raidInit _) staleClear).1 :=
  not_kept_of_young staleClear_young

theorem announcementKept_iff_staleClear :
    ¬NoFreshMark ((raid (Fin 2)).play (raidInit _) staleClear).1 := by
  have hclock : ClockMonotone ((raid (Fin 2)).play (raidInit _) staleClear).1 := by
    unfold ClockMonotone
    decide +kernel
  intro noFresh
  apply not_kept_of_young staleClear_young
  exact (announcementKept_iff (Machine.run_play (raidInit (Fin 2)) staleClear) hclock).2 noFresh

end WorldBossRaid
