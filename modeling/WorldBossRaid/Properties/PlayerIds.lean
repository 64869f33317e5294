import WorldBossRaid.Properties.OnlineCount

/-!
# Player ids

`handle_join` hands out as `player_id` what `gamestate_player_join` returns, and that is the online
count, which goes down again when somebody leaves.  Two connected players therefore hold the same
id exactly if, between their joins, one more player left than joined.
-/

namespace WorldBossRaid

open Bytes Interaction Prog

variable {ι : Type} [DecidableEq ι]

/-! ## Statement -/

/-- The id of a connected player: it was told to the client, who has not left. -/
def heldId : WorkerHistory → Option ℤ
  | [] => none
  | ⟨.send (.joinResp resp), sent⟩ :: h => if sent then some resp.playerId else heldId h
  | ⟨.game .playerLeave, _⟩ :: _ => none
  | _ :: h => heldId h

/-- No two connected players hold the same id. -/
def IdsDistinct {σ ε : Type} (log : List (Event ι WorkerOp WorkerOp.Ret σ ε)) : Prop :=
  ∀ i j playerId, heldId (own i log) = some playerId → heldId (own j log) = some playerId → i = j

/-- Between the joins of two players who are connected at the end of the log, the players that
left are never exactly one more than those that joined. -/
def NoOneReplaced {σ ε : Type} (log : List (Event ι WorkerOp WorkerOp.Ret σ ε)) : Prop :=
  ∀ post later mid earlier pre, log = post ++ later :: (mid ++ earlier :: pre) →
    later.op = .game .playerJoin → earlier.op = .game .playerJoin →
    (heldId (own later.thread log)).isSome → (heldId (own earlier.thread log)).isSome →
    occurrences WorkerOp.leaves mid ≠ occurrences WorkerOp.joins mid + 1

/-! ## The id in the log -/

variable {log : List (Event ι WorkerOp WorkerOp.Ret GameSharedData RaidEnv)}
  {c : Config ι WorkerOp WorkerOp.Ret (Option ClientLocals) GameSharedData} {i : ι} {playerId : ℤ}

omit [DecidableEq ι] in
lemma heldId_cons {o : WorkerOp} (ho : o.boards = false) (r : o.Ret) (h : WorkerHistory) :
    heldId (⟨o, r⟩ :: h) = heldId h := by
  cases o with
  | game o => cases o <;> first | rfl | cases ho
  | send m =>
      cases m with
      | joinResp => cases ho
      | gameState => rfl
  | _ => rfl

/-- Who holds an id has joined under it and not left. -/
lemma aboard_of_heldId (run : (raid ι).Run (raidInit ι) log c) (i : ι) (playerId : ℤ)
    (held : heldId (own i log) = some playerId) : Aboard playerId (own i log) := by
  refine run.invariant (raid_joinsThenLeaves ι)
    (fun log _ => ∀ i playerId, heldId (own i log) = some playerId → Aboard playerId (own i log))
    (fun i playerId held => nomatch held) ?_ i playerId held
  intro log s j e o ih allowed i playerId held
  by_cases hji : j = i
  · subst hji
    rw [Machine.own_event_self] at held ⊢
    rcases o.boards_cases with ho | rfl | rfl | ⟨resp, rfl⟩
    · obtain ⟨hjoins, hleaves, -⟩ := WorkerOp.of_not_boards (h := own j log) ho
      rw [heldId_cons ho] at held
      exact (ih j playerId held).cons hjoins hleaves _
    · have joined := (ih j playerId held).1
      rw [allowed.1] at joined
      cases joined
    · cases held
    · change (if e.sent then some resp.playerId else heldId (own j log)) = _ at held
      split at held
      · obtain rfl := Option.some.inj held
        exact Aboard.cons allowed rfl rfl _
      · exact (ih j playerId held).cons rfl rfl _
  · rw [Machine.own_event_of_ne _ hji] at held ⊢
    exact ih i playerId held

/-- The join of a player who holds an id. -/
lemma exists_join (run : (raid ι).Run (raidInit ι) log c)
    (held : heldId (own i log) = some playerId) :
    ∃ e ∈ log, e.thread = i ∧ e.op = .game .playerJoin := by
  have hid := (aboard_of_heldId run i playerId held).2.2
  obtain ⟨h₂, h₁, hsplit⟩ := List.append_of_mem (mem_of_joinedAs hid)
  obtain ⟨log₂, e, log₁, rfl, hthread, hanswered, -⟩ := exists_split_of_own hsplit
  exact ⟨e, by simp, hthread, congrArg Sigma.fst hanswered⟩

lemma timesJoined_append (h h' : WorkerHistory) :
    timesJoined (h ++ h') = timesJoined h + timesJoined h' := List.countP_append

/-- The id of a player who has joined once is the answer to that join. -/
lemma joinedAs_eq {h h' : WorkerHistory} {r : ℤ}
    (once : timesJoined (h' ++ ⟨.game .playerJoin, r⟩ :: h) ≤ 1) :
    joinedAs (h' ++ ⟨.game .playerJoin, r⟩ :: h) = some r := by
  induction h' with
  | nil => rfl
  | cons a h' ih =>
      obtain ⟨o, r'⟩ := a
      have hjoins : o.joins = false := by
        by_contra hjoins
        rw [List.cons_append, timesJoined, times_cons_of_pos (by simpa using hjoins)] at once
        have hmore : 1 ≤ timesJoined (h' ++ ⟨.game .playerJoin, r⟩ :: h) := by
          rw [timesJoined_append, timesJoined, timesJoined, times_cons_of_pos rfl]
          omega
        rw [timesJoined] at hmore
        omega
      rw [List.cons_append, timesJoined, times_cons_of_neg hjoins] at once
      exact (joinedAs_cons hjoins r').trans (ih once)

/-- The held id, counted in the log: one more than the joins less the leaves before the join. -/
lemma heldId_eq {post pre : List (Event ι WorkerOp WorkerOp.Ret GameSharedData RaidEnv)}
    {e : Event ι WorkerOp WorkerOp.Ret GameSharedData RaidEnv}
    (run : (raid ι).Run (raidInit ι) (post ++ e :: pre) c) (hop : e.op = .game .playerJoin)
    (held : heldId (own e.thread (post ++ e :: pre)) = some playerId) :
    playerId = occurrences WorkerOp.joins pre - occurrences WorkerOp.leaves pre + 1 := by
  have aboard := aboard_of_heldId run _ _ held
  obtain ⟨c', run', hbefore⟩ := run.before_event
  obtain ⟨r, hanswered⟩ : ∃ r : ℤ, e.answered = ⟨.game .playerJoin, r⟩ := by
    obtain ⟨j, env, op, ret, before, after⟩ := e
    obtain rfl : op = .game .playerJoin := hop
    exact ⟨ret, rfl⟩
  have hown : own e.thread (post ++ e :: pre) =
      own e.thread post ++ ⟨.game .playerJoin, r⟩ :: own e.thread pre := by
    rw [own_append, own_cons, if_pos rfl, hanswered]
  rw [hown] at aboard
  have hr : r = playerId :=
    Option.some.inj ((joinedAs_eq aboard.1.le).symm.trans aboard.2.2)
  have hcount := (raid_booked run').count_log
  rw [← hr, join_answer run (by simp) hanswered, hbefore]
  exact congrArg (· + 1) hcount

/-! ## The theorem -/

lemma thread_ne_of_joins (run : (raid ι).Run (raidInit ι) log c)
    {post mid pre : List (Event ι WorkerOp WorkerOp.Ret GameSharedData RaidEnv)}
    {later earlier : Event ι WorkerOp WorkerOp.Ret GameSharedData RaidEnv}
    (hlog : log = post ++ later :: (mid ++ earlier :: pre))
    (hlater : later.op = .game .playerJoin) (hearlier : earlier.op = .game .playerJoin) :
    earlier.thread ≠ later.thread := by
  intro heq
  subst hlog
  have hallowed := run.allowed (raid_joinsThenLeaves ι)
  rw [hlater] at hallowed
  have hjoined : 1 ≤ timesJoined (own later.thread (mid ++ earlier :: pre)) := by
    rw [own_append, timesJoined_append, own_cons, if_pos heq]
    have hhead : timesJoined (earlier.answered :: own later.thread pre) =
        timesJoined (own later.thread pre) + 1 :=
      times_cons_of_pos (o := earlier.op) (by rw [hearlier]; rfl) _ _
    omega
  have hfirst := hallowed.1
  omega

/-- Two held ids are equal exactly if one more player left between the joins than joined. -/
lemma heldIds_eq_iff (run : (raid ι).Run (raidInit ι) log c)
    {post mid pre : List (Event ι WorkerOp WorkerOp.Ret GameSharedData RaidEnv)}
    {later earlier : Event ι WorkerOp WorkerOp.Ret GameSharedData RaidEnv} {id₁ id₂ : ℤ}
    (hlog : log = post ++ later :: (mid ++ earlier :: pre))
    (hlater : later.op = .game .playerJoin) (hearlier : earlier.op = .game .playerJoin)
    (held₂ : heldId (own later.thread log) = some id₂)
    (held₁ : heldId (own earlier.thread log) = some id₁) :
    id₁ = id₂ ↔ occurrences WorkerOp.leaves mid = occurrences WorkerOp.joins mid + 1 := by
  subst hlog
  have h₂ := heldId_eq run hlater held₂
  have hassoc : post ++ later :: (mid ++ earlier :: pre) =
    (post ++ later :: mid) ++ earlier :: pre := by simp
  rw [hassoc] at run held₁
  have h₁ := heldId_eq run hearlier held₁
  rw [occurrences_append, occurrences_append,
    occurrences_cons_of_pos (show earlier.op.joins = true by rw [hearlier]; rfl),
    occurrences_cons_of_neg (show earlier.op.leaves = false by rw [hearlier]; rfl)] at h₂
  push_cast at h₂
  omega

/-- **Connected players hold different ids exactly if none of them was replaced**: in every state
of every run with any number of sessions. -/
theorem idsDistinct_iff (run : (raid ι).Run (raidInit ι) log c) :
    IdsDistinct log ↔ NoOneReplaced log := by
  constructor
  · intro distinct post later mid earlier pre hlog hlater hearlier hheld₂ hheld₁ hcount
    obtain ⟨id₂, held₂⟩ := Option.isSome_iff_exists.1 hheld₂
    obtain ⟨id₁, held₁⟩ := Option.isSome_iff_exists.1 hheld₁
    have heq := (heldIds_eq_iff run hlog hlater hearlier held₂ held₁).2 hcount
    rw [heq] at held₁
    exact thread_ne_of_joins run hlog hlater hearlier (distinct _ _ _ held₁ held₂)
  · intro noOne i j playerId hi hj
    by_contra hij
    obtain ⟨e, he, rfl, hop⟩ := exists_join run hi
    obtain ⟨e', he', rfl, hop'⟩ := exists_join run hj
    have apart {post mid pre : List (Event ι WorkerOp WorkerOp.Ret GameSharedData RaidEnv)}
        {later earlier : Event ι WorkerOp WorkerOp.Ret GameSharedData RaidEnv}
        (hlog : log = post ++ later :: (mid ++ earlier :: pre))
        (hlater : later.op = .game .playerJoin) (hearlier : earlier.op = .game .playerJoin)
        (held₂ : heldId (own later.thread log) = some playerId)
        (held₁ : heldId (own earlier.thread log) = some playerId) : False := by
      refine noOne post later mid earlier pre hlog hlater hearlier ?_ ?_ ?_
      · rw [held₂]
        rfl
      · rw [held₁]
        rfl
      · exact (heldIds_eq_iff run hlog hlater hearlier held₂ held₁).1 rfl
    -- the two joins stand in one order or the other
    obtain ⟨post, pre, hlog⟩ := List.append_of_mem he
    rw [hlog, List.mem_append, List.mem_cons] at he'
    rcases he' with hpost | rfl | hpre
    · obtain ⟨post₂, post₁, rfl⟩ := List.append_of_mem hpost
      have hlog' : log = post₂ ++ e' :: (post₁ ++ e :: pre) := by
        rw [hlog, List.append_assoc, List.cons_append]
      exact apart hlog' hop' hop hj hi
    · exact hij rfl
    · obtain ⟨mid, pre', rfl⟩ := List.append_of_mem hpre
      exact apart hlog hop hop' hi hj

/-! ## A player who is replaced -/

/-- The environment of the run below. -/
def joinEnv : RaidEnv where
  now := 1000
  roll := 0
  received := some (clientPacket 0 OpCode.join.code (97 :: List.replicate 31 0))
  sent := true

/-- The same, with a packet that asks to leave. -/
def leaveEnv : RaidEnv :=
  { joinEnv with received := some (clientPacket 1 OpCode.leave.code []) }

/-- The first of three players. -/
def playerA : Fin 3 := ⟨0, Nat.zero_lt_succ 2⟩

/-- The second. -/
def playerB : Fin 3 := ⟨1, Nat.one_lt_succ_succ 1⟩

/-- The third. -/
def playerC : Fin 3 := ⟨2, Nat.lt_succ_self 2⟩

/-- Two players join, the first one leaves, and a third one joins. -/
def replacement : List (Fin 3 × RaidEnv) :=
  List.replicate 6 (playerA, joinEnv) ++ List.replicate 6 (playerB, joinEnv) ++
    List.replicate 5 (playerA, leaveEnv) ++ List.replicate 6 (playerC, joinEnv)

/-- The second and the third player are connected, and both hold the id 2. -/
lemma replacement_heldId :
    heldId (own playerB ((raid (Fin 3)).play (raidInit _) replacement).1) = some 2 ∧
      heldId (own playerC ((raid (Fin 3)).play (raidInit _) replacement).1) = some 2 := by
  decide +kernel

/-- The ids of that run are not distinct. -/
theorem replacement_not_distinct :
    ¬IdsDistinct ((raid (Fin 3)).play (raidInit _) replacement).1 := by
  intro distinct
  have heq := distinct playerB playerC 2 replacement_heldId.1 replacement_heldId.2
  exact absurd heq (by decide)

theorem idsDistinct_iff_replacement :
    ¬NoOneReplaced ((raid (Fin 3)).play (raidInit _) replacement).1 := by
  intro noOne
  have distinct := (idsDistinct_iff (Machine.run_play (raidInit (Fin 3)) replacement)).2 noOne
  have heq := distinct playerB playerC 2 replacement_heldId.1 replacement_heldId.2
  exact absurd heq (by decide)

end WorldBossRaid
