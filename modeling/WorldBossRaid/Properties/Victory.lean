import WorldBossRaid.Model.Client
import WorldBossRaid.Properties.DamageAccounting
import WorldBossRaid.Properties.Username

/-!
# Victory, from the server to the screen

The name of the player that killed the second boss passes through the server's username array,
`last_killer`, the reply, the wire, the client's copies and the display state, each time through a
bounded `strncpy`.  `Holds` follows it: all these arrays hold the name and only NULs behind it.
The stage is followed by the invariant of the shared state.
-/

namespace WorldBossRaid

open Bytes Buffer Interaction

/-! ## Names -/

lemma copyName_holds {dst src : Buffer 32} {name : List UInt8} (hsrc : src.Holds name)
    (hname : (0 : UInt8) ∉ name) (hlen : name.length ≤ 31) : (copyName dst src).Holds name := by
  have hcstr := hsrc.cstr_eq hname
  rw [← hcstr] at hlen ⊢
  exact strncpy_setByte_holds hlen

/-! ## The killer's name in the shared state -/

section Server

variable {ι : Type} [DecidableEq ι] {log post pre : List (RaidEvent ι)} {s : GameSharedData}
  {i : ι} {e : RaidEnv} {o : WorkerOp}
  {c : Config ι WorkerOp WorkerOp.Ret (Option ClientLocals) GameSharedData}

/-- The packet with which session `i` was admitted, in a log. -/
def sessionPacket (i : ι) (log : List (RaidEvent ι)) : Option GamePacket := admittedWith (own i log)

lemma sessionPacket_event {j : ι} {pkt : GamePacket} (h : sessionPacket j log = some pkt)
    (allowed : Allowed (own i log) o) :
    sessionPacket j ((raid ι).event i e o s :: log) = some pkt := by
  by_cases hij : i = j
  · subst hij
    rw [sessionPacket, Machine.own_event_self]
    cases o with
    | mark m =>
        cases m with
        | admitted pkt' => exact absurd (h.symm.trans allowed.2.1) (by simp)
        | _ => exact h
    | _ => exact h
  · rw [sessionPacket, Machine.own_event_of_ne _ hij]
    exact h

lemma sessionPacket_later (run : (raid ι).Run (raidInit ι) (post ++ pre) c) {pkt : GamePacket}
    (h : sessionPacket i pre = some pkt) : sessionPacket i (post ++ pre) = some pkt := by
  induction post generalizing c with
  | nil => exact h
  | cons ev post ih =>
      have hrun : (raid ι).Run (raidInit ι) ([] ++ ev :: (post ++ pre)) c := run
      obtain ⟨c', -, run', -, hevent⟩ := hrun.at_event
      have hallowed := hrun.allowed (raid_disciplined ι)
      have hnext : sessionPacket i (ev :: (post ++ pre)) = some pkt := by
        rw [hevent]
        exact sessionPacket_event (ih run') hallowed
      exact hnext

/-- What a session has joined with before an event is what it has joined with after it. -/
lemma sessionPacket_around {ev : RaidEvent ι} {pkt : GamePacket}
    (run : (raid ι).Run (raidInit ι) (post ++ ev :: pre) c) (h : sessionPacket i pre = some pkt) :
    sessionPacket i (post ++ ev :: pre) = some pkt := by
  have apart : post ++ ev :: pre = (post ++ [ev]) ++ pre := by simp
  rw [apart] at run ⊢
  exact sessionPacket_later run h

/-- An admitted client has a valid username. -/
def AdmittedValid (log : List (RaidEvent ι)) : Prop :=
  ∀ i pkt, sessionPacket i log = some pkt → inputValidateUsername pkt.joinUsername = true

lemma AdmittedValid.step (valid : AdmittedValid log) (allowed : Allowed (own i log) o) :
    AdmittedValid ((raid ι).event i e o s :: log) := by
  intro j pkt h
  by_cases hij : i = j
  · subst hij
    rw [sessionPacket, Machine.own_event_self] at h
    cases o with
    | mark m =>
        cases m with
        | admitted pkt' =>
            obtain rfl := Option.some.inj h
            exact allowed.2.2.2.2
        | _ => exact valid i pkt h
    | _ => exact valid i pkt h
  · rw [sessionPacket, Machine.own_event_of_ne _ hij] at h
    exact valid j pkt h

/-- The kill that happened last. -/
def lastKill (log : List (RaidEvent ι)) : Option (RaidEvent ι) := log.find? kills

/-- While a boss is down, and after the end, `last_killer` is the name of the session that made
the last kill; its last byte is always NUL. -/
structure KillerNamed (log : List (RaidEvent ι)) (s : GameSharedData) : Prop where
  tail : s.lastKiller.bytes.drop 31 = [0]
  down : s.isRespawning = true ∨ s.stage = .dead →
    ∃ k pkt, lastKill log = some k ∧ sessionPacket k.thread log = some pkt ∧
      s.lastKiller.Holds pkt.joinUsername.cstr ∧
      k.before.stage = if s.stage = .dead then .stage2 else s.stage

lemma KillerNamed.of_uneventful (named : KillerNamed log s) {t : GameSharedData}
    (allowed : Allowed (own i log) o) (hkills : kills ((raid ι).event i e o s) = false)
    (hkiller : t.lastKiller = s.lastKiller) (hstage : t.stage = s.stage)
    (hresp : t.isRespawning = s.isRespawning) :
    KillerNamed ((raid ι).event i e o s :: log) t := by
  refine ⟨hkiller ▸ named.tail, ?_⟩
  intro hdown
  rw [hresp, hstage] at hdown
  obtain ⟨k, pkt, hk, hpkt, hholds, hks⟩ := named.down hdown
  refine ⟨k, pkt, ?_, sessionPacket_event hpkt allowed, hkiller ▸ hholds, hstage ▸ hks⟩
  rw [lastKill, List.find?_cons_of_neg (by simp [hkills])]
  exact hk

/-- A kill stores the name under which its session joined. -/
lemma KillerNamed.of_kill (valid : AdmittedValid log) (named : KillerNamed log s)
    (allowed : Allowed (own i log) o) (hkills : kills ((raid ι).event i e o s) = true)
    {pkt : GamePacket} (hpkt : sessionPacket i log = some pkt) (alive : s.stage ≠ .dead)
    {t : GameSharedData}
    (hkiller : t.lastKiller = s.lastKiller.strncpy pkt.username 31 nameCopy_fits)
    (hstage : t.stage = s.stage) : KillerNamed ((raid ι).event i e o s :: log) t := by
  have hvalid := valid i pkt hpkt
  have hcstr := (username_holds hvalid).cstr_eq (zero_notMem_cstr _)
  have hlen := (length_of_validUsername hvalid).2
  refine ⟨?_, fun _ => ⟨(raid ι).event i e o s, pkt, List.find?_cons_of_pos hkills,
    sessionPacket_event hpkt allowed, ?_, ?_⟩⟩
  · rw [hkiller]
    exact drop_strncpy.trans named.tail
  · rw [hkiller]
    rw [← hcstr] at hlen ⊢
    exact strncpy_holds hlen named.tail
  · rw [hstage, if_neg alive]
    rfl

lemma KillerNamed.step (coupled : Raid log s) (valid : AdmittedValid log)
    (named : KillerNamed log s) (allowed : Allowed (own i log) o) :
    KillerNamed ((raid ι).event i e o s :: log) (o.exec e s).2 := by
  rcases o.actsOnBoss_cases with ho | ⟨damage, name, rfl⟩ | rfl
  · obtain ⟨-, -, hstage, hresp, hkiller⟩ := sameBoss_exec ho e s
    exact named.of_uneventful allowed (uneventful_event ho).1 hkiller hstage hresp
  · have hkills := kills_applyDamage (i := i) (e := e) (s := s) damage name
    obtain ⟨-, -, pkt, hpkt, rfl⟩ := id allowed
    change KillerNamed _ (gamestateApplyDamage damage pkt.username s).2
    rcases applyDamage_cases damage pkt.username s with
      ⟨_, hret⟩ | ⟨_, _, hret⟩ | ⟨hinert, _, hret⟩
    · rw [hret] at hkills ⊢
      exact named.of_uneventful allowed hkills rfl rfl rfl
    · rw [hret] at hkills ⊢
      exact named.of_uneventful allowed hkills rfl rfl rfl
    · rw [hret] at hkills ⊢
      exact named.of_kill valid allowed hkills hpkt (alive_of_not_inert hinert).1 rfl rfl
  · obtain ⟨S, -, represents, owes⟩ := coupled
    obtain ⟨k, rfl⟩ := ((owes i).1 allowed).fallen
    obtain ⟨-, -, hstage, hresp⟩ := represents
    obtain ⟨ev, pkt, hev, hpkt, hholds, hevs⟩ := named.down (Or.inl hresp)
    change KillerNamed _ (gamestateSpawnNextBoss s)
    by_cases h1 : s.stage = .stage1
    · rw [gamestateSpawnNextBoss, if_pos h1]
      exact ⟨rfl, fun hdown => by simp at hdown⟩
    · rw [gamestateSpawnNextBoss, if_neg h1]
      have h2 : s.stage ≠ .dead := hstage ▸ stageOf_ne_dead k
      refine ⟨named.tail, fun _ => ⟨ev, pkt, ?_, sessionPacket_event hpkt allowed, hholds, ?_⟩⟩
      · exact (List.find?_cons_of_neg Bool.false_ne_true).trans hev
      · rw [hevs, if_neg h2]
        cases hs : s.stage with
        | stage1 => exact absurd hs h1
        | stage2 => rfl
        | dead => exact absurd hs h2

lemma run_killerNamed (run : (raid ι).Run (raidInit ι) log c) :
    AdmittedValid log ∧ KillerNamed log c.shared := by
  have hinv : Raid log c.shared ∧ AdmittedValid log ∧ KillerNamed log c.shared := by
    refine run.invariant (raid_disciplined ι)
      (fun log s => Raid log s ∧ AdmittedValid log ∧ KillerNamed log s) ?_
      fun log s i e o h allowed => ⟨h.1.step allowed, h.2.1.step allowed,
        h.2.2.step h.1 h.2.1 allowed⟩
    refine ⟨run_raid .start, fun i pkt h => ?_, ⟨rfl, fun hdown => ?_⟩⟩
    · cases h
    · simp [raidInit, gamestateInit] at hdown
  exact hinv.2

end Server

/-! ## The reply on the client's side -/

/-- A client's packet buffer after the reply `p` has come in. -/
def Delivers (pkt : GamePacket) (p : PayloadGameState) : Prop :=
  pkt.body.bytes.take p.bytes.length = p.bytes

/-- What a client hands to its user interface after the reply `s`: one of the copies of the two
clients, over whatever was there before. -/
inductive CopiedFrom (s : PayloadGameState) : UiGameState → Prop
  | attack (old : UiGameState) : CopiedFrom s (old.ofAttack s)
  | heartbeat (old : UiGameState) : CopiedFrom s (old.ofHeartbeat s)
  | firstHeartbeat (old : UiGameState) : CopiedFrom s (old.ofFirstHeartbeat s)
  | loopHeartbeat (old : UiGameState) : CopiedFrom s (old.ofLoopHeartbeat s)

/-- All copies agree on the fields about the raid. -/
lemma CopiedFrom.world {s : PayloadGameState} {g : UiGameState} (h : CopiedFrom s g) :
    g.bossHp = s.bossHp ∧ g.stage = s.stage ∧ g.isRespawning = s.isRespawning ∧
      ∃ old, g.lastKiller = copyName old s.lastKiller := by
  cases h with
  | loopHeartbeat old =>
      unfold UiGameState.ofLoopHeartbeat
      dsimp only
      split <;> exact ⟨rfl, rfl, rfl, old.lastKiller, rfl⟩
  | _ old => exact ⟨rfl, rfl, rfl, old.lastKiller, rfl⟩

/-- The client reads off its buffer what the server put into the reply. -/
lemma Delivers.gameState {pkt : GamePacket} {p : PayloadGameState} (h : Delivers pkt p) :
    pkt.gameState.stage = p.stage ∧ pkt.gameState.isRespawning = p.isRespawning ∧
      pkt.gameState.lastKiller = p.lastKiller ∧
      (-2 ^ 31 ≤ p.bossHp → p.bossHp < 2 ^ 31 → pkt.gameState.bossHp = p.bossHp) := by
  have hprefix : p.bytes <+: pkt.body.bytes := by
    rw [Delivers] at h
    rw [← h]
    exact List.take_prefix _ _
  obtain ⟨rest, hrest⟩ := hprefix
  refine ⟨?_, ?_, ?_, fun hlo hhi => ?_⟩
  · simp [GamePacket.gameState, ← hrest, PayloadGameState.bytes, List.getElem?_append]
  · simp [GamePacket.gameState, ← hrest, PayloadGameState.bytes, List.getElem?_append]
  · apply Buffer.ext
    simp [GamePacket.gameState, ← hrest, PayloadGameState.bytes, member, List.drop_append,
      List.drop_of_length_le, p.lastKiller.size_eq]
  · have hbytes : ((pkt.body.bytes.drop 0).take 4) = int32Bytes p.bossHp := by
      simp [← hrest, PayloadGameState.bytes]
    simp only [GamePacket.gameState, member, hbytes]
    exact int32Value_int32Bytes hlo hhi

section Screen

variable {snap : GameSharedData} {p : PayloadGameState} {pkt : GamePacket} {g : UiGameState}

/-- The victory test succeeds exactly on the replies of a finished game. -/
lemma victory_iff (sound : snap.Sound) (hp : p.world = .ofSnapshot snap) (delivers : Delivers pkt p)
    (copied : CopiedFrom pkt.gameState g) : g.victory = true ↔ snap.stage = .dead := by
  have hhp : p.bossHp = snap.currentHp := congrArg PayloadGameState.bossHp hp
  have hstage : p.stage = snap.stage.code := congrArg PayloadGameState.stage hp
  have hresp : p.isRespawning = if snap.isRespawning then 1 else 0 :=
    congrArg PayloadGameState.isRespawning hp
  have hlo := sound.hp_nonneg
  have hhi : snap.currentHp ≤ 2000 := by
    have hmax : snap.maxHp ≤ 2000 := by
      rw [sound.maxHp_eq]
      cases snap.stage <;> decide
    exact sound.hp_le.trans hmax
  obtain ⟨hgstage, hgresp, -, hghp⟩ := delivers.gameState
  obtain ⟨hcopyHp, hcopyStage, hcopyResp, -⟩ := copied.world
  rw [UiGameState.victory, hcopyHp, hcopyStage, hcopyResp, hgstage, hgresp,
    hghp (by omega) (by omega), hhp, hstage, hresp]
  constructor
  · intro h
    simp only [Bool.and_eq_true, beq_iff_eq] at h
    exact (BossStage.code_eq_two_iff _).1 h.1.1
  · intro hdead
    obtain ⟨hzero, hnot⟩ := sound.of_dead hdead
    rw [hdead, hzero, hnot]
    decide

/-- A name in `last_killer` reaches the screen as it is. -/
lemma winner_holds (hp : p.world = .ofSnapshot snap) (delivers : Delivers pkt p)
    (copied : CopiedFrom pkt.gameState g) {name : List UInt8} (hholds : snap.lastKiller.Holds name)
    (hname : (0 : UInt8) ∉ name) (hlen : name.length ≤ 31) (old : Buffer uiMaxName) :
    (g.winner old).Holds name := by
  have hkiller : p.lastKiller =
      PayloadGameState.zero.lastKiller.strncpy snap.lastKiller 32 (by decide) :=
    congrArg PayloadGameState.lastKiller hp
  have hreply : p.lastKiller.Holds name := by
    have hcstr := hholds.cstr_eq hname
    have hsrc : snap.lastKiller.cstr.length ≤ 32 := snap.lastKiller.length_cstr_le
    rw [hkiller, ← hcstr]
    exact strncpy_holds hsrc rfl
  obtain ⟨-, -, hread, -⟩ := delivers.gameState
  obtain ⟨-, -, -, old', hcopy⟩ := copied.world
  have hui : g.lastKiller.Holds name := by
    rw [hcopy, hread]
    exact copyName_holds hreply hname hlen
  exact copyName_holds hui hname hlen

lemma shownWinner_of_holds {w : Buffer uiMaxName} {name : List UInt8} (hholds : w.Holds name)
    (hname : (0 : UInt8) ∉ name) (hpos : 0 < name.length) : shownWinner w = name := by
  have hhead : ¬w.bytes.head? = some 0 := by
    cases name with
    | nil => exact absurd hpos (lt_irrefl 0)
    | cons b name =>
        rw [hholds]
        intro h
        exact hname (List.mem_cons.2 (Or.inl (Option.some.inj h).symm))
  rw [shownWinner, if_neg hhead, hholds.cstr_eq hname]

end Screen

/-! ## Agreement -/

section Agreement

variable {ι : Type} [DecidableEq ι] {log : List (RaidEvent ι)}
  {c : Config ι WorkerOp WorkerOp.Ret (Option ClientLocals) GameSharedData}

/-- The kill of the second boss. -/
def killsLast (e : RaidEvent ι) : Prop := kills e = true ∧ e.before.stage = .stage2

lemma killsLast_unique (run : (raid ι).Run (raidInit ι) log c) {k k' : RaidEvent ι} (hk : k ∈ log)
    (hkills : killsLast k) (hk' : k' ∈ log) (hkills' : killsLast k') : k = k' := by
  have hcount := (run_counted run).1 .stage2
  have hle : (log.filter fun e => kills e && e.before.stage == .stage2).length ≤ 1 := by
    rw [hcount, broughtDown]
    split_ifs <;> omega
  have hmem {e : RaidEvent ι} (he : e ∈ log) (hlast : killsLast e) :
      e ∈ log.filter fun e => kills e && e.before.stage == .stage2 := by
    simp [List.mem_filter, he, hlast.1, hlast.2]
  have hk₁ := hmem hk hkills
  have hk₂ := hmem hk' hkills'
  rcases hlist : log.filter fun e => kills e && e.before.stage == .stage2 with
    _ | ⟨a, _ | ⟨b, l⟩⟩
  · simp [hlist] at hk₁
  · rw [hlist, List.mem_singleton] at hk₁ hk₂
    exact hk₁.trans hk₂.symm
  · simp [hlist] at hle

lemma kill_session (run : (raid ι).Run (raidInit ι) log c) {k : RaidEvent ι} (hk : k ∈ log)
    (hkills : kills k = true) :
    ∃ pkt, sessionPacket k.thread log = some pkt ∧
      inputValidateUsername pkt.joinUsername = true := by
  obtain ⟨damage, name, hanswered, -⟩ := run_kill run hk hkills
  obtain ⟨post, pre, rfl⟩ := List.append_of_mem hk
  have hallowed := run.allowed (raid_disciplined ι)
  have hop : k.op = .game (.applyDamage damage name) := congrArg Sigma.fst hanswered
  rw [hop] at hallowed
  obtain ⟨-, -, pkt, hpkt, -⟩ := hallowed
  have hlater := sessionPacket_around run hpkt
  exact ⟨pkt, hlater, (run_killerNamed run).1 _ _ hlater⟩

/-- After the end, `last_killer` is the name of the session that killed the second boss. -/
lemma dead_killer (run : (raid ι).Run (raidInit ι) log c) (hdead : c.shared.stage = .dead) :
    ∃ k ∈ log, killsLast k ∧ ∃ pkt, sessionPacket k.thread log = some pkt ∧
      inputValidateUsername pkt.joinUsername = true ∧
      c.shared.lastKiller.Holds pkt.joinUsername.cstr := by
  obtain ⟨valid, named⟩ := run_killerNamed run
  obtain ⟨k, pkt, hk, hpkt, hholds, hstage⟩ := named.down (Or.inr hdead)
  rw [if_pos hdead] at hstage
  exact ⟨k, List.mem_of_find?_eq_some hk, ⟨List.find?_some hk, hstage⟩, pkt, hpkt,
    valid _ _ hpkt, hholds⟩

/-- There is one winner: all sessions that kill the second boss have joined under one name. -/
lemma exists_winner (run : (raid ι).Run (raidInit ι) log c) :
    ∃ winner : List UInt8, ∀ k ∈ log, killsLast k → ∃ pkt, sessionPacket k.thread log = some pkt ∧
      inputValidateUsername pkt.joinUsername = true ∧ pkt.joinUsername.cstr = winner := by
  by_cases hex : ∃ k ∈ log, killsLast k
  · obtain ⟨k, hk, hlast⟩ := hex
    obtain ⟨pkt, hpkt, hvalid⟩ := kill_session run hk hlast.1
    refine ⟨pkt.joinUsername.cstr, ?_⟩
    intro k' hk' hlast'
    rw [killsLast_unique run hk' hlast' hk hlast]
    exact ⟨pkt, hpkt, hvalid, rfl⟩
  · exact ⟨[], fun k hk hlast => absurd ⟨k, hk, hlast⟩ hex⟩

/-- Before a step that finds the game over, a session has killed the second boss, and the step
finds its name in `last_killer`. -/
lemma dead_before {post base : List (RaidEvent ι)} {s : RaidEvent ι}
    (run : (raid ι).Run (raidInit ι) (post ++ s :: base) c) (hdead : s.before.stage = .dead) :
    ∃ k ∈ base, killsLast k ∧ ∃ pkt, sessionPacket k.thread (post ++ s :: base) = some pkt ∧
      inputValidateUsername pkt.joinUsername = true ∧
      s.before.lastKiller.Holds pkt.joinUsername.cstr := by
  obtain ⟨c₀, run₀, hbefore⟩ := run.before_event
  rw [hbefore] at hdead ⊢
  obtain ⟨k, hk, hlast, pkt, hpkt, hvalid, hholds⟩ := dead_killer run₀ hdead
  have hlater := sessionPacket_around run hpkt
  exact ⟨k, hk, hlast, pkt, hlater, hvalid, hholds⟩

/-- **Victory is agreed upon from server to screen.**  In every run there is one name, the one
under which the session that kills the second boss has joined, such that every reply to any client
passes the victory test exactly if its snapshot was taken after the end of the game, and then the
client shows that name, byte for byte. -/
theorem victory_agreement (run : (raid ι).Run (raidInit ι) log c) :
    ∃ winner : List UInt8,
      (∀ k ∈ log, killsLast k → ∃ pkt, sessionPacket k.thread log = some pkt ∧
        inputValidateUsername pkt.joinUsername = true ∧ pkt.joinUsername.cstr = winner) ∧
      ∀ post e pre, log = post ++ e :: pre → ∀ p, e.op = .send (.gameState p) →
        ∃ s, snapshotOf e.thread pre = some s ∧
          ∀ pkt g, Delivers pkt p → CopiedFrom pkt.gameState g →
            (g.victory = true ↔ s.before.stage = .dead) ∧
            (g.victory = true →
              (∃ k ∈ pre, killsLast k) ∧ 0 < winner.length ∧ winner.length ≤ 31 ∧
              ∀ old, (g.winner old).Holds winner ∧ shownWinner (g.winner old) = winner) := by
  obtain ⟨winner, hwinner⟩ := exists_winner run
  refine ⟨winner, hwinner, ?_⟩
  rintro post e pre rfl p hop
  obtain ⟨s, hs, hsnap, hworld⟩ := send_snapshot run hop
  refine ⟨s, hsnap, ?_⟩
  intro pkt g delivers copied
  have hiff := victory_iff (before_sound run (by simp [hs])) hworld delivers copied
  refine ⟨hiff, ?_⟩
  intro hvictory
  -- the kill that the shared state remembers at the moment of the snapshot
  obtain ⟨mid, base, rfl⟩ := List.append_of_mem hs
  have run₁ : (raid ι).Run (raidInit ι) ((post ++ e :: mid) ++ s :: base) c := by
    rw [List.append_assoc, List.cons_append]
    exact run
  obtain ⟨k, hk, hlast, joined, hjoined, hvalid, hholds⟩ := dead_before run₁ (hiff.1 hvictory)
  rw [List.append_assoc, List.cons_append] at hjoined
  obtain ⟨pkt', hpkt', -, rfl⟩ := hwinner k (by simp [hk]) hlast
  obtain rfl : joined = pkt' := Option.some.inj (hjoined.symm.trans hpkt')
  obtain ⟨hpos, hlen⟩ := length_of_validUsername hvalid
  have hname := zero_notMem_cstr joined.joinUsername
  refine ⟨⟨k, by simp [hk], hlast⟩, hpos, hlen, ?_⟩
  intro old
  have hwins := winner_holds hworld delivers copied hholds hname hlen old
  exact ⟨hwins, shownWinner_of_holds hwins hname hpos⟩

end Agreement

/-- One player joins and kills both bosses: each time the attack, the hit, the spawn, the second
snapshot, the mark and the reply. -/
def wholeGame : List (Fin 2 × RaidEnv) :=
  joins firstPlayer [97] ++ aims firstPlayer ++ List.replicate 6 (firstPlayer, luckyEnv) ++
    aims firstPlayer ++ List.replicate 6 (firstPlayer, luckyEnv)

theorem victory_agreement_wholeGame :
    ((raid (Fin 2)).play (raidInit _) wholeGame).2.shared.stage = .dead ∧
      ∃ winner : List UInt8, ∀ k ∈ ((raid (Fin 2)).play (raidInit _) wholeGame).1, killsLast k →
        ∃ pkt, sessionPacket k.thread ((raid (Fin 2)).play (raidInit _) wholeGame).1 = some pkt ∧
          inputValidateUsername pkt.joinUsername = true ∧ pkt.joinUsername.cstr = winner := by
  refine ⟨by decide +kernel, ?_⟩
  obtain ⟨winner, hwinner, -⟩ :=
    victory_agreement (Machine.run_play (raidInit (Fin 2)) wholeGame)
  exact ⟨winner, hwinner⟩

end WorldBossRaid
