import WorldBossRaid.Model.ClientHandler

/-!
# The footprints of the handlers, and the rule for the session loop

The functions that `handle_client` calls never receive a packet, and each of them touches only a
part of the game state.  Their footprints are proved here, one lemma a function, for the modules
whose argument needs no more than that some operation does not occur.

`DispatchRule` says what has to be shown of the parts of the `while (1)` of `handle_client` so that
a property holds at its head throughout the session, and `DispatchRule.loop` puts the parts
together; `LoopRule` is what suffices where the packets do not matter.
-/

namespace WorldBossRaid

open Bytes Interaction Prog

/-! ## The footprints -/

/-- The operations of an attack by the player `name`. -/
def WorkerOp.InAttack (name : Buffer maxPlayerName) : WorkerOp → Prop
  | .game .getSnapshot => True
  | .game (.applyDamage _ attackerName) => attackerName = name
  | .game .spawnNextBoss => True
  | .game (.updateStreak playerName _ _) => playerName = name
  | .game .markLuckyKill => True
  | .rand => True
  | .mark (.attackReturned _ _) => True
  | .send (.gameState _) => True
  | _ => False

/-- The operations of a heartbeat. -/
def WorkerOp.InHeartbeat : WorkerOp → Prop
  | .game .getSnapshot => True
  | .game .clearLuckyKill => True
  | .time => True
  | .send (.gameState _) => True
  | _ => False

/-- The operations of `cleanup_client`. -/
def WorkerOp.InCleanup : WorkerOp → Prop
  | .tlsShutdown => True
  | .game .playerLeave => True
  | _ => False

/-- The operations of the loop itself. -/
def WorkerOp.InLoop : WorkerOp → Prop
  | .time => True
  | .recv timeoutSec => timeoutSec = 5
  | .mark (.dispatched _) => True
  | _ => False

/-- The operations of `handle_client` up to its loop. -/
def WorkerOp.InPrelude : WorkerOp → Prop
  | .game .playerJoin => True
  | .game .playerLeave => True
  | .time => True
  | .recv timeoutSec => timeoutSec = 0
  | .mark (.admitted _) => True
  | .send (.joinResp _) => True
  | .tlsShutdown => True
  | _ => False

section Each

variable {name : Buffer maxPlayerName} {P : WorkerOp → Prop} {o : WorkerOp}

/-- What holds of each operation of an attack. -/
@[elab_as_elim]
lemma WorkerOp.InAttack.each (ho : o.InAttack name) (snapshot : P (.game .getSnapshot))
    (damage : ∀ amount, P (.game (.applyDamage amount name))) (spawn : P (.game .spawnNextBoss))
    (streak : ∀ dice isWin, P (.game (.updateStreak name dice isWin)))
    (lucky : P (.game .markLuckyKill)) (rand : P .rand)
    (returned : ∀ result state, P (.mark (.attackReturned result state)))
    (reply : ∀ p, P (.send (.gameState p))) : P o := by
  cases o with
  | game o =>
      cases o with
      | getSnapshot => exact snapshot
      | applyDamage amount attackerName =>
          obtain rfl : attackerName = name := ho
          exact damage amount
      | spawnNextBoss => exact spawn
      | updateStreak playerName dice isWin =>
          obtain rfl : playerName = name := ho
          exact streak dice isWin
      | markLuckyKill => exact lucky
      | _ => exact ho.elim
  | rand => exact rand
  | mark m =>
      cases m with
      | attackReturned result state => exact returned result state
      | _ => exact ho.elim
  | send m =>
      cases m with
      | gameState p => exact reply p
      | joinResp => exact ho.elim
  | _ => exact ho.elim

/-- Of a heartbeat. -/
@[elab_as_elim]
lemma WorkerOp.InHeartbeat.each (ho : o.InHeartbeat) (snapshot : P (.game .getSnapshot))
    (clear : P (.game .clearLuckyKill)) (time : P .time) (reply : ∀ p, P (.send (.gameState p))) :
    P o := by
  cases o with
  | game o =>
      cases o with
      | getSnapshot => exact snapshot
      | clearLuckyKill => exact clear
      | _ => exact ho.elim
  | time => exact time
  | send m =>
      cases m with
      | gameState p => exact reply p
      | joinResp => exact ho.elim
  | _ => exact ho.elim

/-- Of the cleanup. -/
@[elab_as_elim]
lemma WorkerOp.InCleanup.each (ho : o.InCleanup) (shutdown : P .tlsShutdown)
    (leave : P (.game .playerLeave)) : P o := by
  cases o with
  | game o =>
      cases o with
      | playerLeave => exact leave
      | _ => exact ho.elim
  | tlsShutdown => exact shutdown
  | _ => exact ho.elim

/-- Of the loop itself. -/
@[elab_as_elim]
lemma WorkerOp.InLoop.each (ho : o.InLoop) (time : P .time) (recv : P (.recv 5))
    (dispatched : ∀ pkt, P (.mark (.dispatched pkt))) : P o := by
  cases o with
  | time => exact time
  | recv timeoutSec =>
      obtain rfl : timeoutSec = 5 := ho
      exact recv
  | mark m =>
      cases m with
      | dispatched pkt => exact dispatched pkt
      | _ => exact ho.elim
  | _ => exact ho.elim

/-- Of `handle_client` up to its loop. -/
@[elab_as_elim]
lemma WorkerOp.InPrelude.each (ho : o.InPrelude) (join : P (.game .playerJoin))
    (leave : P (.game .playerLeave)) (shutdown : P .tlsShutdown) (time : P .time)
    (recv : P (.recv 0)) (admitted : ∀ pkt, P (.mark (.admitted pkt)))
    (response : ∀ m, P (.send (.joinResp m))) : P o := by
  cases o with
  | game o =>
      cases o with
      | playerJoin => exact join
      | playerLeave => exact leave
      | _ => exact ho.elim
  | time => exact time
  | recv timeoutSec =>
      obtain rfl : timeoutSec = 0 := ho
      exact recv
  | mark m =>
      cases m with
      | admitted pkt => exact admitted pkt
      | _ => exact ho.elim
  | send m =>
      cases m with
      | joinResp m => exact response m
      | gameState => exact ho.elim
  | tlsShutdown => exact shutdown
  | _ => exact ho.elim

end Each

/-! ## An attack -/

variable {name : Buffer maxPlayerName}

lemma strike_issues (result : AttackResult) :
    Issues (WorkerOp.InAttack name) (strike name result) := by
  refine ⟨rfl, fun killed => ?_⟩
  cases killed with
  | false => exact issues_done
  | true => exact ⟨trivial, fun _ => issues_done⟩

lemma resolveAttack_issues (playerDice bossDice : ℤ) (luckyRoll : ℕ) :
    Issues (WorkerOp.InAttack name) (resolveAttack playerDice name bossDice luckyRoll) := by
  simp only [resolveAttack, perform_bind]
  split
  · exact ⟨trivial, fun _ => strike_issues _⟩
  · split
    · exact ⟨rfl, fun _ => strike_issues _⟩
    · exact ⟨rfl, fun _ => issues_done⟩

lemma gameProcessAttack_issues (playerDice : ℤ) :
    Issues (WorkerOp.InAttack name) (gameProcessAttack playerDice name) := by
  simp only [gameProcessAttack, perform_bind, issues_call]
  refine ⟨trivial, fun snap => ?_⟩
  split
  · exact issues_done
  · refine ⟨trivial, fun bossRoll => ⟨trivial, fun luckyRoll => ?_⟩⟩
    apply (resolveAttack_issues playerDice (rollOf bossRoll) luckyRoll).bind
    intro result
    exact ⟨trivial, fun _ => issues_done⟩

lemma attackDice_issues (pkt : GamePacket) :
    Issues (WorkerOp.InAttack name) (attackDice pkt) := by
  unfold attackDice
  split_ifs
  · exact ⟨trivial, fun _ => issues_done⟩
  · exact issues_done

lemma handleAttack_issues (pkt : GamePacket) :
    Issues (WorkerOp.InAttack name) (handleAttack pkt name) := by
  apply (attackDice_issues pkt).bind
  intro playerDice
  apply (gameProcessAttack_issues playerDice).bind
  intro outcome
  exact ⟨trivial, fun _ => ⟨trivial, fun _ => issues_done⟩⟩

/-! ## The other handlers -/

lemma luckyEventFlag_issues (snap : GameSharedData) :
    Issues WorkerOp.InHeartbeat (luckyEventFlag snap) := by
  simp only [luckyEventFlag, perform_bind]
  split
  · rw [issues_call]
    refine ⟨trivial, fun now => ?_⟩
    split
    · exact ⟨trivial, fun _ => issues_done⟩
    · exact issues_done
  · exact issues_done

lemma handleHeartbeat_issues : Issues WorkerOp.InHeartbeat handleHeartbeat := by
  simp only [handleHeartbeat, perform_bind]
  refine ⟨trivial, fun now => ⟨trivial, fun snap => ?_⟩⟩
  apply (luckyEventFlag_issues snap).bind
  intro isLucky
  exact ⟨trivial, fun _ => issues_done⟩

lemma cleanupClient_issues (playerId : ℤ) :
    Issues WorkerOp.InCleanup (cleanupClient playerId) := by
  simp only [cleanupClient, perform_bind, issues_call]
  refine ⟨trivial, fun _ => ?_⟩
  split_ifs
  · exact ⟨trivial, fun _ => issues_done⟩
  · exact issues_done

lemma heartbeatExpired_issues (l : ClientLocals) :
    Issues WorkerOp.InLoop (heartbeatExpired l) := by
  unfold heartbeatExpired
  split_ifs
  · exact ⟨trivial, fun _ => issues_done⟩
  · exact issues_done

lemma closeClient_issues_prelude (playerId : ℤ) :
    Issues WorkerOp.InPrelude (closeClient playerId) := by
  have cleanup : Issues WorkerOp.InPrelude (cleanupClient playerId) :=
    (cleanupClient_issues playerId).mono fun _ ho => ho.each trivial trivial
  exact cleanup.bind fun _ => issues_done

lemma handleClient_issues : Issues WorkerOp.InPrelude handleClient := by
  simp only [handleClient, handleJoin, perform_bind, issues_call]
  refine ⟨trivial, fun now => ⟨rfl, fun received => ?_⟩⟩
  cases received with
  | none => exact closeClient_issues_prelude (-1)
  | some pkt =>
      dsimp only
      split_ifs
      · exact closeClient_issues_prelude (-1)
      · exact closeClient_issues_prelude (-1)
      · refine ⟨trivial, fun _ => ⟨trivial, fun playerId => ⟨trivial, fun sent => ?_⟩⟩⟩
        cases sent with
        | false => exact closeClient_issues_prelude playerId
        | true => exact issues_done

/-! ## Receives -/

/-- Is this operation a receive? -/
def WorkerOp.receives : WorkerOp → Bool
  | .recv _ => true
  | _ => false

lemma WorkerOp.InAttack.not_receives {o : WorkerOp} (ho : o.InAttack name) :
    o.receives = false :=
  ho.each rfl (fun _ => rfl) rfl (fun _ _ => rfl) rfl rfl (fun _ _ => rfl) fun _ => rfl

lemma WorkerOp.InHeartbeat.not_receives {o : WorkerOp} (ho : o.InHeartbeat) :
    o.receives = false := ho.each rfl rfl rfl fun _ => rfl

lemma closeClient_not_receives (playerId : ℤ) :
    Issues (fun o => o.receives = false) (closeClient playerId) := by
  have cleanup : Issues (fun o => o.receives = false) (cleanupClient playerId) :=
    (cleanupClient_issues playerId).mono fun _ ho => ho.each rfl rfl
  exact cleanup.bind fun _ => issues_done

lemma handleAttack_not_receives (pkt : GamePacket) (name : Buffer maxPlayerName) :
    Issues (fun o => o.receives = false) (handleAttack pkt name) :=
  (handleAttack_issues pkt).mono fun _ ho => ho.not_receives

lemma handleJoin_not_receives : Issues (fun o => o.receives = false) handleJoin :=
  ⟨rfl, fun _ => ⟨rfl, fun _ => issues_done⟩⟩

lemma handleHeartbeat_not_receives : Issues (fun o => o.receives = false) handleHeartbeat :=
  handleHeartbeat_issues.mono fun _ ho => ho.not_receives

lemma heartbeatExpired_not_receives (l : ClientLocals) :
    Issues (fun o => o.receives = false) (heartbeatExpired l) := by
  unfold heartbeatExpired
  split_ifs
  · exact ⟨rfl, fun _ => issues_done⟩
  · exact issues_done

/-- After a packet has come in, the loop body does not receive another one. -/
lemma handlePacket_not_receives (l : ClientLocals) (pkt : GamePacket) :
    Issues (fun o => o.receives = false) (handlePacket l pkt) := by
  simp only [handlePacket, dispatch, perform_bind, issues_call]
  refine ⟨rfl, fun now => ?_⟩
  split_ifs
  · exact closeClient_not_receives l.playerId
  · exact closeClient_not_receives l.playerId
  · exact closeClient_not_receives l.playerId
  · refine ⟨rfl, fun _ => (handleAttack_not_receives pkt l.username).bind fun sent => ?_⟩
    split_ifs
    · exact issues_done
    · exact closeClient_not_receives l.playerId
  · refine ⟨rfl, fun _ => handleHeartbeat_not_receives.bind fun answer => ?_⟩
    split_ifs
    · exact issues_done
    · exact closeClient_not_receives l.playerId
  · exact ⟨rfl, fun _ => closeClient_not_receives l.playerId⟩
  · exact issues_done

/-! ## The loop -/

/-- What the parts of the loop have to satisfy, so that `I` holds of the local variables and the
history whenever the session is at the head of its loop, `A` of all it does, and `E` when it has
ended.  An attack and a heartbeat start right after the mark of their packet. -/
structure DispatchRule (A : WorkerHistory → WorkerOp → Prop)
    (I : ClientLocals → WorkerHistory → Prop) (E : WorkerHistory → Prop) : Prop where
  allows : ∀ l h o, I l h → o.InLoop → A h o
  keeps : ∀ l h o r, I l h → o.InLoop → I l (⟨o, r⟩ :: h)
  limiter : ∀ l h rl, I l h → I { l with rl } h
  attack : ∀ l h pkt, I l h → pkt.header.opcode = OpCode.attack.code →
    Conforms A (fun h' _ => I l h') (⟨.mark (.dispatched pkt), ()⟩ :: h)
      (handleAttack pkt l.username)
  heartbeat : ∀ l h pkt, I l h → pkt.header.opcode = OpCode.heartbeat.code →
    Conforms A (fun h' r => I { l with lastHeartbeat := r.1 } h')
      (⟨.mark (.dispatched pkt), ()⟩ :: h) handleHeartbeat
  cleanup : ∀ l h, I l h → Conforms A (fun h' _ => E h') h (cleanupClient l.playerId)

/-- The same where the packets do not matter. -/
structure LoopRule (A : WorkerHistory → WorkerOp → Prop) (I : ClientLocals → WorkerHistory → Prop)
    (E : WorkerHistory → Prop) : Prop where
  allows : ∀ l h o, I l h → o.InLoop → A h o
  keeps : ∀ l h o r, I l h → o.InLoop → I l (⟨o, r⟩ :: h)
  limiter : ∀ l h rl, I l h → I { l with rl } h
  attack : ∀ l h pkt, I l h → Conforms A (fun h' _ => I l h') h (handleAttack pkt l.username)
  heartbeat : ∀ l h, I l h →
    Conforms A (fun h' r => I { l with lastHeartbeat := r.1 } h') h handleHeartbeat
  cleanup : ∀ l h, I l h → Conforms A (fun h' _ => E h') h (cleanupClient l.playerId)

/-- `I` at the head of the loop, `E` at the end of the session. -/
def AtHeadOrEnd (I : ClientLocals → WorkerHistory → Prop) (E : WorkerHistory → Prop)
    (h : WorkerHistory) : Option ClientLocals → Prop
  | none => E h
  | some l => I l h

variable {A : WorkerHistory → WorkerOp → Prop} {I : ClientLocals → WorkerHistory → Prop}
  {E : WorkerHistory → Prop} {l : ClientLocals} {h : WorkerHistory}

lemma atHeadOrEnd_of (head : ∀ l, I l h) (ended : E h) (v : Option ClientLocals) :
    AtHeadOrEnd I E h v := by
  cases v with
  | none => exact ended
  | some l => exact head l

lemma LoopRule.dispatchRule (rule : LoopRule A I E) : DispatchRule A I E where
  allows := rule.allows
  keeps := rule.keeps
  limiter := rule.limiter
  attack l h pkt hI _ :=
    rule.attack l _ pkt (rule.keeps l h (.mark (.dispatched pkt)) () hI trivial)
  heartbeat l h pkt hI _ :=
    rule.heartbeat l _ (rule.keeps l h (.mark (.dispatched pkt)) () hI trivial)
  cleanup := rule.cleanup

namespace DispatchRule

lemma close (rule : DispatchRule A I E) (hI : I l h) :
    Conforms A (AtHeadOrEnd I E) h (closeClient l.playerId) :=
  (rule.cleanup l h hI).seq fun _ _ hE => hE

lemma expired (rule : DispatchRule A I E) (hI : I l h) :
    Conforms A (fun h' _ => I l h') h (heartbeatExpired l) :=
  (heartbeatExpired_issues l).conforms (rule.allows l) (rule.keeps l) hI

lemma dispatch (rule : DispatchRule A I E) (hI : I l h) (pkt : GamePacket) :
    Conforms A (AtHeadOrEnd I E) h (dispatch l pkt) := by
  simp only [WorldBossRaid.dispatch, perform_bind]
  split_ifs with attack heartbeat
  · refine ⟨rule.allows l h _ hI trivial, fun _ => (rule.attack l h pkt hI attack).seq ?_⟩
    intro h' sent hI'
    cases sent with
    | false => exact rule.close hI'
    | true => exact hI'
  · refine ⟨rule.allows l h _ hI trivial, fun _ => (rule.heartbeat l h pkt hI heartbeat).seq ?_⟩
    rintro h' ⟨lastHeartbeat, sent⟩ hI'
    cases sent with
    | false => exact rule.close (l := { l with lastHeartbeat }) hI'
    | true => exact hI'
  · refine ⟨rule.allows l h _ hI trivial, fun _ => rule.close ?_⟩
    exact rule.keeps l h (.mark (.dispatched pkt)) () hI trivial
  · exact hI

lemma packet (rule : DispatchRule A I E) (hI : I l h) (pkt : GamePacket) :
    Conforms A (AtHeadOrEnd I E) h (handlePacket l pkt) := by
  simp only [handlePacket, perform_bind, conforms_call]
  refine ⟨rule.allows l h _ hI trivial, fun now => ?_⟩
  have hI' : I l (⟨.time, now⟩ :: h) := rule.keeps l h .time now hI trivial
  split_ifs
  · exact rule.close hI'
  · exact rule.close hI'
  · exact rule.close hI'
  · exact rule.dispatch (rule.limiter l _ _ hI') pkt

/-- **The rule for one turn of the loop.** -/
theorem loop (rule : DispatchRule A I E) (hI : I l h) :
    Conforms A (AtHeadOrEnd I E) h (handleClientLoop l) := by
  apply (rule.expired hI).seq
  intro h₁ expired hI₁
  cases expired with
  | true => exact rule.close hI₁
  | false =>
      refine ⟨rule.allows l h₁ _ hI₁ rfl, fun received => ?_⟩
      have hI₂ : I l (⟨.recv 5, received⟩ :: h₁) := rule.keeps l h₁ (.recv 5) received hI₁ rfl
      cases received with
      | none => exact (rule.expired hI₂).seq fun _ _ hI₃ => rule.close hI₃
      | some pkt => exact rule.packet hI₂ pkt

lemma again (rule : DispatchRule A I E) {v : Option ClientLocals}
    {p : Worker (Option ClientLocals)} (hv : AtHeadOrEnd I E h v)
    (hp : v.map handleClientLoop = some p) : Conforms A (AtHeadOrEnd I E) h p := by
  obtain ⟨l, rfl, rfl⟩ := Option.map_eq_some_iff.1 hp
  exact rule.loop hv

end DispatchRule

end WorldBossRaid
