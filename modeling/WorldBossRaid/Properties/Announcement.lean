import WorldBossRaid.Properties.ClientParity

/-!
# One lucky kill, one god screen

`is_lucky` says in the reply to a heartbeat that a lucky kill is being announced, and in the reply
to an attack that this attack was one.  Both go through one slot, and `ui_game_loop` marks that it
has called `ui_show_god_screen` and takes the mark back when a heartbeat finds the field cleared.

`LuckyPhase` is where a client stands in the announcement of one lucky kill, by the replies it has
received.  In every run in which no heartbeat takes the mark back before the announcement is over,
the screen is called once at most.  The reply to an ordinary attack in the meantime clears the
field and makes it go wrong.
-/

namespace WorldBossRaid

open Interaction Prog

/-! ## The announcement of one lucky kill -/

/-- Where a client stands in the announcement of a lucky kill. -/
inductive LuckyPhase where
  /-- It has not been told. -/
  | before
  | during
  /-- It has been told by a heartbeat that there is nothing to announce any more. -/
  | past
  deriving DecidableEq, Repr

/-- What a step of the network thread means for it. -/
def LuckyPhase.next (x : LuckyPhase) : Answered ClientOp ClientOp.Ret → LuckyPhase
  | ⟨.receiveReply opcode, some s⟩ =>
      if s.isLucky ≠ 0 then .during else if opcode = .heartbeat ∧ x = .during then .past else x
  | _ => x

/-- The phase after a history of the network thread. -/
def luckyPhase : ClientHistory → LuckyPhase
  | [] => .before
  | a :: h => (luckyPhase h).next a

/-- Can the server send this during the life of a single lucky kill?  Heartbeats are answered with
`is_lucky` as long as it is announced, and attacks only if they are the lucky one themselves. -/
def LuckyPhase.accepts (x : LuckyPhase) : Answered ClientOp ClientOp.Ret → Bool
  | ⟨.receiveReply opcode, some s⟩ =>
      s.isLucky = 0 || x = .before || (opcode = .heartbeat && x = .during)
  | _ => true

/-- All replies of a history of the network thread belong to the life of a single lucky kill. -/
def SingleLuckyKill : ClientHistory → Prop
  | [] => True
  | a :: h => (luckyPhase h).accepts a = true ∧ SingleLuckyKill h

instance SingleLuckyKill.decidable : (h : ClientHistory) → Decidable (SingleLuckyKill h)
  | [] => instDecidableTrue
  | _ :: h => @instDecidableAnd _ _ inferInstance (SingleLuckyKill.decidable h)

/-- Does a step take the mark back while the announcement is still on?  It does if the user
interface reads a slot without `is_lucky`. -/
def resetsEarly (u : GodScreen) (x : LuckyPhase) (shared : SharedGameState) : ClientOp → Bool
  | .readState => u.hasShownLuckyKill && shared.latestState.isLucky = 0 && x = .during
  | _ => false

/-- No step does. -/
def KeepsMark : List ClientEvent → Prop
  | [] => True
  | e :: log =>
      resetsEarly (godScreen (own .ui log)) (luckyPhase (own .network log)) e.before e.op = false ∧
        KeepsMark log

instance KeepsMark.decidable : (log : List ClientEvent) → Decidable (KeepsMark log)
  | [] => instDecidableTrue
  | _ :: log => @instDecidableAnd _ _ inferInstance (KeepsMark.decidable log)

/-! ## Replies are published as they come in -/

/-- The reply that has just come in. -/
def lastReply : ClientHistory → Option PayloadGameState
  | ⟨.receiveReply _, some s⟩ :: _ => some s
  | _ => none

/-- What a thread publishes is the reply that has just come in; the UI thread publishes nothing. -/
def PublishesReply : ClientThread → ClientHistory → ClientOp → Prop
  | .network, h, .publishFirst s => lastReply h = some s
  | .network, h, .publishAttack s => lastReply h = some s
  | .network, h, .publishHeartbeat s => lastReply h = some s
  | .network, _, .pollAttack => False
  | .network, _, .readState => False
  | .network, _, _ => True
  | .ui, h, o => ClientThread.ui.Allowed h o

variable {h : ClientHistory}

/-- A reply that an exchange returns has just come in. -/
lemma netGetState_publishes (opcode : OpCode) :
    Conforms (PublishesReply .network) (fun h' reply => reply = lastReply h') h
      (netGetState opcode) := by
  simp only [netGetState, perform_bind, conforms_call]
  refine ⟨trivial, fun sent => ?_⟩
  cases sent with
  | false => exact rfl
  | true =>
      refine ⟨trivial, fun reply => ?_⟩
      cases reply <;> rfl

lemma networkStart_publishes :
    Conforms (PublishesReply .network) ClientThread.network.At h networkStart := by
  simp only [networkStart, perform_bind, conforms_call]
  refine ⟨trivial, fun _ => (netGetState_publishes .heartbeat).seq fun h' reply last => ?_⟩
  cases reply with
  | none => exact trivial
  | some s => exact ⟨last.symm, fun _ => trivial⟩

lemma networkLoop_publishes :
    Conforms (PublishesReply .network) ClientThread.network.At h networkLoop := by
  simp only [networkLoop, perform_bind, conforms_call]
  refine ⟨trivial, fun exit => ?_⟩
  cases exit with
  | true => exact trivial
  | false =>
      refine ⟨trivial, fun hasAttack => ?_⟩
      cases hasAttack with
      | true =>
          refine (netGetState_publishes .attack).seq fun h' reply last => ?_
          cases reply with
          | none => exact ⟨trivial, fun _ => trivial⟩
          | some s => exact ⟨last.symm, fun _ => trivial⟩
      | false =>
          refine (netGetState_publishes .heartbeat).seq fun h' reply last => ?_
          cases reply with
          | none => exact ⟨trivial, fun _ => trivial⟩
          | some s => exact ⟨last.symm, fun _ => ⟨trivial, fun _ => trivial⟩⟩

/-- The network thread publishes what it has just received. -/
theorem client_publishesReply :
    client.Disciplined PublishesReply ClientThread.At clientInit where
  first
    | .ui => uiLoop_conforms []
    | .network => networkStart_publishes
  again i h point p hpoint hp := by
    cases i with
    | ui =>
        have resumed := client_disciplined.again .ui h point p hpoint hp
        exact resumed
    | network =>
        cases point with
        | networkLoop => exact Option.some.inj hp ▸ networkLoop_publishes
        | ended => exact nomatch hp
        | _ => exact hpoint.elim

/-! ## The mark and the announcement -/

variable {ui network : ClientHistory} {shared : SharedGameState}

/-- How the god screen, the announcement and the slot are connected. -/
structure Announced (u : GodScreen) (x : LuckyPhase) (isLucky : UInt8) : Prop where
  told : isLucky ≠ 0 → x ≠ .before
  /-- With the mark, the screen has been called for the announcement. -/
  marked : u.hasShownLuckyKill = true → u.calls = 1 ∧ x ≠ .before
  /-- Without it, it has not been called or never will be again. -/
  unmarked : u.hasShownLuckyKill = false →
    u.calls = 0 ∨ u.calls = 1 ∧ x = .past ∧ isLucky = 0

namespace Announced

variable {u : GodScreen} {x : LuckyPhase} {isLucky : UInt8} {g : UiGameState}

lemma calls_le_one (announced : Announced u x isLucky) : u.calls ≤ 1 := by
  cases mark : u.hasShownLuckyKill with
  | true => exact (announced.marked mark).1.le
  | false =>
      obtain zero | ⟨one, -⟩ := announced.unmarked mark
      · omega
      · exact one.le

lemma afterAttack (announced : Announced u x g.isLucky) :
    Announced (u.afterAttack g) x g.isLucky := by
  unfold GodScreen.afterAttack
  split_ifs with shows
  · obtain ⟨lucky, mark⟩ := shows
    obtain zero | ⟨-, -, none_⟩ := announced.unmarked mark
    · exact ⟨announced.told, fun _ => ⟨by simp [zero], announced.told lucky⟩, nofun⟩
    · exact absurd none_ lucky
  · exact announced

/-- The same on a heartbeat, which takes the mark back when the announcement is over. -/
lemma afterHeartbeat (announced : Announced u x g.isLucky)
    (late : u.hasShownLuckyKill = true → g.isLucky = 0 → x ≠ .during) :
    Announced (u.afterHeartbeat g) x g.isLucky := by
  have taken := announced.afterAttack
  unfold GodScreen.afterHeartbeat
  dsimp only
  split_ifs with resets
  · obtain ⟨none_, mark⟩ := resets
    obtain ⟨one, told⟩ := taken.marked mark
    have same : u.afterAttack g = u := if_neg fun shows => shows.1 none_
    rw [same] at mark
    refine ⟨taken.told, nofun, fun _ => Or.inr ⟨one, ?_, none_⟩⟩
    cases x with
    | before => exact absurd rfl told
    | during => exact absurd rfl (late mark none_)
    | past => rfl
  · exact taken

/-- A reply comes in that belongs to the same lucky kill. -/
lemma reply (announced : Announced u x isLucky) {opcode : OpCode} {s : PayloadGameState}
    (single : x.accepts ⟨.receiveReply opcode, some s⟩ = true) :
    Announced u (x.next ⟨.receiveReply opcode, some s⟩) isLucky := by
  obtain ⟨told, marked, unmarked⟩ := announced
  simp only [LuckyPhase.next]
  split_ifs with lucky ends
  · refine ⟨nofun, fun mark => ⟨(marked mark).1, nofun⟩, fun mark => Or.inl ?_⟩
    obtain zero | ⟨-, rfl, -⟩ := unmarked mark
    · exact zero
    · simp [LuckyPhase.accepts, lucky] at single
  · refine ⟨nofun, fun mark => ⟨(marked mark).1, nofun⟩, fun mark => ?_⟩
    exact (unmarked mark).imp_right fun ⟨one, _, none_⟩ => ⟨one, rfl, none_⟩
  · exact ⟨told, marked, unmarked⟩

lemma publish (announced : Announced u x isLucky) {fresh : UInt8}
    (told : fresh ≠ 0 → x = .during) : Announced u x fresh := by
  refine ⟨fun lucky => by simp [told lucky], announced.marked, fun mark => ?_⟩
  refine (announced.unmarked mark).imp_right fun h => ⟨h.1, h.2.1, ?_⟩
  by_contra lucky
  exact nomatch h.2.1.symm.trans (told lucky)

end Announced

lemma UiGameState.isLucky_ofLoopHeartbeat (s : PayloadGameState) (g : UiGameState) :
    (g.ofLoopHeartbeat s).isLucky = s.isLucky := by
  unfold UiGameState.ofLoopHeartbeat
  dsimp only
  split_ifs <;> rfl

/-- A reply with `is_lucky` that has just come in is one of the announcement. -/
lemma luckyPhase_of_lastReply {s : PayloadGameState} (last : lastReply h = some s)
    (lucky : s.isLucky ≠ 0) : luckyPhase h = .during := by
  unfold lastReply at last
  split at last
  · obtain rfl := Option.some.inj last
    exact if_pos lucky
  · exact nomatch last

lemma announced_ui {x : LuckyPhase} {ui : ClientHistory} {shared : SharedGameState}
    (announced : Announced (godScreen ui) x shared.latestState.isLucky) (e : ClientEnv)
    {o : ClientOp} (allowed : ClientThread.ui.Allowed ui o)
    (late : resetsEarly (godScreen ui) x shared o = false) :
    Announced (godScreen (⟨o, (o.exec e shared).1⟩ :: ui)) x
      (o.exec e shared).2.latestState.isLucky := by
  rw [latestState_of_ui allowed]
  cases o with
  | readState =>
      refine announced.afterHeartbeat fun mark none_ during => ?_
      simp [resetsEarly, mark, none_, during] at late
  | pollAttack =>
      change Announced (godScreen (⟨.pollAttack, shared.poll.1⟩ :: ui)) x _
      cases polled : shared.poll.1 with
      | copied g =>
          obtain ⟨-, -, rfl⟩ := poll_eq_copied polled
          exact announced.afterAttack
      | _ => exact announced
  | nextAction => exact announced
  | requestAttack => exact announced
  | wakeUp => exact announced
  | announceExit => exact announced
  | _ => exact allowed.elim

lemma announced_network {u : GodScreen} {network : ClientHistory} {shared : SharedGameState}
    (announced : Announced u (luckyPhase network) shared.latestState.isLucky) (e : ClientEnv)
    {o : ClientOp} (allowed : PublishesReply .network network o)
    (single : (luckyPhase network).accepts ⟨o, (o.exec e shared).1⟩ = true) :
    Announced u (luckyPhase (⟨o, (o.exec e shared).1⟩ :: network))
      (o.exec e shared).2.latestState.isLucky := by
  cases o with
  | receiveReply opcode =>
      change Announced u (luckyPhase (⟨.receiveReply opcode, e.reply⟩ :: network)) _
      change (luckyPhase network).accepts ⟨.receiveReply opcode, e.reply⟩ = true at single
      cases replied : e.reply with
      | none => exact announced
      | some s => exact announced.reply (replied ▸ single)
  | publishFirst s => exact announced.publish (luckyPhase_of_lastReply allowed)
  | publishAttack s => exact announced.publish (luckyPhase_of_lastReply allowed)
  | publishHeartbeat s =>
      change Announced u (luckyPhase network) (shared.latestState.ofLoopHeartbeat s).isLucky
      rw [UiGameState.isLucky_ofLoopHeartbeat]
      exact announced.publish (luckyPhase_of_lastReply allowed)
  | takeRequest => exact announced
  | pollAttack => exact allowed.elim
  | readState => exact allowed.elim
  | _ => exact announced

variable {log : List ClientEvent}
  {c : Config ClientThread ClientOp ClientOp.Ret ClientPoint SharedGameState}

lemma run_announced (run : client.Run clientInit log c)
    (single : SingleLuckyKill (own .network log)) (kept : KeepsMark log) :
    Announced (godScreen (own .ui log)) (luckyPhase (own .network log))
      c.shared.latestState.isLucky := by
  refine run.invariant client_publishesReply
    (fun log shared => SingleLuckyKill (own .network log) → KeepsMark log →
      Announced (godScreen (own .ui log)) (luckyPhase (own .network log))
        shared.latestState.isLucky)
    (fun _ _ => ⟨fun lucky => absurd rfl lucky, nofun, fun _ => Or.inl rfl⟩)
    (fun log shared i e o ih allowed single kept => ?_) single kept
  cases i with
  | ui =>
      rw [client.own_event_of_ne (by decide)] at single
      rw [client.own_event_self, client.own_event_of_ne (by decide)]
      exact announced_ui (ih single kept.2) e allowed kept.1
  | network =>
      rw [client.own_event_self] at single
      rw [client.own_event_self, client.own_event_of_ne (by decide)]
      exact announced_network (ih single.2 kept.2) e allowed single.1

/-- **One announcement, one screen**: in every run of the threaded client in which the replies
belong to the life of a single lucky kill, and no heartbeat takes the mark back while it is being
announced, `ui_show_god_screen` is called at most once. -/
theorem godScreen_once (run : client.Run clientInit log c)
    (single : SingleLuckyKill (own .network log)) (kept : KeepsMark log) :
    (godScreen (own .ui log)).calls ≤ 1 :=
  (run_announced run single kept).calls_le_one

/-! ## A screen that comes twice -/

/-- The reply to the attack that is the lucky kill. -/
def luckyReply : PayloadGameState :=
  { AttackResult.zero with
    bossDice := 1
    isWin := true
    isCrit := true
    bossJustDied := true
    isLuckyKill := true
    dmgDealt := instantKillDamage }.reply (.ofSnapshot luckyKilled)

/-- The reply to a lost attack on the second boss, right after it. -/
def lostReply : PayloadGameState :=
  { AttackResult.zero with bossDice := 4, dmgTaken := 14 }.reply (.ofSnapshot luckyKilled)

/-- The client attacks once, and is answered by `reply`. -/
def attacksOnce (reply : PayloadGameState) : List (ClientThread × ClientEnv) :=
  callBegins ++ networkServes reply ++ List.replicate 2 (uiTurn .attack false)

/-- A heartbeat is answered by `reply`. -/
def heartbeatServed (reply : PayloadGameState) : List (ClientThread × ClientEnv) :=
  List.replicate 7 (networkTurn reply)

/-- The user interface looks at the slot. -/
def uiHeartbeat : List (ClientThread × ClientEnv) := List.replicate 3 (uiTurn .heartbeat false)

/-- The client has a lucky kill, sees it announced, and later not any more. -/
def luckyOnce : List (ClientThread × ClientEnv) :=
  List.replicate 5 (networkTurn (.ofSnapshot (gamestatePlayerJoin gamestateInit).2)) ++
    attacksOnce luckyReply ++ heartbeatServed luckyHeartbeat ++ uiHeartbeat ++
    heartbeatServed (.ofSnapshot luckyKilled) ++ uiHeartbeat

/-- The client has a lucky kill, attacks again, looks at the slot, and once more after a
heartbeat. -/
def luckyThenLost : List (ClientThread × ClientEnv) :=
  List.replicate 5 (networkTurn (.ofSnapshot (gamestatePlayerJoin gamestateInit).2)) ++
    attacksOnce luckyReply ++ attacksOnce lostReply ++ uiHeartbeat ++
    heartbeatServed luckyHeartbeat ++ uiHeartbeat

theorem godScreen_once_luckyOnce :
    (godScreen (own .ui (client.play clientInit luckyOnce).1)).calls = 1 ∧
      (godScreen (own .ui (client.play clientInit luckyOnce).1)).calls ≤ 1 :=
  ⟨by decide +kernel,
    godScreen_once (Machine.run_play clientInit luckyOnce) (by decide +kernel)
      (by decide +kernel)⟩

/-- The second attack's reply makes the heartbeat after it take the mark back, and the next
heartbeat calls the screen again. -/
theorem godScreen_twice :
    ∃ log c, client.Run clientInit log c ∧ SingleLuckyKill (own .network log) ∧
      ¬(godScreen (own .ui log)).calls ≤ 1 :=
  ⟨_, _, Machine.run_play clientInit luckyThenLost, by decide +kernel, by decide +kernel⟩

end WorldBossRaid
