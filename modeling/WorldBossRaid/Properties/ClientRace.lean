import WorldBossRaid.Model.Client

/-!
# What an attack hands to the user interface

A call of `attack_cb_impl` that returns 0 hands over a copy of `latest_state`.  The slot is shared:
the network thread writes the replies to heartbeats into it as well, and it does not know which
call an attack was requested by.

`exchange` follows the request of the latest call through a log, up to the reply to the `OP_ATTACK`
sent for it, and `HandsOverOwnReply` says that every successful call copies the figures of that
reply.  It holds in the runs that are `Calm`: nothing else is published while a call waits.  Other
runs go wrong in two ways, by a heartbeat in between and by the reply to an earlier call.
-/

namespace WorldBossRaid

open Interaction Prog

/-! ## The figures of a battle -/

/-- The fields of a reply that belong to one's own attack. -/
structure BattleFigures where
  isCrit : UInt8
  isLucky : UInt8
  lastPlayerDamage : ℤ
  lastBossDice : ℤ
  lastPlayerStreak : ℤ
  dmgTaken : ℤ
  deriving DecidableEq

/-- As the server sends them. -/
def PayloadGameState.battle (s : PayloadGameState) : BattleFigures :=
  ⟨s.isCrit, s.isLucky, s.lastPlayerDamage, s.lastBossDice, s.lastPlayerStreak, s.dmgTaken⟩

/-- As the user interface sees them. -/
def UiGameState.battle (g : UiGameState) : BattleFigures :=
  ⟨g.isCrit, g.isLucky, g.lastPlayerDamage, g.lastBossDice, g.lastPlayerStreak, g.dmgTaken⟩

lemma UiGameState.battle_ofAttack (s : PayloadGameState) (g : UiGameState) :
    (g.ofAttack s).battle = s.battle := rfl

/-- A heartbeat reply that finds the figures as it would leave them: the same `is_lucky`, and
nothing to clear unless it is set. -/
def PayloadGameState.Keeps (s : PayloadGameState) (g : UiGameState) : Prop :=
  s.isLucky = g.isLucky ∧ (s.isLucky = 0 → g.battle = ⟨0, 0, 0, 0, 0, 0⟩)

instance (s : PayloadGameState) (g : UiGameState) : Decidable (s.Keeps g) :=
  inferInstanceAs (Decidable (_ ∧ _))

lemma UiGameState.battle_ofLoopHeartbeat {s : PayloadGameState} {g : UiGameState} :
    (g.ofLoopHeartbeat s).battle = g.battle ↔ s.Keeps g := by
  by_cases hlucky : s.isLucky = 0
  · simp [UiGameState.ofLoopHeartbeat, UiGameState.copyWorld, UiGameState.clearBattle,
      UiGameState.battle, PayloadGameState.Keeps, hlucky]
    grind
  · simp [UiGameState.ofLoopHeartbeat, UiGameState.copyWorld, UiGameState.battle,
      PayloadGameState.Keeps, hlucky]

/-! ## Calls and their replies -/

/-- Is a call of `attack_cb_impl` in progress, after this history of the UI thread? -/
def calling : ClientHistory → Bool
  | [] => false
  | ⟨.requestAttack, _⟩ :: _ => true
  | ⟨.pollAttack, .waiting⟩ :: h => calling h
  | ⟨.pollAttack, _⟩ :: _ => false
  | ⟨.wakeUp, timedOut⟩ :: h => !timedOut && calling h
  | _ :: h => calling h

/-- How far the request of a call has come. -/
inductive Exchange where
  /-- There is none. -/
  | idle
  | requested
  /-- The network thread has taken it and sends an `OP_ATTACK` for it. -/
  | taken
  | replied (s : PayloadGameState)
  deriving DecidableEq

/-- What a step means for the request of the latest call. -/
def Exchange.next (x : Exchange) : Answered ClientOp ClientOp.Ret → Exchange
  | ⟨.requestAttack, _⟩ => .requested
  | ⟨.takeRequest, true⟩ => .taken
  | ⟨.receiveReply .attack, some s⟩ => if x = .taken then .replied s else x
  | _ => x

/-- A step of the client. -/
abbrev ClientEvent : Type := Event ClientThread ClientOp ClientOp.Ret SharedGameState ClientEnv

/-- The request of the latest call, after a log. -/
def exchange : List ClientEvent → Exchange
  | [] => .idle
  | e :: log => (exchange log).next e.answered

/-- Every call that returns 0 hands over the figures of the reply to its own attack. -/
def HandsOverOwnReply (log : List ClientEvent) : Prop :=
  ∀ later e earlier g, log = later ++ e :: earlier → e.answered = ⟨.pollAttack, .copied g⟩ →
    ∃ s, exchange earlier = .replied s ∧ g.battle = s.battle

/-- Does a step stay clear of the call in progress?  The reply to an attack must not be published
before the call's request has been taken, and a heartbeat reply that is published over the reply
to an attack must keep its figures. -/
def staysClear (x : Exchange) (shared : SharedGameState) : ClientOp → Bool
  | .publishAttack _ => x ≠ .requested
  | .publishHeartbeat s => !shared.attackCompleted || s.Keeps shared.latestState
  | _ => true

/-- While a call is in progress, every step stays clear of it.  After an error no call returns 0,
so nothing is asked then. -/
def Calm : List ClientEvent → Prop
  | [] => True
  | e :: log =>
      (calling (own .ui log) = true → e.before.networkError = 0 →
        staysClear (exchange log) e.before e.op = true) ∧ Calm log

instance Calm.decidable : (log : List ClientEvent) → Decidable (Calm log)
  | [] => instDecidableTrue
  | _ :: log => @instDecidableAnd _ _ inferInstance (Calm.decidable log)

lemma Calm.earlier {log log' : List ClientEvent} (calm : Calm (log' ++ log)) : Calm log := by
  induction log' with
  | nil => exact calm
  | cons e log' ih => exact ih calm.2

/-! ## The two threads by themselves -/

/-- Has the network thread come to its loop? -/
def started (h : ClientHistory) : Bool := h.any fun a => a.1 = .readExit

/-- The attack that the network thread is busy with. -/
def underway : ClientHistory → Exchange
  | ⟨.takeRequest, true⟩ :: _ => .taken
  | ⟨.sendRequest .attack, _⟩ :: _ => .taken
  | ⟨.receiveReply .attack, some s⟩ :: _ => .replied s
  | _ => .idle

/-- The order in which each thread takes its steps. -/
def ClientThread.Allowed : ClientThread → ClientHistory → ClientOp → Prop
  | .ui, h, .pollAttack => calling h = true
  | .ui, _, .nextAction => True
  | .ui, _, .requestAttack => True
  | .ui, _, .wakeUp => True
  | .ui, _, .readState => True
  | .ui, _, .announceExit => True
  | .ui, _, _ => False
  | .network, h, .clearError => started h = false
  | .network, h, .publishFirst _ => started h = false
  | .network, h, .sendRequest .attack => underway h = .taken
  | .network, h, .receiveReply .attack => underway h = .taken
  | .network, h, .publishAttack s => underway h = .replied s ∧ started h = true
  | .network, h, .failAttack => started h = true
  | .network, h, .failHeartbeat => started h = true
  | .network, _, .readExit => True
  | .network, _, .takeRequest => True
  | .network, _, .sendRequest _ => True
  | .network, _, .receiveReply _ => True
  | .network, _, .publishHeartbeat _ => True
  | .network, _, .sleep => True
  | .network, _, _ => False

/-- Where each thread can stand. -/
def ClientThread.At : ClientThread → ClientHistory → ClientPoint → Prop
  | .ui, _, .uiLoop => True
  | .ui, h, .attackWait => calling h = true
  | .network, _, .networkLoop => True
  | _, _, .ended => True
  | _, _, _ => False

lemma uiLoop_conforms (h : ClientHistory) :
    Conforms ClientThread.ui.Allowed ClientThread.ui.At h uiLoop := by
  simp only [uiLoop, perform_bind, conforms_call]
  refine ⟨trivial, ?_⟩
  intro action
  cases action with
  | attack => exact ⟨trivial, fun _ => rfl⟩
  | heartbeat => exact ⟨trivial, fun _ => trivial⟩
  | quit => exact ⟨trivial, fun _ => trivial⟩

lemma attackWait_conforms {h : ClientHistory} (hcalling : calling h = true) :
    Conforms ClientThread.ui.Allowed ClientThread.ui.At h attackWait := by
  simp only [attackWait, perform_bind, conforms_call]
  refine ⟨hcalling, ?_⟩
  intro polled
  cases polled with
  | waiting =>
      refine ⟨trivial, ?_⟩
      intro timedOut
      cases timedOut with
      | true => exact trivial
      | false => exact hcalling
  | failed => exact trivial
  | copied g => exact trivial

lemma networkStart_conforms :
    Conforms ClientThread.network.Allowed ClientThread.network.At [] networkStart := by
  simp only [networkStart, netGetState, perform_bind, conforms_call, call_bind]
  refine ⟨rfl, fun _ => ⟨trivial, ?_⟩⟩
  intro sent
  cases sent with
  | false => exact trivial
  | true =>
      refine ⟨trivial, ?_⟩
      intro reply
      cases reply with
      | none => exact trivial
      | some s => exact ⟨rfl, fun _ => trivial⟩

lemma networkAttack_conforms {h : ClientHistory} (hstarted : started h = true)
    (htaken : underway h = .taken) :
    Conforms ClientThread.network.Allowed ClientThread.network.At h networkAttack := by
  simp only [networkAttack, netGetState, perform_bind, conforms_call, call_bind]
  refine ⟨htaken, ?_⟩
  intro sent
  cases sent with
  | false => exact ⟨hstarted, fun _ => trivial⟩
  | true =>
      refine ⟨rfl, ?_⟩
      intro reply
      cases reply with
      | none => exact ⟨hstarted, fun _ => trivial⟩
      | some s => exact ⟨⟨rfl, hstarted⟩, fun _ => trivial⟩

lemma networkHeartbeat_conforms {h : ClientHistory} (hstarted : started h = true) :
    Conforms ClientThread.network.Allowed ClientThread.network.At h networkHeartbeat := by
  simp only [networkHeartbeat, netGetState, perform_bind, conforms_call, call_bind]
  refine ⟨trivial, ?_⟩
  intro sent
  cases sent with
  | false => exact ⟨hstarted, fun _ => trivial⟩
  | true =>
      refine ⟨trivial, ?_⟩
      intro reply
      cases reply with
      | none => exact ⟨hstarted, fun _ => trivial⟩
      | some s => exact ⟨trivial, fun _ => ⟨trivial, fun _ => trivial⟩⟩

lemma networkLoop_conforms (h : ClientHistory) :
    Conforms ClientThread.network.Allowed ClientThread.network.At h networkLoop := by
  simp only [networkLoop, perform_bind, conforms_call]
  refine ⟨trivial, ?_⟩
  intro exit
  cases exit with
  | true => exact trivial
  | false =>
      refine ⟨trivial, ?_⟩
      intro hasAttack
      cases hasAttack with
      | true => exact networkAttack_conforms rfl rfl
      | false => exact networkHeartbeat_conforms rfl

/-- Both threads keep to their order. -/
theorem client_disciplined :
    client.Disciplined ClientThread.Allowed ClientThread.At clientInit where
  first
    | .ui => uiLoop_conforms []
    | .network => networkStart_conforms
  again i h point p hpoint hp := by
    cases i with
    | ui =>
        cases point with
        | uiLoop => exact Option.some.inj hp ▸ uiLoop_conforms h
        | attackWait => exact Option.some.inj hp ▸ attackWait_conforms hpoint
        | networkLoop => exact hpoint.elim
        | ended => cases hp
    | network =>
        cases point with
        | uiLoop => exact hpoint.elim
        | attackWait => exact hpoint.elim
        | networkLoop => exact Option.some.inj hp ▸ networkLoop_conforms h
        | ended => cases hp

/-! ## Both threads together -/

/-- How the slot, the request of the latest call and the histories of the two threads are
connected. -/
structure InStep (ui network : ClientHistory) (x : Exchange) (shared : SharedGameState) : Prop where
  /-- Nothing is completed and nothing has failed before the network thread's loop. -/
  idle : started network = false → shared.attackCompleted = false ∧ shared.networkError = 0
  /-- Only the latest request can be waiting. -/
  pending : shared.attackRequested = true → x = .requested
  /-- The network thread serves the latest request, unless there is a newer one. -/
  serves : underway network = .idle ∨ x = .requested ∨ x = underway network
  /-- What a call would now return. -/
  latest : calling ui = true → shared.attackCompleted = true → shared.networkError = 0 →
    ∃ s, x = .replied s ∧ shared.latestState.battle = s.battle

variable {ui network : ClientHistory} {x : Exchange} {shared : SharedGameState}

lemma InStep.init : InStep [] [] .idle SharedGameState.init where
  idle _ := ⟨rfl, rfl⟩
  pending h := nomatch h
  serves := Or.inl rfl
  latest h := nomatch h

lemma poll_keeps (shared : SharedGameState) :
    ∃ stateUpdated, shared.poll.2 = { shared with stateUpdated } := by
  unfold SharedGameState.poll
  split_ifs <;> exact ⟨_, rfl⟩

/-- When the test lets a call return 0. -/
lemma poll_eq_copied {g : UiGameState} (h : shared.poll.1 = .copied g) :
    shared.attackCompleted = true ∧ shared.networkError = 0 ∧ g = shared.latestState := by
  unfold SharedGameState.poll at h
  split_ifs at h with hwait hfail
  obtain ⟨herror, hexit⟩ := not_or.1 hfail
  refine ⟨?_, not_not.1 herror, (PollRet.copied.inj h).symm⟩
  simpa [Bool.eq_false_iff.2 hexit] using hwait

lemma InStep.ui_step (coupled : InStep ui network x shared) (e : ClientEnv) {o : ClientOp}
    (allowed : ClientThread.ui.Allowed ui o) :
    InStep (⟨o, (o.exec e shared).1⟩ :: ui) network (x.next ⟨o, (o.exec e shared).1⟩)
      (o.exec e shared).2 := by
  obtain ⟨idle, pending, serves, latest⟩ := coupled
  cases o with
  | requestAttack =>
      exact ⟨fun h => ⟨rfl, (idle h).2⟩, fun _ => rfl, Or.inr (Or.inl rfl), fun _ h => nomatch h⟩
  | pollAttack =>
      obtain ⟨stateUpdated, hpoll⟩ := poll_keeps shared
      change InStep (⟨.pollAttack, shared.poll.1⟩ :: ui) network x shared.poll.2
      rw [hpoll]
      exact ⟨idle, pending, serves, fun _ => latest allowed⟩
  | wakeUp => exact ⟨idle, pending, serves, fun h => latest (Bool.and_eq_true_iff.1 h).2⟩
  | nextAction => exact ⟨idle, pending, serves, latest⟩
  | readState => exact ⟨idle, pending, serves, latest⟩
  | announceExit => exact ⟨idle, pending, serves, latest⟩
  | _ => exact allowed.elim

/-- The network thread takes a request, if there is one. -/
lemma InStep.take_step (coupled : InStep ui network x shared) :
    InStep ui (⟨.takeRequest, shared.attackRequested⟩ :: network)
      (x.next ⟨.takeRequest, shared.attackRequested⟩) { shared with attackRequested := false } := by
  obtain ⟨idle, pending, serves, latest⟩ := coupled
  cases htake : shared.attackRequested with
  | false => exact ⟨idle, fun h => (nomatch h), Or.inl rfl, latest⟩
  | true =>
      refine ⟨idle, fun h => (nomatch h), Or.inr (Or.inr rfl), ?_⟩
      intro h hcompleted herror
      obtain ⟨s, hs, -⟩ := latest h hcompleted herror
      exact nomatch (pending htake).symm.trans hs

/-- The reply to the attack under way comes in, or the receive fails. -/
lemma InStep.reply_step (coupled : InStep ui network x shared) (htaken : underway network = .taken)
    (reply : Option PayloadGameState) :
    InStep ui (⟨.receiveReply .attack, reply⟩ :: network) (x.next ⟨.receiveReply .attack, reply⟩)
      shared := by
  obtain ⟨idle, pending, serves, latest⟩ := coupled
  rw [htaken] at serves
  have hx := serves.resolve_left nofun
  cases reply with
  | none => exact ⟨idle, pending, Or.inl rfl, latest⟩
  | some s =>
      rcases hx with rfl | rfl
      · exact ⟨idle, pending, Or.inr (Or.inl rfl), latest⟩
      · refine ⟨idle, fun h => (nomatch pending h), Or.inr (Or.inr rfl), ?_⟩
        intro h hcompleted herror
        obtain ⟨r, hr, -⟩ := latest h hcompleted herror
        exact nomatch hr

lemma InStep.network_step (coupled : InStep ui network x shared) (e : ClientEnv) {o : ClientOp}
    (allowed : ClientThread.network.Allowed network o)
    (clear : calling ui = true → shared.networkError = 0 → staysClear x shared o = true) :
    InStep ui (⟨o, (o.exec e shared).1⟩ :: network) (x.next ⟨o, (o.exec e shared).1⟩)
      (o.exec e shared).2 := by
  have ⟨idle, pending, serves, latest⟩ := coupled
  cases o with
  | clearError =>
      obtain ⟨hcompleted, herror⟩ := idle allowed
      exact ⟨fun _ => ⟨hcompleted, rfl⟩, pending, Or.inl rfl, fun h hc _ => latest h hc herror⟩
  | readExit => exact ⟨fun h => (nomatch h), pending, Or.inl rfl, latest⟩
  | takeRequest => exact coupled.take_step
  | sendRequest opcode =>
      cases opcode with
      | attack =>
          rw [allowed] at serves
          exact ⟨idle, pending, serves, latest⟩
      | _ => exact ⟨idle, pending, Or.inl rfl, latest⟩
  | receiveReply opcode =>
      cases opcode with
      | attack => exact coupled.reply_step allowed e.reply
      | _ => exact ⟨idle, pending, Or.inl rfl, latest⟩
  | publishFirst s =>
      obtain ⟨hcompleted, herror⟩ := idle allowed
      refine ⟨fun _ => ⟨hcompleted, herror⟩, pending, Or.inl rfl, ?_⟩
      intro _ h
      exact nomatch hcompleted.symm.trans h
  | publishAttack s =>
      obtain ⟨hreplied, hstarted⟩ := allowed
      rw [hreplied] at serves
      refine ⟨fun h => (nomatch hstarted.symm.trans h), pending, Or.inl rfl, ?_⟩
      intro h _ herror
      have hown := (serves.resolve_left nofun).resolve_left (of_decide_eq_true (clear h herror))
      exact ⟨s, hown, UiGameState.battle_ofAttack s shared.latestState⟩
  | publishHeartbeat s =>
      refine ⟨idle, pending, Or.inl rfl, ?_⟩
      intro h hcompleted herror
      obtain ⟨r, hr, hbattle⟩ := latest h hcompleted herror
      have hkeeps : s.Keeps shared.latestState := by
        simpa [staysClear, show shared.attackCompleted = true from hcompleted] using clear h herror
      exact ⟨r, hr, (UiGameState.battle_ofLoopHeartbeat.2 hkeeps).trans hbattle⟩
  | failAttack =>
      exact ⟨fun h => (nomatch allowed.symm.trans h), pending, Or.inl rfl, fun _ _ h => nomatch h⟩
  | failHeartbeat =>
      exact ⟨fun h => (nomatch allowed.symm.trans h), pending, Or.inl rfl, fun _ _ h => nomatch h⟩
  | sleep => exact ⟨idle, pending, Or.inl rfl, latest⟩
  | _ => exact allowed.elim

variable {log : List ClientEvent}
  {c : Config ClientThread ClientOp ClientOp.Ret ClientPoint SharedGameState}

/-- The coupling in every calm run. -/
theorem run_inStep (run : client.Run clientInit log c) (calm : Calm log) :
    InStep (own .ui log) (own .network log) (exchange log) c.shared := by
  refine run.invariant client_disciplined
    (fun log s => Calm log → InStep (own .ui log) (own .network log) (exchange log) s)
    (fun _ => InStep.init) (fun log s i e o ih allowed calm => ?_) calm
  cases i with
  | ui =>
      rw [client.own_event_self, client.own_event_of_ne (by decide)]
      exact (ih calm.2).ui_step e allowed
  | network =>
      rw [client.own_event_self, client.own_event_of_ne (by decide)]
      exact (ih calm.2).network_step e allowed calm.1

/-- **What an attack hands to the user interface**: in a run in which every step stays clear of
the call in progress, every successful call copies the figures of the reply to its own attack. -/
theorem handsOverOwnReply_of_calm (run : client.Run clientInit log c) (calm : Calm log) :
    HandsOverOwnReply log := by
  intro later e earlier g hlog hcopied
  subst hlog
  obtain ⟨c', k, run', -, hevent⟩ := run.at_event
  have allowed := run.allowed client_disciplined
  have coupled := run_inStep run' calm.earlier.2
  obtain ⟨i, env, o, ret, before, after⟩ := e
  obtain ⟨rfl, hret⟩ := Sigma.mk.inj hcopied
  obtain rfl := eq_of_heq hret
  cases i with
  | network => exact allowed.elim
  | ui =>
      have hpoll : PollRet.copied g = c'.shared.poll.1 :=
        eq_of_heq (Sigma.mk.inj (congrArg Event.answered hevent)).2
      obtain ⟨hcompleted, herror, rfl⟩ := poll_eq_copied hpoll.symm
      exact coupled.latest allowed hcompleted herror

/-! ## Calls that go wrong -/

/-- A step of the UI thread, with the player's choice. -/
def uiTurn (action : UiAction) (timedOut : Bool) : ClientThread × ClientEnv :=
  (.ui, ⟨action, timedOut, true, none⟩)

/-- A step of the network thread, with the server's reply. -/
def networkTurn (reply : PayloadGameState) : ClientThread × ClientEnv :=
  (.network, ⟨.heartbeat, false, true, some reply⟩)

/-- The reply to an attack that dealt `damage`. -/
def attackReply (damage : ℤ) : PayloadGameState :=
  { PayloadGameState.zero with bossHp := 100, maxHp := 100, lastPlayerDamage := damage }

/-- The network thread's first heartbeat, up to its loop. -/
def networkStarts : List (ClientThread × ClientEnv) :=
  List.replicate 5 (networkTurn (attackReply 0))

/-- The UI thread enters `attack_cb_impl`. -/
def callBegins : List (ClientThread × ClientEnv) := List.replicate 3 (uiTurn .attack false)

/-- The network thread serves a request and is answered by `reply`. -/
def networkServes (reply : PayloadGameState) : List (ClientThread × ClientEnv) :=
  List.replicate 6 (networkTurn reply)

/-- A call that hands over the reply to its attack. -/
def plainCall : List (ClientThread × ClientEnv) :=
  networkStarts ++ callBegins ++ networkServes (attackReply 6) ++ [uiTurn .attack false]

/-- The reply to a heartbeat is published before the call's copy. -/
def heartbeatIntervenes : List (ClientThread × ClientEnv) :=
  networkStarts ++ callBegins ++ networkServes (attackReply 6) ++
    networkServes (attackReply 0) ++ [uiTurn .attack false]

/-- The reply to the first attack is late: its call has timed out, and the next one copies it. -/
def replyLate : List (ClientThread × ClientEnv) :=
  networkStarts ++ callBegins ++ List.replicate 3 (networkTurn (attackReply 6)) ++
    List.replicate 3 (uiTurn .attack true) ++ callBegins ++
    List.replicate 2 (networkTurn (attackReply 6)) ++ [uiTurn .attack false]

/-- The figures that the last step, a test of the waiting condition, hands over. -/
def handedOver : List ClientEvent → Option BattleFigures
  | ⟨_, _, .pollAttack, .copied g, _, _⟩ :: _ => some g.battle
  | _ => none

theorem handsOverOwnReply_plainCall :
    handedOver (client.play clientInit plainCall).1 = some ⟨0, 0, 6, 0, 0, 0⟩ ∧
      HandsOverOwnReply (client.play clientInit plainCall).1 :=
  ⟨by decide +kernel,
    handsOverOwnReply_of_calm (Machine.run_play clientInit plainCall) (by decide +kernel)⟩

/-- The figures in the reply to the latest call's own attack. -/
def Exchange.battle : Exchange → Option BattleFigures
  | .replied s => some s.battle
  | _ => none

lemma HandsOverOwnReply.last (own : HandsOverOwnReply log) {b : BattleFigures}
    (h : handedOver log = some b) : (exchange log.tail).battle = some b := by
  unfold handedOver at h
  split at h
  · obtain ⟨s, hs, hbattle⟩ := own [] _ _ _ rfl rfl
    rw [List.tail_cons, hs, Exchange.battle, ← hbattle, ← h]
  · cases h

/-- The first run hands over what a heartbeat reply has left, although the reply to the call's own
attack reports 6 points of damage; the second one hands over the 6 points of an earlier attack,
before the call's own attack has been sent. -/
theorem foreign_reply :
    ¬HandsOverOwnReply (client.play clientInit heartbeatIntervenes).1 ∧
      ¬HandsOverOwnReply (client.play clientInit replyLate).1 := by
  constructor
  · intro own
    have hlast := own.last
      (show handedOver (client.play clientInit heartbeatIntervenes).1 = some ⟨0, 0, 0, 0, 0, 0⟩ by
        decide +kernel)
    revert hlast
    decide +kernel
  · intro own
    have hlast := own.last
      (show handedOver (client.play clientInit replyLate).1 = some ⟨0, 0, 6, 0, 0, 0⟩ by
        decide +kernel)
    revert hlast
    decide +kernel

end WorldBossRaid
