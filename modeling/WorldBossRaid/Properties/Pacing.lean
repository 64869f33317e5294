import WorldBossRaid.Model.PacedClient
import WorldBossRaid.Properties.ClientRace

/-!
# The client stays within the server's limit

The limiter counts the requests of one second of the clock, and lets five pass.  The client makes
three kinds of them: one heartbeat at the start, the heartbeats of the network thread's loop, after
each of which it sleeps for half a second, and attacks, each requested half a second after the reply
to the last one.  Of the second and the third kind no more than two fall into one second, so
`pacedClient_accepted`: the server lets every request pass.

That attacks keep their distance is a matter of both threads: while the network thread is busy with
an attack, or has not taken it yet, the UI thread waits in its callback and requests no other.
-/

namespace WorldBossRaid

open Interaction Prog

/-! ## The two threads by themselves -/

/-- Has the first heartbeat been answered? -/
def greeted (h : ClientHistory) : Bool := h.any fun a => a.1 = .receiveReply .heartbeat

/-- Has the reply to a heartbeat of the loop come in, and the thread not slept since? -/
def resting : ClientHistory → Bool
  | ⟨.receiveReply .heartbeat, _⟩ :: h => greeted h
  | ⟨.publishHeartbeat _, _⟩ :: _ => true
  | _ => false

/-- Has a request not been answered? -/
def lost : ClientHistory → Bool
  | [] => false
  | ⟨.sendRequest _, sent⟩ :: h => !sent || lost h
  | ⟨.receiveReply _, reply⟩ :: h => reply.isNone || lost h
  | _ :: h => lost h

/-- Has the UI thread told the other one to stop? -/
def announced (h : ClientHistory) : Bool := h.any fun a => a.1 = .announceExit

/-- The UI thread requests an attack only when no call is in progress, and does nothing after it has
told the other thread to stop. -/
def UiTurn (h : ClientHistory) (o : ClientOp) : Prop :=
  announced h = false ∧
    match o with
    | .requestAttack => calling h = false
    | .nextAction => True
    | .pollAttack => True
    | .wakeUp => True
    | .readState => True
    | .announceExit => True
    | _ => False

/-- The network thread sleeps after each heartbeat of its loop, and sends an attack only for a
request it has taken. -/
def NetworkTurn (h : ClientHistory) : ClientOp → Prop
  | .clearError => resting h = false
  | .readExit => resting h = false
  | .takeRequest => resting h = false
  | .sendRequest .heartbeat => resting h = false
  | .sendRequest .attack => resting h = false ∧ underway h = .taken
  | .receiveReply .heartbeat => resting h = false
  | .receiveReply .attack => resting h = false ∧ underway h = .taken
  | .publishFirst _ => resting h = false
  | .publishAttack _ => resting h = false ∧ underway h ≠ .idle
  | .publishHeartbeat _ => True
  | .sleep => True
  | _ => False

/-- The order of the steps of each thread, as long as every request is answered. -/
def ClientThread.InTurn : ClientThread → ClientHistory → ClientOp → Prop
  | .ui, h, o => UiTurn h o
  | .network, h, o => lost h = true ∨ NetworkTurn h o

/-- Where each thread can stand. -/
def ClientThread.Stands : ClientThread → ClientHistory → ClientPoint → Prop
  | .ui, h, .uiLoop => announced h = false ∧ calling h = false
  | .ui, h, .attackWait => announced h = false
  | .ui, _, .ended => True
  | .ui, _, .networkLoop => False
  | .network, h, .networkLoop => lost h = true ∨ resting h = false
  | .network, _, .ended => True
  | .network, h, _ => lost h = true

lemma uiLoop_inTurn {h : ClientHistory} (quiet : announced h = false) (idle : calling h = false) :
    Conforms ClientThread.ui.InTurn ClientThread.ui.Stands h uiLoop := by
  simp only [uiLoop, perform_bind, conforms_call]
  refine ⟨⟨quiet, trivial⟩, ?_⟩
  intro action
  cases action with
  | attack => exact ⟨⟨quiet, idle⟩, fun _ => quiet⟩
  | heartbeat => exact ⟨⟨quiet, trivial⟩, fun _ => ⟨quiet, idle⟩⟩
  | quit => exact ⟨⟨quiet, trivial⟩, fun _ => trivial⟩

lemma attackWait_inTurn {h : ClientHistory} (quiet : announced h = false) :
    Conforms ClientThread.ui.InTurn ClientThread.ui.Stands h attackWait := by
  simp only [attackWait, perform_bind, conforms_call]
  refine ⟨⟨quiet, trivial⟩, ?_⟩
  intro polled
  cases polled with
  | waiting =>
      refine ⟨⟨quiet, trivial⟩, ?_⟩
      intro timedOut
      cases timedOut with
      | true => exact ⟨quiet, rfl⟩
      | false => exact quiet
  | failed => exact ⟨quiet, rfl⟩
  | copied g => exact ⟨quiet, rfl⟩

lemma lost_cons {h : ClientHistory} (hlost : lost h = true) (a : Answered ClientOp ClientOp.Ret) :
    lost (a :: h) = true := by
  obtain ⟨o, r⟩ := a
  cases o with
  | sendRequest opcode => exact Bool.or_eq_true_iff.2 (Or.inr hlost)
  | receiveReply opcode => exact Bool.or_eq_true_iff.2 (Or.inr hlost)
  | _ => exact hlost

/-- After a request has been lost, nothing is asked of the network thread any more. -/
lemma inTurn_of_lost (p : ClientProg ClientPoint) {h : ClientHistory} (hlost : lost h = true) :
    Conforms ClientThread.network.InTurn ClientThread.network.Stands h p := by
  induction p generalizing h with
  | done point =>
      cases point with
      | networkLoop => exact Or.inl hlost
      | ended => exact trivial
      | _ => exact hlost
  | call o k ih => exact ⟨Or.inl hlost, fun r => ih r (lost_cons hlost _)⟩

lemma networkStart_inTurn :
    Conforms ClientThread.network.InTurn ClientThread.network.Stands [] networkStart := by
  simp only [networkStart, netGetState, perform_bind, conforms_call, call_bind]
  refine ⟨Or.inr rfl, fun _ => ⟨Or.inr rfl, ?_⟩⟩
  intro sent
  cases sent with
  | false => exact Or.inl rfl
  | true =>
      refine ⟨Or.inr rfl, ?_⟩
      intro reply
      cases reply with
      | none => exact Or.inl rfl
      | some s => exact ⟨Or.inr rfl, fun _ => Or.inr rfl⟩

lemma networkAttack_inTurn {h : ClientHistory} (awake : resting h = false)
    (htaken : underway h = .taken) :
    Conforms ClientThread.network.InTurn ClientThread.network.Stands h networkAttack := by
  simp only [networkAttack, netGetState, perform_bind, conforms_call, call_bind]
  refine ⟨Or.inr ⟨awake, htaken⟩, ?_⟩
  intro sent
  cases sent with
  | false => exact inTurn_of_lost _ rfl
  | true =>
      refine ⟨Or.inr ⟨rfl, rfl⟩, ?_⟩
      intro reply
      cases reply with
      | none => exact inTurn_of_lost _ rfl
      | some s => exact ⟨Or.inr ⟨rfl, by simp [underway]⟩, fun _ => Or.inr rfl⟩

lemma networkHeartbeat_inTurn {h : ClientHistory} (awake : resting h = false) :
    Conforms ClientThread.network.InTurn ClientThread.network.Stands h networkHeartbeat := by
  simp only [networkHeartbeat, netGetState, perform_bind, conforms_call, call_bind]
  refine ⟨Or.inr awake, ?_⟩
  intro sent
  cases sent with
  | false => exact inTurn_of_lost _ rfl
  | true =>
      refine ⟨Or.inr rfl, ?_⟩
      intro reply
      cases reply with
      | none => exact inTurn_of_lost _ rfl
      | some s => exact ⟨Or.inr trivial, fun _ => ⟨Or.inr trivial, fun _ => Or.inr rfl⟩⟩

lemma networkLoop_inTurn {h : ClientHistory} (awake : resting h = false) :
    Conforms ClientThread.network.InTurn ClientThread.network.Stands h networkLoop := by
  simp only [networkLoop, perform_bind, conforms_call]
  refine ⟨Or.inr awake, ?_⟩
  intro exit
  cases exit with
  | true => exact trivial
  | false =>
      refine ⟨Or.inr rfl, ?_⟩
      intro hasAttack
      cases hasAttack with
      | true => exact networkAttack_inTurn rfl rfl
      | false => exact networkHeartbeat_inTurn rfl

/-- Both threads keep to this order, whatever the instants are. -/
theorem pacedClient_disciplined (accepted : ℤ) (elapsed : ℕ) :
    pacedClient.Disciplined ClientThread.InTurn ClientThread.Stands
      (pacedInit accepted elapsed) where
  first
    | .ui => uiLoop_inTurn rfl rfl
    | .network => networkStart_inTurn
  again i h point p hpoint hp := by
    cases i with
    | ui =>
        cases point with
        | uiLoop => exact Option.some.inj hp ▸ uiLoop_inTurn hpoint.1 hpoint.2
        | attackWait => exact Option.some.inj hp ▸ attackWait_inTurn hpoint
        | networkLoop => exact hpoint.elim
        | ended => cases hp
    | network =>
        cases point with
        | networkLoop =>
            rcases hpoint with hlost | awake
            · exact inTurn_of_lost p hlost
            · exact Option.some.inj hp ▸ networkLoop_inTurn awake
        | ended => cases hp
        | _ => exact inTurn_of_lost p hpoint

/-! ## Requests of one kind in one second -/

/-- `n` requests, each half a second after the one before and the last of them at `x` or earlier,
fit into the second `second` of the clock. -/
def Fits (second : ℤ) (n : ℕ) (x : ℤ) : Prop := n = 0 ∨ 1000 * second + 500 * n ≤ x + 500

variable {second x y : ℤ} {n : ℕ}

lemma Fits.none : Fits second 0 x := Or.inl rfl

lemma Fits.mono (h : Fits second n x) (hxy : x ≤ y) : Fits second n y := by
  unfold Fits at *
  omega

/-- Half a second after the last one, there is at most one, and another one fits. -/
lemma Fits.next (h : Fits (timeNull y) n (y - 500)) : n ≤ 1 ∧ Fits (timeNull y) (n + 1) y := by
  unfold Fits timeNull at *
  push_cast
  omega

/-! ## One check of the limiter -/

/-- As the server sets it. -/
structure FivePerSecond (rl : RateLimiter) : Prop where
  maxRequests : rl.maxRequests = 5
  windowSeconds : rl.windowSeconds = 1

/-- With fewer than five requests counted in this second, the limiter lets another one pass, and
counts it. -/
lemma check_passes {rl : RateLimiter} {now : ℤ} (five : FivePerSecond rl)
    (past : rl.windowStart ≤ now) (counted : rl.windowStart = now → rl.requestCount.toNat ≤ n)
    (few : n < 5) :
    (rateLimiterCheck rl now).1 = true ∧ FivePerSecond (rateLimiterCheck rl now).2 ∧
      (rateLimiterCheck rl now).2.windowStart = now ∧
      (rateLimiterCheck rl now).2.requestCount.toNat ≤ n + 1 := by
  by_cases same : rl.windowStart = now
  · have elapsed : ¬now - rl.windowStart ≥ rl.windowSeconds.toNat := by
      rw [same, five.windowSeconds]
      simp
    have hcount := counted same
    have full : ¬rl.requestCount ≥ rl.maxRequests := by
      rw [five.maxRequests, ge_iff_le, UInt32.le_iff_toNat_le]
      simp
      omega
    rw [rateLimiterCheck_room elapsed full]
    refine ⟨rfl, ⟨five.1, five.2⟩, same, ?_⟩
    rw [UInt32.toNat_add]
    exact (Nat.mod_le _ _).trans (Nat.add_le_add_right hcount 1)
  · have elapsed : now - rl.windowStart ≥ rl.windowSeconds.toNat := by
      rw [five.windowSeconds]
      simp
      omega
    rw [rateLimiterCheck_elapsed elapsed]
    exact ⟨rfl, ⟨five.1, five.2⟩, rfl, Nat.le_add_left 1 n⟩

/-! ## Both threads together -/

/-- How the slot and the histories of the two threads are connected. -/
structure Coupled (ui network : ClientHistory) (shared : SharedGameState) : Prop where
  quitting : shared.shouldExit = true → announced ui = true
  /-- While a request waits, its call does. -/
  requested : shared.attackRequested = true →
    shared.attackCompleted = false ∧ calling ui = true
  /-- While the network thread is busy with an attack, its call waits, and there is no other
  request. -/
  busy : underway network ≠ .idle →
    shared.attackRequested = false ∧ shared.attackCompleted = false ∧ calling ui = true

variable {ui network : ClientHistory} {shared : SharedGameState}

/-- A test that ends a call has found the attack completed. -/
lemma completed_of_poll (running : shared.shouldExit = false)
    (ended : shared.poll.1 ≠ .waiting) : shared.attackCompleted = true := by
  unfold SharedGameState.poll at ended
  cases hcompleted : shared.attackCompleted with
  | true => rfl
  | false => simp [hcompleted, running] at ended

lemma Coupled.ui_step (coupled : Coupled ui network shared) {e : ClientEnv}
    (patient : e.timedOut = false) {o : ClientOp} (turn : UiTurn ui o) :
    Coupled (⟨o, (o.exec e shared).1⟩ :: ui) network (o.exec e shared).2 := by
  obtain ⟨quitting, requested, busy⟩ := coupled
  obtain ⟨quiet, turn⟩ := turn
  have running : shared.shouldExit = false :=
    Bool.eq_false_iff.2 fun hexit => absurd (quitting hexit) (by simp [quiet])
  cases o with
  | requestAttack =>
      have idle : underway network = .idle := by
        by_contra hbusy
        exact absurd (busy hbusy).2.2 (by simp [turn])
      exact ⟨quitting, fun _ => ⟨rfl, rfl⟩, fun hbusy => absurd idle hbusy⟩
  | pollAttack =>
      obtain ⟨stateUpdated, hpoll⟩ := poll_keeps shared
      change Coupled (⟨.pollAttack, shared.poll.1⟩ :: ui) network shared.poll.2
      rw [hpoll]
      have stays (incomplete : shared.attackCompleted = false) :
          calling (⟨.pollAttack, shared.poll.1⟩ :: ui) = calling ui := by
        have waiting : shared.poll.1 = .waiting := by
          by_contra ended
          exact absurd (completed_of_poll running ended) (by simp [incomplete])
        rw [waiting]
        rfl
      refine ⟨quitting, fun h => ?_, fun h => ?_⟩
      · obtain ⟨incomplete, waits⟩ := requested h
        exact ⟨incomplete, (stays incomplete).trans waits⟩
      · obtain ⟨none, incomplete, waits⟩ := busy h
        exact ⟨none, incomplete, (stays incomplete).trans waits⟩
  | wakeUp =>
      have stays : calling (⟨.wakeUp, e.timedOut⟩ :: ui) = calling ui := by
        rw [patient]
        rfl
      refine ⟨quitting, fun h => ?_, fun h => ?_⟩
      · exact ⟨(requested h).1, stays.trans (requested h).2⟩
      · exact ⟨(busy h).1, (busy h).2.1, stays.trans (busy h).2.2⟩
  | announceExit => exact ⟨fun _ => rfl, requested, busy⟩
  | nextAction => exact ⟨quitting, requested, busy⟩
  | readState => exact ⟨quitting, requested, busy⟩
  | _ => exact turn.elim

lemma Coupled.network_step (coupled : Coupled ui network shared) (e : ClientEnv) {o : ClientOp}
    (turn : NetworkTurn network o) :
    Coupled ui (⟨o, (o.exec e shared).1⟩ :: network) (o.exec e shared).2 := by
  obtain ⟨quitting, requested, busy⟩ := coupled
  cases o with
  | takeRequest =>
      refine ⟨quitting, fun h => (nomatch h), fun hbusy => ⟨rfl, ?_⟩⟩
      apply requested
      cases htake : shared.attackRequested with
      | true => rfl
      | false => exact absurd rfl (show underway (⟨.takeRequest, false⟩ :: network) ≠ .idle by
          rw [← htake]; exact hbusy)
  | sendRequest opcode =>
      cases opcode with
      | attack => exact ⟨quitting, requested, fun _ => busy (by rw [turn.2]; nofun)⟩
      | heartbeat => exact ⟨quitting, requested, fun hbusy => absurd rfl hbusy⟩
      | _ => exact turn.elim
  | receiveReply opcode =>
      cases opcode with
      | attack => exact ⟨quitting, requested, fun _ => busy (by rw [turn.2]; nofun)⟩
      | heartbeat => exact ⟨quitting, requested, fun hbusy => absurd rfl hbusy⟩
      | _ => exact turn.elim
  | publishAttack r =>
      refine ⟨quitting, fun h => ?_, fun hbusy => absurd rfl hbusy⟩
      exact absurd h (by simp [ClientOp.exec, (busy turn.2).1])
  | clearError => exact ⟨quitting, requested, fun hbusy => absurd rfl hbusy⟩
  | readExit => exact ⟨quitting, requested, fun hbusy => absurd rfl hbusy⟩
  | publishFirst r => exact ⟨quitting, requested, fun hbusy => absurd rfl hbusy⟩
  | publishHeartbeat r => exact ⟨quitting, requested, fun hbusy => absurd rfl hbusy⟩
  | sleep => exact ⟨quitting, requested, fun hbusy => absurd rfl hbusy⟩
  | _ => exact turn.elim

/-! ## The requests of the present second -/

/-- At most so many requests of each kind have been let pass in a second of the clock, and as many
as fit at their distance. -/
structure InSecond (network : ClientHistory) (s : PacedClient) (second : ℤ)
    (first heartbeats attacks : ℕ) : Prop where
  first_le : first ≤ if greeted network then 1 else 0
  heartbeats_le : heartbeats ≤ 2
  attacks_le : attacks ≤ 2
  rested : Fits second heartbeats (if resting network then s.networkAt else s.networkAt - 500)
  replied : attacks = 0 ∨ ∃ replied ∈ s.attackRepliedAt, Fits second attacks replied
  requested : s.shared.attackRequested = true → Fits second attacks (s.clock - 500)
  taken : underway network = .taken → Fits second attacks (s.networkAt - 500)

/-- Nothing has been counted in a second that has just begun. -/
lemma InSecond.none {network : ClientHistory} {s : PacedClient} : InSecond network s second 0 0 0 :=
  ⟨Nat.zero_le _, Nat.zero_le _, Nat.zero_le _, .none, Or.inl rfl, fun _ => .none, fun _ => .none⟩

/-- What holds of the histories of the two threads, the instants and the limiter. -/
structure InPace (ui network : ClientHistory) (s : PacedClient) : Prop where
  five : FivePerSecond s.limiter
  past : s.limiter.windowStart ≤ timeNull s.networkAt
  present : s.networkAt ≤ s.clock
  answered : lost network = false
  coupled : Coupled ui network s.shared
  counted : ∃ first heartbeats attacks,
    InSecond network s s.limiter.windowStart first heartbeats attacks ∧
      s.limiter.requestCount.toNat ≤ first + heartbeats + attacks

variable {s : PacedClient} {first heartbeats attacks : ℕ}

lemma clock_le_instant (s : PacedClient) (e : Pace) (o : ClientOp) : s.clock ≤ s.instant e o := by
  have wait : s.clock ≤ s.clock + e.delay := by omega
  cases o with
  | sleep => exact wait.trans (le_max_left _ _)
  | requestAttack =>
      unfold PacedClient.instant
      cases s.attackRepliedAt with
      | none => exact wait
      | some replied => exact wait.trans (le_max_left _ _)
  | _ => exact wait

/-- The requests of the second in which a request is looked at. -/
lemma InPace.counted_at (paced : InPace ui network s) (second : ℤ) :
    ∃ first heartbeats attacks, InSecond network s second first heartbeats attacks ∧
      (s.limiter.windowStart = second →
        s.limiter.requestCount.toNat ≤ first + heartbeats + attacks) := by
  by_cases same : s.limiter.windowStart = second
  · obtain ⟨first, heartbeats, attacks, counted, hcount⟩ := paced.counted
    exact ⟨first, heartbeats, attacks, same ▸ counted, fun _ => hcount⟩
  · exact ⟨0, 0, 0, .none, fun h => absurd h same⟩

/-- While nothing is requested and nothing comes in, what is counted stays counted. -/
lemma InSecond.later {network' : ClientHistory} {s' : PacedClient}
    (counted : InSecond network s second first heartbeats attacks)
    (greets : greeted network = true → greeted network' = true)
    (rests : (if resting network then s.networkAt else s.networkAt - 500) ≤
      if resting network' then s'.networkAt else s'.networkAt - 500)
    (replies : s'.attackRepliedAt = s.attackRepliedAt)
    (requests : s'.shared.attackRequested = true → s.shared.attackRequested = true)
    (clock : s.clock ≤ s'.clock)
    (taken : underway network' = .taken → Fits second attacks (s'.networkAt - 500)) :
    InSecond network' s' second first heartbeats attacks where
  first_le := by
    refine counted.first_le.trans ?_
    split_ifs with h h'
    · exact le_rfl
    · exact absurd (greets h) h'
    · exact Nat.zero_le 1
    · exact le_rfl
  heartbeats_le := counted.heartbeats_le
  attacks_le := counted.attacks_le
  rested := counted.rested.mono rests
  replied := by
    rw [replies]
    exact counted.replied
  requested h := (counted.requested (requests h)).mono (by omega)
  taken := taken

/-! ## The steps -/

lemma InPace.init (accepted : ℤ) (elapsed : ℕ) :
    InPace [] [] (pacedInit accepted elapsed).shared where
  five := ⟨rfl, rfl⟩
  past := by
    change timeNull accepted ≤ timeNull (accepted + elapsed)
    unfold timeNull
    omega
  present := le_rfl
  answered := rfl
  coupled := ⟨fun h => (nomatch h), fun h => (nomatch h), fun h => absurd rfl h⟩
  counted := ⟨0, 0, 0, .none, Nat.zero_le _⟩

/-- The animation keeps a request at its distance from the last reply. -/
lemma InSecond.fits_requestAttack (counted : InSecond network s second first heartbeats attacks)
    (e : Pace) : Fits second attacks (s.instant e .requestAttack - 500) := by
  rcases counted.replied with rfl | ⟨replied, hreplied, fits⟩
  · exact .none
  · apply fits.mono
    unfold PacedClient.instant
    rw [Option.mem_def.1 hreplied]
    have := le_max_right (s.clock + e.delay) (replied + 500)
    dsimp only
    omega

lemma attackRequested_ui {o : ClientOp} (turn : UiTurn ui o) (request : o ≠ .requestAttack)
    (e : Pace) : (PacedClient.exec .ui e o s).2.shared.attackRequested =
      s.shared.attackRequested := by
  cases o with
  | requestAttack => exact absurd rfl request
  | pollAttack =>
      obtain ⟨stateUpdated, hpoll⟩ := poll_keeps s.shared
      change s.shared.poll.2.attackRequested = _
      rw [hpoll]
  | nextAction => rfl
  | wakeUp => rfl
  | readState => rfl
  | announceExit => rfl
  | _ => exact turn.2.elim

lemma InPace.ui_step (paced : InPace ui network s) (e : Pace) {o : ClientOp}
    (turn : UiTurn ui o) :
    InPace (⟨o, (PacedClient.exec .ui e o s).1⟩ :: ui) network (PacedClient.exec .ui e o s).2 := by
  have hclock := clock_le_instant s e o
  have quiet : (PacedClient.exec .ui e o s).2.limiter = s.limiter := by
    cases o with
    | receiveReply opcode => exact turn.2.elim
    | _ => rfl
  have unreplied : (PacedClient.exec .ui e o s).2.attackRepliedAt = s.attackRepliedAt := by
    cases o with
    | receiveReply opcode => exact turn.2.elim
    | _ => rfl
  refine ⟨quiet ▸ paced.five, quiet ▸ paced.past, paced.present.trans hclock, paced.answered,
    paced.coupled.ui_step (e := s.clientEnv e o) rfl turn, ?_⟩
  obtain ⟨first, heartbeats, attacks, counted, hcount⟩ := paced.counted
  refine ⟨first, heartbeats, attacks, ?_, quiet ▸ hcount⟩
  rw [quiet]
  by_cases request : o = .requestAttack
  · subst request
    exact { counted with requested := fun _ => counted.fits_requestAttack e }
  · refine counted.later id le_rfl unreplied (fun h => ?_) hclock counted.taken
    rwa [← attackRequested_ui turn request]

/-- The server looks at a request after its sending and before the reply is there. -/
lemma checkedAt_mem (present : s.networkAt ≤ s.clock) (e : Pace) (o : ClientOp) :
    s.networkAt ≤ s.checkedAt e o ∧ s.checkedAt e o ≤ s.instant e o :=
  ⟨le_min (by omega) (present.trans (clock_le_instant s e o)), min_le_right _ _⟩

/-- The client after a reply to a request that has been let pass. -/
abbrev PacedClient.afterReply (s : PacedClient) (e : Pace) (opcode : OpCode) : PacedClient :=
  (PacedClient.exec .network e (.receiveReply opcode) s).2

section AfterReply

variable (s : PacedClient) (e : Pace) (opcode : OpCode)

lemma afterReply_clock :
    (s.afterReply e opcode).clock = s.instant e (.receiveReply opcode) := rfl

lemma afterReply_networkAt :
    (s.afterReply e opcode).networkAt = s.instant e (.receiveReply opcode) := rfl

end AfterReply

lemma InSecond.firstHeartbeat (counted : InSecond network s second first heartbeats attacks)
    (present : s.networkAt ≤ s.clock) (e : Pace) (awake : resting network = false)
    (unmet : greeted network = false) {reply : Option PayloadGameState} :
    first = 0 ∧ InSecond (⟨.receiveReply .heartbeat, reply⟩ :: network)
      (s.afterReply e .heartbeat) second 1 heartbeats attacks := by
  have hclock := clock_le_instant s e (.receiveReply .heartbeat)
  have hclock' := afterReply_clock s e .heartbeat
  have hnetworkAt := afterReply_networkAt s e .heartbeat
  have hfirst : first = 0 := by simpa [unmet] using counted.first_le
  have rested := counted.rested
  rw [awake, if_neg Bool.false_ne_true] at rested
  refine ⟨hfirst, le_rfl, counted.heartbeats_le, counted.attacks_le, ?_, counted.replied,
    fun h => (counted.requested h).mono (by omega), fun h => (nomatch h)⟩
  rw [show resting (⟨.receiveReply .heartbeat, reply⟩ :: network) = false from unmet,
    if_neg Bool.false_ne_true]
  exact rested.mono (by omega)

lemma InSecond.loopHeartbeat {e : Pace}
    (counted : InSecond network s (timeNull (s.checkedAt e (.receiveReply .heartbeat))) first
      heartbeats attacks)
    (present : s.networkAt ≤ s.clock) (awake : resting network = false)
    (met : greeted network = true) {reply : Option PayloadGameState} :
    heartbeats ≤ 1 ∧ InSecond (⟨.receiveReply .heartbeat, reply⟩ :: network)
      (s.afterReply e .heartbeat) (timeNull (s.checkedAt e (.receiveReply .heartbeat))) first
        (heartbeats + 1) attacks := by
  have hclock := clock_le_instant s e (.receiveReply .heartbeat)
  have hclock' := afterReply_clock s e .heartbeat
  have hnetworkAt := afterReply_networkAt s e .heartbeat
  obtain ⟨hsent, hthere⟩ := checkedAt_mem present e (.receiveReply .heartbeat)
  have rested := counted.rested
  rw [awake, if_neg Bool.false_ne_true] at rested
  obtain ⟨few, another⟩ := (rested.mono (show s.networkAt - 500 ≤ _ - 500 by omega)).next
  refine ⟨few, ?_, by omega, counted.attacks_le, ?_, counted.replied,
    fun h => (counted.requested h).mono (by omega), fun h => (nomatch h)⟩
  · have hfirst := counted.first_le
    rw [met] at hfirst
    exact hfirst
  · rw [show resting (⟨.receiveReply .heartbeat, reply⟩ :: network) = true from met]
    exact another.mono hthere

lemma InSecond.attack {e : Pace}
    (counted : InSecond network s (timeNull (s.checkedAt e (.receiveReply .attack))) first
      heartbeats attacks)
    (present : s.networkAt ≤ s.clock) (awake : resting network = false)
    (htaken : underway network = .taken) (alone : s.shared.attackRequested = false)
    (r : PayloadGameState) :
    attacks ≤ 1 ∧ InSecond (⟨.receiveReply .attack, some r⟩ :: network)
      (s.afterReply e .attack) (timeNull (s.checkedAt e (.receiveReply .attack))) first
        heartbeats (attacks + 1) := by
  have hclock := clock_le_instant s e (.receiveReply .attack)
  have hnetworkAt := afterReply_networkAt s e .attack
  obtain ⟨hsent, hthere⟩ := checkedAt_mem present e (.receiveReply .attack)
  obtain ⟨few, another⟩ :=
    ((counted.taken htaken).mono (show s.networkAt - 500 ≤ _ - 500 by omega)).next
  have rested := counted.rested
  rw [awake, if_neg Bool.false_ne_true] at rested
  refine ⟨few, counted.first_le, counted.heartbeats_le, by omega, rested.mono ?_,
    Or.inr ⟨_, rfl, another.mono hthere⟩, fun h => ?_, fun h => (nomatch h)⟩
  · rw [show resting (⟨.receiveReply .attack, some r⟩ :: network) = false from rfl,
      if_neg Bool.false_ne_true]
    omega
  · exact absurd (alone.symm.trans h) Bool.false_ne_true

/-- A request is looked at when fewer than five have been let pass in the same second; with it, no
more have than there may. -/
lemma InPace.receive (paced : InPace ui network s) (e : Pace) {opcode : OpCode}
    (turn : NetworkTurn network (.receiveReply opcode)) (r : PayloadGameState) :
    ∃ n, n < 5 ∧
      (s.limiter.windowStart = timeNull (s.checkedAt e (.receiveReply opcode)) →
        s.limiter.requestCount.toNat ≤ n) ∧
      ∃ first heartbeats attacks, n + 1 = first + heartbeats + attacks ∧
        InSecond (⟨.receiveReply opcode, some r⟩ :: network) (s.afterReply e opcode)
          (timeNull (s.checkedAt e (.receiveReply opcode))) first heartbeats attacks := by
  obtain ⟨first, heartbeats, attacks, counted, hcount⟩ :=
    paced.counted_at (timeNull (s.checkedAt e (.receiveReply opcode)))
  have hheartbeats := counted.heartbeats_le
  have hattacks := counted.attacks_le
  have hfirst : first ≤ 1 := counted.first_le.trans (by split_ifs <;> decide)
  cases opcode with
  | heartbeat =>
      cases met : greeted network with
      | false =>
          obtain ⟨rfl, after⟩ := counted.firstHeartbeat paced.present e turn met
          exact ⟨_, by omega, hcount, 1, heartbeats, attacks, by omega, after⟩
      | true =>
          obtain ⟨few, after⟩ := counted.loopHeartbeat paced.present turn met
          exact ⟨_, by omega, hcount, first, heartbeats + 1, attacks, by omega, after⟩
  | attack =>
      have alone := (paced.coupled.busy (by rw [turn.2]; nofun)).1
      obtain ⟨few, after⟩ := counted.attack paced.present turn.1 turn.2 alone r
      exact ⟨_, by omega, hcount, first, heartbeats, attacks + 1, by omega, after⟩
  | _ => exact turn.elim

lemma timeNull_mono {x y : ℤ} (h : x ≤ y) : timeNull x ≤ timeNull y :=
  Int.ediv_le_ediv (by decide) h

/-- **The server lets a request pass.** -/
theorem InPace.passes (paced : InPace ui network s) (e : Pace) {opcode : OpCode}
    (turn : NetworkTurn network (.receiveReply opcode)) :
    (s.check e (.receiveReply opcode)).1 = true := by
  obtain ⟨n, few, hcount, -⟩ := paced.receive e turn e.reply
  have sent := (checkedAt_mem paced.present e (.receiveReply opcode)).1
  exact (check_passes paced.five (paced.past.trans (timeNull_mono sent)) hcount few).1

lemma InPace.reply_step (paced : InPace ui network s) (e : Pace) {opcode : OpCode}
    (turn : NetworkTurn network (.receiveReply opcode)) :
    InPace ui (⟨.receiveReply opcode, some e.reply⟩ :: network) (s.afterReply e opcode) := by
  obtain ⟨n, few, hcount, first, heartbeats, attacks, hn, counted⟩ := paced.receive e turn e.reply
  obtain ⟨sent, there⟩ := checkedAt_mem paced.present e (.receiveReply opcode)
  obtain ⟨-, five, hstart, hcount'⟩ :=
    check_passes paced.five (paced.past.trans (timeNull_mono sent)) hcount few
  have coupled := paced.coupled.network_step ⟨e.action, false, true, some e.reply⟩ turn
  have hlimiter : (s.afterReply e opcode).limiter =
    (rateLimiterCheck s.limiter (timeNull (s.checkedAt e (.receiveReply opcode)))).2 := rfl
  refine ⟨hlimiter ▸ five, ?_, le_rfl, paced.answered, coupled, first, heartbeats, attacks, ?_, ?_⟩
  · rw [hlimiter, hstart]
    exact timeNull_mono there
  · rw [hlimiter, hstart]
    exact counted
  · rw [hlimiter, ← hn]
    exact hcount'

/-- Before a step that is no part of a heartbeat, the thread has slept. -/
lemma InSecond.awake_step {network' : ClientHistory}
    (counted : InSecond network s second first heartbeats attacks) (present : s.networkAt ≤ s.clock)
    (e : Pace) {o : ClientOp} (awake : resting network = false) (awake' : resting network' = false)
    (greets : greeted network = true → greeted network' = true)
    (noReply : ∀ opcode, o ≠ .receiveReply opcode)
    (requests : (PacedClient.exec .network e o s).2.shared.attackRequested = true →
      s.shared.attackRequested = true)
    (taken : underway network' = .taken →
      Fits second attacks ((PacedClient.exec .network e o s).2.networkAt - 500)) :
    InSecond network' (PacedClient.exec .network e o s).2 second first heartbeats attacks := by
  have hclock := clock_le_instant s e o
  refine counted.later greets ?_ (if_neg (noReply .attack)) requests hclock taken
  rw [awake, awake', if_neg Bool.false_ne_true, if_neg Bool.false_ne_true]
  change s.networkAt - 500 ≤ s.instant e o - 500
  omega

lemma InSecond.network_step (counted : InSecond network s second first heartbeats attacks)
    (present : s.networkAt ≤ s.clock) (e : Pace) {o : ClientOp} (turn : NetworkTurn network o)
    (noReply : ∀ opcode, o ≠ .receiveReply opcode) :
    InSecond (⟨o, (PacedClient.exec .network e o s).1⟩ :: network)
      (PacedClient.exec .network e o s).2 second first heartbeats attacks := by
  have hclock := clock_le_instant s e o
  cases o with
  | takeRequest =>
      refine counted.awake_step present e turn rfl id noReply (fun h => (nomatch h))
        fun htaken => ?_
      have waiting : s.shared.attackRequested = true := by
        by_contra hnone
        rw [Bool.not_eq_true] at hnone
        change underway (⟨.takeRequest, s.shared.attackRequested⟩ :: network) = .taken at htaken
        rw [hnone] at htaken
        cases htaken
      exact (counted.requested waiting).mono (Int.sub_le_sub_right hclock 500)
  | sendRequest opcode =>
      cases opcode with
      | attack =>
          refine counted.awake_step present e turn.1 rfl id noReply id fun _ => ?_
          refine (counted.taken turn.2).mono (Int.sub_le_sub_right ?_ 500)
          exact present.trans hclock
      | heartbeat =>
          exact counted.awake_step present e turn rfl id noReply id fun h => (nomatch h)
      | _ => exact turn.elim
  | publishHeartbeat r =>
      refine counted.later id ?_ rfl id hclock fun h => (nomatch h)
      rw [show resting (⟨.publishHeartbeat r, _⟩ :: network) = true from rfl, if_pos rfl]
      change _ ≤ s.instant e (.publishHeartbeat r)
      split_ifs <;> omega
  | sleep =>
      refine counted.later id ?_ rfl id hclock fun h => (nomatch h)
      have slept : s.networkAt + 500 ≤ s.instant e .sleep := le_max_right _ _
      rw [show resting (⟨.sleep, _⟩ :: network) = false from rfl, if_neg Bool.false_ne_true]
      change _ ≤ s.instant e .sleep - 500
      split_ifs <;> omega
  | clearError => exact counted.awake_step present e turn rfl id noReply id fun h => (nomatch h)
  | readExit => exact counted.awake_step present e turn rfl id noReply id fun h => (nomatch h)
  | publishFirst r => exact counted.awake_step present e turn rfl id noReply id fun h => (nomatch h)
  | publishAttack r =>
      exact counted.awake_step present e turn.1 rfl id noReply id fun h => (nomatch h)
  | receiveReply opcode => exact absurd rfl (noReply opcode)
  | _ => exact turn.elim

/-- The steps of the network thread but for the arrival of a reply. -/
lemma InPace.network_step (paced : InPace ui network s) (e : Pace) {o : ClientOp}
    (turn : NetworkTurn network o) (noReply : ∀ opcode, o ≠ .receiveReply opcode) :
    InPace ui (⟨o, (PacedClient.exec .network e o s).1⟩ :: network)
      (PacedClient.exec .network e o s).2 := by
  have hclock := clock_le_instant s e o
  have quiet : (PacedClient.exec .network e o s).2.limiter = s.limiter := by
    cases o with
    | receiveReply opcode => exact absurd rfl (noReply opcode)
    | _ => rfl
  have unreplied : (PacedClient.exec .network e o s).2.attackRepliedAt = s.attackRepliedAt := by
    cases o with
    | receiveReply opcode => exact absurd rfl (noReply opcode)
    | _ => rfl
  have past : s.limiter.windowStart ≤ timeNull (s.instant e o) :=
    paced.past.trans (timeNull_mono (paced.present.trans hclock))
  have answered : lost (⟨o, (PacedClient.exec .network e o s).1⟩ :: network) = false := by
    cases o with
    | receiveReply opcode => exact absurd rfl (noReply opcode)
    | _ => exact paced.answered
  refine ⟨quiet ▸ paced.five, quiet ▸ past, le_rfl, answered,
    paced.coupled.network_step (s.clientEnv e o) turn, ?_⟩
  obtain ⟨first, heartbeats, attacks, counted, hcount⟩ := paced.counted
  refine ⟨first, heartbeats, attacks, ?_, quiet ▸ hcount⟩
  rw [quiet]
  exact counted.network_step paced.present e turn noReply

/-! ## Every run -/

section Run

variable {accepted : ℤ} {elapsed : ℕ}
  {log : List (Event ClientThread ClientOp ClientOp.Ret PacedClient Pace)}
  {c : Config ClientThread ClientOp ClientOp.Ret ClientPoint PacedClient}

theorem run_inPace (run : pacedClient.Run (pacedInit accepted elapsed) log c) :
    InPace (own .ui log) (own .network log) c.shared := by
  refine run.invariant (pacedClient_disciplined accepted elapsed)
    (fun log s => InPace (own .ui log) (own .network log) s) (.init accepted elapsed) ?_
  intro log s i e o paced turn
  cases i with
  | ui =>
      rw [Machine.own_event_self, Machine.own_event_of_ne pacedClient
        (show ClientThread.ui ≠ .network from nofun)]
      exact paced.ui_step e turn
  | network =>
      rw [Machine.own_event_self, Machine.own_event_of_ne pacedClient
        (show ClientThread.network ≠ .ui from nofun)]
      have turn := turn.resolve_left (by simp [paced.answered])
      by_cases reply : ∃ opcode, o = .receiveReply opcode
      · obtain ⟨opcode, rfl⟩ := reply
        have answer : (pacedClient.exec .network e (.receiveReply opcode) s).1 = some e.reply :=
          if_pos (paced.passes e turn)
        rw [answer]
        exact paced.reply_step e turn
      · exact paced.network_step e turn fun opcode h => reply ⟨opcode, h⟩

/-- **Every request of the client is accepted by the limiter of its session.** -/
theorem pacedClient_accepted (run : pacedClient.Run (pacedInit accepted elapsed) log c) :
    ∀ e ∈ log, ∀ opcode, e.op = .receiveReply opcode → (e.before.check e.env e.op).1 = true := by
  intro e he opcode hop
  obtain ⟨later, earlier, rfl⟩ := List.append_of_mem he
  obtain ⟨c', run', before⟩ := run.before_event
  have paced := run_inPace run'
  have turn := run.allowed (pacedClient_disciplined accepted elapsed)
  rw [before, hop]
  rw [hop] at turn
  cases hthread : e.thread with
  | ui =>
      rw [hthread] at turn
      exact False.elim turn.2
  | network =>
      rw [hthread] at turn
      exact paced.passes e.env (turn.resolve_left (by simp [paced.answered]))

end Run

/-- Nothing takes longer than it has to, and the player attacks whenever possible. -/
def busyPace : Pace := ⟨.attack, 0, 0, .zero⟩

/-- The first heartbeat, an attack and a heartbeat, and after half a second another attack and
another heartbeat. -/
def busySecond : List (ClientThread × Pace) :=
  List.replicate 4 (.network, busyPace) ++ List.replicate 2 (.ui, busyPace) ++
    List.replicate 13 (.network, busyPace) ++ List.replicate 5 (.ui, busyPace) ++
    List.replicate 11 (.network, busyPace)

/-- The limit is reached, and nothing is refused. -/
theorem pacedClient_accepted_busySecond :
    (pacedClient.play (pacedInit 0 0) busySecond).2.shared.limiter.requestCount = 5 ∧
      ∀ e ∈ (pacedClient.play (pacedInit 0 0) busySecond).1, ∀ opcode,
        e.op = .receiveReply opcode → (e.before.check e.env e.op).1 = true :=
  ⟨by decide +kernel, pacedClient_accepted (Machine.run_play (pacedInit 0 0) busySecond)⟩

end WorldBossRaid
