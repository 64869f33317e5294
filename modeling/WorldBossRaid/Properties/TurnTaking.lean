import WorldBossRaid.Model.EndToEnd
import WorldBossRaid.Properties.Session
import WorldBossRaid.Properties.SessionRule

/-!
# Whose turn it is

A client and its worker take turns: the client sends one request and waits for the reply, the
worker receives one packet and answers it before it receives the next.  `playerTurn` and
`workerTurn` read off the two histories where each of them stands, `PlayerAllows` and
`WorkerAnswers` say what it may do there, and the code of both sides is shown to keep to that.
-/

namespace WorldBossRaid

open Bytes Interaction Prog

/-! ## The client -/

/-- Where a client stands. -/
inductive PlayerTurn where
  | idle
  /-- It has sent a request and waits for the reply, which it will read into `pkt`. -/
  | waiting (pkt : GamePacket)
  /-- Its last send or receive has failed. -/
  | down
  deriving DecidableEq

/-- It is decided by the last send or receive. -/
def playerTurn : PlayerPast → PlayerTurn
  | [] => .idle
  | ⟨.send _ _, some pkt⟩ :: _ => .waiting pkt
  | ⟨.send _ _, none⟩ :: _ => .down
  | ⟨.recv _, some _⟩ :: _ => .idle
  | ⟨.recv _, none⟩ :: _ => .down
  | _ :: h => playerTurn h

/-- Does it wait for a reply? -/
def Waits (h : PlayerPast) : Prop := ∃ pkt, playerTurn h = .waiting pkt

/-- A request as it has gone out. -/
structure Request where
  opcode : OpCode
  payload : List UInt8
  /-- The packet with its header filled in. -/
  pkt : GamePacket
  deriving DecidableEq

/-- The requests that a client has sent, newest first. -/
def requests : PlayerPast → List Request
  | [] => []
  | ⟨.send opcode payload, some pkt⟩ :: h => ⟨opcode, payload, pkt⟩ :: requests h
  | _ :: h => requests h

/-- The replies that have reached it, newest first. -/
def repliesRead : PlayerPast → List GamePacket
  | [] => []
  | ⟨.recv _, some pkt⟩ :: h => pkt :: repliesRead h
  | _ :: h => repliesRead h

/-- What a client may send: first its name, then attacks and heartbeats. -/
inductive MaySend (username : Buffer maxPlayerName) : List Request → OpCode → List UInt8 → Prop
  | join : MaySend username [] .join (joinPayload username).bytes
  | attack {r : Request} {rs : List Request} : MaySend username (r :: rs) .attack (int32Bytes 0)
  | heartbeat {r : Request} {rs : List Request} : MaySend username (r :: rs) .heartbeat []

/-- What holds when a client with the past `h` issues an operation. -/
def PlayerAllows (username : Buffer maxPlayerName) (h : PlayerPast) : PlayerOp → Prop
  | .send opcode payload => ¬Waits h ∧ MaySend username (requests h) opcode payload
  | .recv pkt => playerTurn h = .waiting pkt
  | .next => ¬Waits h
  | .deliver state => playerTurn h = .idle ∧ ∃ pkt, (repliesRead h).head? = some pkt ∧
      pkt.header.opcode = OpCode.gameState.code ∧ state = pkt.gameState

/-- Between two requests a client does not wait and has joined. -/
def BetweenRequests (h : PlayerPast) (v : PlayerPoint) : Prop :=
  v = .playing → ¬Waits h ∧ requests h ≠ []

section Player

variable {username : Buffer maxPlayerName} {h : PlayerPast}

lemma not_waits_idle (idle : playerTurn h = .idle) : ¬Waits h := by
  rintro ⟨pkt, waits⟩
  rw [idle] at waits
  cases waits

lemma not_waits_down (down : playerTurn h = .down) : ¬Waits h := by
  rintro ⟨pkt, waits⟩
  rw [down] at waits
  cases waits

lemma maySend_of_joined (joined : requests h ≠ []) :
    MaySend username (requests h) .attack (int32Bytes 0) ∧
      MaySend username (requests h) .heartbeat [] := by
  cases hreq : requests h with
  | nil => exact absurd hreq joined
  | cons r rs => exact ⟨.attack, .heartbeat⟩

lemma sendJoinAndWaitResp_conforms :
    Conforms (PlayerAllows username) (fun h' r => 0 ≤ r → ¬Waits h' ∧ requests h' ≠ []) []
      (Player.sendJoinAndWaitResp username) := by
  have failed {p : Prop} : (0 : ℤ) ≤ -1 → p := fun hle => absurd hle (by decide)
  refine ⟨⟨not_waits_idle rfl, .join⟩, fun sent => ?_⟩
  cases sent with
  | none => exact failed
  | some pkt =>
      refine ⟨rfl, fun received => ?_⟩
      cases received with
      | none => exact failed
      | some reply =>
          change Conforms _ _ _ (if _ then _ else _)
          split_ifs
          · exact failed
          · exact fun _ => ⟨not_waits_idle rfl, List.cons_ne_nil _ _⟩
          · exact failed

lemma start_conforms :
    Conforms (PlayerAllows username) BetweenRequests [] (Player.start username) := by
  refine sendJoinAndWaitResp_conforms.seq fun h' playerId between => ?_
  split_ifs with hneg
  · exact fun hv => by cases hv
  · exact fun _ => between (not_lt.1 hneg)

lemma exchange_conforms (free : ¬Waits h) (joined : requests h ≠ []) {opcode : OpCode}
    {payload : List UInt8} (request : MaySend username (requests h) opcode payload) :
    Conforms (PlayerAllows username)
      (fun h' r => (¬Waits h' ∧ requests h' ≠ []) ∧ ∀ state, r = some state →
        PlayerAllows username h' (.deliver state)) h
      (Player.exchange opcode payload) := by
  refine ⟨⟨free, request⟩, fun sent => ?_⟩
  cases sent with
  | none => exact ⟨⟨not_waits_down rfl, joined⟩, fun state hstate => by cases hstate⟩
  | some pkt =>
      have joined' (h' : PlayerPast) :
          (⟨opcode, payload, pkt⟩ :: requests h' : List Request) ≠ [] := List.cons_ne_nil _ _
      refine ⟨rfl, fun received => ?_⟩
      cases received with
      | none => exact ⟨⟨not_waits_down rfl, joined' h⟩, fun state hstate => by cases hstate⟩
      | some reply =>
          change Conforms _ _ _ (if _ then _ else _)
          split_ifs with hopcode
          · exact ⟨⟨not_waits_idle rfl, joined' h⟩, fun state hstate => by cases hstate⟩
          · refine ⟨⟨not_waits_idle rfl, joined' h⟩, fun state hstate => ?_⟩
            exact ⟨rfl, reply, rfl, not_not.1 hopcode, (Option.some.inj hstate).symm⟩

lemma report_conforms (free : ¬Waits h) (joined : requests h ≠ []) {opcode : OpCode}
    {payload : List UInt8} (request : MaySend username (requests h) opcode payload) :
    Conforms (PlayerAllows username) BetweenRequests h
      (Player.report (Player.exchange opcode payload)) := by
  refine (exchange_conforms free joined request).seq fun h' r hr => ?_
  cases r with
  | none => exact fun _ => hr.1
  | some state => exact ⟨hr.2 state rfl, fun _ _ => hr.1⟩

lemma turn_conforms (free : ¬Waits h) (joined : requests h ≠ []) :
    Conforms (PlayerAllows username) BetweenRequests h Player.turn := by
  have may : MaySend username (requests h) .attack (int32Bytes 0) ∧
      MaySend username (requests h) .heartbeat [] := maySend_of_joined joined
  refine ⟨free, fun action => ?_⟩
  cases action with
  | attack => exact report_conforms (h := ⟨.next, .attack⟩ :: h) free joined may.1
  | heartbeat => exact report_conforms (h := ⟨.next, .heartbeat⟩ :: h) free joined may.2
  | quit => exact fun hv => by cases hv

/-- Every client keeps to its turns. -/
theorem players_disciplined {ι : Type} [DecidableEq ι] (username : ι → Buffer maxPlayerName)
    (w : World ι) :
    (players ι).Disciplined (fun i => PlayerAllows (username i)) (fun _ => BetweenRequests)
      ⟨w, fun i => Player.start (username i)⟩ where
  first _ := start_conforms
  again i h v p hv hp := by
    cases v with
    | ended => cases hp
    | playing =>
        cases hp
        exact turn_conforms (hv rfl).1 (hv rfl).2

end Player

/-! ## The worker -/

/-- Where a worker stands. -/
inductive WorkerTurn where
  | listening
  /-- It has received this packet and not answered it. -/
  | serving (pkt : GamePacket)
  /-- Its last receive or send has failed, or it has shut the session down. -/
  | closed
  deriving DecidableEq

/-- It is decided by the last operation on the connection. -/
def workerTurn : WorkerHistory → WorkerTurn
  | [] => .listening
  | ⟨.recv _, some pkt⟩ :: _ => .serving pkt
  | ⟨.recv _, none⟩ :: _ => .closed
  | ⟨.send _, true⟩ :: _ => .listening
  | ⟨.send _, false⟩ :: _ => .closed
  | ⟨.tlsShutdown, _⟩ :: _ => .closed
  | _ :: h => workerTurn h

/-- Has the worker shut its TLS session down? -/
def hasShutDown : WorkerHistory → Bool
  | [] => false
  | ⟨.tlsShutdown, _⟩ :: _ => true
  | _ :: h => hasShutDown h

/-- The packets that a worker has received, newest first. -/
def packetsRead : WorkerHistory → List GamePacket
  | [] => []
  | ⟨.recv _, some pkt⟩ :: h => pkt :: packetsRead h
  | _ :: h => packetsRead h

/-- The replies that it has sent, newest first. -/
def replies : WorkerHistory → List Response
  | [] => []
  | ⟨.send r, true⟩ :: h => r :: replies h
  | _ :: h => replies h

/-- The snapshot it has taken last, if that was after its last receive. -/
def freshSnapshot : WorkerHistory → Option GameSharedData
  | [] => none
  | ⟨.recv _, _⟩ :: _ => none
  | ⟨.game .getSnapshot, snap⟩ :: _ => some snap
  | _ :: h => freshSnapshot h

/-- The reply to a packet, given the snapshot it may use. -/
inductive Answers (pkt : GamePacket) (snap : Option GameSharedData) : Response → Prop
  | joinResp (playerId : ℤ) (opcode : pkt.header.opcode = OpCode.join.code) :
      Answers pkt snap (.joinResp ⟨playerId, 1⟩)
  | gameState {s : GameSharedData} {p : PayloadGameState}
      (opcode : pkt.header.opcode = OpCode.attack.code ∨
        pkt.header.opcode = OpCode.heartbeat.code)
      (fresh : snap = some s) (world : p.world = .ofSnapshot s) : Answers pkt snap (.gameState p)

/-- The worker has a packet in hand that it may pass over: a second `OP_JOIN` is not answered. -/
def PassesOver (h : WorkerHistory) : Prop :=
  ∃ pkt, workerTurn h = .serving pkt ∧ pkt.header.opcode = OpCode.join.code ∧ replies h ≠ []

/-- What holds when a worker with the history `h` issues an operation. -/
def WorkerAnswers (h : WorkerHistory) : WorkerOp → Prop
  | .recv _ => workerTurn h = .listening ∨ PassesOver h
  | .send r => ∃ pkt, workerTurn h = .serving pkt ∧ Answers pkt (freshSnapshot h) r
  | .mark (.admitted pkt) => workerTurn h = .serving pkt ∧ replies h = []
  | _ => True

/-- What a worker leaves behind at the head of its loop. -/
def AtHead (h : WorkerHistory) (v : Option ClientLocals) : Prop :=
  v.isSome = true → (workerTurn h = .listening ∨ PassesOver h) ∧ replies h ≠ []

/-- The operations that do not touch the connection, and take no snapshot. -/
def WorkerOp.Quiet : WorkerOp → Prop
  | .game .getSnapshot => False
  | .game _ => True
  | .rand => True
  | .time => True
  | .mark (.dispatched _) => True
  | .mark (.attackReturned _ _) => True
  | _ => False

/-- The worker `h'` stands where the worker `h` stands. -/
structure Still (h h' : WorkerHistory) : Prop where
  turn : workerTurn h' = workerTurn h
  replies : replies h' = replies h
  snapshot : freshSnapshot h' = freshSnapshot h

section Worker

variable {h : WorkerHistory} {α : Type}

lemma Still.refl (h : WorkerHistory) : Still h h := ⟨rfl, rfl, rfl⟩

lemma Still.cons {h' : WorkerHistory} (still : Still h h') {o : WorkerOp} (quiet : o.Quiet)
    (r : o.Ret) : Still h (⟨o, r⟩ :: h') := by
  obtain ⟨turn, hreplies, snapshot⟩ := still
  cases o with
  | game o =>
      cases o with
      | getSnapshot => exact quiet.elim
      | _ => exact ⟨turn, hreplies, snapshot⟩
  | recv => exact quiet.elim
  | send => exact quiet.elim
  | tlsShutdown => exact quiet.elim
  | _ => exact ⟨turn, hreplies, snapshot⟩

lemma WorkerOp.Quiet.answers {o : WorkerOp} (quiet : o.Quiet) : WorkerAnswers h o := by
  cases o with
  | recv => exact quiet.elim
  | send => exact quiet.elim
  | mark m =>
      cases m with
      | admitted => exact quiet.elim
      | _ => trivial
  | _ => trivial

/-- A quiet program leaves the worker where it stands. -/
lemma conforms_of_quiet {p : Worker α} (quiet : Issues WorkerOp.Quiet p) :
    Conforms WorkerAnswers (fun h' _ => Still h h') h p :=
  quiet.conforms (I := Still h) (fun _ _ _ ho => ho.answers)
    (fun _ _ r still ho => still.cons ho r) (.refl h)

/-! ### The quiet parts -/

lemma strike_quiet (name : Buffer maxPlayerName) (result : AttackResult) :
    Issues WorkerOp.Quiet (strike name result) := by
  refine ⟨trivial, fun killed => ?_⟩
  cases killed with
  | false => exact issues_done
  | true => exact ⟨trivial, fun _ => issues_done⟩

lemma resolveAttack_quiet (playerDice bossDice : ℤ) (name : Buffer maxPlayerName)
    (luckyRoll : ℕ) :
    Issues WorkerOp.Quiet (resolveAttack playerDice name bossDice luckyRoll) := by
  simp only [resolveAttack, perform_bind]
  split
  · exact ⟨trivial, fun _ => strike_quiet name _⟩
  · split
    · exact ⟨trivial, fun _ => strike_quiet name _⟩
    · exact ⟨trivial, fun _ => issues_done⟩

lemma attackDice_quiet (pkt : GamePacket) : Issues WorkerOp.Quiet (attackDice pkt) := by
  unfold attackDice
  split_ifs
  · exact ⟨trivial, fun _ => issues_done⟩
  · exact issues_done

lemma luckyEventFlag_quiet (snap : GameSharedData) :
    Issues WorkerOp.Quiet (luckyEventFlag snap) := by
  simp only [luckyEventFlag, perform_bind]
  split
  · rw [issues_call]
    refine ⟨trivial, fun now => ?_⟩
    split
    · exact ⟨trivial, fun _ => issues_done⟩
    · exact issues_done
  · exact issues_done

lemma heartbeatExpired_quiet (l : ClientLocals) : Issues WorkerOp.Quiet (heartbeatExpired l) := by
  unfold heartbeatExpired
  split_ifs
  · exact ⟨trivial, fun _ => issues_done⟩
  · exact issues_done

lemma closeClient_atHead (playerId : ℤ) :
    Conforms WorkerAnswers AtHead h (closeClient playerId) := by
  have ended {h' : WorkerHistory} : AtHead h' none := fun hv => by cases hv
  simp only [closeClient, cleanupClient, perform_bind, call_bind, conforms_call]
  refine ⟨trivial, fun _ => ?_⟩
  split_ifs
  · exact ⟨trivial, fun _ => ended⟩
  · exact ended

/-! ### The handlers -/

lemma gameProcessAttack_answers (playerDice : ℤ) (name : Buffer maxPlayerName) :
    Conforms WorkerAnswers
      (fun h' r => workerTurn h' = workerTurn h ∧
        ∃ snap, freshSnapshot h' = some snap ∧ r.2 = .ofSnapshot snap) h
      (gameProcessAttack playerDice name) := by
  simp only [gameProcessAttack, perform_bind, conforms_call]
  refine ⟨trivial, fun snap => ?_⟩
  split
  · exact ⟨rfl, snap, rfl, rfl⟩
  · refine ⟨trivial, fun bossRoll => ⟨trivial, fun luckyRoll => ?_⟩⟩
    apply (conforms_of_quiet (resolveAttack_quiet playerDice _ name luckyRoll)).seq
    intro h' result still
    exact ⟨trivial, fun snap' => ⟨still.turn, snap', rfl, rfl⟩⟩

lemma send_answers {pkt : GamePacket} (serving : workerTurn h = .serving pkt)
    {snap : GameSharedData} (fresh : freshSnapshot h = some snap)
    (opcode : pkt.header.opcode = OpCode.attack.code ∨
      pkt.header.opcode = OpCode.heartbeat.code)
    {p : PayloadGameState} (world : p.world = .ofSnapshot snap) :
    WorkerAnswers h (.send (.gameState p)) :=
  ⟨pkt, serving, .gameState opcode fresh world⟩

lemma handleAttack_answers {pkt : GamePacket} (serving : workerTurn h = .serving pkt)
    (opcode : pkt.header.opcode = OpCode.attack.code) (name : Buffer maxPlayerName) :
    Conforms WorkerAnswers (fun h' sent => sent = true → workerTurn h' = .listening ∧
      replies h' ≠ []) h (handleAttack pkt name) := by
  apply (conforms_of_quiet (attackDice_quiet pkt)).seq
  intro h₁ dice still
  apply (gameProcessAttack_answers dice name).seq
  rintro h₂ ⟨result, state⟩ ⟨turn, snap, fresh, rfl⟩
  have serving₂ : workerTurn h₂ = .serving pkt := turn.trans (still.turn.trans serving)
  refine ⟨trivial, fun _ => ⟨?_, fun sent => ?_⟩⟩
  · exact send_answers (h := ⟨.mark (.attackReturned result (.ofSnapshot snap)), ()⟩ :: h₂)
      serving₂ fresh (Or.inl opcode) rfl
  · rintro rfl
    exact ⟨rfl, List.cons_ne_nil _ _⟩

lemma handleHeartbeat_answers {pkt : GamePacket} (serving : workerTurn h = .serving pkt)
    (opcode : pkt.header.opcode = OpCode.heartbeat.code) :
    Conforms WorkerAnswers (fun h' r => r.2 = true → workerTurn h' = .listening ∧
      replies h' ≠ []) h handleHeartbeat := by
  simp only [handleHeartbeat, perform_bind, conforms_call]
  refine ⟨trivial, fun now => ⟨trivial, fun snap => ?_⟩⟩
  apply (conforms_of_quiet (luckyEventFlag_quiet snap)).seq
  intro h' isLucky still
  refine ⟨send_answers (still.turn.trans serving) still.snapshot (Or.inr opcode) rfl, ?_⟩
  rintro sent rfl
  exact ⟨rfl, List.cons_ne_nil _ _⟩

/-! ### The session -/

lemma eq_join_of_rest {opcode : UInt16} (valid : inputValidateOpcode opcode = true)
    (attack : opcode ≠ OpCode.attack.code) (heartbeat : opcode ≠ OpCode.heartbeat.code)
    (leave : opcode ≠ OpCode.leave.code) : opcode = OpCode.join.code := by
  simp only [inputValidateOpcode] at valid
  simp_all

lemma dispatch_answers {l : ClientLocals} {pkt : GamePacket}
    (serving : workerTurn h = .serving pkt) (greeted : replies h ≠ [])
    (valid : inputValidateOpcode pkt.header.opcode = true) :
    Conforms WorkerAnswers AtHead h (dispatch l pkt) := by
  simp only [dispatch, perform_bind]
  split_ifs with hattack hheartbeat hleave
  · refine ⟨trivial, fun _ => (handleAttack_answers (h := ⟨.mark (.dispatched pkt), ()⟩ :: h)
      serving hattack l.username).seq ?_⟩
    intro h' sent answered
    cases sent with
    | false => exact closeClient_atHead l.playerId
    | true => exact fun _ => ⟨Or.inl (answered rfl).1, (answered rfl).2⟩
  · refine ⟨trivial, fun _ => (handleHeartbeat_answers (h := ⟨.mark (.dispatched pkt), ()⟩ :: h)
      serving hheartbeat).seq ?_⟩
    rintro h' ⟨lastHeartbeat, sent⟩ answered
    cases sent with
    | false => exact closeClient_atHead l.playerId
    | true => exact fun _ => ⟨Or.inl (answered rfl).1, (answered rfl).2⟩
  · exact ⟨trivial, fun _ => closeClient_atHead l.playerId⟩
  · have join := eq_join_of_rest valid hattack hheartbeat hleave
    exact fun _ => ⟨Or.inr ⟨pkt, serving, join, greeted⟩, greeted⟩

lemma handlePacket_answers {l : ClientLocals} {pkt : GamePacket}
    (serving : workerTurn h = .serving pkt) (greeted : replies h ≠ []) :
    Conforms WorkerAnswers AtHead h (handlePacket l pkt) := by
  simp only [handlePacket, perform_bind, conforms_call]
  refine ⟨trivial, fun now => ?_⟩
  split_ifs with hallowed hopcode hsize
  · exact closeClient_atHead l.playerId
  · exact closeClient_atHead l.playerId
  · exact closeClient_atHead l.playerId
  · exact dispatch_answers (h := ⟨.time, now⟩ :: h) serving greeted (by simpa using hopcode)

/-- One turn of the loop answers what it has received, and leads back to the head. -/
theorem handleClientLoop_answers {l : ClientLocals}
    (ready : workerTurn h = .listening ∨ PassesOver h) (greeted : replies h ≠ []) :
    Conforms WorkerAnswers AtHead h (handleClientLoop l) := by
  apply (conforms_of_quiet (heartbeatExpired_quiet l)).seq
  intro h₁ expired still
  cases expired with
  | true => exact closeClient_atHead l.playerId
  | false =>
      have ready₁ : workerTurn h₁ = .listening ∨ PassesOver h₁ := by
        rwa [PassesOver, still.turn, still.replies]
      refine ⟨ready₁, fun received => ?_⟩
      cases received with
      | none =>
          apply (conforms_of_quiet (heartbeatExpired_quiet l)).seq
          exact fun h₂ _ _ => closeClient_atHead l.playerId
      | some pkt =>
          refine handlePacket_answers (h := ⟨.recv 5, some pkt⟩ :: h₁) rfl ?_
          rw [← still.replies] at greeted
          exact greeted

/-- So does the program up to the loop. -/
theorem handleClient_answers : Conforms WorkerAnswers AtHead [] handleClient := by
  simp only [handleClient, handleJoin, perform_bind, conforms_call]
  refine ⟨trivial, fun now => ⟨Or.inl rfl, fun received => ?_⟩⟩
  cases received with
  | none => exact closeClient_atHead (-1)
  | some pkt =>
      dsimp only
      split_ifs with hopcode hvalid
      · exact closeClient_atHead (-1)
      · exact closeClient_atHead (-1)
      · refine ⟨⟨rfl, rfl⟩, fun _ => ⟨trivial, fun playerId => ?_⟩⟩
        refine ⟨⟨pkt, rfl, .joinResp playerId (not_not.1 hopcode)⟩, fun sent => ?_⟩
        cases sent with
        | false => exact closeClient_atHead playerId
        | true => exact fun _ => ⟨Or.inl rfl, List.cons_ne_nil _ _⟩

/-- Every worker keeps to its turns. -/
theorem workers_disciplined {ι : Type} [DecidableEq ι] (w : World ι) :
    (workers ι).Disciplined (fun _ => WorkerAnswers) (fun _ => AtHead)
      ⟨w, fun _ => handleClient⟩ where
  first _ := handleClient_answers
  again i h v p hv hp := by
    obtain ⟨l, rfl, rfl⟩ := Option.map_eq_some_iff.1 hp
    exact handleClientLoop_answers (hv rfl).1 (hv rfl).2

end Worker

end WorldBossRaid
