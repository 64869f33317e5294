import WorldBossRaid.Properties.Delivery
import WorldBossRaid.Properties.RaidInvariant
import WorldBossRaid.Properties.TurnTaking

/-!
# Client and worker in lockstep

The clients and workers of `endToEnd` run at any speed, and their packets arrive in pieces or get
lost with the connection.  Still every session goes through its exchanges one after another: at
any time at most one packet is under way between a client and its worker, and everything before it
has been received, answered and read in order (`Transcript`).

`InPhase` is the invariant of one session.  It has four phases, and in each of them the queues
hold no more than the one packet that is under way; a client whose connection has failed and a
worker that has given up are left out of account.  When the worker has shut the session down, the
client may go on sending requests, which are lost; they are counted as late.  There is one lemma
for each operation, and `run_inPhases` puts them together.
-/

namespace WorldBossRaid

open Bytes Interaction Prog

/-! ## Transcripts -/

/-- The requests of one client, newest first. -/
inductive Requested (username : Buffer maxPlayerName) : List Request → Prop
  | nil : Requested username []
  | cons {r : Request} {rs : List Request} (earlier : Requested username rs)
      (may : MaySend username rs r.opcode r.payload) : Requested username (r :: rs)

/-- A worker has received this request. -/
structure Request.Arrives (r : Request) (q : GamePacket) : Prop where
  opcode : q.header.opcode = r.opcode.code
  header : q.header = r.pkt.header
  length : q.header.length.toNat = sizeofPacketHeader + r.payload.length
  payload : q.body.bytes.take r.payload.length = r.payload

/-- The reply is one that the packet asks for. -/
def AnsweredBy (q : GamePacket) (m : Response) : Prop := ∃ snap, Answers q snap m

/-- A client has received this reply. -/
structure Response.Arrives (m : Response) (p : GamePacket) : Prop where
  opcode : p.header.opcode = m.opcode.code
  payload : p.body.bytes.take m.payload.length = m.payload

/-- What a client and its worker have sent and received: all requests but the newest `unread` have
been received, all packets but the newest `unanswered` have been answered, and all replies but the
newest `unreturned` have been received, in order, once each, and unchanged. -/
structure Transcript (username : Buffer maxPlayerName) (ph : PlayerPast) (wh : WorkerHistory)
    (unread unanswered unreturned : ℕ) : Prop where
  sent : Requested username (requests ph)
  received : List.Forall₂ Request.Arrives ((requests ph).drop unread) (packetsRead wh)
  answered : List.Forall₂ AnsweredBy ((packetsRead wh).drop unanswered) (replies wh)
  returned : List.Forall₂ Response.Arrives ((replies wh).drop unreturned) (repliesRead ph)

/-! ## The invariant of one session -/

/-- How far the present exchange has come. -/
inductive Phase where
  | rest | asked | served | replied
  deriving DecidableEq, Repr

/-- The requests that have not been received. -/
def Phase.unread : Phase → ℕ
  | asked => 1
  | _ => 0

/-- The packets that have not been answered. -/
def Phase.unanswered : Phase → ℕ
  | served => 1
  | _ => 0

/-- The replies that have not been received. -/
def Phase.unreturned : Phase → ℕ
  | replied => 1
  | _ => 0

/-- The client's end of the connection. -/
def ClientEnd (ph : PlayerPast) (wh : WorkerHistory) (l : Line) : Phase → Prop
  | .rest => playerTurn ph = .idle ∧ l.toClient = []
  | .asked => Waits ph ∧ l.toClient = []
  | .served => Waits ph ∧ l.toClient = []
  | .replied => Waits ph ∧ ∃ m ms, replies wh = m :: ms ∧ l.toClient = m.message.wire

/-- The message that carries a request. -/
structure Request.Carries (r : Request) (m : Message) : Prop where
  opcode : m.pkt.header.opcode = r.opcode.code
  header : m.header = r.pkt.header
  size : m.payloadSize = r.payload.length
  payload : m.payload = r.payload

/-- The worker will accept the client's next number. -/
def Follows (l : Line) : Prop :=
  l.down = false → (replayProtectionValidate l.rp l.gSeqNum).1 = true

/-- The worker's end of the connection. -/
def WorkerEnd (ph : PlayerPast) (wh : WorkerHistory) (l : Line) : Phase → Prop
  | .rest => workerTurn wh = .listening ∧ l.toServer = [] ∧ Follows l
  | .asked => workerTurn wh = .listening ∧ ∃ r rs m, requests ph = r :: rs ∧ r.Carries m ∧
      l.toServer = m.wire ∧ (replayProtectionValidate l.rp m.header.seqNum).1 = true ∧
      (l.down = false → l.gSeqNum = m.header.seqNum + 1)
  | .served => (∃ q qs, packetsRead wh = q :: qs ∧ workerTurn wh = .serving q) ∧
      l.toServer = [] ∧ Follows l
  | .replied => workerTurn wh = .listening ∧ l.toServer = [] ∧ Follows l

/-- The states that a reply may describe have been seen since the request was sent. -/
def Fresh (seen : GameSharedData → Prop) (wh : WorkerHistory) : Phase → Prop
  | .asked => True
  | .served => ∀ s, freshSnapshot wh = some s → seen s
  | _ => ∀ p ms, replies wh = .gameState p :: ms → ∃ s, seen s ∧ p.world = .ofSnapshot s

/-- Where the client stands, if it has sent `late` requests after the worker's shutdown. -/
inductive ClientAt (ph : PlayerPast) (wh : WorkerHistory) (l : Line) (late : ℕ) (phase : Phase) :
    Prop
  /-- Its connection has failed. -/
  | lost (turn : playerTurn ph = .down) (down : l.down = true)
  /-- It takes part in the exchange. -/
  | within (up : l.down = false) (none : late = 0) (stands : ClientEnd ph wh l phase)
  /-- The worker is gone, and there is nothing left to read. -/
  | past (closed : l.closed = true) (toClient : l.toClient = []) (turn : playerTurn ph ≠ .idle)

/-- A worker that has shut the session down leaves it alone. -/
structure Closing (wh : WorkerHistory) (l : Line) (late : ℕ) : Prop where
  closed : l.closed = hasShutDown wh
  turn : hasShutDown wh = true → workerTurn wh = .closed
  late : hasShutDown wh = false → late = 0

/-- The invariant. -/
structure InPhase (username : Buffer maxPlayerName) (ph : PlayerPast) (wh : WorkerHistory)
    (l : Line) (seen : GameSharedData → Prop) (late : ℕ) (phase : Phase) : Prop where
  client : ClientAt ph wh l late phase
  worker : workerTurn wh = .closed ∨ WorkerEnd ph wh l phase
  closing : Closing wh l late
  transcript : Transcript username ph wh (late + phase.unread) phase.unanswered phase.unreturned
  fresh : late = 0 → Fresh seen wh phase

lemma Response.arrives_of_gets (m : Response) {p : GamePacket} (gets : m.message.Gets p) :
    m.Arrives p where
  opcode := congrArg PacketHeader.opcode gets.header
  payload := gets.payload.trans (Buffer.take_write m.message.fits)

lemma Request.Carries.arrives {r : Request} {m : Message} (carries : r.Carries m) {q : GamePacket}
    (gets : m.Gets q) : r.Arrives q where
  opcode := (congrArg PacketHeader.opcode gets.header).trans carries.opcode
  header := gets.header.trans carries.header
  length := by rw [gets.header, m.length_header, carries.size]
  payload := by rw [← carries.size, gets.payload, carries.payload]

lemma validate_next {rp : ReplayProtection} {x y : UInt32}
    (accepts : (replayProtectionValidate rp x).1 = true) (next : y = x + 1) :
    replayProtectionValidate (replayProtectionValidate rp x).2 y = (true, ⟨y, true⟩) := by
  have hlast : (replayProtectionValidate rp x).2 = ⟨y - UInt32.ofNat (0 + 1), true⟩ := by
    obtain ⟨last, initialized⟩ := rp
    have hx : y - UInt32.ofNat (0 + 1) = x := by
      rw [next]
      exact UInt32.add_sub_cancel x 1
    rw [hx]
    simp only [replayProtectionValidate] at accepts ⊢
    cases initialized with
    | false => rfl
    | true =>
        simp only [Bool.not_true, Bool.false_eq_true, if_false] at accepts ⊢
        split_ifs at accepts ⊢ <;> rfl
  rw [hlast]
  exact validate_ahead y (Nat.zero_le _)

section Session

variable {username : Buffer maxPlayerName} {ph : PlayerPast} {wh : WorkerHistory} {l : Line}
  {seen seen' : GameSharedData → Prop} {late : ℕ} {phase : Phase} {e : LineEnv}

lemma Fresh.mono (fresh : Fresh seen wh phase) (grows : ∀ s, seen s → seen' s) :
    Fresh seen' wh phase := by
  cases phase with
  | asked => trivial
  | served => exact fun s hs => grows s (fresh s hs)
  | rest =>
      intro p ms hp
      obtain ⟨s, hs, hworld⟩ := fresh p ms hp
      exact ⟨s, grows s hs, hworld⟩
  | replied =>
      intro p ms hp
      obtain ⟨s, hs, hworld⟩ := fresh p ms hp
      exact ⟨s, grows s hs, hworld⟩

/-- What others do only adds to what has been seen. -/
lemma InPhase.mono (X : InPhase username ph wh l seen late phase)
    (grows : ∀ s, seen s → seen' s) : InPhase username ph wh l seen' late phase :=
  ⟨X.client, X.worker, X.closing, X.transcript, fun none => (X.fresh none).mono grows⟩

/-- A worker at work has not shut the session down, and no request is late. -/
lemma InPhase.atWork (X : InPhase username ph wh l seen late phase)
    (working : workerTurn wh ≠ .closed) : l.closed = false ∧ late = 0 := by
  have notShut : hasShutDown wh = false :=
    Bool.eq_false_iff.2 fun shut => working (X.closing.turn shut)
  exact ⟨X.closing.closed.trans notShut, X.closing.late notShut⟩

lemma ClientEnd.eq_rest (stands : ClientEnd ph wh l phase) (free : ¬Waits ph) :
    phase = .rest := by
  cases phase with
  | rest => rfl
  | _ => exact absurd stands.1 free

/-- A client that has just read a reply has nothing under way. -/
lemma InPhase.of_idle (X : InPhase username ph wh l seen late phase)
    (idle : playerTurn ph = .idle) : phase = .rest ∧ late = 0 := by
  cases X.client with
  | lost turn => exact absurd (idle.symm.trans turn) (by simp)
  | within up none stands => exact ⟨stands.eq_rest (not_waits_idle idle), none⟩
  | past closed toClient turn => exact absurd idle turn

/-- A connection that the client has lost need not be followed any more. -/
lemma WorkerEnd.of_down (worker : WorkerEnd ph wh l phase) {l' : Line} {ph' : PlayerPast}
    (down : l'.down = true) (toServer : l'.toServer = l.toServer) (rp : l'.rp = l.rp)
    (same : requests ph' = requests ph) : WorkerEnd ph' wh l' phase := by
  have lost {p : Prop} : l'.down = false → p := fun up => absurd (down.symm.trans up) (by decide)
  cases phase with
  | rest => exact ⟨worker.1, toServer.trans worker.2.1, lost⟩
  | served => exact ⟨worker.1, toServer.trans worker.2.1, lost⟩
  | replied => exact ⟨worker.1, toServer.trans worker.2.1, lost⟩
  | asked =>
      obtain ⟨turn, r, rs, m, hreq, carries, wire, accepts, -⟩ := worker
      exact ⟨turn, r, rs, m, same.trans hreq, carries, toServer.trans wire, rp ▸ accepts, lost⟩

/-- A client that waits for a worker at work takes part in the exchange. -/
lemma InPhase.within_of_waiting (X : InPhase username ph wh l seen late phase)
    (working : workerTurn wh ≠ .closed) {pkt : GamePacket} (turn : playerTurn ph = .waiting pkt) :
    l.down = false ∧ ClientEnd ph wh l phase := by
  cases X.client with
  | lost down => exact absurd (turn.symm.trans down) (by simp)
  | within up _ stands => exact ⟨up, stands⟩
  | past closed => exact absurd (closed.symm.trans (X.atWork working).1) (by decide)

/-! ### The client's steps -/

lemma InPhase.fail (X : InPhase username ph wh l seen late phase) {ph' : PlayerPast} {l' : Line}
    (turn : playerTurn ph' = .down) (down : l'.down = true) (sent : requests ph' = requests ph)
    (read : repliesRead ph' = repliesRead ph) (toServer : l'.toServer = l.toServer)
    (rp : l'.rp = l.rp) (closed : l'.closed = l.closed) :
    InPhase username ph' wh l' seen late phase where
  client := .lost turn down
  worker := X.worker.imp_right fun worker => worker.of_down down toServer rp sent
  closing := ⟨closed.trans X.closing.closed, X.closing.turn, X.closing.late⟩
  transcript := by
    obtain ⟨hsent, received, answered, returned⟩ := X.transcript
    exact ⟨sent ▸ hsent, sent ▸ received, answered, read ▸ returned⟩
  fresh := X.fresh

lemma MaySend.fits {rs : List Request} {opcode : OpCode} {payload : List UInt8}
    (may : MaySend username rs opcode payload) : payload.length ≤ maxPayloadSize := by
  cases may with
  | join =>
      rw [(joinPayload username).size_eq]
      decide
  | attack => exact (length_int32Bytes 0).trans_le (by decide)
  | heartbeat => exact Nat.zero_le _

lemma InPhase.ask (X : InPhase username ph wh l seen late phase) {opcode : OpCode}
    {payload : List UInt8} (free : ¬Waits ph) (may : MaySend username (requests ph) opcode payload)
    (up : l.down = false) (notShut : hasShutDown wh = false) {l' : Line}
    (hline : l' = { l with
      toServer := l.toServer ++ (Message.wire ⟨l.request opcode payload, payload.length, may.fits⟩)
      gSeqNum := l.gSeqNum + 1
      down := false }) :
    InPhase username (⟨.send opcode payload,
      some ((l.request opcode payload).seal payload.length)⟩ :: ph) wh l' seen' late .asked := by
  cases X.client with
  | lost turn down => exact absurd (down.symm.trans up) (by decide)
  | past closed => exact absurd (closed.symm.trans (X.closing.closed.trans notShut)) (by decide)
  | within _ none stands =>
      obtain rfl := stands.eq_rest free
      let m : Message := ⟨l.request opcode payload, payload.length, may.fits⟩
      have carries : Request.Carries ⟨opcode, payload, (l.request opcode payload).seal
          payload.length⟩ m :=
        ⟨rfl, rfl, rfl, Buffer.take_write may.fits⟩
      obtain ⟨hsent, received, answered, returned⟩ := X.transcript
      subst hline
      refine ⟨.within rfl none ⟨⟨_, rfl⟩, stands.2⟩, X.worker.imp_right fun worker => ?_,
        ⟨X.closing.closed, X.closing.turn, X.closing.late⟩,
        ⟨.cons hsent may, received, answered, returned⟩, fun _ => trivial⟩
      obtain ⟨turn, empty, follows⟩ := worker
      refine ⟨turn, _, requests ph, m, rfl, carries, ?_, follows up, fun _ => rfl⟩
      change l.toServer ++ m.wire = m.wire
      rw [empty]
      rfl

lemma InPhase.askLate (X : InPhase username ph wh l seen late phase) {opcode : OpCode}
    {payload : List UInt8} (free : ¬Waits ph) (may : MaySend username (requests ph) opcode payload)
    (up : l.down = false) (shut : hasShutDown wh = true) {pkt : GamePacket} {l' : Line}
    (toClient : l'.toClient = l.toClient) (closed : l'.closed = l.closed) :
    InPhase username (⟨.send opcode payload, some pkt⟩ :: ph) wh l' seen' (late + 1) phase := by
  have isClosed := X.closing.closed.trans shut
  have empty : l.toClient = [] := by
    cases X.client with
    | lost turn down => exact absurd (down.symm.trans up) (by decide)
    | within _ none stands =>
        obtain rfl := stands.eq_rest free
        exact stands.2
    | past _ toClient => exact toClient
  obtain ⟨hsent, received, answered, returned⟩ := X.transcript
  refine ⟨.past (closed.trans isClosed) (toClient.trans empty) (by simp [playerTurn]),
    Or.inl (X.closing.turn shut), ⟨closed.trans X.closing.closed, X.closing.turn, fun h => ?_⟩,
    ⟨.cons hsent may, ?_, answered, returned⟩, fun h => ?_⟩
  · exact absurd (shut.symm.trans h) (by decide)
  · rw [Nat.add_right_comm]
    exact received
  · exact absurd h (Nat.succ_ne_zero late)

lemma InPhase.send (X : InPhase username ph wh l seen late phase) {opcode : OpCode}
    {payload : List UInt8} (free : ¬Waits ph) (may : MaySend username (requests ph) opcode payload)
    (grows : ((PlayerOp.send opcode payload).exec e l).1 = none → ∀ s, seen s → seen' s) :
    ∃ phase', InPhase username
      (⟨.send opcode payload, ((PlayerOp.send opcode payload).exec e l).1⟩ :: ph) wh
      ((PlayerOp.send opcode payload).exec e l).2 seen'
      (if ((PlayerOp.send opcode payload).exec e l).1.isSome && hasShutDown wh then late + 1
        else late) phase' := by
  obtain ⟨hret, hline⟩ := playerSend_eq (e := e) (l := l) opcode may.fits
  cases hok : e.writable && !l.down with
  | false =>
      rw [hok] at hret hline
      rw [hline]
      have failed : ((PlayerOp.send opcode payload).exec e l).1 = none := hret
      rw [failed]
      refine ⟨phase, InPhase.mono (X.fail rfl ?_ rfl rfl ?_ rfl rfl) (grows failed)⟩
      · exact Bool.or_true _
      · exact List.append_nil _
  | true =>
      have up : l.down = false := by
        rw [Bool.and_eq_true, Bool.not_eq_true'] at hok
        exact hok.2
      rw [hok] at hret hline
      rw [hret]
      cases hshut : hasShutDown wh with
      | false =>
          refine ⟨.asked, X.ask free may up hshut (hline.trans ?_)⟩
          rw [up]
          rfl
      | true =>
          refine ⟨phase, X.askLate free may up hshut ?_ ?_⟩
          · rw [hline]
          · rw [hline]

lemma InPhase.readsToEnd (X : InPhase username ph wh l seen late phase) {old : GamePacket}
    (ends : ReadsToEnd e l ((PlayerOp.recv old).exec e l).2) :
    InPhase username (⟨.recv old, none⟩ :: ph) wh ((PlayerOp.recv old).exec e l).2 seen late
      phase := by
  obtain ⟨-, -, -, closed⟩ := playerRecv_frame (e := e) (l := l) old
  have shut : hasShutDown wh = true := X.closing.closed.symm.trans ends.closed
  obtain ⟨hsent, received, answered, returned⟩ := X.transcript
  exact ⟨.past (closed.trans ends.closed) ends.toClient (by simp [playerTurn]),
    Or.inl (X.closing.turn shut), ⟨closed.trans X.closing.closed, X.closing.turn, X.closing.late⟩,
    ⟨hsent, received, answered, returned⟩, X.fresh⟩

lemma InPhase.playerRecv (X : InPhase username ph wh l seen late phase) {old : GamePacket}
    (turn : playerTurn ph = .waiting old) :
    ∃ phase', InPhase username (⟨.recv old, ((PlayerOp.recv old).exec e l).1⟩ :: ph) wh
      ((PlayerOp.recv old).exec e l).2 seen late phase' := by
  obtain ⟨toServer, rp, seq, closed⟩ := playerRecv_frame (e := e) (l := l) old
  cases hret : ((PlayerOp.recv old).exec e l).1 with
  | none =>
      rcases playerRecv_eq_none hret with down | ends
      · exact ⟨phase, X.fail rfl down rfl rfl toServer rp closed⟩
      · exact ⟨phase, X.readsToEnd ends⟩
  | some pkt =>
      have nothing (empty : l.toClient = []) : False := by
        rw [playerRecv_of_empty empty] at hret
        cases hret
      have up : l.down = false := (playerRecv_eq_some hret).1
      cases X.client with
      | lost down => exact absurd (turn.symm.trans down) (by simp)
      | past _ empty => exact (nothing empty).elim
      | within _ none stands =>
          cases phase with
          | rest => exact (nothing stands.2).elim
          | asked => exact (nothing stands.2).elim
          | served => exact (nothing stands.2).elim
          | replied =>
              obtain ⟨-, m, ms, hreplies, wire⟩ := stands
              obtain ⟨gets, empty, hup⟩ := playerRecv_of_wire wire hret
              obtain ⟨hsent, received, answered, returned⟩ := X.transcript
              refine ⟨.rest, .within hup none ⟨rfl, empty⟩, X.worker.imp_right fun worker => ?_,
                ⟨closed.trans X.closing.closed, X.closing.turn, X.closing.late⟩,
                ⟨hsent, received, answered, ?_⟩, X.fresh⟩
              · refine ⟨worker.1, toServer.trans worker.2.1, fun _ => ?_⟩
                rw [rp, seq]
                exact worker.2.2 up
              · rw [hreplies] at returned ⊢
                exact .cons (m.arrives_of_gets gets) returned

/-- Nothing else that a client does matters to its connection. -/
lemma InPhase.playerStill (X : InPhase username ph wh l seen late phase) {ph' : PlayerPast}
    (turn : playerTurn ph' = playerTurn ph) (sent : requests ph' = requests ph)
    (read : repliesRead ph' = repliesRead ph) : InPhase username ph' wh l seen late phase where
  client := by
    cases X.client with
    | lost down hline => exact .lost (turn.trans down) hline
    | past closed empty busy => exact .past closed empty (turn ▸ busy)
    | within up none stands =>
        refine .within up none ?_
        cases phase <;> simpa only [ClientEnd, Waits, turn] using stands
  worker := X.worker.imp_right fun worker => by
    cases phase <;> simpa only [WorkerEnd, sent] using worker
  closing := X.closing
  transcript := by
    obtain ⟨hsent, received, answered, returned⟩ := X.transcript
    exact ⟨sent ▸ hsent, sent ▸ received, answered, read ▸ returned⟩
  fresh := X.fresh

/-! ### The worker's steps -/

/-- The first request, and only that, asks for a join. -/
lemma Requested.join_iff {r : Request} {rs : List Request} (h : Requested username (r :: rs)) :
    r.opcode.code = OpCode.join.code ↔ rs = [] := by
  cases h with
  | cons earlier may =>
      generalize r.opcode = opcode at may
      generalize r.payload = payload at may
      cases may with
      | join => exact iff_of_true rfl rfl
      | attack => exact iff_of_false (by decide) (List.cons_ne_nil _ _)
      | heartbeat => exact iff_of_false (by decide) (List.cons_ne_nil _ _)

/-- What a worker is serving: its client's last request. -/
lemma InPhase.serving (X : InPhase username ph wh l seen late .served)
    (working : workerTurn wh ≠ .closed) {q : GamePacket} {qs : List GamePacket}
    (read : packetsRead wh = q :: qs) :
    ∃ r rs, requests ph = r :: rs ∧ r.Arrives q ∧ (rs = [] ↔ replies wh = []) := by
  obtain ⟨-, rfl⟩ := X.atWork working
  obtain ⟨hsent, received, answered, -⟩ := X.transcript
  rw [read] at received answered
  cases hreq : requests ph with
  | nil =>
      rw [hreq] at received
      cases received
  | cons r rs =>
      rw [hreq] at received
      obtain ⟨arrives, earlier⟩ := List.forall₂_cons.1 received
      refine ⟨r, rs, rfl, arrives, ?_⟩
      have hlen : rs.length = (replies wh).length :=
        earlier.length_eq.trans (List.Forall₂.length_eq answered)
      rw [← List.length_eq_zero_iff, hlen, List.length_eq_zero_iff]

/-- A worker is at work on a packet only when it is its turn. -/
lemma WorkerEnd.of_serving (worker : WorkerEnd ph wh l phase) {q : GamePacket}
    (turn : workerTurn wh = .serving q) : phase = .served ∧ ∃ qs, packetsRead wh = q :: qs := by
  cases phase with
  | served =>
      obtain ⟨⟨q', qs, read, turn'⟩, -⟩ := worker
      obtain rfl : q = q' := by
        rw [turn] at turn'
        injection turn'
      exact ⟨rfl, qs, read⟩
  | rest => exact absurd (turn.symm.trans worker.1) (by simp)
  | asked => exact absurd (turn.symm.trans worker.1) (by simp)
  | replied => exact absurd (turn.symm.trans worker.1) (by simp)

/-- A worker in an exchange has no second join in hand. -/
lemma InPhase.not_passesOver (X : InPhase username ph wh l seen late phase) :
    ¬PassesOver wh := by
  rintro ⟨q, turn, join, greeted⟩
  have working : workerTurn wh ≠ .closed := by
    rw [turn]
    simp
  obtain ⟨rfl, qs, read⟩ := (X.worker.resolve_left working).of_serving turn
  obtain ⟨r, rs, hreq, arrives, hfirst⟩ := X.serving working read
  have hsent := X.transcript.sent
  rw [hreq] at hsent
  exact greeted (hfirst.1 (hsent.join_iff.1 (arrives.opcode.symm.trans join)))

lemma Closing.cons (closing : Closing wh l late) (working : hasShutDown wh = false) {o : WorkerOp}
    (ho : o ≠ .tlsShutdown) (r : o.Ret) {l' : Line} (hl : l'.closed = l.closed) :
    Closing (⟨o, r⟩ :: wh) l' late := by
  have same : hasShutDown (⟨o, r⟩ :: wh) = false := by
    cases o with
    | tlsShutdown => exact absurd rfl ho
    | _ => exact working
  exact ⟨(hl.trans closing.closed).trans (working.trans same.symm),
    fun shut => absurd (same.symm.trans shut) (by decide), fun _ => closing.late working⟩

/-- A client in the exchange is not concerned by what the worker does elsewhere. -/
lemma ClientAt.of_worker {wh' : WorkerHistory} {l' : Line} {phase' : Phase}
    (client : ClientAt ph wh l late phase) (down : l'.down = l.down)
    (isOpen : l.closed = false)
    (stands : ClientEnd ph wh l phase → ClientEnd ph wh' l' phase') :
    ClientAt ph wh' l' late phase' := by
  cases client with
  | lost turn hdown => exact .lost turn (down.trans hdown)
  | within up none h => exact .within (down.trans up) none (stands h)
  | past closed => exact absurd (closed.symm.trans isOpen) (by decide)

lemma InPhase.workerRecv (X : InPhase username ph wh l seen late phase) {timeoutSec : ℕ}
    (ready : workerTurn wh = .listening ∨ PassesOver wh) :
    ∃ phase', InPhase username ph (⟨.recv timeoutSec, (l.serverRecv e timeoutSec).1⟩ :: wh)
      (l.serverRecv e timeoutSec).2 seen late phase' := by
  have listening := ready.resolve_right X.not_passesOver
  have working : workerTurn wh ≠ .closed := by
    rw [listening]
    simp
  obtain ⟨isOpen, hlate⟩ := X.atWork working
  have closing : Closing (⟨.recv timeoutSec, (l.serverRecv e timeoutSec).1⟩ :: wh)
      (l.serverRecv e timeoutSec).2 late :=
    X.closing.cons (X.closing.closed.symm.trans isOpen) (by simp) _ rfl
  obtain ⟨hsent, received, answered, returned⟩ := X.transcript
  cases hret : (l.serverRecv e timeoutSec).1 with
  | none =>
      rw [hret] at closing
      refine ⟨phase, X.client.of_worker rfl isOpen id, Or.inl rfl, closing,
        ⟨hsent, received, answered, returned⟩, fun none => ?_⟩
      cases phase with
      | served => exact fun s hs => by cases hs
      | _ => exact X.fresh none
  | some q =>
      rw [hret] at closing
      have nothing (empty : l.toServer = []) : False := by
        rw [serverRecv_of_empty empty] at hret
        cases hret
      have worker := X.worker.resolve_left working
      cases phase with
      | rest => exact (nothing worker.2.1).elim
      | replied => exact (nothing worker.2.1).elim
      | served => exact (nothing worker.2.1).elim
      | asked =>
          obtain ⟨-, r, rs, m, hreq, carries, wire, accepts, hseq⟩ := worker
          obtain ⟨gets, empty, hrp⟩ := serverRecv_of_wire wire hret
          refine ⟨.served, X.client.of_worker rfl isOpen id,
            Or.inr ⟨⟨q, _, rfl, rfl⟩, empty, fun up => ?_⟩, closing,
            ⟨hsent, ?_, answered, returned⟩, fun _ s hs => by cases hs⟩
          · rw [hrp]
            exact congrArg Prod.fst (validate_next accepts (hseq up))
          · rw [hlate, hreq] at received
            rw [hlate, hreq]
            exact .cons (carries.arrives gets) received

lemma InPhase.workerSend (X : InPhase username ph wh l seen late phase) {m : Response}
    (answers : WorkerAnswers wh (.send m)) :
    ∃ phase', InPhase username ph (⟨.send m, (l.serverSend e m).1⟩ :: wh)
      (l.serverSend e m).2 seen late phase' := by
  obtain ⟨q, turn, hanswers⟩ := answers
  have working : workerTurn wh ≠ .closed := by
    rw [turn]
    simp
  obtain ⟨isOpen, hlate⟩ := X.atWork working
  have closing (sent : Bool) {l' : Line} (hl : l'.closed = l.closed) :
      Closing (⟨.send m, sent⟩ :: wh) l' late :=
    X.closing.cons (o := .send m) (X.closing.closed.symm.trans isOpen) (by simp) sent hl
  obtain ⟨hsent, received, answered, returned⟩ := X.transcript
  obtain ⟨hret, hline⟩ := serverSend_eq (e := e) (l := l) m
  rw [hline, hret]
  have worker := X.worker.resolve_left working
  obtain ⟨rfl, qs, read⟩ := worker.of_serving turn
  obtain ⟨-, empty, follows⟩ := worker
  cases hok : e.writable with
  | false =>
      refine ⟨.served, X.client.of_worker rfl isOpen fun stands => ⟨stands.1, ?_⟩, Or.inl rfl,
        closing _ rfl, ⟨hsent, received, answered, returned⟩, X.fresh⟩
      exact (List.append_nil _).trans stands.2
  | true =>
      refine ⟨.replied,
        X.client.of_worker rfl isOpen fun stands => ⟨stands.1, m, _, rfl, ?_⟩,
        Or.inr ⟨rfl, empty, follows⟩, closing _ rfl, ⟨hsent, received, ?_, returned⟩, ?_⟩
      · change l.toClient ++ m.message.wire = _
        rw [stands.2]
        rfl
      · change List.Forall₂ AnsweredBy (packetsRead wh) (m :: replies wh)
        rw [read] at answered ⊢
        exact .cons ⟨_, hanswers⟩ answered
      · intro none p ms hp
        obtain ⟨rfl, -⟩ := List.cons.inj hp
        cases hanswers with
        | gameState opcode fresh world => exact ⟨_, X.fresh none _ fresh, world⟩

lemma InPhase.workerShutdown (X : InPhase username ph wh l seen late phase) :
    InPhase username ph (⟨.tlsShutdown, ()⟩ :: wh) { l with closed := true } seen late phase where
  client := by
    cases X.client with
    | lost turn down => exact .lost turn down
    | past closed empty turn => exact .past rfl empty turn
    | within up none stands =>
        refine .within up none ?_
        cases phase <;> exact stands
  worker := Or.inl rfl
  closing := ⟨rfl, fun _ => rfl, fun h => by cases h⟩
  transcript := by
    obtain ⟨hsent, received, answered, returned⟩ := X.transcript
    exact ⟨hsent, received, answered, returned⟩
  fresh none := by
    have fresh := X.fresh none
    cases phase <;> exact fresh

/-- Nothing else that a worker does matters to the connection; only a snapshot matters to what it
may answer. -/
lemma InPhase.workerStill (X : InPhase username ph wh l seen late phase) {wh' : WorkerHistory}
    (turn : workerTurn wh' = workerTurn wh) (read : packetsRead wh' = packetsRead wh)
    (sent : replies wh' = replies wh) (shut : hasShutDown wh' = hasShutDown wh)
    (grows : ∀ s, seen s → seen' s)
    (snapshot : ∀ s, freshSnapshot wh' = some s → freshSnapshot wh = some s ∨ seen' s) :
    InPhase username ph wh' l seen' late phase where
  client := by
    cases X.client with
    | lost hturn down => exact .lost hturn down
    | past closed empty hturn => exact .past closed empty hturn
    | within up none stands =>
        refine .within up none ?_
        cases phase <;> simpa only [ClientEnd, sent] using stands
  worker := by
    refine X.worker.imp (fun closed => turn.trans closed) fun worker => ?_
    cases phase <;> simpa only [WorkerEnd, turn, read] using worker
  closing := by
    obtain ⟨closed, hturn, hlate⟩ := X.closing
    rw [← shut, ← turn] at hturn
    rw [← shut] at closed hlate
    exact ⟨closed, hturn, hlate⟩
  transcript := by
    obtain ⟨hsent, received, answered, returned⟩ := X.transcript
    exact ⟨hsent, read ▸ received, by rw [read, sent]; exact answered, sent ▸ returned⟩
  fresh none := by
    have fresh := (X.fresh none).mono grows
    cases phase with
    | asked => trivial
    | served => exact fun s hs => (snapshot s hs).elim (fresh s) id
    | rest => exact fun p ms hp => fresh p ms (sent ▸ hp)
    | replied => exact fun p ms hp => fresh p ms (sent ▸ hp)

end Session

/-! ## Runs -/

/-- An event of the clients and workers. -/
abbrev EndToEndEvent (ι : Type) : Type :=
  BesideEvent ι PlayerOp.Ret WorkerOp.Ret (World ι) LineEnv

section Run

variable {ι : Type} [DecidableEq ι]

/-- Does this operation send a request? -/
def sendsRequest : Answered (PlayerOp ⊕ WorkerOp) (Sum.elim PlayerOp.Ret WorkerOp.Ret) → Bool
  | ⟨.inl (.send _ _), some _⟩ => true
  | _ => false

/-- Does a request of client `i` go out with this event? -/
def EndToEndEvent.requests (i : ι) (ev : EndToEndEvent ι) : Bool :=
  decide (ev.thread = (.left, i)) && sendsRequest ev.answered

/-- The requests that client `i` has sent after its worker had shut the session down. -/
def lateRequests (i : ι) : List (EndToEndEvent ι) → ℕ
  | [] => 0
  | ev :: log =>
      if ev.requests i && hasShutDown (rightOwn i log) then lateRequests i log + 1
      else lateRequests i log

/-- Since its client's last request, worker `i` has copied the state `s`. -/
def SeenSince (i : ι) (log : List (EndToEndEvent ι)) (s : GameSharedData) : Prop :=
  ∃ e ∈ log.takeWhile fun e => !e.requests i,
    e.thread = (.right, i) ∧ e.op = .inr (.game .getSnapshot) ∧ e.before.shm = s

variable {i j : ι} {log : List (EndToEndEvent ι)} {s : GameSharedData} {e : LineEnv} {w : World ι}

lemma lateRequests_cons {ev : EndToEndEvent ι} (other : ev.requests i = false) :
    lateRequests i (ev :: log) = lateRequests i log := by
  rw [lateRequests, other, Bool.false_and, if_neg Bool.false_ne_true]

lemma SeenSince.cons {ev : EndToEndEvent ι} (seen : SeenSince i log s)
    (other : ev.requests i = false) : SeenSince i (ev :: log) s := by
  obtain ⟨e, he, h⟩ := seen
  refine ⟨e, ?_, h⟩
  rw [List.takeWhile_cons_of_pos (by rw [other]; rfl)]
  exact List.mem_cons_of_mem _ he

lemma requests_of_ne {side : Side} (h : (side, j) ≠ (.left, i)) (o : PlayerOp ⊕ WorkerOp) :
    EndToEndEvent.requests i ((endToEnd ι).event (side, j) e o w) = false := by
  have hthread : decide (((endToEnd ι).event (side, j) e o w).thread = (.left, i)) = false :=
    decide_eq_false h
  rw [EndToEndEvent.requests, hthread, Bool.false_and]

lemma requests_send (opcode : OpCode) (payload : List UInt8) :
    EndToEndEvent.requests i
        ((endToEnd ι).event (.left, i) e (.inl (.send opcode payload)) w) =
      ((PlayerOp.send opcode payload).exec e (w.line i)).1.isSome := by
  have hthread : decide (((endToEnd ι).event (.left, i) e (.inl (.send opcode payload)) w).thread =
      (.left, i)) = true := decide_eq_true rfl
  rw [EndToEndEvent.requests, hthread, Bool.true_and]
  change sendsRequest ⟨.inl (.send opcode payload),
    ((PlayerOp.send opcode payload).exec e (w.line i)).1⟩ = _
  cases ((PlayerOp.send opcode payload).exec e (w.line i)).1 <;> rfl

/-- What another thread does, a session only sees as more snapshots. -/
lemma SeenSince.other {side : Side} {o : PlayerOp ⊕ WorkerOp} (h : (side, j) ≠ (.left, i))
    (s : GameSharedData) (seen : SeenSince i log s) :
    SeenSince i ((endToEnd ι).event (side, j) e o w :: log) s :=
  seen.cons (requests_of_ne h o)

lemma SeenSince.snapshot :
    SeenSince i ((endToEnd ι).event (.right, i) e (.inr (.game .getSnapshot)) w :: log) w.shm := by
  refine ⟨(endToEnd ι).event (.right, i) e (.inr (.game .getSnapshot)) w, ?_, rfl, rfl, rfl⟩
  rw [List.takeWhile_cons_of_pos]
  · exact List.mem_cons_self
  · rw [requests_of_ne (by simp) _]
    rfl

/-- Every session is in one of the phases. -/
def InPhases (username : ι → Buffer maxPlayerName) (log : List (EndToEndEvent ι)) (w : World ι) :
    Prop :=
  ∀ i, ∃ phase, InPhase (username i) (leftOwn i log) (rightOwn i log) (w.line i) (SeenSince i log)
    (lateRequests i log) phase

variable {username : ι → Buffer maxPlayerName}

lemma inPhases_init (buffer : ι → GamePacket) : InPhases username [] (World.init buffer) := by
  intro i
  refine ⟨.rest, .within rfl rfl ⟨rfl, rfl⟩, Or.inr ⟨rfl, rfl, fun _ => rfl⟩, ?_, ?_, ?_⟩
  · exact ⟨rfl, fun shut => Bool.noConfusion shut, fun _ => rfl⟩
  · exact ⟨.nil, .nil, .nil, .nil⟩
  · exact fun _ p ms hp => by cases hp

lemma InPhases.player (inv : InPhases username log w) {o : PlayerOp}
    (allowed : PlayerAllows (username j) (leftOwn j log) o) :
    InPhases username ((endToEnd ι).event (.left, j) e (.inl o) w :: log)
      ((players ι).exec j e o w).2 := by
  intro i
  obtain ⟨phase, X⟩ := inv i
  rw [endToEnd, Beside.rightOwn_left]
  by_cases hij : j = i
  · subst hij
    rw [Beside.leftOwn_self]
    change ∃ phase, InPhase _ _ _ ((w.setLine j _).line j) _ _ phase
    rw [World.line_setLine_self]
    have other (quiet : sendsRequest ⟨.inl o, (o.exec e (w.line j)).1⟩ = false) :
        EndToEndEvent.requests j ((endToEnd ι).event (.left, j) e (.inl o) w) = false :=
      (congrArg _ quiet).trans (Bool.and_false _)
    have grows (quiet : sendsRequest ⟨.inl o, (o.exec e (w.line j)).1⟩ = false) (s : GameSharedData)
        (seen : SeenSince j log s) :
        SeenSince j ((endToEnd ι).event (.left, j) e (.inl o) w :: log) s :=
      seen.cons (other quiet)
    cases o with
    | send opcode payload =>
        have counted : lateRequests j
            ((endToEnd ι).event (.left, j) e (.inl (.send opcode payload)) w :: log) =
            if ((PlayerOp.send opcode payload).exec e (w.line j)).1.isSome &&
                hasShutDown (rightOwn j log) then lateRequests j log + 1
              else lateRequests j log := by
          rw [lateRequests, requests_send]
        rw [← endToEnd, counted]
        refine X.send allowed.1 allowed.2 fun failed => grows ?_
        rw [failed]
        rfl
    | recv old =>
        rw [← endToEnd, lateRequests_cons (other rfl)]
        obtain ⟨phase', X'⟩ := X.playerRecv (e := e) allowed
        exact ⟨phase', X'.mono (grows rfl)⟩
    | next =>
        rw [← endToEnd, lateRequests_cons (other rfl)]
        exact ⟨phase, (X.mono (grows rfl)).playerStill rfl rfl rfl⟩
    | deliver state =>
        rw [← endToEnd, lateRequests_cons (other rfl)]
        exact ⟨phase, (X.mono (grows rfl)).playerStill rfl rfl rfl⟩
  · have hne : (Side.left, j) ≠ (.left, i) := fun h => hij (congrArg Prod.snd h)
    rw [Beside.leftOwn_of_ne hij, ← endToEnd, lateRequests_cons (requests_of_ne hne _)]
    change ∃ phase, InPhase _ _ _ ((w.setLine j _).line i) _ _ phase
    rw [World.line_setLine_of_ne _ (Ne.symm hij)]
    exact ⟨phase, X.mono (SeenSince.other hne)⟩

lemma World.line_exec_of_ne (hij : j ≠ i) (o : WorkerOp) :
    (w.exec j e o).2.line i = w.line i := by
  cases o with
  | recv => exact World.line_setLine_of_ne _ (Ne.symm hij) _
  | send => exact World.line_setLine_of_ne _ (Ne.symm hij) _
  | tlsShutdown => exact World.line_setLine_of_ne _ (Ne.symm hij) _
  | _ => rfl

lemma InPhases.worker (inv : InPhases username log w) {o : WorkerOp}
    (allowed : WorkerAnswers (rightOwn j log) o) :
    InPhases username ((endToEnd ι).event (.right, j) e (.inr o) w :: log)
      ((workers ι).exec j e o w).2 := by
  intro i
  obtain ⟨phase, X⟩ := inv i
  have hne : (Side.right, j) ≠ (Side.left, i) := fun h => Side.noConfusion (congrArg Prod.fst h)
  have grows : ∀ s, SeenSince i log s →
      SeenSince i ((endToEnd ι).event (.right, j) e (.inr o) w :: log) s := SeenSince.other hne
  rw [lateRequests_cons (requests_of_ne hne _), endToEnd, Beside.leftOwn_right]
  by_cases hij : j = i
  · subst hij
    rw [Beside.rightOwn_self]
    cases o with
    | recv timeoutSec =>
        change ∃ phase, InPhase _ _ _ ((w.setLine j _).line j) _ _ phase
        rw [World.line_setLine_self]
        obtain ⟨phase', X'⟩ := X.workerRecv (e := e) allowed
        exact ⟨phase', X'.mono grows⟩
    | send m =>
        change ∃ phase, InPhase _ _ _ ((w.setLine j _).line j) _ _ phase
        rw [World.line_setLine_self]
        obtain ⟨phase', X'⟩ := X.workerSend (e := e) allowed
        exact ⟨phase', X'.mono grows⟩
    | tlsShutdown =>
        change ∃ phase, InPhase _ _ _ ((w.setLine j _).line j) _ _ phase
        rw [World.line_setLine_self]
        exact ⟨phase, X.workerShutdown.mono grows⟩
    | game o =>
        refine ⟨phase, X.workerStill rfl rfl rfl rfl grows fun s hs => ?_⟩
        cases o with
        | getSnapshot => exact Or.inr (Option.some.inj hs ▸ SeenSince.snapshot)
        | _ => exact Or.inl hs
    | _ => exact ⟨phase, X.workerStill rfl rfl rfl rfl grows fun s hs => Or.inl hs⟩
  · rw [Beside.rightOwn_of_ne hij]
    change ∃ phase, InPhase _ _ _ ((w.exec j e o).2.line i) _ _ phase
    rw [World.line_exec_of_ne hij]
    exact ⟨phase, X.mono grows⟩

variable {buffer : ι → GamePacket}
  {c : Config (Side × ι) (PlayerOp ⊕ WorkerOp) (Sum.elim PlayerOp.Ret WorkerOp.Ret)
    (PlayerPoint ⊕ Option ClientLocals) (World ι)}

/-- Every session of every run is in one of the phases. -/
theorem run_inPhases (run : (endToEnd ι).Run (endToEndInit username buffer) log c) :
    InPhases username log c.shared :=
  Beside.invariant (players_disciplined username (World.init buffer))
    (workers_disciplined (World.init buffer)) (InPhases username) (inPhases_init buffer)
    (fun _ _ _ _ _ inv allowed => inv.player allowed)
    (fun _ _ _ _ _ inv allowed => inv.worker allowed) run

/-! ## Lockstep -/

/-- The reply is of the kind that the client looks for. -/
structure Suits (r : Request) (p : GamePacket) : Prop where
  ofJoin : r.opcode = .join → p.header.opcode = OpCode.joinResp.code ∧ p.joinResp.status = 1
  ofGame : r.opcode ≠ .join → p.header.opcode = OpCode.gameState.code

omit [DecidableEq ι] in
lemma forall₂_comp {α β γ : Type} {R : α → β → Prop} {S : β → γ → Prop} {T : α → γ → Prop}
    (comp : ∀ x y z, R x y → S y z → T x z) {xs : List α} {ys : List β} {zs : List γ}
    (h : List.Forall₂ R xs ys) (h' : List.Forall₂ S ys zs) : List.Forall₂ T xs zs := by
  induction h generalizing zs with
  | nil =>
      cases h'
      exact .nil
  | cons hxy _ ih =>
      cases h' with
      | cons hyz h' => exact .cons (comp _ _ _ hxy hyz) (ih h')

lemma OpCode.code_inj {a b : OpCode} (h : a.code = b.code) : a = b := by
  revert h
  cases a <;> cases b <;> decide

/-- A reply that comes back suits the request that it answers. -/
lemma suits_of_arrives {r : Request} {q p : GamePacket} {m : Response} (arrives : r.Arrives q)
    (answers : AnsweredBy q m) (returns : m.Arrives p) : Suits r p := by
  obtain ⟨snap, answers⟩ := answers
  cases answers with
  | joinResp playerId opcode =>
      have join := OpCode.code_inj (arrives.opcode.symm.trans opcode)
      refine ⟨fun _ => ⟨returns.opcode, ?_⟩, fun hne => absurd join hne⟩
      have hbytes : p.body.bytes.take 5 = int32Bytes playerId ++ [1] := returns.payload
      have hstatus : (p.body.bytes.take 5).getD 4 0 = 1 := by
        rw [hbytes]
        rfl
      rwa [List.getD_eq_getElem?_getD, List.getElem?_take_of_lt (by decide),
        ← List.getD_eq_getElem?_getD] at hstatus
  | gameState opcode fresh world =>
      refine ⟨fun join => ?_, fun _ => returns.opcode⟩
      rw [arrives.opcode, join] at opcode
      exact absurd opcode (by decide)

omit [DecidableEq ι] in
lemma Transcript.suits {username : Buffer maxPlayerName} {ph : PlayerPast} {wh : WorkerHistory}
    {a b d : ℕ} (t : Transcript username ph wh a b d) :
    List.Forall₂ Suits ((requests ph).drop (a + b + d)) (repliesRead ph) := by
  have served := forall₂_comp (T := fun r m => ∃ q, r.Arrives q ∧ AnsweredBy q m)
    (fun r q m hr hm => ⟨q, hr, hm⟩) (List.forall₂_drop b t.received) t.answered
  have all := forall₂_comp (T := Suits)
    (fun r m p ⟨_, hr, hq⟩ hp => suits_of_arrives hr hq hp) (List.forall₂_drop d served) t.returned
  rwa [List.drop_drop, List.drop_drop, ← Nat.add_assoc] at all

/-- **Lockstep.**  Whatever the interleaving, the pieces the packets arrive in, the failures and
the wishes of the players, in every session all requests have been received, answered and read in
their order, once each and unchanged, but for at most one that is still under way, and none is
while the client makes up its mind; and every reply is of the kind that its client looks for.  What
a client sends after its worker has shut the session down is lost, and follows on what was under
way then. -/
theorem endToEnd_lockstep (run : (endToEnd ι).Run (endToEndInit username buffer) log c) (i : ι) :
    ∃ unread unanswered unreturned,
      Transcript (username i) (leftOwn i log) (rightOwn i log) (lateRequests i log + unread)
        unanswered unreturned ∧
      unread + unanswered + unreturned ≤ 1 ∧
      (playerTurn (leftOwn i log) = .idle →
        lateRequests i log + unread + unanswered + unreturned = 0) ∧
      (hasShutDown (rightOwn i log) = false → lateRequests i log = 0) ∧
      List.Forall₂ Suits
        ((requests (leftOwn i log)).drop
          (lateRequests i log + unread + unanswered + unreturned))
        (repliesRead (leftOwn i log)) := by
  obtain ⟨phase, X⟩ := run_inPhases run i
  refine ⟨_, _, _, X.transcript, ?_, fun idle => ?_, X.closing.late, X.transcript.suits⟩
  · cases phase <;> decide
  · obtain ⟨rfl, none⟩ := X.of_idle idle
    rw [none]
    rfl

/-- An environment in which packets come in two pieces, and attacks are lucky. -/
def piecewise : LineEnv := ⟨1000, 0, .ready, [.piece 9, .want, .piece 2000], true, .attack⟩

/-- The names of two players. -/
def typedName (i : Fin 2) : Buffer maxPlayerName :=
  (Buffer.zero _).write [97 + UInt8.ofNat i.val]

/-- Steps of the first player's client or worker. -/
def firstSteps (side : Side) (n : ℕ) : List ((Side × Fin 2) × LineEnv) :=
  List.replicate n ((side, firstPlayer), piecewise)

/-- The first player joins. -/
def joinsIn : List ((Side × Fin 2) × LineEnv) :=
  firstSteps .left 1 ++ firstSteps .right 5 ++ firstSteps .left 1

/-- The first player attacks: the request, the worker's whole turn, and the state. -/
def attacksIn : List ((Side × Fin 2) × LineEnv) :=
  firstSteps .left 3 ++ firstSteps .right 14 ++ firstSteps .left 2

/-- The clients and workers at the start. -/
def twoPlayers : Config (Side × Fin 2) (PlayerOp ⊕ WorkerOp) (Sum.elim PlayerOp.Ret WorkerOp.Ret)
    (PlayerPoint ⊕ Option ClientLocals) (World (Fin 2)) :=
  endToEndInit typedName fun _ => .zero

theorem endToEnd_lockstep_attacks :
    (requests (leftOwn firstPlayer
      ((endToEnd (Fin 2)).play twoPlayers (joinsIn ++ attacksIn ++ attacksIn)).1)).length = 3 ∧
    ∃ unread unanswered unreturned,
      Transcript (typedName firstPlayer)
        (leftOwn firstPlayer
          ((endToEnd (Fin 2)).play twoPlayers (joinsIn ++ attacksIn ++ attacksIn)).1)
        (rightOwn firstPlayer
          ((endToEnd (Fin 2)).play twoPlayers (joinsIn ++ attacksIn ++ attacksIn)).1)
        unread unanswered unreturned ∧
      unread + unanswered + unreturned ≤ 1 := by
  refine ⟨by decide +kernel, ?_⟩
  obtain ⟨unread, unanswered, unreturned, transcript, hle, -, notShut, -⟩ :=
    endToEnd_lockstep (Machine.run_play twoPlayers (joinsIn ++ attacksIn ++ attacksIn))
      firstPlayer
  rw [notShut (by decide +kernel), Nat.zero_add] at transcript
  exact ⟨unread, unanswered, unreturned, transcript, hle⟩

/-! ## No deadlock -/

/-- The worker's receive will succeed once the bytes on their way have come in. -/
def ServerCanRead (timeoutSec : ℕ) (l : Line) : Prop :=
  l.toServer ≠ [] ∧ ∀ e : LineEnv, timeoutSec = 0 ∨ e.select = .ready →
    delivered (chop e.cuts l.toServer).1 = l.toServer →
    ∃ q, (l.serverRecv e timeoutSec).1 = some q

/-- So will the client's. -/
def ClientCanRead (pkt : GamePacket) (l : Line) : Prop :=
  l.toClient ≠ [] ∧ ∀ e : LineEnv, delivered (chop e.cuts l.toClient).1 = l.toClient →
    ∃ p, ((PlayerOp.recv pkt).exec e l).1 = some p

lemma endToEnd_disciplined (username : ι → Buffer maxPlayerName) (buffer : ι → GamePacket) :
    (endToEnd ι).Disciplined
      (Beside.allow (fun i => PlayerAllows (username i)) fun _ => WorkerAnswers)
      (Beside.stop (fun _ => BetweenRequests) fun _ => AtHead) (endToEndInit username buffer) :=
  Beside.disciplined (players_disciplined username (World.init buffer))
    (workers_disciplined (World.init buffer)) (World.init buffer)

/-- **No deadlock.**  A client and its worker never wait for each other with nothing under way:
when both are about to receive, one of them has a whole packet coming, which it will accept. -/
theorem endToEnd_no_deadlock (run : (endToEnd ι).Run (endToEndInit username buffer) log c)
    {pkt : GamePacket} {timeoutSec : ℕ}
    {k : Option GamePacket → Prog (PlayerOp ⊕ WorkerOp) (Sum.elim PlayerOp.Ret WorkerOp.Ret)
      (PlayerPoint ⊕ Option ClientLocals)}
    {k' : Option GamePacket → Prog (PlayerOp ⊕ WorkerOp) (Sum.elim PlayerOp.Ret WorkerOp.Ret)
      (PlayerPoint ⊕ Option ClientLocals)}
    (client : c.threads (.left, i) = .call (.inl (.recv pkt)) k)
    (worker : c.threads (.right, i) = .call (.inr (.recv timeoutSec)) k') :
    ServerCanRead timeoutSec (c.shared.line i) ∨ ClientCanRead pkt (c.shared.line i) := by
  have D := endToEnd_disciplined username buffer
  have waits := run.conforms D (.left, i)
  have listens := run.conforms D (.right, i)
  rw [client] at waits
  rw [worker] at listens
  have turn : playerTurn (leftOwn i log) = .waiting pkt := waits.1
  obtain ⟨phase, X⟩ := run_inPhases run i
  have listening : workerTurn (rightOwn i log) = .listening :=
    listens.1.resolve_right X.not_passesOver
  have working : workerTurn (rightOwn i log) ≠ .closed := by
    rw [listening]
    simp
  have worker' := X.worker.resolve_left working
  obtain ⟨up, client⟩ := X.within_of_waiting working turn
  cases phase with
  | rest => exact absurd (turn.symm.trans client.1) (by simp)
  | served =>
      obtain ⟨⟨q, qs, -, serving⟩, -⟩ := worker'
      exact absurd (listening.symm.trans serving) (by simp)
  | asked =>
      obtain ⟨-, r, rs, m, -, -, wire, accepts, -⟩ := worker'
      refine Or.inl ⟨?_, fun e available whole => ?_⟩
      · rw [wire]
        exact m.wire_ne_nil
      · exact serverRecv_of_delivered available wire whole accepts
  | replied =>
      obtain ⟨-, m, ms, -, wire⟩ := client
      refine Or.inr ⟨?_, fun e whole => playerRecv_of_delivered up wire whole⟩
      rw [wire]
      exact m.message.wire_ne_nil

/-- The first client has sent its join, and its worker has looked at the clock. -/
def joining : List ((Side × Fin 2) × LineEnv) := firstSteps .left 1 ++ firstSteps .right 1

theorem endToEnd_no_deadlock_joining :
    ServerCanRead 0 (((endToEnd (Fin 2)).play twoPlayers joining).2.shared.line firstPlayer) ∨
      ClientCanRead
        (((Line.fresh .zero).request .join (joinPayload (typedName firstPlayer)).bytes).seal 32)
        (((endToEnd (Fin 2)).play twoPlayers joining).2.shared.line firstPlayer) :=
  endToEnd_no_deadlock (Machine.run_play twoPlayers joining) rfl rfl

end Run

end WorldBossRaid
