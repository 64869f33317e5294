import WorldBossRaid.Properties.Receive
import WorldBossRaid.Properties.Session

/-!
# Every packet that is acted on has passed the checks

`PassesChecks` collects what the server checks of a packet, against the stream it came from.  The
main loop makes all of these checks; the path of the first packet leaves out the one of its size.
What follows for every byte stream is `Mediated`, that all packets that are acted on have passed
all checks, if and only if no session's first packet is a join that would be admitted with another
length than that of a join.
-/

namespace WorldBossRaid

open Bytes Interaction Prog

/-! ## Checks -/

/-- What the server checks of a packet: its header and the body that came after it, with the
replay protection before it. -/
structure PassesChecks (rp : ReplayProtection) (stream : List UInt8) (pkt : GamePacket) : Prop where
  length : pkt.header.validLength = true
  seqNum : (replayProtectionValidate rp pkt.header.seqNum).1 = true
  checksum : ∃ rest, stream =
      pkt.header.bytes ++ pkt.body.bytes.take pkt.header.bodyLen ++ rest ∧
    calcChecksum (pkt.body.bytes.take pkt.header.bodyLen) = pkt.header.checksum
  opcode : inputValidateOpcode pkt.header.opcode = true
  size : inputValidatePacketSize pkt.header.opcode pkt.header.length = true
  username : pkt.header.opcode = OpCode.join.code → inputValidateUsername pkt.joinUsername = true

lemma inputValidatePacketSize_join {length : UInt32} :
    inputValidatePacketSize OpCode.join.code length = true ↔ length.toNat = 44 := by
  simp [inputValidatePacketSize, expectedPayloadSize, OpCode.code, sizeofPacketHeader,
    sizeofGamePacket, maxPayloadSize, sizeofPayloadJoin]
  omega

lemma inputValidatePacketSize_attack {length : UInt32} :
    inputValidatePacketSize OpCode.attack.code length = true ↔ length.toNat = 16 := by
  simp [inputValidatePacketSize, expectedPayloadSize, OpCode.code, sizeofPacketHeader,
    sizeofGamePacket, maxPayloadSize, sizeofPayloadAttack]
  omega

lemma PassesChecks.length_eq {rp : ReplayProtection} {stream : List UInt8} {pkt : GamePacket}
    (h : PassesChecks rp stream pkt) :
    (pkt.header.opcode = OpCode.join.code → pkt.header.length.toNat = 44) ∧
      (pkt.header.opcode = OpCode.attack.code → pkt.header.length.toNat = 16) :=
  ⟨fun hop => inputValidatePacketSize_join.1 (hop ▸ h.size),
    fun hop => inputValidatePacketSize_attack.1 (hop ▸ h.size)⟩

/-- A received packet comes from the front of the stream. -/
lemma parse_of_received {sel : SelectRet} {timeoutSec : ℕ} {c : Connection} {pkt : GamePacket}
    (h : (recvPacketWithTimeout sel timeoutSec c).1 = some pkt) :
    ∃ body, parsePacket c.rp c.ssl.deliverable = some (pkt.header, body) ∧
      pkt = receivedPacket c.packet pkt.header body := by
  rw [recvPacketWithTimeout] at h
  split_ifs at h
  exact eq_receivedPacket_of_recvPacket (Prod.ext h rfl)

/-- A received packet that the validators accept has passed all checks. -/
lemma PassesChecks.of_received {sel : SelectRet} {timeoutSec : ℕ} {c : Connection}
    {pkt : GamePacket} (h : (recvPacketWithTimeout sel timeoutSec c).1 = some pkt)
    (opcode : inputValidateOpcode pkt.header.opcode = true)
    (size : inputValidatePacketSize pkt.header.opcode pkt.header.length = true)
    (username : pkt.header.opcode = OpCode.join.code →
      inputValidateUsername pkt.joinUsername = true) :
    PassesChecks c.rp c.ssl.deliverable pkt := by
  obtain ⟨body, hparse, hpkt⟩ := parse_of_received h
  obtain ⟨hvalid, hlen, hseq, hsum, rest, hstream⟩ := parsePacket_eq_some_iff.1 hparse
  have htake : pkt.body.bytes.take pkt.header.bodyLen = body := by
    rw [hpkt, receivedPacket, ← hlen]
    exact Buffer.take_write (length_le_of_validLength hvalid hlen)
  exact ⟨hvalid, hseq, ⟨rest, by rw [htake, hstream], by rw [htake, hsum]⟩, opcode, size, username⟩

section Runs

variable {ι : Type} [DecidableEq ι]

/-- A step of the server. -/
abbrev ServerEvent (ι : Type) : Type :=
  Event ι WorkerOp WorkerOp.Ret (ServerState ι) ServerEnv

/-- Does the step act on a packet?  It admits the client with it, or serves it. -/
def ActsOn (o : WorkerOp) (pkt : GamePacket) : Prop :=
  o = .mark (.admitted pkt) ∨ o = .mark (.dispatched pkt)

/-- Complete mediation: a packet that is acted on is the one the thread has received last, and it
has passed all checks. -/
def Mediated (log : List (ServerEvent ι)) : Prop :=
  ∀ later e earlier pkt, log = later ++ e :: earlier → ActsOn e.op pkt →
    ∃ since r before timeoutSec, earlier = since ++ r :: before ∧ r.thread = e.thread ∧
      r.answered = ⟨.recv timeoutSec, some pkt⟩ ∧
      (∀ x ∈ since, x.thread = e.thread → ∀ t, x.op ≠ .recv t) ∧
      PassesChecks (r.before.conn e.thread).rp (r.before.conn e.thread).ssl.deliverable pkt

/-- If the first packet of the connection is a join with a valid username, it has the length of
a join.  The username may lie behind what was received, in the packet buffer. -/
def FirstJoinSized (c : Connection) : Prop :=
  ∀ header body, parsePacket c.rp c.ssl.deliverable = some (header, body) →
    header.opcode = OpCode.join.code →
    inputValidateUsername (receivedPacket c.packet header body).joinUsername = true →
    header.length.toNat = 44

/-! ## The receive behind a packet -/

lemma lastReceived_split {h : WorkerHistory} {timeoutSec : ℕ} {pkt : GamePacket}
    (hlast : lastReceived h = some (timeoutSec, pkt)) :
    ∃ h₂ h₁, h = h₂ ++ ⟨.recv timeoutSec, some pkt⟩ :: h₁ ∧ ∀ a ∈ h₂, ∀ t, a.1 ≠ .recv t := by
  induction h with
  | nil => cases hlast
  | cons a h ih =>
      obtain ⟨o, r⟩ := a
      by_cases hrecv : ∃ t, o = .recv t
      · obtain ⟨t, rfl⟩ := hrecv
        obtain ⟨pkt', rfl, hpkt⟩ := Option.map_eq_some_iff.1 hlast
        obtain ⟨rfl, rfl⟩ := Prod.mk.inj hpkt
        exact ⟨[], h, rfl, by simp⟩
      · have hskip : lastReceived (⟨o, r⟩ :: h) = lastReceived h := by
          cases o with
          | recv t => exact absurd ⟨t, rfl⟩ hrecv
          | _ => rfl
        obtain ⟨h₂, h₁, rfl, hnone⟩ := ih (hskip.symm.trans hlast)
        refine ⟨⟨o, r⟩ :: h₂, h₁, rfl, ?_⟩
        rintro a (_ | ⟨_, ha⟩) t ht
        · exact hrecv ⟨t, ht⟩
        · exact hnone a ha t ht

variable {ssl : ι → Ssl} {buffer : ι → GamePacket} {log : List (ServerEvent ι)}
  {c : Config ι WorkerOp WorkerOp.Ret (Option ClientLocals) (ServerState ι)} {i : ι}

/-- A connection nobody has used is as it was at the start. -/
lemma conn_of_untouched (run : (server ι).Run (serverInit ssl buffer) log c)
    (h : untouched (own i log) = true) :
    c.shared.conn i = .fresh (ssl i) (buffer i) := by
  revert h
  refine run.invariant (server_disciplined ssl buffer)
    (fun log s => untouched (own i log) = true → s.conn i = .fresh (ssl i) (buffer i))
    (fun _ => rfl) fun log s j e o ih _ => ?_
  by_cases hij : j = i
  · subst hij
    rw [Machine.own_event_self]
    cases o with
    | recv t => exact nofun
    | send r => exact nofun
    | _ => exact ih
  · rw [Machine.own_event_of_ne _ hij]
    intro hun
    exact (ServerState.conn_exec_of_ne (Ne.symm hij) e o s).trans (ih hun)

/-- The receive behind the packet a thread has in hand. -/
lemma receipt (run : (server ι).Run (serverInit ssl buffer) log c) {timeoutSec : ℕ}
    {pkt : GamePacket} (hlast : lastReceived (own i log) = some (timeoutSec, pkt)) :
    ∃ (since : List (ServerEvent ι)) (r : ServerEvent ι) (before : List (ServerEvent ι)),
      log = since ++ r :: before ∧ r.thread = i ∧
      r.answered = ⟨.recv timeoutSec, some pkt⟩ ∧
      (∀ x ∈ since, x.thread = i → ∀ t, x.op ≠ .recv t) ∧
      (recvPacketWithTimeout r.env.select timeoutSec (r.before.conn i)).1 = some pkt ∧
      (timeoutSec = 0 → r.before.conn i = .fresh (ssl i) (buffer i)) := by
  obtain ⟨h₂, h₁, hown, hnone⟩ := lastReceived_split hlast
  obtain ⟨since, r, before, rfl, rfl, hanswered, rfl, rfl⟩ := exists_split_of_own hown
  have allowed := run.allowed (server_disciplined ssl buffer)
  obtain ⟨c', -, run', -, hevent⟩ := run.at_event
  obtain ⟨i, env, o, ret, s, s'⟩ := r
  obtain ⟨rfl, hret⟩ := Sigma.mk.inj hanswered
  obtain rfl := eq_of_heq hret
  have hbefore : s = c'.shared := congrArg Event.before hevent
  have hpkt : some pkt = (recvPacketWithTimeout env.select timeoutSec (c'.shared.conn i)).1 :=
    eq_of_heq (Sigma.mk.inj (congrArg Event.answered hevent)).2
  refine ⟨since, _, before, rfl, rfl, rfl, fun x hx hthread => ?_, ?_, fun ht => ?_⟩
  · exact hnone _ (answered_mem_own hx hthread)
  · rw [hbefore]
    exact hpkt.symm
  · rw [hbefore]
    exact conn_of_untouched run' (allowed.2 ht)

/-- What is acted on has passed all checks, if the first packets have. -/
lemma mediated_of_sized (sized : ∀ i, FirstJoinSized (.fresh (ssl i) (buffer i)))
    (run : (server ι).Run (serverInit ssl buffer) log c) : Mediated log := by
  intro later e earlier pkt hlog hacts
  subst hlog
  have allowed := run.allowed (server_disciplined ssl buffer)
  have run₁ : (server ι).Run (serverInit ssl buffer) ((later ++ [e]) ++ earlier) c := by
    simpa using run
  obtain ⟨c', run'⟩ := run₁.earlier
  rcases hacts with hop | hop
  · rw [hop] at allowed
    obtain ⟨-, -, hlast, hjoin, husername⟩ := allowed
    obtain ⟨since, r, before, hsplit, hthread, hanswered, hnone, hrecv, hfresh⟩ :=
      receipt run' hlast
    obtain ⟨body, hparse, hpkt⟩ := parse_of_received hrecv
    rw [hfresh rfl] at hparse hpkt
    have hlength := sized e.thread pkt.header body hparse hjoin (hpkt ▸ husername)
    refine ⟨since, r, before, 0, hsplit, hthread, hanswered, hnone,
      .of_received hrecv ?_ ?_ fun _ => husername⟩
    · rw [hjoin]
      rfl
    · rw [hjoin]
      exact inputValidatePacketSize_join.2 hlength
  · rw [hop] at allowed
    obtain ⟨-, ⟨timeoutSec, hlast⟩, hjoin, hopcode, hsize⟩ := allowed
    obtain ⟨since, r, before, hsplit, hthread, hanswered, hnone, hrecv, -⟩ := receipt run' hlast
    exact ⟨since, r, before, timeoutSec, hsplit, hthread, hanswered, hnone,
      .of_received hrecv hopcode hsize fun h => absurd h hjoin⟩

/-! ## The first packet -/

/-- `handle_client` as far as the first packet decides on it, if that is a join. -/
lemma handleClient_eq :
    ∃ k : ℤ → Option GamePacket → Worker (Option ClientLocals),
      handleClient = .call .time (fun now => .call (.recv 0) (k now)) ∧
      ∀ now pkt, pkt.header.opcode = OpCode.join.code →
        (inputValidateUsername pkt.joinUsername = true →
          ∃ k', k now (some pkt) = .call (.mark (.admitted pkt)) k') ∧
        (inputValidateUsername pkt.joinUsername = false →
          k now (some pkt) = .call .tlsShutdown fun _ => .done none) := by
  refine ⟨_, rfl, fun now pkt hjoin => ⟨fun husername => ?_, fun husername => ?_⟩⟩
  · simp only [Prog.bind, hjoin, husername, ne_eq, not_true_eq_false, if_false, Bool.not_true,
      Bool.false_eq_true]
    exact ⟨_, rfl⟩
  · simp only [Prog.bind, hjoin, husername, ne_eq, not_true_eq_false, if_false, Bool.not_false,
      if_true]
    rfl

/-- The first two steps of a session on a connection whose first packet is received. -/
lemma first_steps (buffer : ι → GamePacket) (i : ι) (e : ServerEnv) {header : PacketHeader}
    {body : List UInt8}
    (hparse : parsePacket replayProtectionInit (ssl i).deliverable = some (header, body))
    {k : ℤ → Option GamePacket → Worker (Option ClientLocals)}
    (hk : handleClient = .call .time (fun now => .call (.recv 0) (k now))) :
    ∃ log c, log.map Event.op = [.recv 0, .time] ∧
      c.threads i = k e.now (some (receivedPacket (buffer i) header body)) ∧
      (server ι).play (serverInit ssl buffer) (List.replicate 3 (i, e)) =
        (server ι).turn i e log c := by
  obtain ⟨ssl', hrecv, -⟩ := recvPacket_of_parse (c := .fresh (ssl i) (buffer i)) hparse
  have hclock : (serverInit ssl buffer).threads i =
      .call .time fun now => .call (.recv 0) (k now) := hk
  refine ⟨_, _, ?_, ?_, rfl⟩
  all_goals
    dsimp only
    rw [Machine.turn_call hclock, Machine.turn_call (Function.update_self i _ _)]
  · rfl
  · refine (Function.update_self i _ _).trans (congrArg (k e.now) ?_)
    exact congrArg Prod.fst hrecv

/-- A first packet that is a join with a valid username is acted on. -/
lemma admits_first (buffer : ι → GamePacket) (i : ι) (e : ServerEnv) {header : PacketHeader}
    {body : List UInt8}
    (hparse : parsePacket replayProtectionInit (ssl i).deliverable = some (header, body))
    (hjoin : header.opcode = OpCode.join.code)
    (husername :
      inputValidateUsername (receivedPacket (buffer i) header body).joinUsername = true) :
    ∃ mark earlier, ((server ι).play (serverInit ssl buffer) (List.replicate 3 (i, e))).1 =
      mark :: earlier ∧ mark.thread = i ∧ earlier.map Event.op = [.recv 0, .time] ∧
        mark.op = .mark (.admitted (receivedPacket (buffer i) header body)) := by
  obtain ⟨k, hk, hfirst⟩ := handleClient_eq
  obtain ⟨log, c, hlog, hthread, hplay⟩ := first_steps buffer i e hparse hk
  obtain ⟨k', hk'⟩ := (hfirst e.now (receivedPacket (buffer i) header body) hjoin).1 husername
  rw [hplay, Machine.turn_call (hthread.trans hk')]
  exact ⟨_, log, rfl, rfl, hlog, rfl⟩

/-- What is acted on has passed all checks only if the first packets have the right size. -/
lemma sized_of_mediated
    (mediated : ∀ log c, (server ι).Run (serverInit ssl buffer) log c → Mediated log) (i : ι) :
    FirstJoinSized (.fresh (ssl i) (buffer i)) := by
  intro header body hparse hjoin husername
  obtain ⟨mark, earlier, hlog, -, -, hop⟩ :=
    admits_first buffer i ⟨0, 0, .ready⟩ hparse hjoin husername
  obtain ⟨-, r, -, -, -, -, -, -, checks⟩ :=
    mediated _ _ (Machine.run_play _ _) [] mark earlier _ hlog (Or.inl hop)
  exact checks.length_eq.1 hjoin

/-- **Complete mediation**, for every byte stream and every content of the packet buffers: all
packets that are acted on have passed all checks, if and only if no session begins with a join
that would be admitted with the wrong length. -/
theorem mediated_iff (ssl : ι → Ssl) (buffer : ι → GamePacket) :
    (∀ log c, (server ι).Run (serverInit ssl buffer) log c → Mediated log) ↔
      ∀ i, FirstJoinSized (.fresh (ssl i) (buffer i)) :=
  ⟨sized_of_mediated, fun sized _ _ run => mediated_of_sized sized run⟩

end Runs

/-! ## A join that is too short -/

/-- The header of a join whose body is `abc` and a NUL, 28 bytes short of a name. -/
def shortJoin : PacketHeader := (clientPacket 0 OpCode.join.code [97, 98, 99, 0]).header

/-- A connection on which it arrives. -/
def shortJoinSsl : Ssl := ⟨[], [.record 16 (shortJoin.bytes.drop 1 ++ [97, 98, 99, 0])], [], []⟩

/-- It is acted on. -/
theorem shortJoin_unchecked :
    ∃ log c, (server Unit).Run (serverInit (fun _ => shortJoinSsl) fun _ => .zero) log c ∧
      ¬Mediated log := by
  by_contra hall
  simp only [not_exists, not_and, not_not] at hall
  have sized := sized_of_mediated hall () shortJoin [97, 98, 99, 0] (by decide +kernel) rfl
    (by decide +kernel)
  revert sized
  decide +kernel

end WorldBossRaid
