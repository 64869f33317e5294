import WorldBossRaid.Framework.TwoRuns
import WorldBossRaid.Properties.Mediation
import WorldBossRaid.Properties.SessionRule
import WorldBossRaid.Properties.Username

/-!
# What the server does depends on received bytes only

`handle_client` reads every packet into one uninitialised array, and a body may be shorter than
the structure that is then read from it.  Two servers with the same byte streams, schedules, clock
readings and rolls, but different contents of these arrays, are compared: `PacketsAlike` says that
two packets agree in what was received, and the workers go on alike with alike packets, because
the check of the packet size covers all they read.

The first packet alone is not checked.  Its size matters for the byte streams that begin with a
join shorter than a name, in which only characters of a name have come in.
-/

namespace WorldBossRaid

open Bytes Buffer Interaction Prog

/-! ## Alike packets -/

/-- The packets have the same header and agree on the body bytes it announces. -/
structure PacketsAlike (pkt pkt' : GamePacket) : Prop where
  header : pkt.header = pkt'.header
  body : pkt.body.bytes.take pkt.header.bodyLen = pkt'.body.bytes.take pkt.header.bodyLen

/-- What the packet holds beyond its body bytes cannot become part of a username. -/
def NameSettled (pkt : GamePacket) : Prop :=
  pkt.header.opcode = OpCode.join.code → pkt.header.bodyLen < sizeofPayloadJoin →
    ∃ b ∈ pkt.body.bytes.take pkt.header.bodyLen, isNameChar b = false

lemma PacketsAlike.symm {pkt pkt' : GamePacket} (alike : PacketsAlike pkt pkt') :
    PacketsAlike pkt' pkt :=
  ⟨alike.header.symm, by rw [← alike.header, alike.body]⟩

lemma PacketsAlike.settled {pkt pkt' : GamePacket} (alike : PacketsAlike pkt pkt')
    (settled : NameSettled pkt) : NameSettled pkt' := by
  unfold NameSettled
  rw [← alike.header, ← alike.body]
  exact settled

/-- A payload that has come in whole is the same in both. -/
lemma PacketsAlike.take_eq {pkt pkt' : GamePacket} (alike : PacketsAlike pkt pkt') {k : ℕ}
    (hk : k ≤ pkt.header.bodyLen) : pkt.body.bytes.take k = pkt'.body.bytes.take k := by
  have hcut := congrArg (List.take k) alike.body
  rwa [List.take_take, List.take_take, Nat.min_eq_left hk] at hcut

/-- Of two alike packets, if one carries a valid username, so does the other, and it is the same
one. -/
lemma PacketsAlike.username_eq {pkt pkt' : GamePacket} (alike : PacketsAlike pkt pkt')
    (settled : NameSettled pkt) (hjoin : pkt.header.opcode = OpCode.join.code)
    (hvalid : inputValidateUsername pkt.joinUsername = true) :
    inputValidateUsername pkt'.joinUsername = true ∧ pkt'.username = pkt.username := by
  have hcstr : pkt'.joinUsername.cstr = pkt.joinUsername.cstr := by
    rcases le_or_gt sizeofPayloadJoin pkt.header.bodyLen with hlong | hshort
    · have hbytes : pkt.joinUsername.bytes = pkt'.joinUsername.bytes := alike.take_eq hlong
      rw [Buffer.ext hbytes]
    · obtain ⟨b, hb, hbad⟩ := settled hjoin hshort
      have hcut (p : GamePacket) : p.joinUsername.bytes.take pkt.header.bodyLen =
          p.body.bytes.take pkt.header.bodyLen := by
        change ((p.body.bytes.drop 0).take 32).take pkt.header.bodyLen = _
        rw [List.drop_zero, List.take_take, Nat.min_eq_left hshort.le]
      refine cstr_eq_of_stops (n := pkt.header.bodyLen) ?_ ?_ hbad hvalid
      · rw [hcut, hcut, alike.body]
      · rw [hcut]
        exact hb
  have hvalid' : inputValidateUsername pkt'.joinUsername = true := by
    rw [inputValidateUsername_iff, hcstr]
    exact inputValidateUsername_iff.1 hvalid
  refine ⟨hvalid', Buffer.ext ?_⟩
  have hholds := username_holds hvalid
  have hholds' := username_holds hvalid'
  rw [hcstr] at hholds'
  exact hholds'.trans hholds.symm

/-- They are accepted or rejected alike. -/
lemma PacketsAlike.valid_eq {pkt pkt' : GamePacket} (alike : PacketsAlike pkt pkt')
    (settled : NameSettled pkt) (hjoin : pkt.header.opcode = OpCode.join.code) :
    inputValidateUsername pkt'.joinUsername = inputValidateUsername pkt.joinUsername := by
  rw [Bool.eq_iff_iff]
  refine ⟨fun hvalid' => ?_, fun hvalid => (alike.username_eq settled hjoin hvalid).1⟩
  exact (alike.symm.username_eq (alike.settled settled) (alike.header ▸ hjoin) hvalid').1

/-- An attack of the right size has the same dice in both. -/
lemma PacketsAlike.attackDamage_eq {pkt pkt' : GamePacket} (alike : PacketsAlike pkt pkt')
    (hsize : pkt.header.length.toNat = 16) : pkt.attackDamage = pkt'.attackDamage := by
  have hlen : 4 ≤ pkt.header.bodyLen := by
    rw [PacketHeader.bodyLen, hsize]
    decide
  rw [GamePacket.attackDamage, alike.take_eq hlen]
  rfl

/-! ## Receiving -/

/-- What a receive does to a connection does not depend on what the buffer held. -/
lemma recvPacket_alike (c : Connection) (packet : GamePacket) :
    Option.Rel PacketsAlike (recvPacket c).1 (recvPacket { c with packet }).1 ∧
      (recvPacket c).2.ssl = (recvPacket { c with packet }).2.ssl ∧
      (recvPacket c).2.rp = (recvPacket { c with packet }).2.rp := by
  simp only [recvPacket]
  rcases hhead : recvExactly sizeofPacketHeader c.ssl with ⟨_ | head, s₁⟩
  · exact ⟨.none, rfl, rfl⟩
  by_cases hvalid : (PacketHeader.ofBytes head).validLength = true
  swap
  · simp only [hvalid, Bool.not_false, if_true]
    exact ⟨.none, trivial, trivial⟩
  simp only [hvalid, Bool.not_true, Bool.false_eq_true, if_false]
  rcases hvalidate : replayProtectionValidate c.rp (PacketHeader.ofBytes head).seqNum with
    ⟨_ | _, rp⟩
  · exact ⟨.none, rfl, rfl⟩
  dsimp only
  rcases hbody : recvExactly (PacketHeader.ofBytes head).bodyLen s₁ with ⟨_ | body, s₂⟩
  · exact ⟨.none, rfl, rfl⟩
  have htake (b : Buffer maxPayloadSize) :
      (b.write body).bytes.take (PacketHeader.ofBytes head).bodyLen = body := by
    have hlen := (recvExactly_eq_some hbody).1
    rw [← hlen]
    exact take_write (length_le_of_validLength hvalid hlen)
  simp only [htake]
  split_ifs
  · exact ⟨.none, rfl, rfl⟩
  · exact ⟨.some ⟨rfl, (htake _).trans (htake _).symm⟩, rfl, rfl⟩

lemma rel_and {α β : Type} {R : α → β → Prop} {P : α → Prop} {a : Option α} {b : Option β}
    (h : Option.Rel R a b) (hP : ∀ x, a = some x → P x) :
    Option.Rel (fun x y => R x y ∧ P x) a b := by
  cases h with
  | some hxy => exact .some ⟨hxy, hP _ rfl⟩
  | none => exact .none

lemma recvPacketWithTimeout_alike (sel : SelectRet) (timeoutSec : ℕ) {c c' : Connection}
    (hssl : c.ssl = c'.ssl) (hrp : c.rp = c'.rp) :
    Option.Rel PacketsAlike (recvPacketWithTimeout sel timeoutSec c).1
        (recvPacketWithTimeout sel timeoutSec c').1 ∧
      (recvPacketWithTimeout sel timeoutSec c).2.ssl =
        (recvPacketWithTimeout sel timeoutSec c').2.ssl ∧
      (recvPacketWithTimeout sel timeoutSec c).2.rp =
        (recvPacketWithTimeout sel timeoutSec c').2.rp := by
  have hc' : c' = { c with packet := c'.packet } := by rw [hssl, hrp]
  rw [recvPacketWithTimeout, recvPacketWithTimeout]
  split_ifs
  · exact ⟨.none, hssl, hrp⟩
  · rw [hc']
    exact recvPacket_alike c c'.packet

/-! ## The workers -/

/-- What is taken for alike: marks that admit the same username, and received packets that agree
in what was received, where the first one's name is settled.  Everything else must be equal. -/
def workerLikeness : Likeness WorkerOp WorkerOp.Ret where
  op
    | .mark (.admitted pkt), .mark (.admitted pkt') => pkt.username = pkt'.username
    | .mark (.dispatched pkt), .mark (.dispatched pkt') => pkt.header = pkt'.header
    | o, o' => o = o'
  ret
    | .recv timeoutSec, .recv _ =>
        Option.Rel fun pkt pkt' => PacketsAlike pkt pkt' ∧ (timeoutSec = 0 → NameSettled pkt)
    | .mark _, .mark _ => fun _ _ => True
    | _, _ => fun r r' => HEq r r'

lemma workerLikeness_refl (o : WorkerOp) : workerLikeness.op o o := by
  cases o with
  | mark m => cases m <;> exact rfl
  | _ => exact rfl

lemma exists_mark_of_op {m : Mark} {o : WorkerOp} (h : workerLikeness.op (.mark m) o) :
    ∃ m', o = .mark m' := by
  cases o with
  | mark m' => exact ⟨m', rfl⟩
  | _ => cases m <;> exact nomatch (show WorkerOp.mark _ = _ from h)

/-- Everything but a receive is answered equally. -/
lemma plain_of_not_recv {o : WorkerOp} (h : o.receives = false) : workerLikeness.Plain o := by
  refine ⟨workerLikeness_refl o, ?_⟩
  intro r r' hr
  cases o with
  | recv t => cases h
  | mark m => rfl
  | _ => exact eq_of_heq hr

/-- The worker issues only operations that are answered equally. -/
def PlainWorker {α : Type} (p : Worker α) : Prop :=
  ∀ h, Conforms (fun _ o => workerLikeness.Plain o) (fun _ _ => True) h p

lemma PlainWorker.alike {α : Type} {p : Worker α} (hp : PlainWorker p) : Alike workerLikeness p p :=
  .of_plain (hp [])

lemma plain_of_not_receives {α : Type} {p : Worker α}
    (hp : Issues (fun o => o.receives = false) p) : PlainWorker p := by
  intro h
  refine hp.conforms (fun _ _ _ ho => plain_of_not_recv ho) ?_ trivial
  intros
  trivial

lemma closeClient_plain (playerId : ℤ) : PlainWorker (closeClient playerId) :=
  plain_of_not_receives (closeClient_not_receives playerId)

lemma heartbeatExpired_plain (l : ClientLocals) : PlainWorker (heartbeatExpired l) :=
  plain_of_not_receives (heartbeatExpired_not_receives l)

lemma handleAttack_plain (pkt : GamePacket) (playerName : Buffer maxPlayerName) :
    PlainWorker (handleAttack pkt playerName) :=
  plain_of_not_receives (handleAttack_not_receives pkt playerName)

lemma handleHeartbeat_plain : PlainWorker handleHeartbeat :=
  plain_of_not_receives handleHeartbeat_not_receives

lemma handleJoin_plain : PlainWorker handleJoin := fun _ =>
  ⟨plain_of_not_recv rfl, fun _ => ⟨plain_of_not_recv rfl, fun _ => trivial⟩⟩

/-- With alike packets the `switch` goes the same way, if they have passed the checks before it. -/
lemma dispatch_alike (l : ClientLocals) {pkt pkt' : GamePacket} (alike : PacketsAlike pkt pkt')
    (hsize : inputValidatePacketSize pkt.header.opcode pkt.header.length = true) :
    Alike workerLikeness (dispatch l pkt) (dispatch l pkt') := by
  simp only [dispatch, ← alike.header, perform_bind]
  split_ifs with hattack hheartbeat hleave
  · refine ⟨alike.header, ?_⟩
    intro _ _ _
    rw [hattack, inputValidatePacketSize_attack] at hsize
    have hdamage := alike.attackDamage_eq hsize
    have hsame : handleAttack pkt' l.username = handleAttack pkt l.username := by
      unfold handleAttack attackDice
      rw [hdamage]
    rw [hsame]
    apply (handleAttack_plain pkt l.username).alike.bind
    intro sent
    cases sent with
    | false => exact (closeClient_plain _).alike
    | true => exact rfl
  · refine ⟨alike.header, fun _ _ _ => handleHeartbeat_plain.alike.bind ?_⟩
    intro r
    obtain ⟨lastHeartbeat, sent⟩ := r
    cases sent with
    | false => exact (closeClient_plain _).alike
    | true => exact rfl
  · exact ⟨alike.header, fun _ _ _ => (closeClient_plain _).alike⟩
  · exact rfl

lemma handlePacket_alike (l : ClientLocals) {pkt pkt' : GamePacket}
    (alike : PacketsAlike pkt pkt') :
    Alike workerLikeness (handlePacket l pkt) (handlePacket l pkt') := by
  simp only [handlePacket, ← alike.header, perform_bind]
  refine ⟨rfl, ?_⟩
  intro now now' hnow
  obtain rfl : now = now' := eq_of_heq hnow
  dsimp only
  split_ifs with hallowed hopcode hsize
  · exact (closeClient_plain _).alike
  · exact (closeClient_plain _).alike
  · exact (closeClient_plain _).alike
  · exact dispatch_alike _ alike (by simpa using hsize)

lemma handleClientLoop_alike (l : ClientLocals) :
    Alike workerLikeness (handleClientLoop l) (handleClientLoop l) := by
  apply (heartbeatExpired_plain l).alike.bind
  intro expired
  cases expired with
  | true => exact (closeClient_plain _).alike
  | false =>
      refine ⟨rfl, ?_⟩
      intro received received' hreceived
      cases hreceived with
      | none => exact (heartbeatExpired_plain l).alike.bind fun _ => (closeClient_plain _).alike
      | some h => exact handlePacket_alike l h.1

lemma handleClient_alike : Alike workerLikeness handleClient handleClient := by
  simp only [handleClient, perform_bind]
  refine ⟨rfl, fun now now' hnow => ⟨rfl, ?_⟩⟩
  intro received received' hreceived
  obtain rfl : now = now' := eq_of_heq hnow
  cases hreceived with
  | none => exact (closeClient_plain _).alike
  | @some pkt pkt' h =>
      obtain ⟨alike, hsettled⟩ := h
      have settled := hsettled rfl
      by_cases hjoin : pkt.header.opcode = OpCode.join.code
      swap
      · simp only [← alike.header, hjoin, ne_eq, not_false_eq_true, if_true]
        exact (closeClient_plain _).alike
      simp only [← alike.header, hjoin, alike.valid_eq settled hjoin, ne_eq, not_true_eq_false,
        if_false]
      split_ifs with hvalid
      · exact (closeClient_plain _).alike
      · have husername := (alike.username_eq settled hjoin (by simpa using hvalid)).2
        rw [husername]
        refine ⟨husername.symm, fun _ _ _ => handleJoin_plain.alike.bind ?_⟩
        intro joined
        obtain ⟨playerId, sent⟩ := joined
        cases sent with
        | false => exact (closeClient_plain _).alike
        | true => exact rfl

/-! ## Two servers -/

section Servers

variable {ι : Type} [DecidableEq ι]

/-- The same shared state, and connections that differ in their packet buffers at most. -/
structure ServersAlike (s s' : ServerState ι) : Prop where
  shm : s.shm = s'.shm
  ssl : ∀ i, (s.conn i).ssl = (s'.conn i).ssl
  rp : ∀ i, (s.conn i).rp = (s'.conn i).rp

/-- If the first packet on the stream is a join shorter than a name, a character that no name may
have has come in with it. -/
def FirstJoinSettled (ssl : Ssl) : Prop :=
  ∀ header body, parsePacket replayProtectionInit ssl.deliverable = some (header, body) →
    header.opcode = OpCode.join.code → body.length < sizeofPayloadJoin →
    ∃ b ∈ body, isNameChar b = false

lemma ServersAlike.setConn {s s' : ServerState ι} (alike : ServersAlike s s') (i : ι)
    {c c' : Connection} (hssl : c.ssl = c'.ssl) (hrp : c.rp = c'.rp) :
    ServersAlike (s.setConn i c) (s'.setConn i c') where
  shm := alike.shm
  ssl j := by
    by_cases hj : j = i
    · subst hj
      simpa only [ServerState.conn_setConn_self] using hssl
    · simpa only [ServerState.conn_setConn_of_ne _ hj] using alike.ssl j
  rp j := by
    by_cases hj : j = i
    · subst hj
      simpa only [ServerState.conn_setConn_self] using hrp
    · simpa only [ServerState.conn_setConn_of_ne _ hj] using alike.rp j

variable {ssl : ι → Ssl} {buffer : ι → GamePacket}

lemma nameSettled_of_first {ssl : Ssl} {buffer pkt : GamePacket} {sel : SelectRet} {timeoutSec : ℕ}
    (settled : FirstJoinSettled ssl)
    (h : (recvPacketWithTimeout sel timeoutSec (.fresh ssl buffer)).1 = some pkt) :
    NameSettled pkt := by
  obtain ⟨body, hparse, hpkt⟩ := parse_of_received h
  obtain ⟨hvalid, hlen, -⟩ := parsePacket_eq_some_iff.1 hparse
  have htake : pkt.body.bytes.take pkt.header.bodyLen = body := by
    rw [hpkt, receivedPacket, ← hlen]
    exact take_write (length_le_of_validLength hvalid hlen)
  intro hjoin hshort
  rw [htake]
  exact settled pkt.header body hparse hjoin (hlen ▸ hshort)

lemma server_preserves (settled : ∀ i, FirstJoinSettled (ssl i)) :
    PreservesAlike (server ι) (serverInit ssl buffer) workerLikeness ServersAlike := by
  intro log c i e o o' s' k run next alike hop
  have hconf := run.conforms (server_disciplined ssl buffer) i
  rw [next] at hconf
  have allowed := hconf.1
  cases o with
  | mark m =>
      obtain ⟨m', rfl⟩ := exists_mark_of_op hop
      exact ⟨trivial, alike⟩
  | recv timeoutSec =>
      obtain rfl : WorkerOp.recv timeoutSec = o' := hop
      obtain ⟨hrel, hssl, hrp⟩ :=
        recvPacketWithTimeout_alike e.select timeoutSec (alike.ssl i) (alike.rp i)
      refine ⟨?_, alike.setConn i hssl hrp⟩
      apply rel_and hrel
      intro pkt hpkt ht
      have hfirst : (recvPacketWithTimeout e.select timeoutSec (c.shared.conn i)).1 = some pkt :=
        hpkt
      rw [conn_of_untouched run (allowed.2 ht)] at hfirst
      exact nameSettled_of_first (settled i) hfirst
  | game o =>
      obtain rfl : WorkerOp.game o = o' := hop
      refine ⟨?_, ?_, alike.ssl, alike.rp⟩
      · change HEq (o.exec e.now c.shared.shm).1 (o.exec e.now s'.shm).1
        rw [alike.shm]
      · change (o.exec e.now c.shared.shm).2 = (o.exec e.now s'.shm).2
        rw [alike.shm]
  | rand =>
      obtain rfl : WorkerOp.rand = o' := hop
      exact ⟨.rfl, alike⟩
  | time =>
      obtain rfl : WorkerOp.time = o' := hop
      exact ⟨.rfl, alike⟩
  | send r =>
      obtain rfl : WorkerOp.send r = o' := hop
      have hsend : sendPacket r.packet r.payload.length (c.shared.conn i).ssl =
          sendPacket r.packet r.payload.length (s'.conn i).ssl := by rw [alike.ssl]
      refine ⟨?_, alike.setConn i (congrArg Prod.snd hsend) (alike.rp i)⟩
      change HEq (sendPacket r.packet r.payload.length (c.shared.conn i).ssl).1
        (sendPacket r.packet r.payload.length (s'.conn i).ssl).1
      rw [hsend]
  | tlsShutdown =>
      obtain rfl : WorkerOp.tlsShutdown = o' := hop
      exact ⟨.rfl, alike⟩

/-! ## Outcomes -/

/-- Whom a step admits, and under which name. -/
def admission (i : ι) : WorkerOp → Option (ι × Buffer maxPlayerName)
  | .mark (.admitted pkt) => some (i, pkt.username)
  | _ => none

/-- Who has been admitted, latest first. -/
def admissions (log : List (ServerEvent ι)) : List (ι × Buffer maxPlayerName) :=
  log.filterMap fun e => admission e.thread e.op

/-- The two runs have admitted the same clients under the same names, sent the same replies and
reached the same shared state. -/
structure SameOutcome
    (x x' : List (ServerEvent ι) ×
      Config ι WorkerOp WorkerOp.Ret (Option ClientLocals) (ServerState ι)) : Prop where
  admissions : admissions x.1 = admissions x'.1
  sent : ∀ i, (x.2.shared.conn i).ssl.sent = (x'.2.shared.conn i).ssl.sent
  shm : x.2.shared.shm = x'.2.shared.shm

omit [DecidableEq ι] in
lemma admission_eq (i : ι) {o o' : WorkerOp} (h : workerLikeness.op o o') :
    admission i o = admission i o' := by
  cases o with
  | mark m =>
      obtain ⟨m', rfl⟩ := exists_mark_of_op h
      cases m with
      | admitted pkt =>
          cases m' with
          | admitted pkt' => exact congrArg (fun name => some (i, name)) h
          | _ => cases h
      | dispatched pkt =>
          cases m' with
          | admitted pkt' => cases h
          | _ => rfl
      | attackReturned result state =>
          cases m' with
          | admitted pkt' => cases h
          | _ => rfl
  | _ =>
      cases h
      rfl

omit [DecidableEq ι] in
lemma admissions_eq {log log' : List (ServerEvent ι)} (h : LogsAlike workerLikeness log log') :
    admissions log = admissions log' := by
  induction h with
  | nil => rfl
  | @cons e e' log log' h logs ih =>
      obtain ⟨hthread, hop⟩ := h
      simp only [admissions, List.filterMap_cons] at ih ⊢
      rw [ih, ← hthread, admission_eq e.thread hop]

/-- The outcome does not depend on the buffers if the first packets are settled. -/
lemma sameOutcome_of_settled (settled : ∀ i, FirstJoinSettled (ssl i)) (buffer' : ι → GamePacket)
    (schedule : List (ι × ServerEnv)) :
    SameOutcome ((server ι).play (serverInit ssl buffer) schedule)
      ((server ι).play (serverInit ssl buffer') schedule) := by
  have start : ConfigsAlike workerLikeness ServersAlike (serverInit ssl buffer)
      (serverInit ssl buffer') :=
    ⟨⟨rfl, fun _ => rfl, fun _ => rfl⟩, fun _ => handleClient_alike⟩
  have again (v : Option ClientLocals) (p : Worker (Option ClientLocals))
      (hp : (server ι).resume v = some p) : Alike workerLikeness p p := by
    obtain ⟨l, -, rfl⟩ := Option.map_eq_some_iff.1 hp
    exact handleClientLoop_alike l
  obtain ⟨hlogs, hconfigs⟩ :=
    Machine.play_alike (server_preserves settled) again start schedule
  exact ⟨admissions_eq hlogs, fun i => congrArg Ssl.sent (hconfigs.shared.ssl i),
    hconfigs.shared.shm⟩

/-! ## Streams whose outcome depends on the buffer -/

/-- A packet buffer whose bytes are `bs` and then `c`, up to the end. -/
def bufferOf (bs : List UInt8) (c : UInt8) : GamePacket :=
  { GamePacket.zero with body := (Buffer.fill _ c).write bs }

/-- The 32 bytes that are read as a name. -/
lemma joinUsername_received (old : GamePacket) (header : PacketHeader) {body : List UInt8}
    (hshort : body.length < sizeofPayloadJoin) :
    (receivedPacket old header body).joinUsername.bytes =
      body ++ (old.body.bytes.drop body.length).take (sizeofPayloadJoin - body.length) := by
  have hfits : body.length ≤ maxPayloadSize := by
    simp only [sizeofPayloadJoin, maxPayloadSize] at *
    omega
  change (((old.body.write body).bytes.drop 0).take 32) = _
  rw [List.drop_zero, bytes_write hfits, List.take_append,
    List.take_of_length_le (show body.length ≤ 32 from hshort.le)]

lemma ne_zero_of_isNameChar {b : UInt8} (h : isNameChar b = true) : b ≠ 0 := by
  rintro rfl
  revert h
  decide

/-- In a buffer that holds a letter and NULs, a short join with only characters of a name carries
a valid username. -/
lemma valid_over_letter (header : PacketHeader) {body : List UInt8}
    (hshort : body.length < sizeofPayloadJoin) (hchars : ∀ b ∈ body, isNameChar b = true) :
    inputValidateUsername (receivedPacket (bufferOf [97] 0) header body).joinUsername = true := by
  have hbytes := joinUsername_received (bufferOf [97] 0) header hshort
  have hbuffer : (bufferOf [97] 0).body.bytes = 97 :: List.replicate 1023 0 := rfl
  rw [hbuffer] at hbytes
  have hholds : ∃ s, (receivedPacket (bufferOf [97] 0) header body).joinUsername.Holds s ∧
      0 < s.length ∧ s.length < 32 ∧ ∀ b ∈ s, isNameChar b = true := by
    cases body with
    | nil => exact ⟨[97], hbytes, by decide, by decide, List.forall_mem_singleton.2 rfl⟩
    | cons b body =>
        refine ⟨b :: body, hbytes.trans ?_, Nat.succ_pos _, hshort, hchars⟩
        have hlen : body.length + 1 < 32 := hshort
        rw [List.length_cons, List.drop_succ_cons, List.drop_replicate, List.take_replicate]
        congr 2
        simp only [sizeofPayloadJoin, maxPlayerName]
        omega
  obtain ⟨s, hs, hpos, hlt, hnames⟩ := hholds
  have hcstr := hs.cstr_eq fun hzero => ne_zero_of_isNameChar (hnames 0 hzero) rfl
  rw [inputValidateUsername_iff, hcstr]
  exact ⟨hpos, hlt, hnames⟩

/-- In one full of characters that no name has, it does not. -/
lemma invalid_over_at (header : PacketHeader) {body : List UInt8}
    (hshort : body.length < sizeofPayloadJoin) (hchars : ∀ b ∈ body, isNameChar b = true) :
    inputValidateUsername (receivedPacket (bufferOf [] 64) header body).joinUsername = false := by
  have hbytes := joinUsername_received (bufferOf [] 64) header hshort
  have hbuffer : (bufferOf [] 64).body.bytes = List.replicate 1024 64 := rfl
  rw [hbuffer] at hbytes
  have hall : ∀ b ∈ (receivedPacket (bufferOf [] 64) header body).joinUsername.bytes,
      decide (b ≠ 0) = true := by
    intro b hb
    rw [hbytes, List.mem_append] at hb
    rcases hb with hb | hb
    · exact decide_eq_true (ne_zero_of_isNameChar (hchars b hb))
    · rw [List.eq_of_mem_replicate (List.mem_of_mem_drop (List.mem_of_mem_take hb))]
      rfl
  have hcstr : (receivedPacket (bufferOf [] 64) header body).joinUsername.cstr.length = 32 := by
    rw [cstr, List.takeWhile_eq_self_iff.2 hall]
    exact Buffer.size_eq _
  rw [← Bool.not_eq_true, inputValidateUsername_iff, hcstr]
  exact fun h => Nat.lt_irrefl 32 h.2.1

/-- Two buffers tell such a stream's outcomes apart. -/
lemma settled_of_sameOutcome
    (same : ∀ buffer buffer' : ι → GamePacket, ∀ schedule,
      SameOutcome ((server ι).play (serverInit ssl buffer) schedule)
        ((server ι).play (serverInit ssl buffer') schedule)) (i : ι) :
    FirstJoinSettled (ssl i) := by
  intro header body hparse hjoin hshort
  by_contra hnone
  have hchars : ∀ b ∈ body, isNameChar b = true := fun b hb => by
    by_contra hbad
    exact hnone ⟨b, hb, Bool.eq_false_iff.2 hbad⟩
  let e : ServerEnv := ⟨0, 0, .ready⟩
  have hsame := (same (fun _ => bufferOf [97] 0) (fun _ => bufferOf [] 64)
    (List.replicate 3 (i, e))).admissions
  obtain ⟨mark, earlier, hlog, -, -, hop⟩ := admits_first (fun _ => bufferOf [97] 0) i e
    hparse hjoin (valid_over_letter header hshort hchars)
  obtain ⟨k, hk, hfirst⟩ := handleClient_eq
  obtain ⟨log, c, hops, hthread, hplay⟩ :=
    first_steps (fun _ => bufferOf [] 64) i e hparse hk
  have hrejected := (hfirst e.now (receivedPacket (bufferOf [] 64) header body) hjoin).2
    (invalid_over_at header hshort hchars)
  have hnobody : admissions log = [] := by
    apply List.filterMap_eq_nil_iff.2
    intro ev hev
    have hmem : ev.op ∈ log.map Event.op := List.mem_map_of_mem hev
    rw [hops, List.mem_cons, List.mem_singleton] at hmem
    rcases hmem with h | h <;> rw [h] <;> rfl
  rw [hlog, hplay, Machine.turn_call (hthread.trans hrejected)] at hsame
  have hclosed : admissions ((server ι).event i e .tlsShutdown c.shared :: log) = [] := hnobody
  rw [hclosed, admissions, List.filterMap_cons, hop] at hsame
  exact List.cons_ne_nil _ _ hsame

/-- **The server acts on received bytes only**: for all contents of the packet buffers and every
schedule the outcome is the same, if and only if no session begins with a join that is shorter
than a name and in which only characters of a name have come in. -/
theorem sameOutcome_iff (ssl : ι → Ssl) :
    (∀ buffer buffer' : ι → GamePacket, ∀ schedule,
      SameOutcome ((server ι).play (serverInit ssl buffer) schedule)
        ((server ι).play (serverInit ssl buffer') schedule)) ↔
      ∀ i, FirstJoinSettled (ssl i) :=
  ⟨settled_of_sameOutcome, fun settled _ buffer' => sameOutcome_of_settled settled buffer'⟩

end Servers

/-! ## A name that ends behind the stream -/

/-- The header of a join whose body is `abc`, without a NUL. -/
def openJoin : PacketHeader := (clientPacket 0 OpCode.join.code [97, 98, 99]).header

/-- A connection on which it arrives. -/
def openJoinSsl : Ssl := ⟨[], [.record 15 (openJoin.bytes.drop 1 ++ [97, 98, 99])], [], []⟩

/-- Whether the client is admitted depends on what the packet buffer held. -/
theorem openJoin_outcomes :
    ∃ buffer buffer' : Unit → GamePacket, ∃ schedule,
      ¬SameOutcome ((server Unit).play (serverInit (fun _ => openJoinSsl) buffer) schedule)
        ((server Unit).play (serverInit (fun _ => openJoinSsl) buffer') schedule) := by
  refine ⟨fun _ => .zero, fun _ => bufferOf [] 64, List.replicate 3 ((), ⟨0, 0, .ready⟩), ?_⟩
  intro same
  have hadmitted := congrArg List.length same.admissions
  revert hadmitted
  decide +kernel

end WorldBossRaid
