import WorldBossRaid.Model.EndToEnd
import WorldBossRaid.Properties.Framing

/-!
# One packet on a connection

What the ends of a `Line` do with a queue that is empty or holds one packet: an empty queue fails
every receive; from a queue that holds the bytes of one message, a receive takes the whole message
and nothing else, or fails; and if its bytes come in and the other checks pass, it succeeds.  A
send puts the whole message on the queue or leaves the queue alone.
-/

namespace WorldBossRaid

open Bytes

/-! ## Records -/

lemma chop_data (cuts : List Cut) (bs : List UInt8) :
    (chop cuts bs).1.flatMap Arrival.data ++ (chop cuts bs).2 = bs := by
  induction cuts generalizing bs with
  | nil => rfl
  | cons cut cuts ih =>
      cases cut with
      | want => exact ih bs
      | failure => exact ih bs
      | piece k =>
          cases bs with
          | nil => exact ih []
          | cons b bs =>
              rw [chop, List.flatMap_cons, Arrival.data, List.append_assoc, ih, List.cons_append,
                List.take_append_drop]

/-- What can be read is at the front. -/
lemma delivered_front (as : List Arrival) : delivered as <+: as.flatMap Arrival.data := by
  induction as with
  | nil => exact List.prefix_rfl
  | cons a as ih =>
      cases a with
      | record b bs => exact (List.prefix_append_right_inj _).2 ih
      | want => exact ih
      | failure => exact List.nil_prefix

lemma failure_notMem_chop {cuts : List Cut} (intact : Cut.failure ∉ cuts) (bs : List UInt8) :
    Arrival.failure ∉ (chop cuts bs).1 := by
  induction cuts generalizing bs with
  | nil => exact List.not_mem_nil
  | cons cut cuts ih =>
      rw [List.mem_cons, not_or] at intact
      have other {a : Arrival} {bs : List UInt8} (ha : Arrival.failure ≠ a) :
          Arrival.failure ∉ a :: (chop cuts bs).1 := by
        rw [List.mem_cons, not_or]
        exact ⟨ha, ih intact.2 bs⟩
      cases cut with
      | want => exact other (by simp)
      | failure => exact absurd rfl intact.1
      | piece k =>
          cases bs with
          | nil => exact ih intact.2 []
          | cons b bs => exact other (by simp)

lemma delivered_chop_front (cuts : List Cut) (bs : List UInt8) :
    delivered (chop cuts bs).1 <+: bs :=
  (delivered_front _).trans ⟨_, chop_data cuts bs⟩

lemma deliverable_reading (as : List Arrival) : (Ssl.reading as).deliverable = delivered as :=
  List.nil_append _

lemma plaintext_reading (as : List Arrival) :
    (Ssl.reading as).plaintext = as.flatMap Arrival.data := List.nil_append _

/-! ## Receiving -/

/-- A packet lies at the front of a queue. -/
structure Fronts (header : PacketHeader) (body : List UInt8) (stream : List UInt8) : Prop where
  length_body : body.length = header.bodyLen
  front : header.bytes ++ body <+: stream

lemma Fronts.ne_nil {header : PacketHeader} {body stream : List UInt8}
    (fronts : Fronts header body stream) : stream ≠ [] := by
  rintro rfl
  have hlen := fronts.front.length_le
  rw [List.length_append, header.length_bytes, List.length_nil] at hlen
  simp only [sizeofPacketHeader] at hlen
  omega

/-- A queue that holds one message has no other packet at its front. -/
lemma Fronts.eq_message {m : Message} {header : PacketHeader} {body : List UInt8}
    (fronts : Fronts header body m.wire) : header = m.header ∧ body = m.payload := by
  obtain ⟨hlen, rest, hfront⟩ := fronts
  rw [m.wire_eq, List.append_assoc] at hfront
  obtain ⟨hbytes, hrest⟩ :=
    List.append_inj hfront (header.length_bytes.trans m.header.length_bytes.symm)
  have hheader : header = m.header := by
    rw [← header.ofBytes_bytes, hbytes, PacketHeader.ofBytes_bytes]
  refine ⟨hheader, List.IsPrefix.eq_of_length ⟨rest, hrest⟩ ?_⟩
  rw [hlen, hheader, m.bodyLen_header, m.length_payload]

/-- A packet that the client's receive function returns lies at the front of the stream. -/
lemma fronts_of_pktRecvLocal {ssl ssl' : Ssl} {packet pkt : GamePacket}
    (h : pktRecvLocal ssl packet = (some pkt, ssl')) :
    ∃ body, Fronts pkt.header body ssl.deliverable ∧ pkt = receivedPacket packet pkt.header body ∧
      ssl.Reads (pkt.header.bytes ++ body) ssl' := by
  rw [pktRecvLocal] at h
  rcases hhead : recvExactly sizeofPacketHeader ssl with ⟨_ | head, s₁⟩
  · simp [hhead] at h
  rw [hhead] at h
  simp only at h
  obtain ⟨hheadLen, hreads₁⟩ := recvExactly_eq_some hhead
  by_cases hvalid : (PacketHeader.ofBytes head).validLength = true
  swap
  · simp [hvalid] at h
  simp only [hvalid, Bool.not_true, Bool.false_eq_true, if_false] at h
  rcases hbody : recvExactly (PacketHeader.ofBytes head).bodyLen s₁ with ⟨_ | body, s₂⟩
  · simp [hbody] at h
  rw [hbody] at h
  obtain ⟨hpkt, rfl⟩ := Prod.mk.inj h
  obtain rfl := Option.some.inj hpkt
  obtain ⟨hbodyLen, hreads₂⟩ := recvExactly_eq_some hbody
  have hreads := hreads₁.trans hreads₂
  rw [← PacketHeader.bytes_ofBytes hheadLen] at hreads
  exact ⟨body, ⟨hbodyLen, _, hreads.deliverable_eq.symm⟩, rfl, hreads⟩

/-- The packet that a receiver gets from a message. -/
structure Message.Gets (m : Message) (p : GamePacket) : Prop where
  header : p.header = m.header
  payload : p.body.bytes.take m.payloadSize = m.payload

lemma Message.gets_receivedPacket (m : Message) (old : GamePacket) :
    m.Gets (receivedPacket old m.header m.payload) :=
  ⟨rfl, (m.readAs_receivedPacket old).payload⟩

section Line

variable {e : LineEnv} {l : Line} {timeoutSec : ℕ} {m : Message} {pkt q : GamePacket}

/-- What is left of a queue after a packet has been read from it. -/
lemma rest_eq_nil {cuts : List Cut} {ssl' : Ssl} (hreads : (Ssl.reading (chop cuts m.wire).1).Reads
    (m.header.bytes ++ m.payload) ssl') : ssl'.plaintext ++ (chop cuts m.wire).2 = [] := by
  have hall := chop_data cuts m.wire
  rw [← plaintext_reading, hreads.plaintext_eq, m.wire_eq, List.append_assoc] at hall
  rw [m.wire_eq]
  exact List.append_cancel_left (hall.trans (List.append_nil _).symm)

lemma serverRecv_eq_some (h : (l.serverRecv e timeoutSec).1 = some q) :
    ∃ c, recvPacket ⟨Ssl.reading (chop e.cuts l.toServer).1, l.packet, l.rp⟩ = (some q, c) ∧
      (l.serverRecv e timeoutSec).2 =
        { l with
          toServer := c.ssl.plaintext ++ (chop e.cuts l.toServer).2
          packet := c.packet
          rp := c.rp } := by
  simp only [Line.serverRecv] at h ⊢
  rw [recvPacketWithTimeout] at h ⊢
  split_ifs at h ⊢
  exact ⟨_, Prod.ext h rfl, rfl⟩

lemma serverRecv_of_empty (empty : l.toServer = []) : (l.serverRecv e timeoutSec).1 = none := by
  rw [Option.eq_none_iff_forall_ne_some]
  intro q h
  obtain ⟨c, hrecv, -⟩ := serverRecv_eq_some h
  obtain ⟨body, hparse⟩ := parse_of_recvPacket hrecv
  obtain ⟨-, hlen, -, -, rest, hstream⟩ := parsePacket_eq_some_iff.1 hparse
  have hfront := delivered_chop_front e.cuts l.toServer
  rw [← deliverable_reading, hstream, empty, List.prefix_nil] at hfront
  have fronts : Fronts q.header body [] := ⟨hlen, rest, hfront⟩
  exact fronts.ne_nil rfl

/-- From a queue with one message the worker gets that message and leaves nothing. -/
lemma serverRecv_of_wire (wire : l.toServer = m.wire)
    (h : (l.serverRecv e timeoutSec).1 = some q) :
    m.Gets q ∧ (l.serverRecv e timeoutSec).2.toServer = [] ∧
      (l.serverRecv e timeoutSec).2.rp = (replayProtectionValidate l.rp m.header.seqNum).2 := by
  obtain ⟨c, hrecv, hline⟩ := serverRecv_eq_some h
  obtain ⟨body, hparse⟩ := parse_of_recvPacket hrecv
  obtain ⟨-, hlen, -, -, rest, hstream⟩ := parsePacket_eq_some_iff.1 hparse
  have hfront := delivered_chop_front e.cuts l.toServer
  rw [← deliverable_reading, hstream, wire] at hfront
  have fronts : Fronts q.header body m.wire := ⟨hlen, (List.prefix_append _ rest).trans hfront⟩
  obtain ⟨hheader, rfl⟩ := fronts.eq_message
  obtain ⟨ssl, hrecv', hreads⟩ := recvPacket_of_parse hparse
  obtain ⟨hq, rfl⟩ := Prod.mk.inj (hrecv.symm.trans hrecv')
  rw [hline]
  refine ⟨?_, ?_, ?_⟩
  · rw [Option.some.inj hq, hheader]
    exact m.gets_receivedPacket l.packet
  · rw [hheader, wire] at hreads
    rw [wire]
    exact rest_eq_nil hreads
  · rw [← hheader]

/-- If its bytes come in and its number is accepted, the worker does get it. -/
lemma serverRecv_of_delivered (available : timeoutSec = 0 ∨ e.select = .ready)
    (wire : l.toServer = m.wire) (whole : delivered (chop e.cuts l.toServer).1 = l.toServer)
    (accepts : (replayProtectionValidate l.rp m.header.seqNum).1 = true) :
    ∃ q, (l.serverRecv e timeoutSec).1 = some q := by
  have hparse : parsePacket l.rp (Ssl.reading (chop e.cuts l.toServer).1).deliverable =
      some (m.header, m.payload) := by
    refine parsePacket_eq_some_iff.2 ⟨m.validLength_header, ?_, accepts, rfl, [], ?_⟩
    · rw [m.length_payload, m.bodyLen_header]
    · rw [deliverable_reading, whole, wire, m.wire_eq, List.append_nil]
  obtain ⟨ssl, hrecv, -⟩ := recvPacket_of_parse
    (c := ⟨Ssl.reading (chop e.cuts l.toServer).1, l.packet, l.rp⟩) hparse
  refine ⟨_, congrArg Prod.fst ((recvPacketWithTimeout_of_ready available _).trans hrecv)⟩

lemma playerRecv_eq_some {old : GamePacket} (h : ((PlayerOp.recv old).exec e l).1 = some pkt) :
    l.down = false ∧ ∃ ssl', pktRecvLocal (Ssl.reading (chop e.cuts l.toClient).1) old =
        (some pkt, ssl') ∧
      ((PlayerOp.recv old).exec e l).2 =
        { l with toClient := ssl'.plaintext ++ (chop e.cuts l.toClient).2, down := false } := by
  simp only [PlayerOp.exec] at h ⊢
  split_ifs at h ⊢ with hdown
  refine ⟨Bool.eq_false_iff.2 hdown, _, Prod.ext h rfl, ?_⟩
  rw [h]
  rfl

/-- A receive has read all that the worker has sent before it shut the session down. -/
structure ReadsToEnd (e : LineEnv) (l l' : Line) : Prop where
  closed : l.closed = true
  read : delivered (chop e.cuts l.toClient).1 = l.toClient
  toClient : l'.toClient = []
  down : l'.down = false

/-- A client's receive that fails leaves its SSL object unusable, or has met the end of the
stream. -/
lemma playerRecv_eq_none {old : GamePacket} (h : ((PlayerOp.recv old).exec e l).1 = none) :
    ((PlayerOp.recv old).exec e l).2.down = true ∨
      ReadsToEnd e l ((PlayerOp.recv old).exec e l).2 := by
  simp only [PlayerOp.exec] at h ⊢
  split_ifs at h ⊢ with hdown
  · exact Or.inl hdown
  · rw [h]
    cases hend : l.atEnd e.cuts
        ((pktRecvLocal (Ssl.reading (chop e.cuts l.toClient).1) old).2.plaintext ++
          (chop e.cuts l.toClient).2) with
    | false => exact Or.inl rfl
    | true =>
        simp only [Line.atEnd, Bool.and_eq_true, Bool.not_eq_true', List.isEmpty_iff] at hend
        obtain ⟨⟨closed, left⟩, cuts⟩ := hend
        have intact : Cut.failure ∉ e.cuts := fun hmem => by
          rw [List.contains_iff_mem.2 hmem] at cuts
          cases cuts
        refine Or.inr ⟨closed, ?_, left, rfl⟩
        have hall := chop_data e.cuts l.toClient
        rwa [(List.append_eq_nil_iff.1 left).2, List.append_nil,
          ← delivered_eq_of_intact (failure_notMem_chop intact l.toClient)] at hall

/-- A client's receive does not touch what the worker has. -/
lemma playerRecv_frame (old : GamePacket) :
    ((PlayerOp.recv old).exec e l).2.toServer = l.toServer ∧
      ((PlayerOp.recv old).exec e l).2.rp = l.rp ∧
      ((PlayerOp.recv old).exec e l).2.gSeqNum = l.gSeqNum ∧
      ((PlayerOp.recv old).exec e l).2.closed = l.closed := by
  simp only [PlayerOp.exec]
  split_ifs
  · exact ⟨rfl, rfl, rfl, rfl⟩
  · exact ⟨rfl, rfl, rfl, rfl⟩

lemma playerRecv_of_empty {old : GamePacket} (empty : l.toClient = []) :
    ((PlayerOp.recv old).exec e l).1 = none := by
  rw [Option.eq_none_iff_forall_ne_some]
  intro pkt h
  obtain ⟨-, ssl', hrecv, -⟩ := playerRecv_eq_some h
  obtain ⟨body, fronts, -⟩ := fronts_of_pktRecvLocal hrecv
  have hfront := delivered_chop_front e.cuts l.toClient
  rw [empty, List.prefix_nil] at hfront
  rw [deliverable_reading, empty, hfront] at fronts
  exact fronts.ne_nil rfl

/-- From a queue with one message the client gets that message and leaves nothing. -/
lemma playerRecv_of_wire {old : GamePacket} (wire : l.toClient = m.wire)
    (h : ((PlayerOp.recv old).exec e l).1 = some pkt) :
    m.Gets pkt ∧ ((PlayerOp.recv old).exec e l).2.toClient = [] ∧
      ((PlayerOp.recv old).exec e l).2.down = false := by
  obtain ⟨-, ssl', hrecv, hline⟩ := playerRecv_eq_some h
  obtain ⟨body, fronts, hpkt, hreads⟩ := fronts_of_pktRecvLocal hrecv
  have hfront := delivered_chop_front e.cuts l.toClient
  rw [← deliverable_reading, wire] at hfront
  rw [wire] at fronts
  obtain ⟨hheader, rfl⟩ := Fronts.eq_message ⟨fronts.length_body, fronts.front.trans hfront⟩
  rw [hline]
  refine ⟨?_, ?_, rfl⟩
  · rw [hpkt, hheader]
    exact m.gets_receivedPacket old
  · rw [hheader, wire] at hreads
    rw [wire]
    exact rest_eq_nil hreads

lemma playerRecv_of_delivered {old : GamePacket} (up : l.down = false) (wire : l.toClient = m.wire)
    (whole : delivered (chop e.cuts l.toClient).1 = l.toClient) :
    ∃ pkt, ((PlayerOp.recv old).exec e l).1 = some pkt := by
  have hlen : m.payload.length = m.header.bodyLen := by rw [m.length_payload, m.bodyLen_header]
  have hstream : (Ssl.reading (chop e.cuts l.toClient).1).deliverable =
      m.header.bytes ++ m.payload ++ [] := by
    rw [deliverable_reading, whole, wire, m.wire_eq, List.append_nil]
  obtain ⟨ssl', hrecv, -⟩ := pktRecvLocal_of_stream old m.validLength_header hlen hstream
  simp only [PlayerOp.exec, up, Bool.false_eq_true, if_false]
  exact ⟨_, congrArg Prod.fst hrecv⟩

/-! ## Sending -/

lemma pktSendLocal_writing (m : Message) (writable : Bool) :
    (pktSendLocal m.pkt m.payloadSize (Ssl.writing writable)).1 = writable ∧
      (pktSendLocal m.pkt m.payloadSize (Ssl.writing writable)).2.sent =
        if writable then m.wire else [] := by
  cases writable with
  | false => exact ⟨rfl, rfl⟩
  | true =>
      have hok : (pktSendLocal m.pkt m.payloadSize (Ssl.writing true)).1 = true :=
        (pktSendLocal_succeeds m.pkt m.payloadSize rfl).1
      exact ⟨hok, pktSendLocal_sends m.pkt m.payloadSize _ _ (Prod.ext hok rfl)⟩

lemma sendPacket_writing (m : Message) (writable : Bool) :
    (sendPacket m.pkt m.payloadSize (Ssl.writing writable)).1 = writable ∧
      (sendPacket m.pkt m.payloadSize (Ssl.writing writable)).2.sent =
        if writable then m.wire else [] := by
  cases writable with
  | true =>
      have hok : (sendPacket m.pkt m.payloadSize (Ssl.writing true)).1 = true :=
        (sendPacket_succeeds m.pkt m.payloadSize List.not_mem_nil).1
      exact ⟨hok, sendPacket_sends m.pkt m.payloadSize _ _ (Prod.ext hok rfl)⟩
  | false =>
      have hne := m.wire_ne_nil
      rw [Message.wire] at hne
      rw [sendPacket]
      cases hbytes : (m.pkt.seal m.payloadSize).wire with
      | nil => exact absurd hbytes hne
      | cons b bs => exact ⟨rfl, rfl⟩

/-- A reply as a message. -/
def Response.message (r : Response) : Message where
  pkt := r.packet
  payloadSize := r.payload.length
  fits := by
    cases r with
    | joinResp r =>
        rw [Response.payload, PayloadJoinResp.length_bytes]
        simp only [maxPayloadSize]
        omega
    | gameState p =>
        rw [Response.payload, PayloadGameState.length_bytes]
        simp only [maxPayloadSize]
        omega

lemma serverSend_eq (r : Response) :
    (l.serverSend e r).1 = e.writable ∧
      (l.serverSend e r).2 =
        { l with toClient := l.toClient ++ if e.writable then r.message.wire else [] } := by
  obtain ⟨hok, hsent⟩ := sendPacket_writing r.message e.writable
  refine ⟨hok, ?_⟩
  rw [← hsent]
  rfl

lemma playerSend_eq (opcode : OpCode) {payload : List UInt8}
    (fits : payload.length ≤ maxPayloadSize) :
    ((PlayerOp.send opcode payload).exec e l).1 =
        (if e.writable && !l.down then
          some ((l.request opcode payload).seal payload.length) else none) ∧
      ((PlayerOp.send opcode payload).exec e l).2 =
        { l with
          toServer := l.toServer ++ if e.writable && !l.down then
            (Message.wire ⟨l.request opcode payload, payload.length, fits⟩) else []
          gSeqNum := l.gSeqNum + 1
          down := l.down || !(e.writable && !l.down) } := by
  obtain ⟨hok, hsent⟩ := pktSendLocal_writing ⟨l.request opcode payload, payload.length, fits⟩
    (e.writable && !l.down)
  simp only at hok hsent
  refine ⟨?_, ?_⟩
  · simp only [PlayerOp.exec, hok]
  · simp only [PlayerOp.exec, hok, hsent]
    rfl

end Line

end WorldBossRaid
