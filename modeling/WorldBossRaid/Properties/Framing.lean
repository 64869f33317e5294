import WorldBossRaid.Properties.Receive
import WorldBossRaid.Properties.SequenceNumbers

/-!
# Framing

Packets sent one after another are one stream of bytes without separators; both sides rely on the
length field alone to find the next packet.  They never lose their place: what is received, however
the stream is cut, is what was sent, packet by packet, and what the server accepts is exactly what
the bytes it consumed encode.
-/

namespace WorldBossRaid

open Bytes

/-! ## Messages -/

/-- A packet with the payload size that it is sent with. -/
structure Message where
  pkt : GamePacket
  payloadSize : ℕ
  fits : payloadSize ≤ maxPayloadSize

namespace Message

variable (m : Message)

/-- The payload. -/
def payload : List UInt8 := m.pkt.body.bytes.take m.payloadSize

/-- The header as it is sent. -/
def header : PacketHeader := (m.pkt.seal m.payloadSize).header

/-- The bytes sent. -/
def wire : List UInt8 := (m.pkt.seal m.payloadSize).wire

/-- `p` is the message as a receiver reads it. -/
structure ReadAs (m : Message) (p : GamePacket) : Prop where
  opcode : p.header.opcode = m.pkt.header.opcode
  seqNum : p.header.seqNum = m.pkt.header.seqNum
  length : p.header.length.toNat = sizeofPacketHeader + m.payloadSize
  payload : p.body.bytes.take m.payloadSize = m.payload

lemma length_payload : m.payload.length = m.payloadSize := by
  have hfits := m.fits
  rw [payload, List.length_take, m.pkt.body.size_eq]
  omega

lemma length_header : m.header.length.toNat = sizeofPacketHeader + m.payloadSize := by
  have hfits := m.fits
  simp only [maxPayloadSize] at hfits
  have hlt : sizeofPacketHeader + m.payloadSize < 2 ^ 32 := by
    simp only [sizeofPacketHeader]
    omega
  exact UInt32.toNat_ofNat_of_lt' hlt

lemma validLength_header : m.header.validLength = true := by
  have hfits := m.fits
  rw [PacketHeader.validLength, length_header, Bool.and_eq_true, decide_eq_true_iff,
    decide_eq_true_iff]
  simp only [sizeofGamePacket, sizeofPacketHeader, maxPayloadSize] at *
  omega

lemma bodyLen_header : m.header.bodyLen = m.payloadSize := by
  rw [PacketHeader.bodyLen, length_header, Nat.add_sub_cancel_left]

lemma wire_eq : m.wire = m.header.bytes ++ m.payload := by
  have htotal : (m.pkt.seal m.payloadSize).header.length.toNat =
      m.header.bytes.length + m.payloadSize := by
    rw [PacketHeader.length_bytes]
    exact m.length_header
  rw [wire, GamePacket.wire, htotal]
  exact List.take_length_add_append m.payloadSize

lemma wire_ne_nil : m.wire ≠ [] := by
  intro hnil
  have hlen := congrArg List.length (m.wire_eq.symm.trans hnil)
  rw [List.length_append, PacketHeader.length_bytes, sizeofPacketHeader, List.length_nil] at hlen
  omega

/-- Whatever lay in the buffer, the received packet is read as the message. -/
lemma readAs_receivedPacket (old : GamePacket) :
    m.ReadAs (receivedPacket old m.header m.payload) where
  opcode := rfl
  seqNum := rfl
  length := m.length_header
  payload := by
    have hle : m.payload.length ≤ maxPayloadSize := by
      rw [length_payload]
      exact m.fits
    have htake := Buffer.take_write (b := old.body) hle
    rw [length_payload] at htake
    exact htake

end Message

/-! ## Sending -/

/-- Send messages one after another, until one fails. -/
def sendAll (send : GamePacket → ℕ → Ssl → Bool × Ssl) : List Message → Ssl → Bool × Ssl
  | [], s => (true, s)
  | m :: ms, s =>
    match send m.pkt m.payloadSize s with
    | (false, s') => (false, s')
    | (true, s') => sendAll send ms s'

/-- A send function that, when it succeeds, has sent the packet and nothing else. -/
def Sends (send : GamePacket → ℕ → Ssl → Bool × Ssl) : Prop :=
  ∀ pkt n s s', send pkt n s = (true, s') → s'.sent = s.sent ++ (pkt.seal n).wire

lemma sslWrite_eq_some {bs : List UInt8} {s s' : Ssl} {n : ℕ} (h : sslWrite bs s = (some n, s')) :
    n ≤ bs.length ∧ s'.sent = s.sent ++ bs.take n := by
  rw [sslWrite] at h
  split at h
  · cases h
    exact ⟨le_rfl, by rw [List.take_length]⟩
  · next k rest _ =>
      cases h
      refine ⟨min_le_right _ _, ?_⟩
      rcases le_total (k + 1) bs.length with hle | hle
      · rw [min_eq_left hle]
      · rw [min_eq_right hle, List.take_length, List.take_of_length_le hle]
  · cases h

lemma pktSendLocal_sends : Sends pktSendLocal := by
  intro pkt n s s' h
  simp only [pktSendLocal] at h
  rcases hwrite : sslWrite (pkt.seal n).wire s with ⟨_ | k, s₁⟩
  · simp [hwrite] at h
  · rw [hwrite] at h
    obtain ⟨hk, rfl⟩ := Prod.mk.inj h
    rw [(sslWrite_eq_some hwrite).2, beq_iff_eq.1 hk, List.take_length]

lemma sendLoop_sent {fuel : ℕ} {bs : List UInt8} {s s' : Ssl}
    (h : sendLoop fuel bs s = (true, s')) : s'.sent = s.sent ++ bs := by
  induction fuel generalizing bs s with
  | zero =>
      cases bs with
      | nil =>
          cases h
          exact (List.append_nil _).symm
      | cons => cases h
  | succ fuel ih =>
      cases bs with
      | nil =>
          cases h
          exact (List.append_nil _).symm
      | cons b bs =>
          rw [sendLoop] at h
          rcases hwrite : sslWrite (b :: bs) s with ⟨_ | k, s₁⟩
          · simp [hwrite] at h
          · rw [hwrite] at h
            rw [ih h, (sslWrite_eq_some hwrite).2, List.append_assoc, List.take_append_drop]

lemma sendPacket_sends : Sends sendPacket := fun _ _ _ _ h => sendLoop_sent h

lemma sendAll_sent {send : GamePacket → ℕ → Ssl → Bool × Ssl} (hsend : Sends send)
    {ms : List Message} {s s' : Ssl} (h : sendAll send ms s = (true, s')) :
    s'.sent = s.sent ++ ms.flatMap Message.wire := by
  induction ms generalizing s with
  | nil =>
      cases h
      exact (List.append_nil _).symm
  | cons m ms ih =>
      rw [sendAll] at h
      rcases hm : send m.pkt m.payloadSize s with ⟨_ | _, s₁⟩
      · simp [hm] at h
      · rw [hm] at h
        rw [ih h, hsend _ _ _ _ hm, List.flatMap_cons, List.append_assoc]
        rfl

/-! ### Sends that succeed -/

/-- A call of `SSL_write` that does not fail makes some progress. -/
lemma sslWrite_succeeds {s : Ssl} (h : WriteTurn.failure ∉ s.writes) (b : UInt8)
    (bs : List UInt8) :
    ∃ n s', sslWrite (b :: bs) s = (some n, s') ∧ 0 < n ∧ WriteTurn.failure ∉ s'.writes := by
  obtain ⟨pending, arriving, writes, sent⟩ := s
  cases writes with
  | nil => exact ⟨_, _, rfl, Nat.succ_pos _, h⟩
  | cons w rest =>
      cases w with
      | accept k =>
          exact ⟨_, _, rfl, lt_min (Nat.succ_pos _) (Nat.succ_pos _),
            fun later => h (List.mem_cons_of_mem _ later)⟩
      | failure => exact absurd List.mem_cons_self h

/-- `send_packet` tries again until everything is written. -/
lemma sendLoop_succeeds {fuel : ℕ} {bs : List UInt8} {s : Ssl} (hfuel : bs.length ≤ fuel)
    (h : WriteTurn.failure ∉ s.writes) :
    (sendLoop fuel bs s).1 = true ∧ WriteTurn.failure ∉ (sendLoop fuel bs s).2.writes := by
  induction fuel generalizing bs s with
  | zero =>
      obtain rfl := List.length_eq_zero_iff.1 (Nat.le_zero.1 hfuel)
      exact ⟨rfl, h⟩
  | succ fuel ih =>
      cases bs with
      | nil => exact ⟨rfl, h⟩
      | cons b bs =>
          obtain ⟨n, s', hwrite, hpos, hlater⟩ := sslWrite_succeeds h b bs
          rw [sendLoop, hwrite]
          refine ih ?_ hlater
          rw [List.length_drop]
          omega

lemma sendPacket_succeeds (pkt : GamePacket) (n : ℕ) {s : Ssl}
    (h : WriteTurn.failure ∉ s.writes) :
    (sendPacket pkt n s).1 = true ∧ WriteTurn.failure ∉ (sendPacket pkt n s).2.writes :=
  sendLoop_succeeds le_rfl h

/-- `pkt_send_local` relies on `SSL_write` to take everything at once. -/
lemma pktSendLocal_succeeds (pkt : GamePacket) (n : ℕ) {s : Ssl} (h : s.writes = []) :
    (pktSendLocal pkt n s).1 = true ∧ (pktSendLocal pkt n s).2.writes = [] := by
  obtain ⟨pending, arriving, writes, sent⟩ := s
  obtain rfl : writes = [] := h
  exact ⟨beq_self_eq_true _, rfl⟩

lemma sendAll_succeeds {send : GamePacket → ℕ → Ssl → Bool × Ssl} (Inv : Ssl → Prop)
    (step : ∀ pkt n s, Inv s → (send pkt n s).1 = true ∧ Inv (send pkt n s).2)
    (ms : List Message) {s : Ssl} (hs : Inv s) : (sendAll send ms s).1 = true := by
  induction ms generalizing s with
  | nil => rfl
  | cons m ms ih =>
      obtain ⟨hok, hnext⟩ := step m.pkt m.payloadSize s hs
      rcases hm : send m.pkt m.payloadSize s with ⟨ok, s'⟩
      rw [hm] at hok hnext
      obtain rfl : ok = true := hok
      rw [sendAll, hm]
      exact ih hnext

/-! ## Receiving one packet after another -/

/-- Receive `k` packets, until one fails. -/
def receiveMany {σ : Type} (receive : σ → Option GamePacket × σ) :
    ℕ → σ → Option (List GamePacket) × σ
  | 0, s => (some [], s)
  | k + 1, s =>
    match receive s with
    | (none, s') => (none, s')
    | (some p, s') =>
      match receiveMany receive k s' with
      | (none, s'') => (none, s'')
      | (some ps, s'') => (some (p :: ps), s'')

/-- The rule for receiving in turn: what one receive keeps, all of them keep. -/
lemma receiveMany_rule {σ : Type} {receive : σ → Option GamePacket × σ}
    (Inv : List Message → σ → Prop)
    (step : ∀ m ms s, Inv (m :: ms) s →
      ∃ p s', receive s = (some p, s') ∧ m.ReadAs p ∧ Inv ms s')
    {ms later : List Message} {s : σ} (start : Inv (ms ++ later) s) :
    ∃ ps s', receiveMany receive ms.length s = (some ps, s') ∧
      List.Forall₂ Message.ReadAs ms ps ∧ Inv later s' := by
  induction ms generalizing s with
  | nil => exact ⟨[], s, rfl, .nil, start⟩
  | cons m ms ih =>
      obtain ⟨p, s₁, hreceive, hread, hinv⟩ := step m (ms ++ later) s start
      obtain ⟨ps, s₂, hmany, hall, hlater⟩ := ih hinv
      refine ⟨p :: ps, s₂, ?_, .cons hread hall, hlater⟩
      rw [List.length_cons, receiveMany, hreceive]
      simp only [hmany]

/-- The sequence numbers of messages. -/
def seqNums (ms : List Message) : List UInt32 := ms.map fun m => m.pkt.header.seqNum

/-- The server's connection before it receives `ms`: their bytes are next in the stream, no read
fails, and the replay check will accept their numbers. -/
def ServerAwaits (rest : List UInt8) (ms : List Message) (c : Connection) : Prop :=
  c.ssl.Intact ∧ c.ssl.plaintext = ms.flatMap Message.wire ++ rest ∧
    ∀ v ∈ verdicts c.rp (seqNums ms), v.2 = true

lemma recvPacketWithTimeout_of_ready {sel : SelectRet} {timeoutSec : ℕ}
    (available : timeoutSec = 0 ∨ sel = .ready) (c : Connection) :
    recvPacketWithTimeout sel timeoutSec c = recvPacket c := by
  rw [recvPacketWithTimeout, if_neg]
  rintro ⟨hpos, hsel⟩
  rcases available with h | h
  · omega
  · exact hsel h

lemma serverAwaits_step {sel : SelectRet} {timeoutSec : ℕ}
    (available : timeoutSec = 0 ∨ sel = .ready) {rest : List UInt8} (m : Message)
    (ms : List Message) (c : Connection) (awaits : ServerAwaits rest (m :: ms) c) :
    ∃ p c', recvPacketWithTimeout sel timeoutSec c = (some p, c') ∧ m.ReadAs p ∧
      ServerAwaits rest ms c' := by
  obtain ⟨intact, hplain, haccept⟩ := awaits
  rw [List.flatMap_cons, m.wire_eq, List.append_assoc] at hplain
  obtain ⟨hseq, hlater⟩ := List.forall_mem_cons.1 haccept
  have hparse : parsePacket c.rp c.ssl.deliverable = some (m.header, m.payload) := by
    refine parsePacket_eq_some_iff.2 ⟨m.validLength_header, ?_, hseq, rfl,
      ms.flatMap Message.wire ++ rest, ?_⟩
    · rw [m.length_payload, m.bodyLen_header]
    · rw [intact.deliverable_eq, hplain]
  obtain ⟨ssl, hrecv, hreads⟩ := recvPacket_of_parse hparse
  refine ⟨_, _, (recvPacketWithTimeout_of_ready available c).trans hrecv,
    m.readAs_receivedPacket c.packet, hreads.intact intact, ?_, hlater⟩
  exact List.append_cancel_left (hreads.plaintext_eq.symm.trans hplain)

/-- One call of the client's receive function, with the next of the packet buffers it is called
with. -/
def clientReceive (s : Ssl × (ℕ → GamePacket)) : Option GamePacket × (Ssl × (ℕ → GamePacket)) :=
  let r := pktRecvLocal s.1 (s.2 0)
  (r.1, r.2, fun n => s.2 (n + 1))

/-- The client's connection before it receives `ms`. -/
def ClientAwaits (rest : List UInt8) (ms : List Message) (s : Ssl × (ℕ → GamePacket)) : Prop :=
  s.1.Intact ∧ s.1.plaintext = ms.flatMap Message.wire ++ rest

lemma clientAwaits_step {rest : List UInt8} (m : Message) (ms : List Message)
    (s : Ssl × (ℕ → GamePacket)) (awaits : ClientAwaits rest (m :: ms) s) :
    ∃ p s', clientReceive s = (some p, s') ∧ m.ReadAs p ∧ ClientAwaits rest ms s' := by
  obtain ⟨intact, hplain⟩ := awaits
  rw [List.flatMap_cons, m.wire_eq, List.append_assoc] at hplain
  have hlen : m.payload.length = m.header.bodyLen := by rw [m.length_payload, m.bodyLen_header]
  obtain ⟨ssl, hrecv, hreads⟩ := pktRecvLocal_of_stream (s.2 0) m.validLength_header hlen
    (intact.deliverable_eq.trans hplain)
  refine ⟨_, (ssl, fun n => s.2 (n + 1)), ?_, m.readAs_receivedPacket (s.2 0),
    hreads.intact intact, List.append_cancel_left (hreads.plaintext_eq.symm.trans hplain)⟩
  rw [clientReceive, hrecv]

/-- Encoding an accepted packet again gives the bytes it came as. -/
lemma wire_of_recvPacket {c c' : Connection} {pkt : GamePacket}
    (h : recvPacket c = (some pkt, c')) :
    pkt.header.bodyLen ≤ maxPayloadSize ∧
      c.ssl.plaintext = (pkt.seal pkt.header.bodyLen).wire ++ c'.ssl.plaintext := by
  obtain ⟨body, hparse⟩ := parse_of_recvPacket h
  obtain ⟨hvalid, hlen, -, hsum, -⟩ := parsePacket_eq_some_iff.1 hparse
  obtain ⟨ssl, hrecv, hreads⟩ := recvPacket_of_parse hparse
  obtain ⟨hpkt, rfl⟩ := Prod.mk.inj (h.symm.trans hrecv)
  have hfits := length_le_of_validLength hvalid hlen
  have htake : pkt.body.bytes.take pkt.header.bodyLen = body := by
    have hbody : pkt.body = c.packet.body.write body :=
      congrArg GamePacket.body (Option.some.inj hpkt)
    rw [hbody, ← hlen]
    exact Buffer.take_write hfits
  have hlength : UInt32.ofNat (sizeofPacketHeader + pkt.header.bodyLen) = pkt.header.length := by
    rw [PacketHeader.validLength, Bool.and_eq_true, decide_eq_true_iff] at hvalid
    rw [PacketHeader.bodyLen, Nat.add_sub_cancel' hvalid.1, UInt32.ofNat_toNat]
  have hsealed : (pkt.seal pkt.header.bodyLen).header = pkt.header := by
    simp only [GamePacket.seal, hlength, htake, hsum]
  rw [hlen] at hfits
  have hwire := Message.wire_eq ⟨pkt, pkt.header.bodyLen, hfits⟩
  refine ⟨hfits, ?_⟩
  rw [Message.wire, Message.header, Message.payload, hsealed, htake] at hwire
  rw [hwire]
  exact hreads.plaintext_eq

/-! ## Round trip -/

/-- **Framing round trip.**  Client to server: packets encoded one after another by
`pkt_send_local` are received, however the stream is cut and retried, in order and with nothing
lost, each receive consuming its packet's bytes and no others.  Conversely, whatever the stream,
an accepted packet encodes to the bytes consumed for it.  Server to client: the same for
`send_packet` and `pkt_recv_local`, whatever lay in the client's packet buffers.  And sending
succeeds as long as no call of `SSL_write` fails, and for `pkt_send_local` none is short. -/
theorem framing_round_trip :
    (∀ (ms : List Message) (sender sender' : Ssl) (c : Connection) (sel : SelectRet)
        (timeoutSec : ℕ) (rest : List UInt8),
      sendAll pktSendLocal ms sender = (true, sender') → (timeoutSec = 0 ∨ sel = .ready) →
      c.ssl.Intact → c.ssl.plaintext = sender'.sent.drop sender.sent.length ++ rest →
      (∀ v ∈ verdicts c.rp (seqNums ms), v.2 = true) →
      ∀ k ≤ ms.length, ∃ pkts c',
        receiveMany (recvPacketWithTimeout sel timeoutSec) k c = (some pkts, c') ∧
          List.Forall₂ Message.ReadAs (ms.take k) pkts ∧
          c'.ssl.plaintext = (ms.drop k).flatMap Message.wire ++ rest) ∧
    (∀ (c c' : Connection) (sel : SelectRet) (timeoutSec : ℕ) (pkt : GamePacket),
      recvPacketWithTimeout sel timeoutSec c = (some pkt, c') →
      pkt.header.bodyLen ≤ maxPayloadSize ∧
        c.ssl.plaintext = (pkt.seal pkt.header.bodyLen).wire ++ c'.ssl.plaintext) ∧
    (∀ (ms : List Message) (sender sender' ssl : Ssl) (buffers : ℕ → GamePacket)
        (rest : List UInt8),
      sendAll sendPacket ms sender = (true, sender') →
      ssl.Intact → ssl.plaintext = sender'.sent.drop sender.sent.length ++ rest →
      ∀ k ≤ ms.length, ∃ pkts s',
        receiveMany clientReceive k (ssl, buffers) = (some pkts, s') ∧
          List.Forall₂ Message.ReadAs (ms.take k) pkts ∧
          s'.1.plaintext = (ms.drop k).flatMap Message.wire ++ rest) ∧
    (∀ (ms : List Message) (sender : Ssl), sender.writes = [] →
      (sendAll pktSendLocal ms sender).1 = true) ∧
    (∀ (ms : List Message) (sender : Ssl), WriteTurn.failure ∉ sender.writes →
      (sendAll sendPacket ms sender).1 = true) := by
  refine ⟨?_, ?_, ?_, ?_, ?_⟩
  · intro ms sender sender' c sel timeoutSec rest hsend available intact hplain haccept k hk
    rw [sendAll_sent pktSendLocal_sends hsend, List.drop_left] at hplain
    have hstart : ServerAwaits rest (ms.take k ++ ms.drop k) c := by
      rw [List.take_append_drop]
      exact ⟨intact, hplain, haccept⟩
    obtain ⟨pkts, c', hmany, hall, -, hrest, -⟩ :=
      receiveMany_rule (ServerAwaits rest) (serverAwaits_step available) hstart
    rw [List.length_take_of_le hk] at hmany
    exact ⟨pkts, c', hmany, hall, hrest⟩
  · intro c c' sel timeoutSec pkt h
    rw [recvPacketWithTimeout] at h
    split_ifs at h with hsel
    · cases h
    · exact wire_of_recvPacket h
  · intro ms sender sender' ssl buffers rest hsend intact hplain k hk
    rw [sendAll_sent sendPacket_sends hsend, List.drop_left] at hplain
    have hstart : ClientAwaits rest (ms.take k ++ ms.drop k) (ssl, buffers) := by
      rw [List.take_append_drop]
      exact ⟨intact, hplain⟩
    obtain ⟨pkts, s', hmany, hall, -, hrest⟩ :=
      receiveMany_rule (ClientAwaits rest) clientAwaits_step hstart
    rw [List.length_take_of_le hk] at hmany
    exact ⟨pkts, s', hmany, hall, hrest⟩
  · exact fun ms sender =>
      sendAll_succeeds (·.writes = []) (fun pkt n s => pktSendLocal_succeeds pkt n) ms
  · exact fun ms sender =>
      sendAll_succeeds (WriteTurn.failure ∉ ·.writes) (fun pkt n s => sendPacket_succeeds pkt n) ms

/-- A heartbeat packet. -/
def heartbeatMessage : Message := ⟨(pktInitLocal 7 OpCode.heartbeat.code).1, 0, by decide⟩

/-- A connection on which it arrives in two pieces, with a retry in between. -/
def heartbeatArrives : Connection where
  ssl := ⟨[], [.record 12 [0, 0], .want, .record 0 [0x13, 0, 0, 0, 7, 0, 0, 0]], [], []⟩
  packet := .zero
  rp := replayProtectionInit

theorem framing_round_trip_heartbeat :
    ∃ pkts c', receiveMany (recvPacketWithTimeout .ready 5) 1 heartbeatArrives = (some pkts, c') ∧
      List.Forall₂ Message.ReadAs [heartbeatMessage] pkts ∧ c'.ssl.plaintext = [] :=
  framing_round_trip.1 [heartbeatMessage] ⟨[], [], [], []⟩
    (sendAll pktSendLocal [heartbeatMessage] ⟨[], [], [], []⟩).2 heartbeatArrives .ready 5 []
    (by decide +kernel) (Or.inr rfl)
    (show Arrival.failure ∉ heartbeatArrives.ssl.arriving by decide) (by decide +kernel)
    (List.forall_mem_singleton.2 rfl) 1 le_rfl

end WorldBossRaid
