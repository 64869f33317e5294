import WorldBossRaid.Framework.ByteSum
import WorldBossRaid.Properties.Framing

/-!
# Corrupted packets

The checksum of a packet is the sum of its body bytes in 16 bits, and the body is all it covers.
The first part is about its strength: bytes that are all raised, or all lowered, in at most 257
places change it (`checksum_strength`).  The second part goes through a whole packet byte by byte
(`corruption_caught_iff`): the body and the checksum itself are covered, the sequence number is
only as far as the replay check goes, a changed length is noticed unless what it cuts off or adds
sums to 0, and nothing covers the opcode.
-/

namespace WorldBossRaid

open Bytes

/-! ## What the server accepts -/

/-- The checks of `recv_packet_with_timeout` on a header, with the bytes that follow it. -/
def Accepts (rp : ReplayProtection) (header : PacketHeader) (following : List UInt8) : Prop :=
  header.validLength = true ∧ (replayProtectionValidate rp header.seqNum).1 = true ∧
    header.bodyLen ≤ following.length ∧
    calcChecksum (following.take header.bodyLen) = header.checksum

variable {rp : ReplayProtection} {header : PacketHeader} {following : List UInt8}
  {c : Connection} {sel : SelectRet} {timeoutSec : ℕ}

lemma parsePacket_eq_none_iff :
    parsePacket rp (header.bytes ++ following) = none ↔ ¬Accepts rp header following := by
  have hhead : (header.bytes ++ following).take sizeofPacketHeader = header.bytes :=
    List.take_left' header.length_bytes
  have hdrop : (header.bytes ++ following).drop sizeofPacketHeader = following :=
    List.drop_left' header.length_bytes
  have hlong : sizeofPacketHeader ≤ (header.bytes ++ following).length := by simp
  simp only [parsePacket, hhead, hdrop, PacketHeader.ofBytes_bytes, hlong, true_and]
  rw [ite_eq_right_iff, Accepts]
  simp

lemma recvPacket_eq_none_iff :
    (recvPacket c).1 = none ↔ parsePacket c.rp c.ssl.deliverable = none := by
  constructor
  · intro h
    by_contra hparse
    obtain ⟨⟨header, body⟩, hsome⟩ := Option.ne_none_iff_exists'.1 hparse
    obtain ⟨ssl, hrecv, -⟩ := recvPacket_of_parse hsome
    rw [hrecv] at h
    exact nomatch h
  · intro h
    by_contra hrecv
    obtain ⟨pkt, hsome⟩ := Option.ne_none_iff_exists'.1 hrecv
    obtain ⟨body, hparse⟩ := parse_of_recvPacket (Prod.ext hsome rfl)
    exact nomatch h.symm.trans hparse

/-- A receive fails for lack of readable bytes, or because a check fails. -/
lemma recv_eq_none_iff (stream : c.ssl.deliverable = header.bytes ++ following) :
    (recvPacketWithTimeout sel timeoutSec c).1 = none ↔
      (timeoutSec > 0 ∧ sel ≠ .ready) ∨ ¬Accepts c.rp header following := by
  rw [recvPacketWithTimeout]
  split_ifs with hsel
  · exact iff_of_true rfl (Or.inl hsel)
  · rw [recvPacket_eq_none_iff, stream, parsePacket_eq_none_iff, or_iff_right hsel]

/-! ## The strength of the checksum -/

/-- The running sum of `calc_checksum`. -/
def runningSum (data : List UInt8) : UInt32 := data.foldl (fun sum b => sum + b.toUInt32) 0

lemma calcChecksum_eq (data : List UInt8) :
    calcChecksum data = (runningSum data &&& 0xFFFF).toUInt16 := rfl

lemma toNat_runningSum (data : List UInt8) : (runningSum data).toNat = byteSum data % 2 ^ 32 := by
  rw [runningSum, toNat_foldl_add, UInt32.toNat_zero, Nat.zero_add]

lemma toNat_calcChecksum (data : List UInt8) :
    (calcChecksum data).toNat = byteSum data % 2 ^ 16 := by
  rw [calcChecksum_eq, UInt32.toNat_toUInt16, UInt32.toNat_and, toNat_runningSum,
    show (0xFFFF : UInt32).toNat = 2 ^ 16 - 1 from rfl, Nat.and_two_pow_sub_one_eq_mod]
  omega

lemma calcChecksum_eq_iff (xs ys : List UInt8) :
    calcChecksum xs = calcChecksum ys ↔ byteSum xs % 2 ^ 16 = byteSum ys % 2 ^ 16 := by
  rw [← UInt16.toNat_inj, toNat_calcChecksum, toNat_calcChecksum]

/-- A one-directional change in at most 257 places changes the checksum. -/
lemma calcChecksum_ne {xs ys : List UInt8} (directed : OneDirectional xs ys)
    (some_ : 1 ≤ differences xs ys) (few : differences xs ys ≤ 257) :
    calcChecksum xs ≠ calcChecksum ys :=
  fun h => byteSum_mod_ne directed some_ few ((calcChecksum_eq_iff xs ys).1 h)

namespace Message

variable {m : Message}

lemma checksum_header : m.header.checksum = calcChecksum m.payload := rfl

/-- A body of the length announced is accepted only with the right checksum. -/
lemma checksum_of_accepts {body rest : List UInt8} (hlen : body.length = m.payloadSize)
    (accepts : Accepts rp m.header (body ++ rest)) :
    calcChecksum body = calcChecksum m.payload := by
  obtain ⟨-, -, -, hsum⟩ := accepts
  rwa [bodyLen_header, List.take_left' hlen, checksum_header] at hsum

end Message

/-- **The strength of the checksum.**  Two bodies of one length that differ in at least one and at
most 257 places, with all of the differing bytes larger in the second one or all smaller, have
different checksums; the running sum over a body that fits a packet never wraps; and so the server
rejects every packet whose body has been changed in such a way, whatever follows it, in particular
if a single byte has. -/
theorem checksum_strength :
    (∀ xs ys : List UInt8, OneDirectional xs ys → 1 ≤ differences xs ys →
      differences xs ys ≤ 257 → calcChecksum xs ≠ calcChecksum ys) ∧
    (∀ body sofar : List UInt8, body.length ≤ maxPayloadSize → sofar <+: body →
      (runningSum sofar).toNat = byteSum sofar) ∧
    (∀ (m : Message) (body rest : List UInt8) (c : Connection) (sel : SelectRet) (timeoutSec : ℕ),
      OneDirectional m.payload body → 1 ≤ differences m.payload body →
      differences m.payload body ≤ 257 → c.ssl.deliverable = m.header.bytes ++ (body ++ rest) →
      (recvPacketWithTimeout sel timeoutSec c).1 = none) ∧
    ∀ (m : Message) (i : ℕ) (b : UInt8) (rest : List UInt8) (c : Connection) (sel : SelectRet)
      (timeoutSec : ℕ) (hi : i < m.payload.length), b ≠ m.payload[i] →
      c.ssl.deliverable = m.header.bytes ++ (m.payload.set i b ++ rest) →
      (recvPacketWithTimeout sel timeoutSec c).1 = none := by
  have rejected (m : Message) (body rest : List UInt8) (c : Connection) (sel : SelectRet)
      (timeoutSec : ℕ) (directed : OneDirectional m.payload body)
      (some_ : 1 ≤ differences m.payload body) (few : differences m.payload body ≤ 257)
      (stream : c.ssl.deliverable = m.header.bytes ++ (body ++ rest)) :
      (recvPacketWithTimeout sel timeoutSec c).1 = none := by
    have hlen : body.length = m.payloadSize := by rw [← directed.length_eq, m.length_payload]
    refine (recv_eq_none_iff stream).2 (Or.inr fun accepts => ?_)
    exact calcChecksum_ne directed some_ few (m.checksum_of_accepts hlen accepts).symm
  refine ⟨fun xs ys => calcChecksum_ne, ?_, rejected, ?_⟩
  · intro body sofar hbody hprefix
    have hle := byteSum_le sofar
    have hsofar := hprefix.length_le
    simp only [maxPayloadSize] at hbody
    rw [toNat_runningSum, Nat.mod_eq_of_lt (by omega)]
  · intro m i b rest c sel timeoutSec hi hb stream
    have hone := differences_set hi hb
    exact rejected m _ rest c sel timeoutSec (oneDirectional_set _ i b) (by omega) (by omega) stream

/-- An attack with dice 3. -/
def attackMessage : Message := ⟨clientPacket 9 OpCode.attack.code (int32Bytes 3), 4, by decide⟩

/-- A connection on which these bytes have arrived, in records of one byte. -/
def bytesArrive (bs : List UInt8) : Connection :=
  ⟨⟨[], bs.map fun b => .record b [], [], []⟩, .zero, replayProtectionInit⟩

/-- Two bytes of its body are raised. -/
theorem checksum_strength_attack :
    (recvPacketWithTimeout .ready 5
      (bytesArrive (attackMessage.header.bytes ++ ([5, 0, 1, 0] ++ [])))).1 = none :=
  checksum_strength.2.2.1 attackMessage [5, 0, 1, 0] [] _ .ready 5 (Or.inl (by decide +kernel))
    (by decide +kernel) (by decide +kernel) (by decide +kernel)

/-! ## Every byte of a packet -/

/-- The header with one of its bytes replaced. -/
def PacketHeader.corrupt (h : PacketHeader) (i : ℕ) (b : UInt8) : PacketHeader :=
  .ofBytes (h.bytes.set i b)

lemma field_set {bs : List UInt8} {i k w : ℕ} (b : UInt8) (outside : i < k ∨ k + w ≤ i) :
    ((bs.set i b).drop k).take w = (bs.drop k).take w := by
  apply List.ext_getElem?
  intro j
  simp only [List.getElem?_take, List.getElem?_drop, List.getElem?_set]
  split_ifs <;> first | rfl | omega

namespace PacketHeader

variable {h : PacketHeader} {i : ℕ} {b : UInt8}

lemma bytes_corrupt (h : PacketHeader) (i : ℕ) (b : UInt8) :
    (h.corrupt i b).bytes = h.bytes.set i b :=
  bytes_ofBytes (by rw [List.length_set, length_bytes])

lemma corrupt_length (hi : 4 ≤ i) : (h.corrupt i b).length = h.length :=
  (congrArg (fun bs => UInt32.ofNat (leValue bs))
    (@field_set h.bytes i 0 4 b (Or.inr (by omega)))).trans (congrArg length h.ofBytes_bytes)

lemma corrupt_opcode (hi : i < 4 ∨ 6 ≤ i) : (h.corrupt i b).opcode = h.opcode :=
  (congrArg (fun bs => UInt16.ofNat (leValue bs)) (field_set b hi)).trans
    (congrArg opcode h.ofBytes_bytes)

lemma corrupt_checksum (hi : i < 6 ∨ 8 ≤ i) : (h.corrupt i b).checksum = h.checksum :=
  (congrArg (fun bs => UInt16.ofNat (leValue bs)) (field_set b hi)).trans
    (congrArg checksum h.ofBytes_bytes)

lemma corrupt_seqNum (hi : i < 8) : (h.corrupt i b).seqNum = h.seqNum :=
  (congrArg (fun bs => UInt32.ofNat (leValue bs)) (field_set b (Or.inl hi))).trans
    (congrArg seqNum h.ofBytes_bytes)

lemma corrupt_ne (hi : i < h.bytes.length) (hb : b ≠ h.bytes[i]) : h.corrupt i b ≠ h := by
  intro heq
  have hset : h.bytes.set i b = h.bytes := by rw [← bytes_corrupt, heq]
  have hget := List.getElem?_set_self (a := b) hi
  rw [hset, List.getElem?_eq_getElem hi] at hget
  exact hb (Option.some.inj hget).symm

/-- The checksum field is the only one that contains the bytes 6 and 7. -/
lemma corrupt_checksum_ne (hlo : 6 ≤ i) (hhi : i < 8) (hi : i < h.bytes.length)
    (hb : b ≠ h.bytes[i]) : (h.corrupt i b).checksum ≠ h.checksum := by
  intro heq
  apply corrupt_ne hi hb
  change (⟨(h.corrupt i b).length, (h.corrupt i b).opcode, (h.corrupt i b).checksum,
    (h.corrupt i b).seqNum⟩ : PacketHeader) = h
  rw [corrupt_length (by omega), corrupt_opcode (Or.inr hlo), heq, corrupt_seqNum hhi]

end PacketHeader

namespace Message

variable (m : Message) (rp : ReplayProtection) (rest : List UInt8) (i : ℕ) (b : UInt8)

/-- Is it noticed that byte `i` of a packet has been replaced by `b`, in the replay state `rp` and
with `rest` behind the packet?  The fields of the header are told apart by their offsets. -/
def Caught : Prop :=
  let header := m.header.corrupt i b
  if i < 4 then
    -- the length: what the body loses or gains must show in the sum
    ¬(header.validLength = true ∧ header.bodyLen ≤ (m.payload ++ rest).length ∧
      byteSum (between header.bodyLen m.payloadSize (m.payload ++ rest)) % 2 ^ 16 = 0)
  else if i < 6 then
    -- the opcode
    False
  else if i < 8 then
    -- the checksum
    True
  else if i < sizeofPacketHeader then
    -- the sequence number
    (replayProtectionValidate rp header.seqNum).1 = false
  else
    -- the body
    True

variable {m rp rest i b}

lemma take_payloadSize : (m.payload ++ rest).take m.payloadSize = m.payload :=
  List.take_left' m.length_payload

lemma accepts_corrupt_length (hi : i < 4)
    (accepted : (replayProtectionValidate rp m.pkt.header.seqNum).1 = true) :
    Accepts rp (m.header.corrupt i b) (m.payload ++ rest) ↔
      (m.header.corrupt i b).validLength = true ∧
        (m.header.corrupt i b).bodyLen ≤ (m.payload ++ rest).length ∧
        byteSum (between (m.header.corrupt i b).bodyLen m.payloadSize (m.payload ++ rest)) %
          2 ^ 16 = 0 := by
  have hseq : (replayProtectionValidate rp (m.header.corrupt i b).seqNum).1 = true := by
    rw [PacketHeader.corrupt_seqNum (by omega)]
    exact accepted
  have hsum : calcChecksum ((m.payload ++ rest).take (m.header.corrupt i b).bodyLen) =
      (m.header.corrupt i b).checksum ↔
      byteSum (between (m.header.corrupt i b).bodyLen m.payloadSize (m.payload ++ rest)) %
        2 ^ 16 = 0 := by
    rw [PacketHeader.corrupt_checksum (Or.inl (by omega)), checksum_header, calcChecksum_eq_iff,
      ← byteSum_take_mod_eq_iff, take_payloadSize]
  rw [Accepts, hsum]
  simp only [hseq, true_and]

/-- The changes of the rest of the header leave the length as it is. -/
lemma accepts_corrupt_iff (hi : 4 ≤ i) :
    Accepts rp (m.header.corrupt i b) (m.payload ++ rest) ↔
      (replayProtectionValidate rp (m.header.corrupt i b).seqNum).1 = true ∧
        (m.header.corrupt i b).checksum = m.header.checksum := by
  have hlength : (m.header.corrupt i b).length = m.header.length := PacketHeader.corrupt_length hi
  have hvalid : (m.header.corrupt i b).validLength = true := by
    rw [PacketHeader.validLength, hlength]
    exact m.validLength_header
  have hbody : (m.header.corrupt i b).bodyLen = m.payloadSize := by
    rw [PacketHeader.bodyLen, hlength]
    exact m.bodyLen_header
  have hlong : m.payloadSize ≤ (m.payload ++ rest).length := by
    rw [List.length_append, length_payload]
    omega
  rw [Accepts, hbody, take_payloadSize, ← checksum_header]
  simp only [hvalid, hlong, true_and]
  exact and_congr_right fun _ => eq_comm

/-- A changed byte of the header. -/
lemma accepts_corrupt_iff_not_caught
    (accepted : (replayProtectionValidate rp m.pkt.header.seqNum).1 = true)
    (hi : i < m.header.bytes.length) (hb : b ≠ m.header.bytes[i]) :
    ¬Accepts rp (m.header.corrupt i b) (m.payload ++ rest) ↔ m.Caught rp rest i b := by
  have hi' : i < sizeofPacketHeader := by rwa [PacketHeader.length_bytes] at hi
  unfold Caught
  dsimp only
  split_ifs with hlength hopcode hchecksum
  · rw [accepts_corrupt_length hlength accepted]
  · have hseq : (m.header.corrupt i b).seqNum = m.pkt.header.seqNum :=
      PacketHeader.corrupt_seqNum (by omega)
    rw [accepts_corrupt_iff (by omega), hseq, PacketHeader.corrupt_checksum (Or.inl hopcode)]
    exact iff_of_false (not_not.2 ⟨accepted, rfl⟩) id
  · have hne := PacketHeader.corrupt_checksum_ne (by omega) hchecksum hi hb
    rw [accepts_corrupt_iff (by omega)]
    exact iff_of_true (fun h => hne h.2) trivial
  · rw [accepts_corrupt_iff (by omega), PacketHeader.corrupt_checksum (Or.inr (by omega))]
    simp

lemma caught_body (hi : sizeofPacketHeader ≤ i) : m.Caught rp rest i b := by
  have hi' : 12 ≤ i := hi
  unfold Caught
  dsimp only
  rw [if_neg (by omega), if_neg (by omega), if_neg (by omega), if_neg (not_lt.2 hi)]
  trivial

end Message

/-- **Every byte of a packet.**  A packet one byte of which has been changed, read in a replay state
that accepts the original, is refused if nothing can be read, or if the change is caught; otherwise
it is accepted. -/
theorem corruption_caught_iff {m : Message} {i : ℕ} {b : UInt8} {rest : List UInt8}
    (accepted : (replayProtectionValidate c.rp m.pkt.header.seqNum).1 = true)
    (hi : i < m.wire.length) (changed : b ≠ m.wire[i])
    (stream : c.ssl.deliverable = m.wire.set i b ++ rest) :
    (recvPacketWithTimeout sel timeoutSec c).1 = none ↔
      (timeoutSec > 0 ∧ sel ≠ .ready) ∨ m.Caught c.rp rest i b := by
  have hwire : m.wire = m.header.bytes ++ m.payload := m.wire_eq
  simp only [hwire] at hi changed stream
  rcases lt_or_ge i m.header.bytes.length with hhead | hbody
  · rw [List.getElem_append_left hhead] at changed
    rw [List.set_append_left _ _ hhead, ← PacketHeader.bytes_corrupt, List.append_assoc] at stream
    rw [recv_eq_none_iff stream, Message.accepts_corrupt_iff_not_caught accepted hhead changed]
  · have hpayload : i - m.header.bytes.length < m.payload.length := by
      rw [List.length_append] at hi
      omega
    rw [List.getElem_append_right hbody] at changed
    rw [List.set_append_right _ _ hbody, List.append_assoc] at stream
    have hcaught : m.Caught c.rp rest i b :=
      Message.caught_body (by rwa [PacketHeader.length_bytes] at hbody)
    have hone := differences_set hpayload changed
    have hrefused : ¬Accepts c.rp m.header (m.payload.set (i - m.header.bytes.length) b ++ rest) :=
      fun accepts => calcChecksum_ne (oneDirectional_set _ _ b) (by omega) (by omega)
        (Message.checksum_of_accepts (by rw [List.length_set, m.length_payload]) accepts).symm
    rw [recv_eq_none_iff stream]
    exact iff_of_true (Or.inr hrefused) (Or.inr hcaught)

/-- The dice of an attack changed on its way. -/
theorem corruption_caught_attack :
    (recvPacketWithTimeout .ready 5 (bytesArrive (attackMessage.wire.set 12 5))).1 = none :=
  (@corruption_caught_iff (bytesArrive (attackMessage.wire.set 12 5)) .ready 5 attackMessage 12 5 []
    rfl (by decide +kernel) (by decide +kernel) (by decide +kernel)).2
      (Or.inr (Message.caught_body le_rfl))

/-- An attack that leaves the dice to the server. -/
def blankAttack : Message := ⟨clientPacket 9 OpCode.attack.code (int32Bytes 0), 4, by decide⟩

/-- Three packets that are accepted as they were sent, and also with one byte changed: a heartbeat
becomes a leave, an attack gets another sequence number, and an attack loses its body. -/
theorem corruption_accepted :
    (∀ m ∈ [heartbeatMessage, attackMessage, blankAttack],
      (recvPacketWithTimeout .ready 5 (bytesArrive m.wire)).1.isSome = true) ∧
    (heartbeatMessage.wire[4]? = some 0x13 ∧ (recvPacketWithTimeout .ready 5
      (bytesArrive (heartbeatMessage.wire.set 4 0x12))).1.isSome = true) ∧
    (attackMessage.wire[8]? = some 9 ∧ (recvPacketWithTimeout .ready 5
      (bytesArrive (attackMessage.wire.set 8 10))).1.isSome = true) ∧
    (blankAttack.wire[0]? = some 16 ∧ (recvPacketWithTimeout .ready 5
      (bytesArrive (blankAttack.wire.set 0 12))).1.isSome = true) := by
  refine ⟨?_, by decide +kernel, by decide +kernel, by decide +kernel⟩
  simp only [List.forall_mem_cons]
  decide +kernel

end WorldBossRaid
