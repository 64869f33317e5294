import WorldBossRaid.Model.Transport

/-!
# Receiving exactly the bytes that were sent

What `SSL_read` hands out in pieces is one stream of bytes: `Ssl.deliverable` is the part of it
before the first failure of the transport.  The receive loop returns the first bytes of that
stream if there are enough of them, whatever the pieces and the retries, and fails otherwise;
what it leaves is the rest of the stream.
-/

namespace WorldBossRaid

open Bytes

/-! ## The stream -/

/-- The bytes that can be read before a call of `SSL_read` fails. -/
def delivered : List Arrival → List UInt8
  | [] => []
  | .record b bs :: rest => b :: bs ++ delivered rest
  | .want :: rest => delivered rest
  | .failure :: _ => []

/-- The bytes that can still be read from an SSL object. -/
def Ssl.deliverable (s : Ssl) : List UInt8 := s.pending ++ delivered s.arriving

lemma delivered_eq_of_intact {as : List Arrival} (h : Arrival.failure ∉ as) :
    delivered as = as.flatMap Arrival.data := by
  induction as with
  | nil => rfl
  | cons a as ih =>
      rw [List.mem_cons, not_or] at h
      cases a with
      | record b bs => rw [delivered, ih h.2, List.flatMap_cons, Arrival.data]
      | want => rw [delivered, ih h.2, List.flatMap_cons, Arrival.data, List.nil_append]
      | failure => exact absurd rfl h.1

lemma Ssl.Intact.deliverable_eq {s : Ssl} (h : s.Intact) : s.deliverable = s.plaintext := by
  rw [deliverable, plaintext, delivered_eq_of_intact h]

/-- `s'` is `s` after `taken` has been read from it. -/
structure Ssl.Reads (s : Ssl) (taken : List UInt8) (s' : Ssl) : Prop where
  deliverable_eq : s.deliverable = taken ++ s'.deliverable
  plaintext_eq : s.plaintext = taken ++ s'.plaintext
  arriving : s'.arriving <:+ s.arriving

lemma Ssl.Reads.refl (s : Ssl) : s.Reads [] s := ⟨rfl, rfl, List.suffix_rfl⟩

lemma Ssl.Reads.trans {s s' s'' : Ssl} {xs ys : List UInt8} (h : s.Reads xs s')
    (h' : s'.Reads ys s'') : s.Reads (xs ++ ys) s'' where
  deliverable_eq := by rw [h.deliverable_eq, h'.deliverable_eq, List.append_assoc]
  plaintext_eq := by rw [h.plaintext_eq, h'.plaintext_eq, List.append_assoc]
  arriving := h'.arriving.trans h.arriving

lemma Ssl.Reads.intact {s s' : Ssl} {xs : List UInt8} (h : s.Reads xs s') (hs : s.Intact) :
    s'.Intact := fun hmem => hs (h.arriving.subset hmem)

/-! ## `SSL_read` -/

/-- A call of `SSL_read` hands out a non-empty piece that fits, has nothing yet, or fails because
nothing more can be read. -/
lemma sslRead_cases {n : ℕ} (hn : 0 < n) (s : Ssl) :
    (∃ bs s', sslRead n s = (.data bs, s') ∧ bs ≠ [] ∧ bs.length ≤ n ∧ s.Reads bs s') ∨
    (∃ s', sslRead n s = (.want, s') ∧ s.Reads [] s' ∧ s'.arriving.length < s.arriving.length) ∨
    (∃ s', sslRead n s = (.failed, s') ∧ s.deliverable = []) := by
  obtain ⟨pending, arriving, writes, sent⟩ := s
  have piece (b : UInt8) (bs : List UInt8) :
      (b :: bs).take n ≠ [] ∧ ((b :: bs).take n).length ≤ n := by
    refine ⟨?_, List.length_take_le _ _⟩
    rw [Ne, List.take_eq_nil_iff]
    simp
    omega
  cases pending with
  | cons b bs =>
      refine Or.inl ⟨_, _, rfl, (piece b bs).1, (piece b bs).2, ?_, ?_, List.suffix_rfl⟩
      · simp only [Ssl.deliverable]
        rw [← List.append_assoc, List.take_append_drop]
      · simp only [Ssl.plaintext]
        rw [← List.append_assoc, List.take_append_drop]
  | nil =>
      cases arriving with
      | nil => exact Or.inr (Or.inr ⟨_, rfl, rfl⟩)
      | cons a rest =>
          cases a with
          | record b bs =>
              refine Or.inl ⟨_, _, rfl, (piece b bs).1, (piece b bs).2, ?_, ?_,
                List.suffix_cons _ _⟩
              · simp only [Ssl.deliverable, delivered, List.nil_append]
                rw [← List.append_assoc, List.take_append_drop]
              · simp only [Ssl.plaintext, List.flatMap_cons, Arrival.data, List.nil_append]
                rw [← List.append_assoc, List.take_append_drop]
          | want =>
              exact Or.inr (Or.inl ⟨_, rfl, ⟨rfl, rfl, List.suffix_cons _ _⟩,
                Nat.lt_succ_self _⟩)
          | failure => exact Or.inr (Or.inr ⟨_, rfl, rfl⟩)

/-! ## The loop -/

/-- The loop returns what is missing, if the stream has it. -/
lemma recvLoop_of_le {want fuel : ℕ} {received : List UInt8} {s : Ssl}
    (hreceived : received.length ≤ want)
    (hfuel : want - received.length + s.arriving.length ≤ fuel)
    (henough : want - received.length ≤ s.deliverable.length) :
    ∃ s', recvLoop want fuel received s =
        (some (received ++ s.deliverable.take (want - received.length)), s') ∧
      s.Reads (s.deliverable.take (want - received.length)) s' := by
  induction fuel generalizing received s with
  | zero =>
      have hzero : want - received.length = 0 := by omega
      rw [recvLoop, if_neg (by omega), hzero, List.take_zero, List.append_nil]
      exact ⟨s, rfl, .refl s⟩
  | succ fuel ih =>
      by_cases hdone : received.length < want
      · rw [recvLoop, if_pos hdone]
        rcases sslRead_cases (show 0 < want - received.length by omega) s with
          ⟨bs, s', hread, hne, hlen, hreads⟩ | ⟨s', hread, hreads, harriving⟩ |
          ⟨s', hread, hnone⟩
        · have hpos := List.length_pos_iff.2 hne
          have hstream := hreads.deliverable_eq
          have hshort := hreads.arriving.length_le
          have hsum := congrArg List.length hstream
          rw [List.length_append] at hsum
          rw [hread]
          have hnext : (received ++ bs).length = received.length + bs.length := List.length_append
          obtain ⟨s'', hloop, hreads'⟩ := ih (show (received ++ bs).length ≤ want by omega)
            (show want - (received ++ bs).length + s'.arriving.length ≤ fuel by omega) (by omega)
          have htake : s.deliverable.take (want - received.length) =
              bs ++ s'.deliverable.take (want - (received ++ bs).length) := by
            rw [hstream, List.take_append, List.take_of_length_le hlen, hnext, Nat.sub_sub]
          refine ⟨s'', ?_, ?_⟩
          · rw [htake, ← List.append_assoc]
            exact hloop
          · rw [htake]
            exact hreads.trans hreads'
        · have hstream : s.deliverable = s'.deliverable := hreads.deliverable_eq
          rw [hread]
          obtain ⟨s'', hloop, hreads'⟩ := ih hreceived
            (show want - received.length + s'.arriving.length ≤ fuel by omega)
            (by rw [← hstream]; exact henough)
          rw [hstream]
          exact ⟨s'', hloop, hreads.trans hreads'⟩
        · rw [hnone, List.length_nil] at henough
          omega
      · have hzero : want - received.length = 0 := by omega
        rw [recvLoop, if_neg hdone, hzero, List.take_zero, List.append_nil]
        exact ⟨s, rfl, .refl s⟩

/-- It fails if the stream does not have it. -/
lemma recvLoop_of_lt {want fuel : ℕ} {received : List UInt8} {s : Ssl}
    (hfuel : want - received.length + s.arriving.length ≤ fuel)
    (hmissing : s.deliverable.length < want - received.length) :
    ∃ s', recvLoop want fuel received s = (none, s') := by
  induction fuel generalizing received s with
  | zero => omega
  | succ fuel ih =>
      rw [recvLoop, if_pos (by omega)]
      rcases sslRead_cases (show 0 < want - received.length by omega) s with
        ⟨bs, s', hread, hne, hlen, hreads⟩ | ⟨s', hread, hreads, harriving⟩ |
        ⟨s', hread, -⟩
      · have hpos := List.length_pos_iff.2 hne
        have hshort := hreads.arriving.length_le
        have hsum := congrArg List.length hreads.deliverable_eq
        rw [List.length_append] at hsum
        have hnext : (received ++ bs).length = received.length + bs.length := List.length_append
        obtain ⟨s'', hloop⟩ := ih
          (show want - (received ++ bs).length + s'.arriving.length ≤ fuel by omega) (by omega)
        rw [hread]
        exact ⟨s'', hloop⟩
      · have hsum := congrArg List.length hreads.deliverable_eq
        rw [List.length_append] at hsum
        obtain ⟨s'', hloop⟩ := ih
          (show want - received.length + s'.arriving.length ≤ fuel by omega)
          (by rw [List.length_nil] at hsum; omega)
        rw [hread]
        exact ⟨s'', hloop⟩
      · rw [hread]
        exact ⟨s', rfl⟩

/-- What `recvExactly` does, read off the stream. -/
lemma recvExactly_cases (n : ℕ) (s : Ssl) :
    (n ≤ s.deliverable.length ∧ ∃ s', recvExactly n s = (some (s.deliverable.take n), s') ∧
      s.Reads (s.deliverable.take n) s') ∨
    (s.deliverable.length < n ∧ ∃ s', recvExactly n s = (none, s')) := by
  rcases le_or_gt n s.deliverable.length with hle | hlt
  · exact Or.inl ⟨hle, recvLoop_of_le (Nat.zero_le n) le_rfl hle⟩
  · exact Or.inr ⟨hlt, recvLoop_of_lt le_rfl hlt⟩

lemma recvExactly_append {n : ℕ} {s : Ssl} {bs rest : List UInt8} (hlen : bs.length = n)
    (hs : s.deliverable = bs ++ rest) :
    ∃ s', recvExactly n s = (some bs, s') ∧ s.Reads bs s' := by
  have htake : s.deliverable.take n = bs := by rw [hs, List.take_left' hlen]
  rcases recvExactly_cases n s with ⟨-, s', hrecv, hreads⟩ | ⟨hlt, -⟩
  · rw [htake] at hrecv hreads
    exact ⟨s', hrecv, hreads⟩
  · rw [hs, List.length_append] at hlt
    omega

lemma recvExactly_eq_some {n : ℕ} {s s' : Ssl} {bs : List UInt8}
    (h : recvExactly n s = (some bs, s')) : bs.length = n ∧ s.Reads bs s' := by
  rcases recvExactly_cases n s with ⟨hle, s'', hrecv, hreads⟩ | ⟨-, s'', hrecv⟩
  · rw [hrecv] at h
    cases h
    exact ⟨List.length_take_of_le hle, hreads⟩
  · rw [hrecv] at h
    cases h

/-! ## Parsing a packet -/

/-- The packet at the front of a stream, if it passes all checks of `recv_packet_with_timeout`:
its header and its body. -/
def parsePacket (rp : ReplayProtection) (stream : List UInt8) :
    Option (PacketHeader × List UInt8) :=
  let header := PacketHeader.ofBytes (stream.take sizeofPacketHeader)
  let rest := stream.drop sizeofPacketHeader
  let body := rest.take header.bodyLen
  if sizeofPacketHeader ≤ stream.length ∧ header.validLength = true ∧
      (replayProtectionValidate rp header.seqNum).1 = true ∧ header.bodyLen ≤ rest.length ∧
      calcChecksum body = header.checksum then
    some (header, body)
  else none

/-- A parsed packet lies at the front of the stream. -/
lemma parsePacket_eq_some_iff {rp : ReplayProtection} {stream body : List UInt8}
    {header : PacketHeader} :
    parsePacket rp stream = some (header, body) ↔
      header.validLength = true ∧ body.length = header.bodyLen ∧
        (replayProtectionValidate rp header.seqNum).1 = true ∧
        calcChecksum body = header.checksum ∧ ∃ rest, stream = header.bytes ++ body ++ rest := by
  constructor
  · intro h
    simp only [parsePacket, Option.ite_none_right_eq_some] at h
    obtain ⟨⟨hhead, hvalid, hseq, hbody, hsum⟩, hsome⟩ := h
    obtain ⟨rfl, rfl⟩ := Prod.mk.inj (Option.some.inj hsome)
    refine ⟨hvalid, List.length_take_of_le hbody, hseq, hsum,
      (stream.drop sizeofPacketHeader).drop
        (PacketHeader.ofBytes (stream.take sizeofPacketHeader)).bodyLen, ?_⟩
    rw [PacketHeader.bytes_ofBytes (List.length_take_of_le hhead), List.append_assoc,
      List.take_append_drop, List.take_append_drop]
  · rintro ⟨hvalid, hlen, hseq, hsum, rest, rfl⟩
    have hhead : (header.bytes ++ body ++ rest).take sizeofPacketHeader = header.bytes := by
      rw [List.append_assoc, List.take_left' header.length_bytes]
    have hdrop : (header.bytes ++ body ++ rest).drop sizeofPacketHeader = body ++ rest := by
      rw [List.append_assoc, List.drop_left' header.length_bytes]
    have hlong : sizeofPacketHeader ≤ (header.bytes ++ body ++ rest).length := by
      simp
    simp only [parsePacket, hhead, hdrop, PacketHeader.ofBytes_bytes, List.take_left' hlen]
    exact if_pos ⟨hlong, hvalid, hseq, by simp [hlen], hsum⟩

/-- The body of a parsed packet fits the payload. -/
lemma length_le_of_validLength {header : PacketHeader} {body : List UInt8}
    (hvalid : header.validLength = true) (hlen : body.length = header.bodyLen) :
    body.length ≤ maxPayloadSize := by
  rw [PacketHeader.validLength, Bool.and_eq_true, decide_eq_true_iff, decide_eq_true_iff] at hvalid
  rw [PacketHeader.bodyLen] at hlen
  simp only [sizeofGamePacket, sizeofPacketHeader, maxPayloadSize] at *
  omega

/-- The received packet in memory: the body over the front of the buffer. -/
def receivedPacket (old : GamePacket) (header : PacketHeader) (body : List UInt8) : GamePacket :=
  ⟨header, old.body.write body⟩

/-- **The receive loops return the packet at the front of the stream**, and leave the rest. -/
theorem recvPacket_of_parse {c : Connection} {header : PacketHeader} {body : List UInt8}
    (h : parsePacket c.rp c.ssl.deliverable = some (header, body)) :
    ∃ ssl, recvPacket c = (some (receivedPacket c.packet header body),
        ⟨ssl, receivedPacket c.packet header body,
          (replayProtectionValidate c.rp header.seqNum).2⟩) ∧
      c.ssl.Reads (header.bytes ++ body) ssl := by
  obtain ⟨hvalid, hlen, hseq, hsum, rest, hstream⟩ := parsePacket_eq_some_iff.1 h
  rw [List.append_assoc] at hstream
  obtain ⟨s₁, hhead, hreads₁⟩ := recvExactly_append header.length_bytes hstream
  have hstream₁ : s₁.deliverable = body ++ rest :=
    List.append_cancel_left (hreads₁.deliverable_eq.symm.trans hstream)
  obtain ⟨s₂, hbody, hreads₂⟩ := recvExactly_append hlen hstream₁
  have hvalidate : replayProtectionValidate c.rp header.seqNum =
      (true, (replayProtectionValidate c.rp header.seqNum).2) := by rw [← hseq]
  have htake : (c.packet.body.write body).bytes.take header.bodyLen = body := by
    rw [← hlen]
    exact Buffer.take_write (length_le_of_validLength hvalid hlen)
  refine ⟨s₂, ?_, hreads₁.trans hreads₂⟩
  rw [recvPacket, hhead]
  simp only [PacketHeader.ofBytes_bytes, hvalid, Bool.not_true, Bool.false_eq_true, if_false]
  rw [hvalidate]
  simp only [hbody, htake, hsum, ne_eq, not_true_eq_false, if_false]
  rfl

/-- **Every packet they return was at the front of the stream.** -/
theorem parse_of_recvPacket {c c' : Connection} {pkt : GamePacket}
    (h : recvPacket c = (some pkt, c')) :
    ∃ body, parsePacket c.rp c.ssl.deliverable = some (pkt.header, body) := by
  rw [recvPacket] at h
  rcases hhead : recvExactly sizeofPacketHeader c.ssl with ⟨_ | head, s₁⟩
  · simp [hhead] at h
  rw [hhead] at h
  simp only at h
  obtain ⟨hheadLen, hreads₁⟩ := recvExactly_eq_some hhead
  by_cases hvalid : (PacketHeader.ofBytes head).validLength = true
  swap
  · simp [hvalid] at h
  simp only [hvalid, Bool.not_true, Bool.false_eq_true, if_false] at h
  rcases hvalidate : replayProtectionValidate c.rp (PacketHeader.ofBytes head).seqNum with
    ⟨_ | _, rp⟩
  · simp [hvalidate] at h
  rw [hvalidate] at h
  simp only at h
  rcases hbody : recvExactly (PacketHeader.ofBytes head).bodyLen s₁ with ⟨_ | body, s₂⟩
  · simp [hbody] at h
  rw [hbody] at h
  simp only at h
  obtain ⟨hbodyLen, hreads₂⟩ := recvExactly_eq_some hbody
  have htake : (c.packet.body.write body).bytes.take (PacketHeader.ofBytes head).bodyLen =
      body := by
    rw [← hbodyLen]
    exact Buffer.take_write (length_le_of_validLength hvalid hbodyLen)
  rw [htake] at h
  by_cases hsum : calcChecksum body = (PacketHeader.ofBytes head).checksum
  swap
  · simp [hsum] at h
  simp only [hsum, ne_eq, not_true_eq_false, if_false] at h
  obtain ⟨hpkt, -⟩ := Prod.mk.inj h
  obtain rfl := Option.some.inj hpkt
  refine ⟨body, parsePacket_eq_some_iff.2 ⟨hvalid, hbodyLen, by rw [hvalidate], hsum,
    s₂.deliverable, ?_⟩⟩
  rw [(hreads₁.trans hreads₂).deliverable_eq, PacketHeader.bytes_ofBytes hheadLen]

/-- What a returned packet is: the front of the stream over what the buffer held before. -/
lemma eq_receivedPacket_of_recvPacket {c c' : Connection} {pkt : GamePacket}
    (h : recvPacket c = (some pkt, c')) :
    ∃ body, parsePacket c.rp c.ssl.deliverable = some (pkt.header, body) ∧
      pkt = receivedPacket c.packet pkt.header body := by
  obtain ⟨body, hparse⟩ := parse_of_recvPacket h
  obtain ⟨ssl, hrecv, -⟩ := recvPacket_of_parse hparse
  exact ⟨body, hparse, Option.some.inj (congrArg Prod.fst (h.symm.trans hrecv))⟩

/-- The client's receive function, on a stream that begins with a packet. -/
theorem pktRecvLocal_of_stream {ssl : Ssl} (packet : GamePacket) {header : PacketHeader}
    {body rest : List UInt8} (hvalid : header.validLength = true)
    (hlen : body.length = header.bodyLen)
    (hstream : ssl.deliverable = header.bytes ++ body ++ rest) :
    ∃ s', pktRecvLocal ssl packet = (some (receivedPacket packet header body), s') ∧
      ssl.Reads (header.bytes ++ body) s' := by
  rw [List.append_assoc] at hstream
  obtain ⟨s₁, hhead, hreads₁⟩ := recvExactly_append header.length_bytes hstream
  have hstream₁ : s₁.deliverable = body ++ rest :=
    List.append_cancel_left (hreads₁.deliverable_eq.symm.trans hstream)
  obtain ⟨s₂, hbody, hreads₂⟩ := recvExactly_append hlen hstream₁
  refine ⟨s₂, ?_, hreads₁.trans hreads₂⟩
  rw [pktRecvLocal, hhead]
  simp only [PacketHeader.ofBytes_bytes, hvalid, Bool.not_true, Bool.false_eq_true, if_false, hbody]
  rfl

end WorldBossRaid
