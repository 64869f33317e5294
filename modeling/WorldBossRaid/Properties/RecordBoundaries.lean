import WorldBossRaid.Properties.Framing

/-!
# Packets and TLS records

`recv_packet_with_timeout` asks `select` whether there is something to read, and `select` sees the
socket only: a record that has been decrypted has left it, however much of it lies unread inside the
SSL object.  So when the peer sends nothing more, whether a packet is received depends on where the
records end.

`Ssl.LastRecord` follows the stream with the length of its last record.  The socket is empty exactly
when fewer bytes than that are left, so all packets are received exactly if the last record is no
longer than the last packet; every other cut makes the server close the connection as if nothing
had come, with whole packets still to be read.
-/

namespace WorldBossRaid

open Bytes

/-! ## `select` on the socket -/

/-- What `select` returns if no more bytes arrive: it sees the records that are still in the
socket. -/
def Ssl.select (s : Ssl) : SelectRet := if s.arriving = [] then .timedOut else .ready

/-- `recv_packet_with_timeout`, when everything that the peer sends has arrived. -/
def recvArrived (timeoutSec : ℕ) (c : Connection) : Option GamePacket × Connection :=
  recvPacketWithTimeout c.ssl.select timeoutSec c

/-- The calls return these messages, one after the other. -/
def ReceivesAll (timeoutSec : ℕ) (ms : List Message) (c : Connection) : Prop :=
  ∃ pkts c', receiveMany (recvArrived timeoutSec) ms.length c = (some pkts, c') ∧
    List.Forall₂ Message.ReadAs ms pkts

/-! ## What reading keeps -/

section Keeps

variable {Inv : Ssl → Prop} (read : ∀ n s, 0 < n → Inv s → Inv (sslRead n s).2)

include read

/-- What every `SSL_read` keeps, the receive loop keeps. -/
lemma recvLoop_keeps {want fuel : ℕ} {received : List UInt8} {s : Ssl} (hs : Inv s) :
    Inv (recvLoop want fuel received s).2 := by
  induction fuel generalizing received s with
  | zero => exact hs
  | succ fuel ih =>
      rw [recvLoop]
      split_ifs with hmissing
      · have hnext := read (want - received.length) s (by omega) hs
        rcases hread : sslRead (want - received.length) s with ⟨bs | _ | _, s'⟩ <;>
          rw [hread] at hnext
        · exact ih hnext
        · exact ih hnext
        · exact hnext
      · exact hs

lemma recvExactly_keeps (want : ℕ) {s : Ssl} (hs : Inv s) : Inv (recvExactly want s).2 :=
  recvLoop_keeps read hs

lemma recvPacket_keeps {c : Connection} (hs : Inv c.ssl) : Inv (recvPacket c).2.ssl := by
  have hhead := recvExactly_keeps read sizeofPacketHeader hs
  rw [recvPacket]
  rcases hrecv : recvExactly sizeofPacketHeader c.ssl with ⟨_ | head, s₁⟩ <;> rw [hrecv] at hhead
  · exact hhead
  dsimp only
  split_ifs
  · exact hhead
  rcases replayProtectionValidate c.rp (PacketHeader.ofBytes head).seqNum with ⟨_ | _, rp⟩
  · exact hhead
  have hbody := recvExactly_keeps read (PacketHeader.ofBytes head).bodyLen hhead
  dsimp only
  rcases hrecv' : recvExactly (PacketHeader.ofBytes head).bodyLen s₁ with ⟨_ | body, s₂⟩ <;>
    rw [hrecv'] at hbody
  · exact hbody
  dsimp only
  split_ifs
  · exact hbody
  · exact hbody

end Keeps

/-! ## The last record -/

/-- The socket holds whole records with data, the last of them with `len` bytes; if it holds none
any more, the last one has been begun. -/
structure Ssl.LastRecord (s : Ssl) (len : ℕ) : Prop where
  whole : ∀ a ∈ s.arriving, a.data ≠ []
  last : ∀ a ∈ s.arriving.getLast?, a.data.length = len
  begun : s.arriving = [] → s.pending.length < len

namespace Ssl.LastRecord

variable {s : Ssl} {len : ℕ}

lemma le_of_arriving (h : s.LastRecord len) (harriving : s.arriving ≠ []) :
    len ≤ s.plaintext.length := by
  obtain ⟨a, ha⟩ := Option.isSome_iff_exists.1 (List.getLast?_isSome.2 harriving)
  obtain ⟨earlier, harr⟩ := List.getLast?_eq_some_iff.1 ha
  rw [← h.last a ha, plaintext, harr, List.flatMap_append, List.flatMap_singleton,
    List.length_append, List.length_append]
  omega

/-- The socket is empty exactly when less is left than the last record had. -/
lemma arriving_eq_nil_iff (h : s.LastRecord len) : s.arriving = [] ↔ s.plaintext.length < len := by
  constructor
  · intro hnil
    rw [plaintext, hnil, List.flatMap_nil, List.append_nil]
    exact h.begun hnil
  · intro hlt
    by_contra harriving
    exact absurd (h.le_of_arriving harriving) (by omega)

lemma select_eq (h : s.LastRecord len) :
    s.select = if s.plaintext.length < len then .timedOut else .ready :=
  if_congr h.arriving_eq_nil_iff rfl rfl

lemma intact (h : s.LastRecord len) : s.Intact := fun hmem => h.whole _ hmem rfl

/-- `SSL_read` takes a record out of the socket only to hand out some of it. -/
lemma sslRead {n : ℕ} (hn : 0 < n) (h : s.LastRecord len) :
    (WorldBossRaid.sslRead n s).2.LastRecord len := by
  obtain ⟨pending, arriving, writes, sent⟩ := s
  cases pending with
  | cons b bs =>
      have hdrop : ((b :: bs).drop n).length ≤ (b :: bs).length := by
        rw [List.length_drop]
        exact Nat.sub_le _ _
      exact ⟨h.whole, h.last, fun hnil => hdrop.trans_lt (h.begun hnil)⟩
  | nil =>
      cases arriving with
      | nil => exact h
      | cons a rest =>
          cases a with
          | record b bs =>
              have hlast (a : Arrival) (ha : a ∈ rest.getLast?) : a.data.length = len := by
                apply h.last a
                rw [List.getLast?_cons, Option.mem_def.1 ha]
                rfl
              have hbegun (hnil : rest = []) : ((b :: bs).drop n).length < len := by
                have hlen := h.last (.record b bs) (by rw [hnil]; rfl)
                rw [Arrival.data] at hlen
                rw [List.length_drop, hlen]
                rw [List.length_cons] at hlen
                omega
              exact ⟨fun a ha => h.whole a (List.mem_cons_of_mem _ ha), hlast, hbegun⟩
          | want => exact absurd rfl (h.whole .want List.mem_cons_self)
          | failure => exact absurd rfl (h.whole .failure List.mem_cons_self)

end Ssl.LastRecord

/-! ## Receiving what has arrived -/

variable {timeoutSec len : ℕ} {ms : List Message} {c : Connection}

lemma recvArrived_keeps (timeoutSec : ℕ) (h : c.ssl.LastRecord len) :
    (recvArrived timeoutSec c).2.ssl.LastRecord len := by
  rw [recvArrived, recvPacketWithTimeout]
  split_ifs
  · exact h
  · exact @recvPacket_keeps (·.LastRecord len) (fun _ _ hn hs => hs.sslRead hn) c h

/-- The state before `ms` are received. -/
structure Arrived (len : ℕ) (ms : List Message) (c : Connection) : Prop where
  awaits : ServerAwaits [] ms c
  records : c.ssl.LastRecord len

lemma Arrived.plaintext_eq (arrived : Arrived len ms c) :
    c.ssl.plaintext = ms.flatMap Message.wire := by
  rw [arrived.awaits.2.1, List.append_nil]

/-- A packet is received as long as no less is left than the last record had. -/
lemma Arrived.step {m : Message} (arrived : Arrived len (m :: ms) c)
    (enough : len ≤ ((m :: ms).flatMap Message.wire).length) :
    ∃ p c', recvArrived timeoutSec c = (some p, c') ∧ m.ReadAs p ∧ Arrived len ms c' := by
  have hready : c.ssl.select = .ready := by
    rw [arrived.records.select_eq, arrived.plaintext_eq, if_neg (by omega)]
  have hkeeps := recvArrived_keeps timeoutSec arrived.records
  obtain ⟨p, c', hrecv, hread, hlater⟩ :=
    @serverAwaits_step c.ssl.select timeoutSec (Or.inr hready) [] m ms c arrived.awaits
  rw [recvArrived, hrecv] at hkeeps
  exact ⟨p, c', hrecv, hread, hlater, hkeeps⟩

lemma Arrived.timedOut (positive : 0 < timeoutSec) (arrived : Arrived len ms c)
    (short : (ms.flatMap Message.wire).length < len) : recvArrived timeoutSec c = (none, c) := by
  have hselect : c.ssl.select = .timedOut := by
    rw [arrived.records.select_eq, arrived.plaintext_eq, if_pos short]
  rw [recvArrived, recvPacketWithTimeout, hselect, if_pos ⟨positive, by decide⟩]

lemma length_wire_le {last : Message} (hlast : last ∈ ms.getLast?) :
    last.wire.length ≤ (ms.flatMap Message.wire).length := by
  obtain ⟨earlier, rfl⟩ := List.getLast?_eq_some_iff.1 hlast
  rw [List.flatMap_append, List.flatMap_singleton, List.length_append]
  omega

/-- The last packet is no shorter than the last record. -/
lemma Arrived.receivesAll (arrived : Arrived len ms c)
    (covers : ∀ m ∈ ms.getLast?, len ≤ m.wire.length) : ReceivesAll timeoutSec ms c := by
  have hstart : Arrived len (ms ++ []) c ∧ ∀ m ∈ (ms ++ []).getLast?, len ≤ m.wire.length := by
    rw [List.append_nil]
    exact ⟨arrived, covers⟩
  have step (m : Message) (ms : List Message) (c : Connection)
      (h : Arrived len (m :: ms) c ∧ ∀ m' ∈ (m :: ms).getLast?, len ≤ m'.wire.length) :
      ∃ p c', recvArrived timeoutSec c = (some p, c') ∧ m.ReadAs p ∧
        Arrived len ms c' ∧ ∀ m' ∈ ms.getLast?, len ≤ m'.wire.length := by
    obtain ⟨arrived, covers⟩ := h
    obtain ⟨last, hlast⟩ := Option.isSome_iff_exists.1
      (List.getLast?_isSome.2 (List.cons_ne_nil m ms))
    obtain ⟨p, c', hrecv, hread, hlater⟩ :=
      arrived.step ((covers last hlast).trans (length_wire_le hlast))
    refine ⟨p, c', hrecv, hread, hlater, fun m' hm' => covers m' ?_⟩
    rw [List.getLast?_cons, Option.mem_def.1 hm']
    rfl
  obtain ⟨pkts, c', hmany, hall, -⟩ := receiveMany_rule
    (fun ms c => Arrived len ms c ∧ ∀ m ∈ ms.getLast?, len ≤ m.wire.length) step hstart
  exact ⟨pkts, c', hmany, hall⟩

/-- The last packet is shorter: it comes to lie inside the SSL object with the packets before it,
and the call for it, if not an earlier one, fails. -/
lemma Arrived.not_receivesAll (positive : 0 < timeoutSec) (arrived : Arrived len ms c)
    {last : Message} (hlast : last ∈ ms.getLast?) (short : last.wire.length < len) :
    ¬ReceivesAll timeoutSec ms c := by
  induction ms generalizing c with
  | nil => simp at hlast
  | cons m ms ih =>
      rintro ⟨pkts, c', hmany, hall⟩
      rw [List.length_cons, receiveMany] at hmany
      cases ms with
      | nil =>
          obtain rfl : m = last := Option.some.inj hlast
          rw [arrived.timedOut positive (by simpa using short)] at hmany
          simp at hmany
      | cons m' ms =>
          rcases lt_or_ge ((m :: m' :: ms).flatMap Message.wire).length len with hshort | enough
          · rw [arrived.timedOut positive hshort] at hmany
            simp at hmany
          · obtain ⟨p, c₁, hrecv, -, hlater⟩ := arrived.step enough
            rw [hrecv] at hmany
            dsimp only at hmany
            rcases hrest : receiveMany (recvArrived timeoutSec) (m' :: ms).length c₁ with
              ⟨_ | ps, c₂⟩
            · rw [hrest] at hmany
              simp at hmany
            · rw [hrest] at hmany
              obtain rfl := Option.some.inj (Prod.mk.inj hmany).1
              cases hall with
              | cons _ hall => exact ih hlater hlast ⟨ps, c₂, hrest, hall⟩

/-- **Packets and TLS records.**  Packets that have all arrived, in whatever records, perhaps with
the beginning of them decrypted already, are all received, in order and without a timeout, exactly
if the last record in the socket is no longer than the last packet. -/
theorem receivesAll_iff (positive : 0 < timeoutSec)
    (bytes : c.ssl.plaintext = ms.flatMap Message.wire) (whole : ∀ a ∈ c.ssl.arriving, a.data ≠ [])
    (fresh : ∀ v ∈ verdicts c.rp (seqNums ms), v.2 = true) :
    ReceivesAll timeoutSec ms c ↔
      ∀ m ∈ ms.getLast?,
        ∃ record ∈ c.ssl.arriving.getLast?, record.data.length ≤ m.wire.length := by
  have awaits : ServerAwaits [] ms c :=
    ⟨fun hmem => whole _ hmem rfl, by rw [bytes, List.append_nil], fresh⟩
  cases harr : c.ssl.arriving.getLast? with
  | none =>
      -- the records have all been decrypted, so already the first call times out
      have harriving : c.ssl.arriving = [] := List.getLast?_eq_none_iff.1 harr
      have arrived : Arrived (c.ssl.plaintext.length + 1) ms c := by
        refine ⟨awaits, whole, fun a ha => by simp [harr] at ha, fun _ => ?_⟩
        rw [Ssl.plaintext, List.length_append]
        omega
      constructor
      · intro received m hm
        have hshort : m.wire.length < c.ssl.plaintext.length + 1 := by
          rw [bytes]
          exact Nat.lt_succ_of_le (length_wire_le hm)
        exact absurd received (arrived.not_receivesAll positive hm hshort)
      · intro covers
        refine arrived.receivesAll fun m hm => ?_
        obtain ⟨record, hrecord, -⟩ := covers m hm
        simp at hrecord
  | some record =>
      have arrived : Arrived record.data.length ms c := by
        refine ⟨awaits, whole, fun a ha => ?_, fun hnil => ?_⟩
        · rw [Option.some.inj (ha.symm.trans harr)]
        · rw [hnil] at harr
          simp at harr
      constructor
      · intro received m hm
        by_contra short
        exact arrived.not_receivesAll positive hm (by simpa using short) received
      · intro covers
        exact arrived.receivesAll fun m hm => by simpa using covers m hm

/-! ## Two cuts of the same bytes -/

/-- A second heartbeat, with the next sequence number. -/
def nextHeartbeat : Message := ⟨(pktInitLocal 8 OpCode.heartbeat.code).1, 0, Nat.zero_le _⟩

/-- A connection on which these records have arrived. -/
def recordsArrive (records : List Arrival) : Connection :=
  ⟨⟨[], records, [], []⟩, .zero, replayProtectionInit⟩

/-- Two heartbeats in two records, cut inside the second one. -/
def cutInside : List Arrival :=
  [.record 12 [0, 0, 0, 0x13, 0, 0, 0, 7, 0, 0, 0, 12, 0, 0, 0, 0x13],
    .record 0 [0, 0, 8, 0, 0, 0]]

/-- Two heartbeats in one record. -/
def inOneRecord : List Arrival :=
  [.record 12 [0, 0, 0, 0x13, 0, 0, 0, 7, 0, 0, 0, 12, 0, 0, 0, 0x13, 0, 0, 0, 8, 0, 0, 0]]

lemma heartbeats_fresh :
    ∀ v ∈ verdicts replayProtectionInit (seqNums [heartbeatMessage, nextHeartbeat]), v.2 = true :=
  List.forall_mem_cons.2 ⟨rfl, List.forall_mem_singleton.2 (by decide +kernel)⟩

theorem receivesAll_cutInside :
    ReceivesAll 5 [heartbeatMessage, nextHeartbeat] (recordsArrive cutInside) :=
  (receivesAll_iff (by decide) (by decide +kernel)
    (show ∀ a ∈ cutInside, a.data ≠ [] by decide) heartbeats_fresh).2
      fun _ hm => ⟨_, rfl, by rw [← Option.some.inj hm]; decide +kernel⟩

/-- The first heartbeat is received; the call for the second one times out, although all of its
bytes have arrived and its sequence number would be accepted. -/
theorem receivesAll_inOneRecord :
    (recordsArrive inOneRecord).ssl.plaintext =
        [heartbeatMessage, nextHeartbeat].flatMap Message.wire ∧
      (∀ v ∈ verdicts (recordsArrive inOneRecord).rp (seqNums [heartbeatMessage, nextHeartbeat]),
        v.2 = true) ∧
      (receiveMany (recvArrived 5) 1 (recordsArrive inOneRecord)).1.isSome = true ∧
      ¬ReceivesAll 5 [heartbeatMessage, nextHeartbeat] (recordsArrive inOneRecord) := by
  have hfails : (receiveMany (recvArrived 5) 2 (recordsArrive inOneRecord)).1 = none := by
    decide +kernel
  refine ⟨by decide +kernel, heartbeats_fresh, by decide +kernel, ?_⟩
  rintro ⟨pkts, c', hmany, -⟩
  exact nomatch hfails.symm.trans (congrArg Prod.fst hmany)

end WorldBossRaid
