import WorldBossRaid.Model.TimedSession
import WorldBossRaid.Properties.RecordBoundaries
import WorldBossRaid.Properties.SessionRule

/-!
# When an idle client is dropped

The loop of `handle_client` ends a session for want of packets at two places: at its head, when
the last heartbeat is more than `HEARTBEAT_TIMEOUT` seconds old, and after it, when nothing has
been seen on the socket for the five seconds of its receive.  The first does not look at packets
other than heartbeats.  The second does not look at the thirty seconds, nor at packets that lie
inside the SSL object already.  `idleRule_iff` says when the client had nevertheless been silent
for more than thirty seconds.
-/

namespace WorldBossRaid

open Bytes Interaction Prog

/-! ## Statement -/

/-- The client has sent nothing for more than thirty seconds before the instant `x`. -/
def TimedWorld.SilentAt (w : TimedWorld) (x : ℤ) : Prop :=
  ∀ k m y, w.client.Arrives k m y → y ≤ x → y + 1000 * heartbeatTimeout < x

/-- The instant at which a turn of the loop ends the session because the client is idle.  A client
that closes the connection is seen by `select`, and is not meant. -/
def idleClose (l : ClientLocals) (w : TimedWorld) : Option ℤ :=
  let (expired, w) := eval TimedWorld.exec (heartbeatExpired l) w
  if expired then some w.clock
  else
    match w.select 5 with
    | (.timedOut, x) => some x
    | _ => none

/-- A session from the world `w` on is closed for inactivity only after more than thirty seconds of
silence. -/
def IdleRule (w : TimedWorld) : Prop :=
  ∀ n l w' x, sessionAt w n = some (l, w') → idleClose l w' = some x → w'.SilentAt x

/-- The last heartbeat is more than thirty seconds old. -/
def Overdue (l : ClientLocals) (now : ℤ) : Prop :=
  0 < l.lastHeartbeat ∧ heartbeatTimeout < now - l.lastHeartbeat

instance (l : ClientLocals) (now : ℤ) : Decidable (Overdue l now) := by
  unfold Overdue
  infer_instance

/-- Something is to be seen on the socket by the instant `x`. -/
def TimedWorld.ReadyBy (w : TimedWorld) (x : ℤ) : Prop := ∃ y ∈ w.nextEvent, y ≤ x

instance (w : TimedWorld) (x : ℤ) : Decidable (w.ReadyBy x) := by
  unfold TimedWorld.ReadyBy
  infer_instance

/-- What has to hold at the head of the loop.  A heartbeat is overdue only when no packet other
than a heartbeat has been received that came in the last thirty seconds, and no packet that did is
waiting.  And something comes within five seconds, unless the worker has spent more than
twenty-five seconds on the packets that are there. -/
structure Attended (l : ClientLocals) (w : TimedWorld) : Prop where
  nothingElse : Overdue l (timeNull w.clock) → ∀ k m x, w.client.Arrives k m x →
    k < w.received → m.pkt.header.opcode ≠ OpCode.heartbeat.code → x + 30000 < w.clock
  nothingWaits : Overdue l (timeNull w.clock) → ∀ k m x, w.client.Arrives k m x →
    w.received ≤ k → x ≤ w.clock → x + 30000 < w.clock
  soon : Overdue l (timeNull w.clock) ∨ w.ReadyBy (w.clock + 5000) ∨
    ∀ k m x, w.client.Arrives k m x → x ≤ w.clock → x + 25000 < w.clock

/-! ## Bytes and records in time -/

variable {l l' : ClientLocals} {w w' : TimedWorld} {client : TimedClient}

lemma mem_stream {records : List TimedRecord} {x : ℤ} {b : UInt8}
    (h : (x, b) ∈ records.flatMap TimedRecord.stream) : ∃ r ∈ records, r.ends = x := by
  obtain ⟨r, hr, hb⟩ := List.mem_flatMap.1 h
  obtain ⟨b', -, heq⟩ := List.mem_map.1 hb
  exact ⟨r, hr, congrArg Prod.fst heq⟩

lemma length_stream (records : List TimedRecord) :
    (records.flatMap TimedRecord.stream).length =
      ((records.map TimedRecord.arrival).flatMap Arrival.data).length := by
  simp only [List.length_flatMap, List.map_map]
  congr 2
  funext r
  exact List.length_map _

lemma TimedClient.Arrives.exists_record {k : ℕ} {m : Message} {x : ℤ}
    (arrives : client.Arrives k m x) : ∃ r ∈ client.records, r.ends = x := by
  obtain ⟨b, hb⟩ := arrives.lastByte
  exact mem_stream (List.mem_of_getElem? hb)

lemma TimedWorld.records_eq (w : TimedWorld) :
    w.client.records = w.client.records.take w.decrypted ++ w.coming :=
  (List.take_append_drop _ _).symm

/-- When the socket is quiet, what arrives before `x` has been decrypted. -/
lemma TimedWorld.decrypted_of_quiet {x y : ℤ} (quiet : ¬w.ReadyBy x) {k : ℕ} {m : Message}
    (arrives : w.client.Arrives k m y) (hy : y ≤ x) :
    ∃ r ∈ w.client.records.take w.decrypted, r.ends = y := by
  obtain ⟨r, hr, rfl⟩ := arrives.exists_record
  rw [w.records_eq, List.mem_append] at hr
  refine ⟨r, hr.resolve_right fun later => quiet ?_, rfl⟩
  have ordered : w.coming.Pairwise fun r r' => r.ends ≤ r'.begins :=
    w.client.ordered.sublist (List.drop_sublist _ _)
  rw [ReadyBy, nextEvent]
  cases hcoming : w.coming with
  | nil =>
      rw [hcoming] at later
      cases later
  | cons r₀ rest =>
      rw [hcoming] at later ordered
      refine ⟨r₀.begins, rfl, ?_⟩
      obtain heq | later := List.mem_cons.1 later
      · exact r₀.inTime.trans (heq ▸ hy)
      · have hle := (List.pairwise_cons.1 ordered).1 r later
        exact r₀.inTime.trans (hle.trans (r.inTime.trans hy))

/-! ## The connection between receives -/

/-- The connection is where the packets received have left it, and what has been decrypted has
arrived. -/
structure Reading (w : TimedWorld) : Prop where
  awaits : ServerAwaits [] (w.client.messages.drop w.received) w.conn
  socket : w.conn.ssl.arriving = w.coming.map TimedRecord.arrival
  arrived : ∀ r ∈ w.client.records.take w.decrypted, r.ends ≤ w.clock

lemma reading_accepted (client : TimedClient) (clock : ℤ) (packet : GamePacket)
    (supply : ℕ → TimedSupply) : Reading (.accepted client clock packet supply) := by
  have decrypted : (TimedWorld.accepted client clock packet supply).decrypted = 0 := by
    rw [TimedWorld.decrypted, TimedWorld.accepted, List.length_map, Nat.sub_self]
  refine ⟨⟨fun hmem => ?_, ?_, client.fresh⟩, ?_, ?_⟩
  · obtain ⟨r, -, hr⟩ := List.mem_map.1 hmem
    cases hr
  · rw [List.append_nil]
    exact client.bytes
  · rw [TimedWorld.coming, decrypted]
    rfl
  · rw [decrypted]
    exact List.forall_mem_nil _

lemma Reading.length_coming (hw : Reading w) :
    w.conn.ssl.arriving.length = w.coming.length := by
  rw [hw.socket, List.length_map]

/-- As many bytes have been decrypted as the packets received have. -/
lemma Reading.length_received (hw : Reading w) :
    ((w.client.messages.take w.received).flatMap Message.wire).length ≤
      ((w.client.records.take w.decrypted).flatMap TimedRecord.stream).length := by
  have total := congrArg List.length w.client.bytes
  have left := congrArg List.length hw.awaits.2.1
  rw [Ssl.plaintext, hw.socket, List.append_nil, List.length_append, ← length_stream] at left
  rw [← length_stream, w.records_eq, List.flatMap_append, List.length_append,
    ← List.take_append_drop w.received w.client.messages, List.flatMap_append,
    List.length_append] at total
  omega

lemma TimedClient.Arrives.bytesTo_pos {k : ℕ} {m : Message} {x : ℤ}
    (arrives : client.Arrives k m x) : 0 < client.bytesTo k := by
  have hmem : m ∈ client.messages.take (k + 1) := by
    refine List.mem_of_getElem? (i := k) ?_
    rw [List.getElem?_take_of_lt (Nat.lt_succ_self k)]
    exact arrives.message
  have hwire : m.wire.length ≤ client.bytesTo k := by
    rw [TimedClient.bytesTo, List.length_flatMap]
    exact List.single_le_sum (fun _ _ => Nat.zero_le _) _ (List.mem_map_of_mem hmem)
  exact (List.length_pos_iff.2 m.wire_ne_nil).trans_le hwire

/-- A packet received has arrived: its last byte is among those decrypted. -/
lemma Reading.arrived_of_received (hw : Reading w) {k : ℕ} {m : Message} {x : ℤ}
    (arrives : w.client.Arrives k m x) (hk : k < w.received) : x ≤ w.clock := by
  have hpos := arrives.bytesTo_pos
  have hle : w.client.bytesTo k ≤
      ((w.client.messages.take w.received).flatMap Message.wire).length := by
    obtain ⟨rest, hrest⟩ := List.take_prefix_take_left (l := w.client.messages) hk
    rw [TimedClient.bytesTo, ← hrest, List.flatMap_append, List.length_append]
    exact Nat.le_add_right _ _
  have hlt := hle.trans hw.length_received
  obtain ⟨b, hb⟩ := arrives.lastByte
  rw [TimedClient.stream, w.records_eq, List.flatMap_append,
    List.getElem?_append_left (by omega)] at hb
  obtain ⟨r, hr, rfl⟩ := mem_stream (List.mem_of_getElem? hb)
  exact hw.arrived r hr

/-! ## Receiving -/

lemma sslRead_arriving (n : ℕ) (s : Ssl) : (sslRead n s).2.arriving <:+ s.arriving := by
  obtain ⟨pending, arriving, writes, sent⟩ := s
  cases pending with
  | cons b bs => exact List.suffix_rfl
  | nil =>
      cases arriving with
      | nil => exact List.suffix_rfl
      | cons a rest => cases a <;> exact List.suffix_cons _ _

lemma recvPacketWithTimeout_arriving (sel : SelectRet) (timeoutSec : ℕ) (c : Connection) :
    (recvPacketWithTimeout sel timeoutSec c).2.ssl.arriving <:+ c.ssl.arriving := by
  rw [recvPacketWithTimeout]
  split_ifs
  · exact List.suffix_rfl
  · exact @recvPacket_keeps (·.arriving <:+ c.ssl.arriving)
      (fun n s _ hs => (sslRead_arriving n s).trans hs) c List.suffix_rfl

lemma le_foldl_max (x : ℤ) (records : List TimedRecord) :
    x ≤ records.foldl (fun x record => max x record.ends) x ∧
      ∀ r ∈ records, r.ends ≤ records.foldl (fun x record => max x record.ends) x := by
  induction records generalizing x with
  | nil => exact ⟨le_rfl, List.forall_mem_nil _⟩
  | cons r records ih =>
      obtain ⟨hle, hall⟩ := ih (max x r.ends)
      exact ⟨(le_max_left _ _).trans hle,
        List.forall_mem_cons.2 ⟨(le_max_right _ _).trans hle, hall⟩⟩

variable {sel : SelectRet × ℤ} {timeoutSec : ℕ}

lemma Reading.decrypted_read (hw : Reading w) :
    (w.read sel timeoutSec).2.decrypted = w.decrypted +
        ((w.read sel timeoutSec).2.decrypted - w.decrypted) ∧
      (w.read sel timeoutSec).2.decrypted - w.decrypted =
        w.conn.ssl.arriving.length - (w.read sel timeoutSec).2.conn.ssl.arriving.length := by
  have hlen : (w.read sel timeoutSec).2.conn.ssl.arriving.length ≤ w.conn.ssl.arriving.length :=
    (recvPacketWithTimeout_arriving sel.1 timeoutSec w.conn).length_le
  have hcoming : w.conn.ssl.arriving.length = w.client.records.length - w.decrypted :=
    hw.length_coming.trans List.length_drop
  have hbefore : w.decrypted = w.client.records.length - w.conn.ssl.arriving.length := rfl
  have hafter : (w.read sel timeoutSec).2.decrypted =
      w.client.records.length - (w.read sel timeoutSec).2.conn.ssl.arriving.length := rfl
  omega

lemma Reading.coming_read (hw : Reading w) :
    (w.read sel timeoutSec).2.coming =
      w.coming.drop ((w.read sel timeoutSec).2.decrypted - w.decrypted) := by
  rw [TimedWorld.coming, TimedWorld.coming, List.drop_drop, ← hw.decrypted_read.1]
  rfl

/-- After a receive the socket is still as the clock says. -/
lemma Reading.socket_read (hw : Reading w) :
    (w.read sel timeoutSec).2.conn.ssl.arriving =
      (w.read sel timeoutSec).2.coming.map TimedRecord.arrival := by
  have hsuffix := recvPacketWithTimeout_arriving sel.1 timeoutSec w.conn
  rw [List.suffix_iff_eq_drop] at hsuffix
  rw [hw.coming_read, hw.decrypted_read.2, List.map_drop, ← hw.socket]
  exact hsuffix

lemma Reading.arrived_read (hw : Reading w) (later : w.clock ≤ sel.2) :
    ∀ r ∈ w.client.records.take (w.read sel timeoutSec).2.decrypted,
      r.ends ≤ (w.read sel timeoutSec).2.clock := by
  rw [hw.decrypted_read.1, List.take_add]
  intro r hr
  obtain hr | hr := List.mem_append.1 hr
  · exact (hw.arrived r hr).trans (later.trans (le_foldl_max _ _).1)
  · exact (le_foldl_max _ _).2 r hr

/-- The world after a receive of the packet `m`. -/
structure Receives (w : TimedWorld) (m : Message) (w' : TimedWorld) : Prop where
  reading : Reading w'
  client : w'.client = w.client
  message : w.client.messages[w.received]? = some m
  received : w'.received = w.received + 1
  clock : w.clock ≤ w'.clock

/-- As long as packets are left, a receive that does not time out gets the next one. -/
lemma Reading.read_of_ready (hw : Reading w) (later : w.clock ≤ sel.2)
    (available : timeoutSec = 0 ∨ sel.1 = .ready) {m : Message} {ms : List Message}
    (left : w.client.messages.drop w.received = m :: ms) :
    ∃ pkt, (w.read sel timeoutSec).1 = some pkt ∧ m.ReadAs pkt ∧
      Receives w m (w.read sel timeoutSec).2 := by
  obtain ⟨pkt, conn, hrecv, hread, hawaits⟩ :=
    serverAwaits_step available m ms w.conn (left ▸ hw.awaits)
  have hret : (w.read sel timeoutSec).1 = some pkt := congrArg Prod.fst hrecv
  have hconn : (w.read sel timeoutSec).2.conn = conn := congrArg Prod.snd hrecv
  have hreceived : (w.read sel timeoutSec).2.received = w.received + 1 := by
    change (if (w.read sel timeoutSec).1.isSome then _ else _) = _
    rw [hret]
    rfl
  refine ⟨pkt, hret, hread, ⟨?_, hw.socket_read, hw.arrived_read later⟩, rfl, ?_, hreceived,
    later.trans (le_foldl_max _ _).1⟩
  · rw [hreceived, hconn, ← List.drop_drop]
    change ServerAwaits [] ((w.client.messages.drop w.received).drop 1) conn
    rw [left]
    exact hawaits
  · have hhead := congrArg (·[0]?) left
    rwa [List.getElem?_drop] at hhead

lemma Reading.plaintext_of_nil (hw : Reading w)
    (left : w.client.messages.drop w.received = []) : w.conn.ssl.plaintext = [] := by
  rw [hw.awaits.2.1, left]
  rfl

lemma Reading.read_of_nil (hw : Reading w) (left : w.client.messages.drop w.received = []) :
    (w.read sel timeoutSec).1 = none := by
  cases hret : (w.read sel timeoutSec).1 with
  | none => rfl
  | some pkt =>
      have hrecv : recvPacketWithTimeout sel.1 timeoutSec w.conn = (some pkt, _) :=
        Prod.ext hret rfl
      rw [recvPacketWithTimeout] at hrecv
      split_ifs at hrecv
      · cases hrecv
      · obtain ⟨fits, hplain⟩ := wire_of_recvPacket hrecv
        have hwire := Message.wire_ne_nil ⟨pkt, pkt.header.bodyLen, fits⟩
        rw [hw.plaintext_of_nil left] at hplain
        exact absurd (List.append_eq_nil_iff.1 hplain.symm).1 hwire

lemma read_of_timedOut (positive : 0 < timeoutSec) (hsel : sel.1 ≠ .ready) (w : TimedWorld) :
    w.read sel timeoutSec = (none, { w with clock := sel.2 }) := by
  rw [TimedWorld.read, recvPacketWithTimeout, if_pos ⟨positive, hsel⟩]
  change (none, ({ w with clock := List.foldl _ _ (w.coming.take (w.decrypted - w.decrypted)) } :
    TimedWorld)) = _
  rw [Nat.sub_self, List.take_zero]
  rfl

lemma select_of_quiet (quiet : ¬w.ReadyBy (w.clock + 1000 * timeoutSec)) :
    w.select timeoutSec = (.timedOut, w.clock + 1000 * timeoutSec) := by
  rw [TimedWorld.ReadyBy] at quiet
  rw [TimedWorld.select]
  cases hevent : w.nextEvent with
  | none => rfl
  | some x => exact if_neg fun hle => quiet ⟨x, hevent, hle⟩

lemma select_of_ready (ready : w.ReadyBy (w.clock + 1000 * timeoutSec)) :
    (w.select timeoutSec).1 = .ready := by
  obtain ⟨x, hevent, hle⟩ := ready
  rw [TimedWorld.select, Option.mem_def.1 hevent]
  dsimp only
  rw [if_pos hle]

lemma le_select (timeoutSec : ℕ) (w : TimedWorld) : w.clock ≤ (w.select timeoutSec).2 := by
  rw [TimedWorld.select]
  split
  · split_ifs
    · exact le_max_left _ _
    · dsimp only
      omega
  · dsimp only
    omega

/-- A receive that gets a packet gets the next one. -/
lemma Reading.recv_eq_some (hw : Reading w) {pkt : GamePacket}
    (h : w.recv timeoutSec = (some pkt, w')) : ∃ m, m.ReadAs pkt ∧ Receives w m w' := by
  obtain ⟨sel, hrecv, available, later⟩ : ∃ sel, w.recv timeoutSec = w.read sel timeoutSec ∧
      (timeoutSec = 0 ∨ sel.1 = .ready) ∧ w.clock ≤ sel.2 := by
    rw [TimedWorld.recv]
    rcases Nat.eq_zero_or_pos timeoutSec with rfl | positive
    · exact ⟨_, rfl, Or.inl rfl, le_rfl⟩
    · rw [TimedWorld.recv, if_pos positive] at h
      rw [if_pos positive]
      refine ⟨_, rfl, Or.inr ?_, le_select timeoutSec w⟩
      by_contra hsel
      rw [read_of_timedOut positive hsel] at h
      cases h
  rw [hrecv] at h
  have hret := congrArg Prod.fst h
  cases left : w.client.messages.drop w.received with
  | nil => exact absurd (hret.symm.trans (hw.read_of_nil left)) (by simp)
  | cons m ms =>
      obtain ⟨pkt', hret', hread, receives⟩ := hw.read_of_ready later available left
      obtain rfl : pkt = pkt' := Option.some.inj (hret.symm.trans hret')
      obtain rfl : (w.read sel timeoutSec).2 = w' := congrArg Prod.snd h
      exact ⟨m, hread, receives⟩

lemma recv_five (w : TimedWorld) : w.recv 5 = w.read (w.select 5) 5 := rfl

lemma recv_of_quiet (quiet : ¬w.ReadyBy (w.clock + 5000)) :
    w.recv 5 = (none, { w with clock := w.clock + 5000 }) := by
  have hselect := @select_of_quiet w 5 quiet
  rw [recv_five, hselect, read_of_timedOut (by decide) (by simp)]
  rfl

/-! ## The parts of a turn -/

/-- A look at the heartbeat takes no time. -/
lemma eval_heartbeatExpired (l : ClientLocals) (w : TimedWorld) :
    eval TimedWorld.exec (heartbeatExpired l) w =
      (decide (Overdue l (timeNull w.clock)), w) := by
  unfold heartbeatExpired Overdue
  by_cases hseen : l.lastHeartbeat > 0
  · rw [if_pos hseen]
    simp only [perform_bind, eval_call, eval_pure, TimedWorld.exec, hseen, true_and]
    rfl
  · rw [if_neg hseen, eval_pure]
    simp [hseen]

lemma eval_closeClient (playerId : ℤ) (w : TimedWorld) :
    (eval TimedWorld.exec (closeClient playerId) w).1 = none := by
  unfold closeClient
  rw [eval_bind, eval_pure]

lemma eval_closeClient_ne (playerId : ℤ) (w : TimedWorld) :
    eval TimedWorld.exec (closeClient playerId) w ≠ (some l', w') := by
  intro h
  have hnone := eval_closeClient playerId w
  rw [h] at hnone
  cases hnone

lemma exec_recv (timeoutSec : ℕ) (w : TimedWorld) :
    TimedWorld.exec (.recv timeoutSec) w = w.recv timeoutSec := rfl

/-- The two places at which a turn ends the session for want of packets. -/
lemma idleClose_eq (l : ClientLocals) (w : TimedWorld) :
    idleClose l w = if Overdue l (timeNull w.clock) then some w.clock
      else if w.ReadyBy (w.clock + 5000) then none
      else some (w.clock + 5000) := by
  rw [idleClose, eval_heartbeatExpired]
  by_cases overdue : Overdue l (timeNull w.clock)
  · simp only [overdue, decide_true, if_true]
  · simp only [overdue, decide_false, Bool.false_eq_true, if_false]
    by_cases ready : w.ReadyBy (w.clock + 5000)
    · have hselect := @select_of_ready w 5 ready
      rw [if_pos ready]
      rcases hsel : w.select 5 with ⟨sel, x⟩
      rw [hsel] at hselect
      obtain rfl : sel = .ready := hselect
      rfl
    · have hselect := @select_of_quiet w 5 ready
      rw [if_neg ready, hselect]
      rfl

/-- What operations other than receives leave: the same connection, and no earlier clock. -/
structure Unreceived (w w' : TimedWorld) : Prop where
  client : w'.client = w.client
  conn : w'.conn = w.conn
  received : w'.received = w.received
  clock : w.clock ≤ w'.clock

lemma Unreceived.exec {o : WorkerOp} (ho : o.receives = false) (h : Unreceived w w') :
    Unreceived w (TimedWorld.exec o w').2 := by
  obtain ⟨client, conn, received, clock⟩ := h
  have later : w'.clock ≤ w'.next.clock := by simp [TimedWorld.next]
  cases o with
  | recv timeoutSec => cases ho
  | game o => exact ⟨client, conn, received, clock.trans later⟩
  | send r => exact ⟨client, conn, received, clock.trans later⟩
  | _ => exact ⟨client, conn, received, clock⟩

/-- So a program without a receive does no more than pass the time. -/
lemma unreceived_eval {α : Type} {p : Worker α} (hp : Issues (fun o => o.receives = false) p)
    (w : TimedWorld) : Unreceived w (eval TimedWorld.exec p w).2 :=
  hp.eval (fun _ _ => Unreceived.exec) ⟨rfl, rfl, rfl, le_rfl⟩

lemma Reading.unreceived (hw : Reading w) (h : Unreceived w w') : Reading w' := by
  obtain ⟨client, conn, received, clock⟩ := h
  have decrypted : w'.decrypted = w.decrypted := by
    rw [TimedWorld.decrypted, TimedWorld.decrypted, client, conn]
  refine ⟨?_, ?_, ?_⟩
  · rw [client, conn, received]
    exact hw.awaits
  · rw [TimedWorld.coming, client, conn, decrypted]
    exact hw.socket
  · rw [client, decrypted]
    exact fun r hr => (hw.arrived r hr).trans clock

lemma eval_client {α : Type} (p : Worker α) (w : TimedWorld) :
    (eval TimedWorld.exec p w).2.client = w.client := by
  induction p generalizing w with
  | done a => rfl
  | call o k ih =>
      have same : (TimedWorld.exec o w).2.client = w.client := by cases o <;> rfl
      exact (ih _ _).trans same

lemma sessionAt_client {w₀ : TimedWorld} {n : ℕ} (h : sessionAt w₀ n = some (l, w)) :
    w.client = w₀.client :=
  atHead_induction (fun _ w => w.client = w₀.client)
    (fun _ _ h => (congrArg (·.2.client) h).symm.trans (eval_client handleClient w₀))
    (fun l w _ _ same h =>
      ((congrArg (·.2.client) h).symm.trans (eval_client (handleClientLoop l) w)).trans same) h

/-! ## One turn of the loop -/

/-- A turn ends the session at the first place, ends it at the second, or handles a packet. -/
lemma eval_handleClientLoop (l : ClientLocals) (w : TimedWorld) :
    eval TimedWorld.exec (handleClientLoop l) w =
      if Overdue l (timeNull w.clock) then eval TimedWorld.exec (closeClient l.playerId) w
      else match w.recv 5 with
        | (none, w') => eval TimedWorld.exec (closeClient l.playerId) w'
        | (some pkt, w') => eval TimedWorld.exec (handlePacket l pkt) w' := by
  unfold handleClientLoop
  rw [eval_bind, eval_heartbeatExpired]
  by_cases overdue : Overdue l (timeNull w.clock)
  · simp only [overdue, decide_true, if_true]
  · simp only [overdue, decide_false, Bool.false_eq_true, if_false, perform_bind, eval_call]
    rw [exec_recv]
    cases w.recv 5 with
    | mk answer w' =>
        cases answer with
        | none =>
            dsimp only
            rw [eval_bind, eval_heartbeatExpired]
        | some pkt => rfl

/-- The client has closed the connection by the instant `x`, and all of its packets have been
received. -/
def TimedWorld.AtEnd (w : TimedWorld) (x : ℤ) : Prop :=
  w.client.messages.drop w.received = [] ∧ w.coming = [] ∧ ∃ y ∈ w.client.closes, y ≤ x

/-- With no packet left, the socket has nothing but the end of the stream. -/
lemma Reading.atEnd_of_ready (hw : Reading w) (left : w.client.messages.drop w.received = [])
    {x : ℤ} (ready : w.ReadyBy x) : w.AtEnd x := by
  have empty := hw.plaintext_of_nil left
  rw [Ssl.plaintext, hw.socket] at empty
  have nothing := (List.append_eq_nil_iff.1 empty).2
  rw [TimedWorld.ReadyBy, TimedWorld.nextEvent] at ready
  cases hcoming : w.coming with
  | nil =>
      rw [hcoming] at ready
      exact ⟨left, hcoming, ready⟩
  | cons r rest =>
      rw [hcoming, List.map_cons, List.flatMap_cons] at nothing
      cases nothing

lemma TimedWorld.AtEnd.ready {x : ℤ} (h : w.AtEnd x) : w.ReadyBy x := by
  obtain ⟨-, hcoming, hcloses⟩ := h
  rw [ReadyBy, nextEvent, hcoming]
  exact hcloses

lemma turn_of_none {w₁ : TimedWorld} (overdue : ¬Overdue l (timeNull w.clock))
    (hrecv : w.recv 5 = (none, w₁)) :
    (eval TimedWorld.exec (handleClientLoop l) w).1 = none ∧
      Unreceived w₁ (eval TimedWorld.exec (handleClientLoop l) w).2 := by
  rw [eval_handleClientLoop, if_neg overdue, hrecv]
  exact ⟨eval_closeClient l.playerId w₁,
    unreceived_eval (closeClient_not_receives l.playerId) w₁⟩

/-- `idleClose` speaks of the turns that end the session without having received a packet, unless
the client has closed the connection. -/
lemma turn_without_packet_iff (hw : Reading w) :
    ((eval TimedWorld.exec (handleClientLoop l) w).1 = none ∧
        (eval TimedWorld.exec (handleClientLoop l) w).2.received = w.received) ↔
      (idleClose l w).isSome ∨ w.AtEnd (w.clock + 5000) := by
  rw [idleClose_eq]
  by_cases overdue : Overdue l (timeNull w.clock)
  · have closed := unreceived_eval (closeClient_not_receives l.playerId) w
    rw [eval_handleClientLoop, if_pos overdue, if_pos overdue]
    exact iff_of_true ⟨eval_closeClient l.playerId w, closed.received⟩ (Or.inl rfl)
  rw [if_neg overdue]
  by_cases ready : w.ReadyBy (w.clock + 5000)
  · have hselect := @select_of_ready w 5 ready
    rw [if_pos ready]
    cases left : w.client.messages.drop w.received with
    | nil =>
        have hnone := @Reading.read_of_nil w (w.select 5) 5 hw left
        have hrecv : w.recv 5 = (none, (w.recv 5).2) := Prod.ext hnone rfl
        obtain ⟨hend, closed⟩ := turn_of_none overdue hrecv
        refine iff_of_true ⟨hend, closed.received.trans ?_⟩
          (Or.inr (hw.atEnd_of_ready left ready))
        change (if (w.recv 5).1.isSome then _ else _) = _
        rw [hrecv]
        rfl
    | cons m ms =>
        obtain ⟨pkt, hret, -, receives⟩ :=
          @Reading.read_of_ready w (w.select 5) 5 hw (le_select 5 w) (Or.inr hselect) m ms left
        have hrecv : w.recv 5 = (some pkt, (w.recv 5).2) := Prod.ext hret rfl
        have handled := unreceived_eval (handlePacket_not_receives l pkt) (w.recv 5).2
        refine iff_of_false (fun h => ?_) (fun h => ?_)
        · rw [eval_handleClientLoop, if_neg overdue, hrecv] at h
          have same := handled.received.symm.trans h.2
          rw [recv_five, receives.received] at same
          omega
        · obtain h | h := h
          · cases h
          · exact absurd (left.symm.trans h.1) (List.cons_ne_nil m ms)
  · rw [if_neg ready]
    obtain ⟨hend, closed⟩ := turn_of_none overdue (recv_of_quiet ready)
    exact iff_of_true ⟨hend, closed.received⟩ (Or.inl rfl)

lemma eval_unless_failed {sent : Bool} {playerId : ℤ}
    (h : (eval TimedWorld.exec (if sent = true then pure (some l) else closeClient playerId) w).1 =
      some l') : l' = l := by
  cases sent with
  | false => exact absurd h (by simp [eval_closeClient])
  | true => exact (Option.some.inj h).symm

/-- A packet that does not end the session sets the mark of the last heartbeat if it is one. -/
lemma lastHeartbeat_handlePacket {pkt : GamePacket}
    (h : (eval TimedWorld.exec (handlePacket l pkt) w).1 = some l') :
    l'.lastHeartbeat = if pkt.header.opcode = OpCode.heartbeat.code then timeNull w.clock
      else l.lastHeartbeat := by
  have closed {playerId : ℤ} {w : TimedWorld} :
      (eval TimedWorld.exec (closeClient playerId) w).1 ≠ some l' := by simp [eval_closeClient]
  simp only [handlePacket, perform_bind, eval_call] at h
  split_ifs at h
  · exact absurd h closed
  · exact absurd h closed
  · exact absurd h closed
  · simp only [dispatch, perform_bind] at h
    split_ifs at h with attack heartbeat
    · rw [eval_call, eval_bind] at h
      rw [if_neg (by rw [attack]; decide), eval_unless_failed h]
    · rw [eval_call, eval_bind] at h
      rw [if_pos heartbeat, eval_unless_failed h]
      simp only [handleHeartbeat, perform_bind, eval_call, eval_bind, eval_pure]
      rfl
    · exact absurd h closed
    · rw [if_neg heartbeat, ← Option.some.inj h]

/-! ## The session up to a head of the loop -/

/-- At the head of the loop, the last heartbeat received is as late as the mark of the last
heartbeat says. -/
structure Settled (l : ClientLocals) (w : TimedWorld) : Prop where
  reading : Reading w
  heartbeats : ∀ k m x, w.client.Arrives k m x → k < w.received →
    m.pkt.header.opcode = OpCode.heartbeat.code → x < 1000 * (l.lastHeartbeat + 1)

lemma Receives.cases {m m' : Message} (receives : Receives w m w') {k : ℕ} {x : ℤ}
    (arrives : w'.client.Arrives k m' x) (hk : k < w'.received) :
    (k < w.received ∧ w.client.Arrives k m' x) ∨ m' = m := by
  rw [receives.client] at arrives
  rw [receives.received] at hk
  obtain hk | rfl := Nat.lt_succ_iff_lt_or_eq.1 hk
  · exact Or.inl ⟨hk, arrives⟩
  · exact Or.inr (Option.some.inj (arrives.message.symm.trans receives.message))

lemma admission_not_receives (admitted : ℤ → ClientLocals) :
    Issues (fun o => o.receives = false)
      (handleJoin >>= fun x => if x.2 = true then pure (some (admitted x.1))
        else closeClient x.1) := by
  apply handleJoin_not_receives.bind
  intro x
  split_ifs
  · exact issues_done
  · exact closeClient_not_receives x.1

lemma settled_start {supply : ℕ → TimedSupply} {clock : ℤ} {packet : GamePacket}
    (h : eval TimedWorld.exec handleClient (.accepted client clock packet supply) = (some l, w)) :
    Settled l w := by
  simp only [handleClient, perform_bind, eval_call] at h
  rw [show TimedWorld.exec .time (.accepted client clock packet supply) =
    (timeNull clock, .accepted client clock packet supply) from rfl, exec_recv] at h
  cases hrecv : TimedWorld.recv 0 (.accepted client clock packet supply) with
  | mk answer w₁ =>
      rw [hrecv] at h
      cases answer with
      | none => exact absurd h (eval_closeClient_ne _ _)
      | some pkt =>
          dsimp only at h
          split_ifs at h with join username
          · exact absurd h (eval_closeClient_ne _ _)
          · exact absurd h (eval_closeClient_ne _ _)
          · obtain ⟨m, hread, receives⟩ :=
              (reading_accepted client clock packet supply).recv_eq_some hrecv
            have admitted : Unreceived w₁ w := by
              rw [← show _ = w from congrArg Prod.snd h]
              exact unreceived_eval (admission_not_receives fun playerId =>
                ⟨playerId, pkt.username, 0, rateLimiterInit 5 1 (timeNull clock)⟩) w₁
            refine ⟨receives.reading.unreceived admitted, fun k m' x arrives hk heartbeat => ?_⟩
            rw [admitted.client] at arrives
            rw [admitted.received] at hk
            obtain ⟨hnone, -⟩ | rfl := receives.cases arrives hk
            · exact absurd hnone (Nat.not_lt_zero k)
            · have hjoin := (not_not.1 join).symm.trans (hread.opcode.trans heartbeat)
              exact absurd hjoin (by decide)

lemma settled_turn (hw : Settled l w)
    (h : eval TimedWorld.exec (handleClientLoop l) w = (some l', w')) : Settled l' w' := by
  rw [eval_handleClientLoop] at h
  split_ifs at h
  · exact absurd h (eval_closeClient_ne _ _)
  · cases hrecv : w.recv 5 with
    | mk answer w₁ =>
        rw [hrecv] at h
        cases answer with
        | none => exact absurd h (eval_closeClient_ne _ _)
        | some pkt =>
            obtain ⟨m, hread, receives⟩ := hw.reading.recv_eq_some hrecv
            have handled := unreceived_eval (handlePacket_not_receives l pkt) w₁
            have mark := lastHeartbeat_handlePacket (congrArg Prod.fst h)
            rw [show eval TimedWorld.exec (handlePacket l pkt) w₁ = (some l', w') from h] at handled
            refine ⟨receives.reading.unreceived handled, fun k m' x arrives hk heartbeat => ?_⟩
            rw [handled.client] at arrives
            rw [handled.received] at hk
            split_ifs at mark with ofPacket
            · have := receives.reading.arrived_of_received arrives hk
              rw [mark, timeNull]
              omega
            · rw [mark]
              obtain ⟨hold, arrives⟩ | rfl := receives.cases arrives hk
              · exact hw.heartbeats k m' x arrives hold heartbeat
              · exact absurd (hread.opcode.trans heartbeat) ofPacket

/-! ## The condition -/

/-- An overdue heartbeat is not a recent packet. -/
lemma silentAt_overdue_iff (hw : Settled l w) (overdue : Overdue l (timeNull w.clock)) :
    w.SilentAt w.clock ↔
      (∀ k m x, w.client.Arrives k m x → k < w.received →
        m.pkt.header.opcode ≠ OpCode.heartbeat.code → x + 30000 < w.clock) ∧
      ∀ k m x, w.client.Arrives k m x → w.received ≤ k → x ≤ w.clock → x + 30000 < w.clock := by
  have old := overdue.2
  simp only [timeNull, heartbeatTimeout] at old
  constructor
  · intro silent
    refine ⟨fun k m x arrives hk _ => ?_, fun k m x arrives _ hle => ?_⟩
    · exact silent k m x arrives (hw.reading.arrived_of_received arrives hk)
    · exact silent k m x arrives hle
  · rintro ⟨nothingElse, nothingWaits⟩ k m x arrives hle
    change x + 30000 < w.clock
    rcases Nat.lt_or_ge k w.received with hk | hk
    · by_cases heartbeat : m.pkt.header.opcode = OpCode.heartbeat.code
      · have := hw.heartbeats k m x arrives hk heartbeat
        omega
      · exact nothingElse k m x arrives hk heartbeat
    · exact nothingWaits k m x arrives hk hle

/-- When the socket is quiet, only what is there already is in question. -/
lemma silentAt_quiet_iff (hw : Reading w) (quiet : ¬w.ReadyBy (w.clock + 5000)) :
    w.SilentAt (w.clock + 5000) ↔
      ∀ k m x, w.client.Arrives k m x → x ≤ w.clock → x + 25000 < w.clock := by
  constructor
  · intro silent k m x arrives hle
    have : x + 30000 < w.clock + 5000 := silent k m x arrives (by omega)
    omega
  · intro old k m x arrives hle
    change x + 30000 < w.clock + 5000
    obtain ⟨r, hr, rfl⟩ := TimedWorld.decrypted_of_quiet quiet arrives hle
    have := old k m r.ends arrives (hw.arrived r hr)
    omega

/-- What the two places ask for, at one head of the loop. -/
lemma silentAt_idleClose_iff (hw : Settled l w) :
    (∀ x, idleClose l w = some x → w.SilentAt x) ↔ Attended l w := by
  rw [idleClose_eq]
  by_cases overdue : Overdue l (timeNull w.clock)
  · rw [if_pos overdue]
    constructor
    · intro silent
      obtain ⟨nothingElse, nothingWaits⟩ :=
        (silentAt_overdue_iff hw overdue).1 (silent w.clock rfl)
      exact ⟨fun _ => nothingElse, fun _ => nothingWaits, Or.inl overdue⟩
    · rintro attended x hx
      obtain rfl := Option.some.inj hx
      exact (silentAt_overdue_iff hw overdue).2
        ⟨attended.nothingElse overdue, attended.nothingWaits overdue⟩
  · rw [if_neg overdue]
    by_cases ready : w.ReadyBy (w.clock + 5000)
    · rw [if_pos ready]
      refine ⟨fun _ => ⟨?_, ?_, Or.inr (Or.inl ready)⟩, fun _ x hx => nomatch hx⟩
      · exact fun h => absurd h overdue
      · exact fun h => absurd h overdue
    · rw [if_neg ready]
      constructor
      · intro silent
        refine ⟨fun h => absurd h overdue, fun h => absurd h overdue, Or.inr (Or.inr ?_)⟩
        exact (silentAt_quiet_iff hw.reading ready).1 (silent _ rfl)
      · rintro attended x hx
        obtain rfl := Option.some.inj hx
        rcases attended.soon with h | h | old
        · exact absurd h overdue
        · exact absurd h ready
        · exact (silentAt_quiet_iff hw.reading ready).2 old

/-- **A session is closed for inactivity only after thirty seconds of silence exactly if it is
attended whenever it is at the head of its loop.** -/
theorem idleRule_iff (client : TimedClient) (clock : ℤ) (packet : GamePacket)
    (supply : ℕ → TimedSupply) :
    IdleRule (.accepted client clock packet supply) ↔
      ∀ n l w, sessionAt (.accepted client clock packet supply) n = some (l, w) →
        Attended l w := by
  have settled {n : ℕ} {l : ClientLocals} {w : TimedWorld}
      (h : sessionAt (.accepted client clock packet supply) n = some (l, w)) : Settled l w :=
    atHead_induction Settled (fun _ _ => settled_start) (fun _ _ _ _ => settled_turn) h
  constructor
  · intro rule n l w h
    exact (silentAt_idleClose_iff (settled h)).1 fun x => rule n l w x h
  · intro attended n l w x h
    exact (silentAt_idleClose_iff (settled h)).2 (attended n l w h) x

/-! ## A pause of ten seconds -/

lemma join_fits : 32 ≤ maxPayloadSize := by decide

/-- The client's join. -/
def joinMessage : Message where
  pkt := { (pktInitLocal 0 OpCode.join.code).1 with
    body := (Buffer.zero _).write ([97] ++ List.replicate 31 0) }
  payloadSize := 32
  fits := join_fits

/-- Its first heartbeat. -/
def lateHeartbeat : Message := ⟨(pktInitLocal 1 OpCode.heartbeat.code).1, 0, Nat.zero_le _⟩

/-- A packet in a record of its own, which comes in at once. -/
def TimedRecord.ofMessage (instant : ℤ) (m : Message) : TimedRecord :=
  ⟨instant, instant, m.wire.headD 0, m.wire.tail, le_rfl⟩

lemma data_ofMessage (instant : ℤ) (m : Message) :
    (TimedRecord.ofMessage instant m).arrival.data = m.wire := by
  obtain ⟨b, bs, hwire⟩ := List.exists_cons_of_ne_nil m.wire_ne_nil
  rw [TimedRecord.ofMessage, hwire]
  rfl

/-- The heartbeat comes ten seconds after the join. -/
def pausingRecords : List TimedRecord :=
  [.ofMessage 0 joinMessage, .ofMessage 10000 lateHeartbeat]

lemma pausingRecords_bytes : (pausingRecords.map TimedRecord.arrival).flatMap Arrival.data =
    [joinMessage, lateHeartbeat].flatMap Message.wire := by
  simp only [pausingRecords, List.map_cons, List.map_nil, List.flatMap_cons, List.flatMap_nil,
    data_ofMessage]

lemma pausingRecords_ordered : pausingRecords.Pairwise fun r r' => r.ends ≤ r'.begins := by
  rw [pausingRecords, List.pairwise_pair]
  exact Int.zero_le_ofNat 10000

lemma pausing_fresh :
    ∀ v ∈ verdicts replayProtectionInit (seqNums [joinMessage, lateHeartbeat]), v.2 = true :=
  List.forall_mem_cons.2 ⟨rfl, List.forall_mem_singleton.2 (by decide +kernel)⟩

lemma pausing_stays : ∀ x ∈ (none : Option ℤ), ∀ r ∈ pausingRecords, r.ends ≤ x := nofun

/-- The client, which does not close the connection. -/
def pausingClient : TimedClient where
  messages := [joinMessage, lateHeartbeat]
  records := pausingRecords
  closes := none
  bytes := pausingRecords_bytes
  ordered := pausingRecords_ordered
  closesLast := pausing_stays
  fresh := pausing_fresh

/-- The worker of this client, which never has to wait for the lock. -/
def pausing : TimedWorld :=
  .accepted pausingClient 0 .zero fun _ => ⟨0, gamestateInit, 0, true⟩

lemma pausing_joins : pausingClient.Arrives 0 joinMessage 0 where
  message := rfl
  lastByte := ⟨0, by decide +kernel⟩

/-- After five of the ten seconds the session is closed. -/
theorem pausing_dropped : ¬IdleRule pausing := by
  intro rule
  have head : (sessionAt pausing 0).map (fun x => idleClose x.1 x.2) = some (some 5000) := by
    decide +kernel
  obtain ⟨⟨l, w⟩, h, hclose⟩ := Option.map_eq_some_iff.1 head
  have same : w.client = pausingClient := sessionAt_client h
  have silent := rule 0 l w 5000 h hclose 0 joinMessage 0 (same ▸ pausing_joins) (by decide)
  exact absurd silent (by decide)

end WorldBossRaid
