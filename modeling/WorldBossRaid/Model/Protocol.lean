import WorldBossRaid.Framework.Bytes

/-!
# The wire protocol (`src/common/protocol.h`)

Packed structures on a little-endian host: a 12-byte header, then the payload, which shares its
memory with `raw[MAX_PAYLOAD_SIZE]` in a union.  A `GamePacket` therefore carries its body as
1024 bytes, and a payload is read from them at its own offsets.

The server only ever builds two kinds of packets, `OP_JOIN_RESP` and `OP_GAME_STATE`, each in a
zeroed `GamePacket`; `Response` names them, and `Response.packet` is the packet as it is handed to
`send_packet`.
-/

namespace WorldBossRaid

open Bytes

/-! ## Opcodes and sizes -/

/-- `OpCode`. -/
inductive OpCode where
  | join | attack | leave | heartbeat
  | joinResp | gameState | error
  deriving DecidableEq, Repr

/-- The value of an opcode in the header. -/
def OpCode.code : OpCode → UInt16
  | join => 0x10
  | attack => 0x11
  | leave => 0x12
  | heartbeat => 0x13
  | joinResp => 0x20
  | gameState => 0x21
  | error => 0x22

/-- `MAX_PLAYER_NAME`. -/
abbrev maxPlayerName : ℕ := 32

/-- A copy of 31 bytes leaves room for a NUL behind the name. -/
lemma nameCopy_fits : 31 ≤ maxPlayerName := by decide

/-- `MAX_PAYLOAD_SIZE`. -/
abbrev maxPayloadSize : ℕ := 1024

/-- `sizeof(PacketHeader)`. -/
abbrev sizeofPacketHeader : ℕ := 12

/-- `sizeof(GamePacket)`. -/
abbrev sizeofGamePacket : ℕ := sizeofPacketHeader + maxPayloadSize

/-- `sizeof(Payload_Join)`. -/
abbrev sizeofPayloadJoin : ℕ := 32

/-- `sizeof(Payload_Attack)`. -/
abbrev sizeofPayloadAttack : ℕ := 4

/-! ## Headers -/

/-- `PacketHeader`. -/
structure PacketHeader where
  length : UInt32
  opcode : UInt16
  checksum : UInt16
  seqNum : UInt32
  deriving DecidableEq, Repr

/-- The twelve bytes of a header in memory. -/
def PacketHeader.bytes (h : PacketHeader) : List UInt8 :=
  leBytes 4 h.length.toNat ++ leBytes 2 h.opcode.toNat ++ leBytes 2 h.checksum.toNat ++
    leBytes 4 h.seqNum.toNat

/-- The header that twelve bytes of memory are. -/
def PacketHeader.ofBytes (bs : List UInt8) : PacketHeader where
  length := UInt32.ofNat (leValue (bs.take 4))
  opcode := UInt16.ofNat (leValue ((bs.drop 4).take 2))
  checksum := UInt16.ofNat (leValue ((bs.drop 6).take 2))
  seqNum := UInt32.ofNat (leValue ((bs.drop 8).take 4))

@[simp] lemma PacketHeader.length_bytes (h : PacketHeader) :
    h.bytes.length = sizeofPacketHeader := by
  simp [bytes]

@[simp] lemma PacketHeader.ofBytes_bytes (h : PacketHeader) : ofBytes h.bytes = h := by
  have h4 (x : UInt32) : leValue (leBytes 4 x.toNat) = x.toNat := leValue_leBytes x.toNat_lt
  have h2 (x : UInt16) : leValue (leBytes 2 x.toNat) = x.toNat := leValue_leBytes x.toNat_lt
  simp [ofBytes, bytes, List.drop_append, List.take_of_length_le,
    List.drop_of_length_le, h4, h2]

lemma PacketHeader.bytes_ofBytes {bs : List UInt8} (hbs : bs.length = sizeofPacketHeader) :
    (ofBytes bs).bytes = bs := by
  have hbs' : bs.length = 12 := hbs
  have h4 {xs : List UInt8} (hxs : xs.length = 4) :
      leBytes 4 (UInt32.ofNat (leValue xs)).toNat = xs := by
    have hlt := leValue_lt xs
    rw [hxs] at hlt
    rw [UInt32.toNat_ofNat_of_lt' (by simpa using hlt), leBytes_leValue_of_length hxs]
  have h2 {xs : List UInt8} (hxs : xs.length = 2) :
      leBytes 2 (UInt16.ofNat (leValue xs)).toNat = xs := by
    have hlt := leValue_lt xs
    rw [hxs] at hlt
    rw [UInt16.toNat_ofNat_of_lt' (by simpa using hlt), leBytes_leValue_of_length hxs]
  have hcut (xs : List UInt8) (k : ℕ) : (xs.drop k).take 2 ++ xs.drop (k + 2) = xs.drop k := by
    rw [← List.drop_drop, List.take_append_drop]
  have hlast : (bs.drop 8).take 4 = bs.drop 8 := List.take_of_length_le (by simp [hbs'])
  rw [bytes, ofBytes, h4 (by simp [hbs']), h2 (by simp [hbs']), h2 (by simp [hbs']),
    h4 (by simp [hbs']), hlast, List.append_assoc, List.append_assoc, hcut bs 6, hcut bs 4,
    List.take_append_drop]

/-! ## Payloads -/

/-- `GamePacket`. -/
structure GamePacket where
  header : PacketHeader
  body : Buffer maxPayloadSize
  deriving DecidableEq

/-- A `GamePacket` after `memset(&pkt, 0, sizeof(pkt))`. -/
def GamePacket.zero : GamePacket := ⟨⟨0, 0, 0, 0⟩, .zero _⟩

/-- `pkt->body.join.username`. -/
def GamePacket.joinUsername (pkt : GamePacket) : Buffer maxPlayerName :=
  pkt.body.member 0 maxPlayerName (by decide)

/-- `pkt->body.attack.damage`. -/
def GamePacket.attackDamage (pkt : GamePacket) : ℤ := int32Value (pkt.body.bytes.take 4)

/-- `Payload_JoinResp`. -/
structure PayloadJoinResp where
  playerId : ℤ
  status : UInt8
  deriving DecidableEq

/-- `Payload_GameState`. -/
structure PayloadGameState where
  bossHp : ℤ
  maxHp : ℤ
  onlineCount : ℤ
  stage : UInt8
  isRespawning : UInt8
  isCrit : UInt8
  isLucky : UInt8
  lastPlayerDamage : ℤ
  lastBossDice : ℤ
  lastPlayerStreak : ℤ
  dmgTaken : ℤ
  lastKiller : Buffer maxPlayerName
  deriving DecidableEq

/-- A `Payload_GameState` after `memset(.., 0, ..)`. -/
def PayloadGameState.zero : PayloadGameState :=
  ⟨0, 0, 0, 0, 0, 0, 0, 0, 0, 0, 0, .zero _⟩

/-- The five bytes of a join response in memory. -/
def PayloadJoinResp.bytes (r : PayloadJoinResp) : List UInt8 := int32Bytes r.playerId ++ [r.status]

/-- The 64 bytes of a game state in memory. -/
def PayloadGameState.bytes (s : PayloadGameState) : List UInt8 :=
  int32Bytes s.bossHp ++ int32Bytes s.maxHp ++ int32Bytes s.onlineCount ++
    [s.stage, s.isRespawning, s.isCrit, s.isLucky] ++ int32Bytes s.lastPlayerDamage ++
    int32Bytes s.lastBossDice ++ int32Bytes s.lastPlayerStreak ++ int32Bytes s.dmgTaken ++
    s.lastKiller.bytes

@[simp] lemma PayloadJoinResp.length_bytes (r : PayloadJoinResp) : r.bytes.length = 5 := by
  simp [bytes]

@[simp] lemma PayloadGameState.length_bytes (s : PayloadGameState) : s.bytes.length = 64 := by
  simp [bytes, s.lastKiller.size_eq, maxPlayerName]

/-- `pkt->body.game_state`. -/
def GamePacket.gameState (pkt : GamePacket) : PayloadGameState where
  bossHp := int32Value (pkt.body.member 0 4 (by decide)).bytes
  maxHp := int32Value (pkt.body.member 4 4 (by decide)).bytes
  onlineCount := int32Value (pkt.body.member 8 4 (by decide)).bytes
  stage := pkt.body.bytes.getD 12 0
  isRespawning := pkt.body.bytes.getD 13 0
  isCrit := pkt.body.bytes.getD 14 0
  isLucky := pkt.body.bytes.getD 15 0
  lastPlayerDamage := int32Value (pkt.body.member 16 4 (by decide)).bytes
  lastBossDice := int32Value (pkt.body.member 20 4 (by decide)).bytes
  lastPlayerStreak := int32Value (pkt.body.member 24 4 (by decide)).bytes
  dmgTaken := int32Value (pkt.body.member 28 4 (by decide)).bytes
  lastKiller := pkt.body.member 32 maxPlayerName (by decide)

/-! ## The server's packets -/

/-- What the server sends. -/
inductive Response where
  | joinResp (r : PayloadJoinResp)
  | gameState (s : PayloadGameState)
  deriving DecidableEq

/-- The opcode the response is sent under. -/
def Response.opcode : Response → OpCode
  | joinResp _ => .joinResp
  | gameState _ => .gameState

/-- The payload; its length is the `payload_size` handed to `send_packet`. -/
def Response.payload : Response → List UInt8
  | joinResp r => r.bytes
  | gameState s => s.bytes

/-- The packet handed to `send_packet`: zeroed, then its opcode and payload stored. -/
def Response.packet (r : Response) : GamePacket :=
  { GamePacket.zero with
    header := { GamePacket.zero.header with opcode := r.opcode.code }
    body := GamePacket.zero.body.write r.payload }

end WorldBossRaid
