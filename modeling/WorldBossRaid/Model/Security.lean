import WorldBossRaid.Model.Protocol

/-!
# The per-connection checks (`src/server/security/`)

`replay_protection.c`, `rate_limiter.c` and `input_validator.c`.  Each worker keeps its own
`ReplayProtection` and `RateLimiter`; the validators are pure.  A call that changes such a
structure through a pointer returns the new value with its result, and a clock reading is an
argument.  Where instants matter they are counted in milliseconds, and `timeNull` is what the clock
reads then.
-/

namespace WorldBossRaid

open Bytes

/-! ## Replay protection -/

/-- `ReplayProtection`. -/
structure ReplayProtection where
  lastSeqNum : UInt32
  initialized : Bool
  deriving DecidableEq, Repr

/-- `replay_protection_init`. -/
def replayProtectionInit : ReplayProtection := ⟨0, false⟩

/-- `replay_protection_validate`: whether the number is accepted, and the structure afterwards. -/
def replayProtectionValidate (rp : ReplayProtection) (seqNum : UInt32) : Bool × ReplayProtection :=
  if !rp.initialized then
    (true, ⟨seqNum, true⟩)
  else if seqNum > rp.lastSeqNum then
    -- the source computes `diff = seq_num - last_seq_num` here and does not use it
    (true, { rp with lastSeqNum := seqNum })
  else if rp.lastSeqNum - seqNum < 0x7FFFFFFF then
    (false, rp)
  else
    (true, { rp with lastSeqNum := seqNum })

/-! ## Rate limiting -/

/-- `time(NULL)` at an instant. -/
def timeNull (instant : ℤ) : ℤ := instant / 1000

/-- `RateLimiter`. -/
structure RateLimiter where
  requestCount : UInt32
  windowStart : ℤ
  maxRequests : UInt32
  windowSeconds : UInt32
  deriving DecidableEq, Repr

/-- `rate_limiter_init`, at the clock reading `now`. -/
def rateLimiterInit (maxRequests windowSeconds : UInt32) (now : ℤ) : RateLimiter :=
  ⟨0, now, maxRequests, windowSeconds⟩

/-- `rate_limiter_check`, at the clock reading `now`. -/
def rateLimiterCheck (rl : RateLimiter) (now : ℤ) : Bool × RateLimiter :=
  if now - rl.windowStart ≥ rl.windowSeconds.toNat then
    (true, { rl with requestCount := 1, windowStart := now })
  else if rl.requestCount ≥ rl.maxRequests then
    (false, rl)
  else
    (true, { rl with requestCount := rl.requestCount + 1 })

section

variable {rl : RateLimiter} {now : ℤ}

/-- Once the window has elapsed, a request opens the next one. -/
lemma rateLimiterCheck_elapsed (elapsed : now - rl.windowStart ≥ rl.windowSeconds.toNat) :
    rateLimiterCheck rl now = (true, { rl with requestCount := 1, windowStart := now }) :=
  if_pos elapsed

lemma rateLimiterCheck_full (elapsed : ¬now - rl.windowStart ≥ rl.windowSeconds.toNat)
    (full : rl.requestCount ≥ rl.maxRequests) : rateLimiterCheck rl now = (false, rl) := by
  rw [rateLimiterCheck, if_neg elapsed, if_pos full]

lemma rateLimiterCheck_room (elapsed : ¬now - rl.windowStart ≥ rl.windowSeconds.toNat)
    (full : ¬rl.requestCount ≥ rl.maxRequests) :
    rateLimiterCheck rl now = (true, { rl with requestCount := rl.requestCount + 1 }) := by
  rw [rateLimiterCheck, if_neg elapsed, if_neg full]

end

/-! ## Input validation -/

/-- `isalnum` in the C locale. -/
def isalnum (c : UInt8) : Bool :=
  (48 ≤ c && c ≤ 57) || (65 ≤ c && c ≤ 90) || (97 ≤ c && c ≤ 122)

/-- The characters a username may have: letters, digits, `_` and `-`. -/
def isNameChar (c : UInt8) : Bool := isalnum c || c == 95 || c == 45

/-- `input_validate_username`. -/
def inputValidateUsername (username : Buffer maxPlayerName) : Bool :=
  let len := username.strnlen maxPlayerName
  if len = 0 ∨ len ≥ maxPlayerName then false
  else (username.bytes.take len).all isNameChar

/-- `input_validate_opcode`. -/
def inputValidateOpcode (opcode : UInt16) : Bool :=
  opcode == OpCode.join.code || opcode == OpCode.attack.code ||
    opcode == OpCode.leave.code || opcode == OpCode.heartbeat.code

/-- The payload size `input_validate_packet_size` expects for an opcode: `none` for an opcode it
does not know, 0 for one whose payload it does not look at. -/
def expectedPayloadSize (opcode : UInt16) : Option ℕ :=
  if opcode = OpCode.join.code then some sizeofPayloadJoin
  else if opcode = OpCode.attack.code then some sizeofPayloadAttack
  else if opcode = OpCode.leave.code ∨ opcode = OpCode.heartbeat.code then some 0
  else none

/-- `input_validate_packet_size`. -/
def inputValidatePacketSize (opcode : UInt16) (packetLength : UInt32) : Bool :=
  if packetLength.toNat < sizeofPacketHeader ∨ packetLength.toNat > sizeofGamePacket then false
  else
    match expectedPayloadSize opcode with
    | none => true
    | some size => !(size > 0 && packetLength.toNat != sizeofPacketHeader + size)

/-! ## Checksums -/

/-- `calc_checksum`: the sum of the bytes, kept in 32 bits and cut to 16. -/
def calcChecksum (data : List UInt8) : UInt16 :=
  (data.foldl (fun sum b => sum + b.toUInt32) (0 : UInt32) &&& 0xFFFF).toUInt16

end WorldBossRaid
