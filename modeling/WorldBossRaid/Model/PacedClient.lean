import WorldBossRaid.Framework.Projection
import WorldBossRaid.Model.Client
import WorldBossRaid.Model.Security

/-!
# The threaded client in time, and the limiter of its session

The two threads of the client with the instants of their steps, in milliseconds, and the rate
limiter that the server keeps for this connection.  Any time may pass before a step; a sleep lasts
at least half a second, and the dice animation lies between the reply to an attack and the next
request.  No wait for a reply times out, every request is sent, and every request the server lets
pass is answered.

The server looks at a request at some instant between its sending and the arrival of the reply.
Since the next request is only sent after that, the check can be taken together with the arrival.
-/

namespace WorldBossRaid

open Interaction

/-- What the environment supplies to a step. -/
structure Pace where
  action : UiAction
  /-- The time that passes before the step. -/
  delay : ℕ
  /-- The time until the server looks at the request, if the reply is not there before. -/
  transit : ℕ
  reply : PayloadGameState

/-- The client, its clock, and the limiter of its session. -/
structure PacedClient where
  shared : SharedGameState
  clock : ℤ
  /-- When the network thread took its last step. -/
  networkAt : ℤ
  /-- When the last reply to an attack came in. -/
  attackRepliedAt : Option ℤ
  limiter : RateLimiter

namespace PacedClient

/-- The instant of a step.  `usleep(500000)` ends half a second after the step before it, and the
ten frames of `animate_dice_roll` take as long before a request. -/
def instant (s : PacedClient) (e : Pace) : ClientOp → ℤ
  | .sleep => max (s.clock + e.delay) (s.networkAt + 500)
  | .requestAttack =>
    match s.attackRepliedAt with
    | none => s.clock + e.delay
    | some replied => max (s.clock + e.delay) (replied + 500)
  | _ => s.clock + e.delay

/-- The instant at which the server looks at the request whose reply comes in. -/
def checkedAt (s : PacedClient) (e : Pace) (o : ClientOp) : ℤ :=
  min (s.networkAt + e.transit) (s.instant e o)

/-- The `rate_limiter_check` of that request. -/
def check (s : PacedClient) (e : Pace) (o : ClientOp) : Bool × RateLimiter :=
  rateLimiterCheck s.limiter (timeNull (s.checkedAt e o))

/-- What the threads see of their environment. -/
def clientEnv (s : PacedClient) (e : Pace) (o : ClientOp) : ClientEnv where
  action := e.action
  timedOut := false
  sent := true
  reply := if (s.check e o).1 then some e.reply else none

/-- The limiter changes with a request. -/
def limiterAfter (s : PacedClient) (e : Pace) : ClientOp → RateLimiter
  | .receiveReply opcode => (s.check e (.receiveReply opcode)).2
  | _ => s.limiter

/-- The effect of the steps. -/
def exec (i : ClientThread) (e : Pace) (o : ClientOp) (s : PacedClient) : o.Ret × PacedClient :=
  let (answer, shared) := o.exec (s.clientEnv e o) s.shared
  (answer,
    { shared
      clock := s.instant e o
      networkAt := if i = .network then s.instant e o else s.networkAt
      attackRepliedAt :=
        if o = .receiveReply .attack then some (s.instant e o) else s.attackRepliedAt
      limiter := s.limiterAfter e o })

end PacedClient

/-- The threaded client in time. -/
def pacedClient :
    Machine ClientThread ClientOp ClientOp.Ret ClientPoint PacedClient Pace where
  exec := PacedClient.exec
  resume := client.resume

/-- The client when both threads start, some time after the server has accepted the connection and
set its limiter to five requests a second. -/
def pacedInit (accepted : ℤ) (elapsed : ℕ) :
    Config ClientThread ClientOp ClientOp.Ret ClientPoint PacedClient where
  shared :=
    { shared := .init
      clock := accepted + elapsed
      networkAt := accepted + elapsed
      attackRepliedAt := none
      limiter := rateLimiterInit 5 1 (timeNull accepted) }
  threads := clientInit.threads

/-- Without the instants and the limiter it is the client. -/
def pacedClientUntimed : Projection pacedClient client where
  state := PacedClient.shared
  env _ e o s := s.clientEnv e o
  exec_eq _ _ _ _ := rfl
  resume_eq := rfl

/-- So each of its runs is a run of the client. -/
theorem client_run_of_paced {accepted : ℤ} {elapsed : ℕ}
    {log : List (Event ClientThread ClientOp ClientOp.Ret PacedClient Pace)}
    {c : Config ClientThread ClientOp ClientOp.Ret ClientPoint PacedClient}
    (run : pacedClient.Run (pacedInit accepted elapsed) log c) :
    client.Run clientInit (log.map pacedClientUntimed.event) (pacedClientUntimed.config c) :=
  pacedClientUntimed.run run

end WorldBossRaid
