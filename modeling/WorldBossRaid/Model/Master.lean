import WorldBossRaid.Framework.Process
import WorldBossRaid.Model.Dice

/-!
# The processes of the server (`server.c`)

`main` ends in a loop that accepts a connection, forks, closes its own copy of the connection in
the parent, and serves the client in the child.  `Server` is code of these processes over the
calls to the kernel: the loop body, the child's part of it, and `handle_client` on the descriptor
of the connection.  The `exit` of a child is the point `ended`.

The generator of the dice is the private memory of each process.  Of the start of `main` the model
keeps what the loop finds: the listening socket, the generator after `dice_init`, the game state
after `gamestate_init` and the installed `sigchld_handler`.  A worker ended by a signal, such as
the `SIGPIPE` of a write on a connection that the client has closed, is ended by the kernel between
two of its operations.
-/

namespace WorldBossRaid

open Bytes Interaction

/-- What the processes ask of their surroundings, apart from descriptors and forks. -/
inductive ServerOp where
  /-- `tls_server_handshake` on the connection `newSocket`. -/
  | handshake (newSocket : ℕ)
  /-- An operation of `handle_client` on the connection `newSocket`. -/
  | client (newSocket : ℕ) (o : WorkerOp)
  deriving DecidableEq

/-- The answers; a handshake is answered by whether there is a session. -/
abbrev ServerOp.Ret : ServerOp → Type
  | handshake _ => Bool
  | client _ o => o.Ret

/-- Where the loops of the processes go on. -/
inductive ServerPoint where
  /-- The head of the `while (1)` of `main`. -/
  | accepting
  /-- `handle_client`, where its own loop goes on. -/
  | serving (newSocket : ℕ) (locals : Option ClientLocals)
  /-- After `exit`. -/
  | ended

/-- Code of the server's processes that ends with an `α`. -/
abbrev ServerCode : Type → Type := Code ServerOp.Ret

namespace ServerCode

abbrev accept (fd : ℕ) : ServerCode (Option ℕ) := .call (.accept fd) .done

abbrev close (fd : ℕ) : ServerCode Bool := .call (.close fd) .done

abbrev fork : ServerCode ForkRet := .call .fork .done

abbrev handshake (fd : ℕ) : ServerCode Bool := .call (.op (.handshake fd)) .done

end ServerCode

/-- `handle_client`, or a turn of its loop, on the connection `newSocket`. -/
def onSocket (newSocket : ℕ) : Worker (Option ClientLocals) → ServerCode ServerPoint
  | .done v => .done (.serving newSocket v)
  | .call o k => .call (.op (.client newSocket o)) fun r => onSocket newSocket (k r)

/-- Close the connection and go back to `accept`: the parent, and a `fork` that has failed. -/
def closeAndContinue (newSocket : ℕ) : ServerCode ServerPoint := do
  let _ ← ServerCode.close newSocket
  return .accepting

/-- The child after a handshake that has failed. -/
def closeAndExit (newSocket : ℕ) : ServerCode ServerPoint := do
  let _ ← ServerCode.close newSocket
  return .ended

/-- The child once it has closed the listening socket. -/
def shakeHands (newSocket : ℕ) : ServerCode ServerPoint := do
  let ssl ← ServerCode.handshake newSocket
  if ssl then onSocket newSocket handleClient else closeAndExit newSocket

/-- The child. -/
def workerProcess (serverFd newSocket : ℕ) : ServerCode ServerPoint := do
  let _ ← ServerCode.close serverFd
  shakeHands newSocket

/-- The loop body of `main` once a connection has come in. -/
def forkWorker (serverFd newSocket : ℕ) : ServerCode ServerPoint := do
  match ← ServerCode.fork with
  | .failed => closeAndContinue newSocket
  | .child => workerProcess serverFd newSocket
  | .parent _ => closeAndContinue newSocket

/-- The `while (1)` of `main`. -/
def acceptLoop (serverFd : ℕ) : ServerCode ServerPoint := do
  match ← ServerCode.accept serverFd with
  | none => return .accepting
  | some newSocket => forkWorker serverFd newSocket

/-- What the environment supplies for one operation. -/
structure ProcessEnv where
  /-- Does the handshake succeed? -/
  ssl : Bool
  /-- What it supplies to a worker of the raid; the roll is the generator's own. -/
  raid : RaidEnv

/-- The effect of an operation on the generator of its process and on the game state. -/
def ServerOp.exec (outputs : ℤ → ℕ → ℕ) (e : ProcessEnv) :
    (o : ServerOp) → Generator → GameSharedData → o.Ret × Generator × GameSharedData
  | .handshake _, g, shm => (e.ssl, g, shm)
  | .client _ .rand, g, shm => ((g.rand outputs).1, (g.rand outputs).2, shm)
  | .client _ o, g, shm => ((o.exec e.raid shm).1, g, (o.exec e.raid shm).2)

/-- The program `server`, listening on `serverFd`. -/
def serverProgram (outputs : ℤ → ℕ → ℕ) (serverFd : ℕ) :
    Executable ServerOp.Ret ServerPoint Generator GameSharedData ProcessEnv where
  exec e o g shm := o.exec outputs e g shm
  resume
    | .accepting => some (acceptLoop serverFd)
    | .serving newSocket locals => locals.map fun l => onSocket newSocket (handleClientLoop l)
    | .ended => none

/-- A descriptor table with one open descriptor. -/
def onlyFile (fd : ℕ) (file : File) : ℕ → Option File :=
  Function.update (fun _ => none) fd (some file)

/-- The process that `main` is when it reaches its loop. -/
def master (serverFd : ℕ) (now : ℤ) : Process ServerOp.Ret ServerPoint Generator where
  memory := diceInit now
  files := onlyFile serverFd .listening
  code := .done .accepting
  parent := none
  status := .running
  killed := false
  pending := false
  handler := .idle

/-- The server's processes. -/
abbrev ServerKernel : Type := Kernel ServerOp.Ret ServerPoint Generator GameSharedData

/-- The server when `main` reaches its loop. -/
def serverBoot (serverFd : ℕ) (now : ℤ) : ServerKernel :=
  .boot gamestateInit (master serverFd now)

/-- An operation of one of the processes. -/
abbrev ProcessEvent : Type := Event ℕ ServerOp ServerOp.Ret GameSharedData ProcessEnv

end WorldBossRaid
