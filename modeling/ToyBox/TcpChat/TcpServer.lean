import Mathlib.Data.List.AList
import Mathlib.Logic.Function.Basic
import ToyBox.Cxx.Stream
import ToyBox.Library.TransitionSystem

/-! `TcpServer` after `Start`: the event loop of `HandleEpollEvent` with its table of connections, next to
the kernel's side of the accepted sockets. The bytes are of any type, so that they can carry where they
come from. The labels of the steps say what the clients do and what the system calls of the loop
return. -/

namespace ToyBox

open Cxx

abbrev Fd := Nat

/-- The error of a system call, as far as the handlers look at it. -/
inductive Errno where
  | eagain
  | other
  deriving DecidableEq, Repr

/-- The kernel's side of an accepted socket. -/
structure Socket (β : Type) where
  /-- Sent by the client and not yet received. -/
  inFlight : List β := []
  recvQueue : List β := []
  /-- The client's FIN has been received, behind all it sent, or its RST. -/
  eof : Bool := false
  /-- Whether the socket is in the epoll set; closing it takes it out. -/
  registered : Bool := false
  /-- An `EPOLLET` event that `epoll_wait` has not reported yet. -/
  edge : Bool := false
  /-- What the server has written to the socket. -/
  written : List β := []

/-- Whether a `read` returns something other than `EAGAIN`. -/
def Socket.readable {β : Type} (sock : Socket β) : Bool := !sock.recvQueue.isEmpty || sock.eof

/-- The socket after the server has written some bytes to it. -/
def Socket.write {β : Type} (sock : Socket β) (bytes : List β) : Socket β :=
  { sock with written := sock.written ++ bytes }

structure TcpServer (β : Type) where
  listenSockfd : Fd
  isStop : Bool := false
  sockFdToClientAddr : AList (fun _ : Fd => Bytes) := ∅
  /-- The events of the current batch that are still to be handled. -/
  epollEvents : List Fd := []
  sockets : Fd → Option (Socket β) := fun _ => none
  /-- After `exit(EXIT_FAILURE)`. -/
  exited : Bool := false

/-- A socket returned by `accept`: its descriptor, the address of the client, and what the client has sent
by the time the socket is registered. -/
structure Accepted (β : Type) where
  connFd : Fd
  cliAddress : Bytes
  recvQueue : List β := []
  inFlight : List β := []
  eof : Bool := false

namespace TcpServer

variable {β : Type}

def kReadBufferSize : Nat := 1024
def kMaxEpollEvents : Nat := 10

/-- A step of the system. -/
inductive Label (β : Type) where
  /-- A client hands bytes to its socket. -/
  | send (fd : Fd) (bytes : List β)
  /-- The next `n` of them are received. -/
  | arrive (fd : Fd) (n : Nat)
  /-- The client's FIN is received. -/
  | fin (fd : Fd)
  /-- The client's RST is received: what is on the way is lost. -/
  | reset (fd : Fd)
  /-- `Stop` sets `is_stop_`. -/
  | stop
  /-- `epoll_wait` returns. -/
  | epollWait (res : Except Errno (List Fd))
  /-- The next event is handled, and is that of the listening socket. -/
  | accept (res : Except Errno (Accepted β)) (fcntlRes epollCtlRes : Except Errno Unit)
  /-- The next event is handled, and is that of a client. -/
  | message (readRes : Except Errno Nat) (writeRes : Fd → Except Errno Nat)

/-- `exit(EXIT_FAILURE)`. -/
def exit (s : TcpServer β) : TcpServer β := { s with exited := true }

def setSocket (s : TcpServer β) (fd : Fd) (sock : Socket β) : TcpServer β :=
  { s with sockets := Function.update s.sockets fd (some sock) }

@[simp] theorem setSocket_sockets (s : TcpServer β) (fd : Fd) (sock : Socket β) :
    (s.setSocket fd sock).sockets = Function.update s.sockets fd (some sock) := rfl

/-- A descriptor of an updated family is the updated one or has what it had. -/
theorem update_eq_some {γ : Type} {f : Fd → Option γ} {fd fd' : Fd} {a b : γ}
    (h : Function.update f fd (some b) fd' = some a) : fd' = fd ∧ a = b ∨ fd' ≠ fd ∧ f fd' = some a := by
  by_cases hfd : fd' = fd
  · subst hfd
    rw [Function.update_self] at h
    exact Or.inl ⟨rfl, (Option.some.inj h).symm⟩
  · rw [Function.update_of_ne hfd] at h
    exact Or.inr ⟨hfd, h⟩

/-- `accept_event_handler`. Registering a socket that is readable raises an edge. -/
def acceptEventHandler (s : TcpServer β) (res : Except Errno (Accepted β))
    (fcntlRes epollCtlRes : Except Errno Unit) : Option (TcpServer β) :=
  match res with
  | .error _ => some s.exit
  | .ok conn =>
      -- the kernel hands out a descriptor that is not in use; a FIN comes behind all bytes
      if conn.connFd = s.listenSockfd ∨ (s.sockets conn.connFd).isSome ∨
          conn.eof ∧ !conn.inFlight.isEmpty then none
      else
        let sock : Socket β := { conn with }
        let s := { s.setSocket conn.connFd sock with
          sockFdToClientAddr := s.sockFdToClientAddr.insert conn.connFd conn.cliAddress }
        match fcntlRes, epollCtlRes with
        | .ok _, .ok _ =>
            some (s.setSocket conn.connFd { sock with registered := true, edge := sock.readable })
        | _, _ => some s.exit

/-- The loop of `client_msg_handler` over the table: the chunk is written to every client but its
sender. -/
def forward (sockFd : Fd) (chunk : List β) (writeRes : Fd → Except Errno Nat) :
    List Fd → TcpServer β → TcpServer β
  | [], s => s
  | fd :: fds, s =>
      if fd = sockFd then forward sockFd chunk writeRes fds s
      else
        match writeRes fd, s.sockets fd with
        | .ok n, some sock =>
            forward sockFd chunk writeRes fds (s.setSocket fd (sock.write (chunk.take n)))
        | _, _ => s.exit

/-- What `read` can return on a socket. -/
def readAllowed (sock : Socket β) : Except Errno Nat → Bool
  | .error .eagain => !sock.readable
  | .error .other => true
  | .ok 0 => sock.recvQueue.isEmpty && sock.eof
  | .ok nbytes => nbytes ≤ kReadBufferSize && nbytes ≤ sock.recvQueue.length

/-- What `write` of `nbytes` bytes can return. -/
def writeAllowed (nbytes : Nat) : Except Errno Nat → Bool
  | .error _ => true
  | .ok n => 0 < n && n ≤ nbytes

/-- `client_msg_handler`. A `read` from a descriptor that is not open fails. -/
def clientMsgHandler (s : TcpServer β) (sockFd : Fd) (readRes : Except Errno Nat)
    (writeRes : Fd → Except Errno Nat) : Option (TcpServer β) :=
  match s.sockets sockFd with
  | none => some s.exit
  | some sock =>
      if !readAllowed sock readRes then none
      else
        match readRes with
        | .error .eagain => some s
        | .error .other => some s.exit
        | .ok 0 =>
            some { s with
              sockFdToClientAddr := s.sockFdToClientAddr.erase sockFd
              sockets := Function.update s.sockets sockFd none }
        | .ok nbytes =>
            let fds := s.sockFdToClientAddr.keys
            if !fds.all fun fd => writeAllowed nbytes (writeRes fd) then none
            else
              let chunk := sock.recvQueue.take nbytes
              some (forward sockFd chunk writeRes fds
                (s.setSocket sockFd { sock with recvQueue := sock.recvQueue.drop nbytes }))

/-- Whether `epoll_wait` can report a descriptor. The listening socket may be ready at any time. -/
def isReady (s : TcpServer β) (fd : Fd) : Bool :=
  fd = s.listenSockfd || (s.sockets fd).any fun sock => sock.registered && sock.edge

/-- Reporting an edge clears it. -/
def clearEdges (s : TcpServer β) (fds : List Fd) : TcpServer β :=
  { s with sockets := fun fd =>
      (s.sockets fd).map fun sock => if fd ∈ fds then { sock with edge := false } else sock }

/-- What a label does while the process runs. -/
def next (s : TcpServer β) : Label β → Option (TcpServer β)
  | .send fd bytes => do
      let sock ← s.sockets fd
      if sock.eof then none
      else some (s.setSocket fd { sock with inFlight := sock.inFlight ++ bytes })
  | .arrive fd n => do
      let sock ← s.sockets fd
      if n = 0 ∨ sock.inFlight.length < n then none
      else some (s.setSocket fd { sock with
        inFlight := sock.inFlight.drop n
        recvQueue := sock.recvQueue ++ sock.inFlight.take n
        edge := sock.registered })
  | .fin fd => do
      let sock ← s.sockets fd
      if sock.eof ∨ !sock.inFlight.isEmpty then none
      else some (s.setSocket fd { sock with eof := true, edge := sock.registered })
  | .reset fd => do
      let sock ← s.sockets fd
      some (s.setSocket fd { sock with inFlight := [], eof := true, edge := sock.registered })
  | .stop => some { s with isStop := true }
  | .epollWait res =>
      if s.isStop ∨ s.epollEvents ≠ [] then none
      else
        match res with
        | .error _ => some s.exit
        | .ok fds =>
            if fds.length ≤ kMaxEpollEvents ∧ fds.Nodup ∧ fds.all s.isReady then
              some { s.clearEdges fds with epollEvents := fds }
            else none
  | .accept res fcntlRes epollCtlRes =>
      match s.epollEvents with
      | fd :: fds =>
          if fd = s.listenSockfd then
            { s with epollEvents := fds }.acceptEventHandler res fcntlRes epollCtlRes
          else none
      | [] => none
  | .message readRes writeRes =>
      match s.epollEvents with
      | fd :: fds =>
          if fd = s.listenSockfd then none
          else { s with epollEvents := fds }.clientMsgHandler fd readRes writeRes
      | [] => none

/-- The server that listens on a descriptor, from the end of `Start` on. -/
def system (β : Type) (listenSockfd : Fd) : TransitionSystem (TcpServer β) (Label β) where
  start := { listenSockfd }
  step s label := if s.exited then none else s.next label

end TcpServer

end ToyBox
