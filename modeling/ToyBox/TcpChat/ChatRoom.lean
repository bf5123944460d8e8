import ToyBox.TcpChat.Connections
import ToyBox.TcpChat.TcpClient

/-! The server with its clients, in runs in which no system call fails and every `write` is complete. Each
byte carries the client that sent it and the number of its message, and the reads of the server are
recorded; the server looks at neither. -/

namespace ToyBox

open Cxx

/-- A byte with its sender and the number of its message among the sender's. -/
structure TaggedByte where
  client : Nat
  msg : Nat
  val : UInt8
  deriving DecidableEq, Repr

/-- What one `read` returned, and of which client. -/
structure ReadChunk where
  client : Nat
  chunk : List TaggedByte
  deriving DecidableEq, Repr

/-- An accepted client: its number, how many messages it has sent, and how many reads the server had made
when it accepted the client. -/
structure ChatClient where
  number : Nat
  sent : Nat
  since : Nat

structure ChatRoom where
  server : TcpServer TaggedByte
  clients : Fd → Option ChatClient := fun _ => none
  acceptCnt : Nat := 0
  reads : List ReadChunk := []

namespace ChatRoom

/-- The bytes of one message. -/
def tag (client msg : Nat) (bytes : Bytes) : List TaggedByte := bytes.map fun val => { client, msg, val }

/-- The bytes of messages sent one after the other. -/
def tagAll (client : Nat) : Nat → List Bytes → List TaggedByte
  | _, [] => []
  | msg, bytes :: messages => tag client msg bytes ++ tagAll client (msg + 1) messages

inductive Label where
  /-- `TcpClient::Send` of the client behind a descriptor. -/
  | send (fd : Fd) (name message : Bytes)
  | arrive (fd : Fd) (n : Nat)
  | fin (fd : Fd)
  | epollWait (fds : List Fd)
  /-- A client is accepted that has already sent some messages. -/
  | accept (connFd : Fd) (cliAddress name : Bytes) (early : List Bytes) (arrived : Nat) (eof : Bool)
  /-- The event of a client: its `read` returns some bytes, or none at the end of the stream. -/
  | message (nbytes : Nat)
  /-- The event of a client whose `read` returns `EAGAIN`. -/
  | again

/-- A step of the server in which no system call fails. -/
def serverStep (s : TcpServer TaggedByte) (label : TcpServer.Label TaggedByte) :
    Option (TcpServer TaggedByte) :=
  ((TcpServer.system TaggedByte s.listenSockfd).step s label).filter (!·.exited)

def step (r : ChatRoom) : Label → Option ChatRoom
  | .send fd name message => do
      let c ← r.clients fd
      let server ← serverStep r.server
        (.send fd (tag c.number c.sent (TcpClient.sendBuffer name message)))
      some { r with server, clients := Function.update r.clients fd (some { c with sent := c.sent + 1 }) }
  | .arrive fd n => do
      let server ← serverStep r.server (.arrive fd n)
      some { r with server }
  | .fin fd => do
      let server ← serverStep r.server (.fin fd)
      some { r with server }
  | .epollWait fds => do
      let server ← serverStep r.server (.epollWait (.ok fds))
      some { r with server }
  | .accept connFd cliAddress name early arrived eof => do
      let bytes := tagAll r.acceptCnt 0 (early.map (TcpClient.sendBuffer name))
      let server ← serverStep r.server (.accept
        (.ok { connFd, cliAddress, recvQueue := bytes.take arrived, inFlight := bytes.drop arrived, eof })
        (.ok ()) (.ok ()))
      some { r with
        server
        clients := Function.update r.clients connFd
          (some { number := r.acceptCnt, sent := early.length, since := r.reads.length })
        acceptCnt := r.acceptCnt + 1 }
  | .message nbytes => do
      let fd ← r.server.epollEvents.head?
      let c ← r.clients fd
      let sock ← r.server.sockets fd
      let server ← serverStep r.server (.message (.ok nbytes) fun _ => .ok nbytes)
      if nbytes = 0 then some { r with server, clients := Function.update r.clients fd none }
      else some { r with
        server
        reads := r.reads ++ [{ client := c.number, chunk := sock.recvQueue.take nbytes }] }
  | .again => do
      let server ← serverStep r.server (.message (.error .eagain) fun _ => .error .other)
      some { r with server }

/-- The room of a server that listens on a descriptor. -/
def system (listenSockfd : Fd) : TransitionSystem ChatRoom Label where
  start := { server := { listenSockfd } }
  step := step

/-- The reads from other clients since a client was accepted. -/
def heard (r : ChatRoom) (c : ChatClient) : List ReadChunk :=
  (r.reads.drop c.since).filter (·.client ≠ c.number)

/-! ### What holds in every run -/

/-- Every open socket belongs to one client, its pending bytes are that client's, a read returned bytes
of one client, and a socket has been written what its client could hear. -/
structure Relays (r : ChatRoom) : Prop where
  running : r.server.exited = false
  consistent : r.server.Consistent
  clients : ∀ fd, (∃ c, r.clients fd = some c) ↔ ∃ sock, r.server.sockets fd = some sock
  number_lt : ∀ fd c, r.clients fd = some c → c.number < r.acceptCnt
  number_inj : ∀ fd fd' c c', r.clients fd = some c → r.clients fd' = some c' →
    c.number = c'.number → fd = fd'
  since_le : ∀ fd c, r.clients fd = some c → c.since ≤ r.reads.length
  pending : ∀ fd c sock, r.clients fd = some c → r.server.sockets fd = some sock →
    ∀ b ∈ sock.recvQueue ++ sock.inFlight, b.client = c.number
  chunks : ∀ read ∈ r.reads, read.chunk ≠ [] ∧ ∀ b ∈ read.chunk, b.client = read.client
  written : ∀ fd c sock, r.clients fd = some c → r.server.sockets fd = some sock →
    sock.written = (r.heard c).flatMap ReadChunk.chunk

theorem effect_of_serverStep {s s' : TcpServer TaggedByte} {label : TcpServer.Label TaggedByte}
    (h : serverStep s label = some s') : TcpServer.Effect s label s' ∧ s'.exited = false := by
  obtain ⟨hstep, hrun⟩ := Option.filter_eq_some_iff.mp h
  have hrun : s'.exited = false := by simpa using hrun
  obtain ⟨-, hexit | heffect⟩ := TcpServer.effect_of_step hstep
  · rw [hexit.exited] at hrun
    cases hrun
  · exact ⟨heffect, hrun⟩

end ChatRoom

end ToyBox
