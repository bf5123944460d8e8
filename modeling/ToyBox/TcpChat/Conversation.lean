import ToyBox.TcpChat.Relay

/-! The room with what its clients have said. Whatever the reads of the server return, each client's bytes reach
every other client whole, once and in the order in which they were sent, from the first byte that is read after the
other has joined, and all clients are written the bytes of third ones in one order. -/

namespace ToyBox

open Cxx

/-- The bytes of a socket that are still to be read. -/
def TcpServer.pending {β : Type} (s : TcpServer β) (fd : Fd) : Option (List β) :=
  (s.sockets fd).map fun sock => sock.recvQueue ++ sock.inFlight

/-- The room, and the names and texts of the messages of each client by its number. -/
structure Conversation where
  room : ChatRoom
  said : Nat → List (Bytes × Bytes) := fun _ => []

namespace Conversation

open ChatRoom TcpServer

/-- What has been said after a step. -/
def record (v : Conversation) : ChatRoom.Label → Nat → List (Bytes × Bytes)
  | .send fd name message =>
      match v.room.clients fd with
      | some c => Function.update v.said c.number (v.said c.number ++ [(name, message)])
      | none => v.said
  | .accept _ _ name early _ _ => Function.update v.said v.room.acceptCnt (early.map fun message => (name, message))
  | _ => v.said

def system (listenSockfd : Fd) : TransitionSystem Conversation ChatRoom.Label where
  start := { room := (ChatRoom.system listenSockfd).start }
  step v label := do
    let room ← v.room.step label
    some { room, said := v.record label }

/-- What each `Send` of a client has handed to `write`. -/
def buffers (v : Conversation) (number : Nat) : List Bytes :=
  (v.said number).map fun pair => TcpClient.sendBuffer pair.1 pair.2

/-- All bytes of a client. -/
def stream (v : Conversation) (number : Nat) : List TaggedByte := tagAll number 0 (v.buffers number)

/-- The bytes that some reads have returned of a client. -/
def readOf (reads : List ReadChunk) (number : Nat) : List TaggedByte :=
  (reads.filter (·.client = number)).flatMap ReadChunk.chunk

variable {listenSockfd : Fd} {v v' : Conversation}

theorem room_reachable (hv : (system listenSockfd).Reachable v) :
    (ChatRoom.system listenSockfd).Reachable v.room := by
  refine hv.invariant (P := fun v => (ChatRoom.system listenSockfd).Reachable v.room) .start
    fun v label v' _ hroom _ hstep => ?_
  obtain ⟨room, hmove, hv'⟩ := Option.bind_eq_some_iff.mp hstep
  cases hv'
  exact .step hroom trivial hmove

theorem tagAll_concat (client msg : Nat) (messages : List Bytes) (bytes : Bytes) :
    tagAll client msg (messages ++ [bytes]) =
      tagAll client msg messages ++ tag client (msg + messages.length) bytes := by
  induction messages generalizing msg with
  | nil => simp [tagAll]
  | cons first messages ih =>
      rw [List.cons_append, tagAll, tagAll, ih, List.length_cons, List.append_assoc]
      congr 3
      omega

/-! ### Steps -/

/-- A socket without an end of stream in sight may still have bytes on their way, any other has not. -/
def EofLast (s : TcpServer TaggedByte) : Prop :=
  ∀ fd sock, s.sockets fd = some sock → sock.eof = true → sock.inFlight = []

theorem eofLast_effect {s s' : TcpServer TaggedByte} {label : TcpServer.Label TaggedByte} (h : EofLast s)
    (hreset : ∀ fd, label ≠ .reset fd) (he : TcpServer.Effect s label s') : EofLast s' := by
  intro fd sock hsock heof
  cases he with
  | send bytes hsock' heof' =>
      rcases update_eq_some hsock with ⟨-, rfl⟩ | ⟨-, hold⟩
      · rw [show _ = _ from heof'] at heof
        cases heof
      · exact h fd sock hold heof
  | arrive hsock' hn hle =>
      rcases update_eq_some hsock with ⟨-, rfl⟩ | ⟨-, hold⟩
      · have hempty := h _ _ hsock' heof
        simp [hempty]
      · exact h fd sock hold heof
  | fin hsock' heof' hflight =>
      rcases update_eq_some hsock with ⟨-, rfl⟩ | ⟨-, hold⟩
      · exact hflight
      · exact h fd sock hold heof
  | reset => exact absurd rfl (hreset _)
  | stop => exact h fd sock hsock heof
  | epollWait hbatch hnodup hready =>
      obtain ⟨sock', hold, hclear⟩ := Option.map_eq_some_iff.mp hsock
      have hsame : sock.eof = sock'.eof ∧ sock.inFlight = sock'.inFlight := by
        rw [← hclear]
        split <;> exact ⟨rfl, rfl⟩
      rw [hsame.2]
      exact h fd sock' hold (hsame.1 ▸ heof)
  | @accept fds conn hbatch hlisten hfresh hlast =>
      rcases update_eq_some hsock with ⟨-, rfl⟩ | ⟨-, hold⟩
      · exact hlast heof
      · exact h fd sock hold heof
  | again => exact h fd sock hsock heof
  | @disconnect fd' =>
      by_cases hfd : fd = fd'
      · simp [hfd] at hsock
      · exact h fd sock (by simpa [hfd] using hsock) heof
  | message hbatch hlisten hsock' hpos hbuffer hle hwrite =>
      simp only [forwarded_eq_map] at hsock
      obtain ⟨sock', hold, hforward⟩ := Option.map_eq_some_iff.mp hsock
      have hsame : sock.eof = sock'.eof ∧ sock.inFlight = sock'.inFlight := by
        rw [← hforward]
        split <;> exact ⟨rfl, rfl⟩
      rw [hsame.2]
      rcases update_eq_some hold with ⟨-, rfl⟩ | ⟨-, hold⟩
      · have hempty := h _ _ hsock' (hsame.1 ▸ heof)
        exact hempty
      · exact h fd sock' hold (hsame.1 ▸ heof)

theorem eofLast_of_reachable {r : ChatRoom} (hr : (ChatRoom.system listenSockfd).Reachable r) :
    EofLast r.server := by
  have hstart : EofLast (ChatRoom.system listenSockfd).start.server := fun fd sock hsock => by cases hsock
  refine hr.invariant (P := fun r => EofLast r.server) hstart ?_
  intro r label r' _ h _ hstep
  have hserver : ∀ {label : TcpServer.Label TaggedByte} {server : TcpServer TaggedByte},
      (∀ fd, label ≠ .reset fd) → serverStep r.server label = some server → EofLast server :=
    fun hreset hserver => eofLast_effect h hreset (effect_of_serverStep hserver).1
  cases label with
  | send fd name message =>
      obtain ⟨c, -, hstep⟩ := Option.bind_eq_some_iff.mp hstep
      obtain ⟨server, hmove, hstep⟩ := Option.bind_eq_some_iff.mp hstep
      cases hstep
      exact hserver (by simp) hmove
  | arrive fd n =>
      obtain ⟨server, hmove, hstep⟩ := Option.bind_eq_some_iff.mp hstep
      cases hstep
      exact hserver (by simp) hmove
  | fin fd =>
      obtain ⟨server, hmove, hstep⟩ := Option.bind_eq_some_iff.mp hstep
      cases hstep
      exact hserver (by simp) hmove
  | epollWait fds =>
      obtain ⟨server, hmove, hstep⟩ := Option.bind_eq_some_iff.mp hstep
      cases hstep
      exact hserver (by simp) hmove
  | accept connFd cliAddress name early arrived eof =>
      obtain ⟨server, hmove, hstep⟩ := Option.bind_eq_some_iff.mp hstep
      cases hstep
      exact hserver (by simp) hmove
  | message nbytes =>
      obtain ⟨fd, -, hstep⟩ := Option.bind_eq_some_iff.mp hstep
      obtain ⟨c, -, hstep⟩ := Option.bind_eq_some_iff.mp hstep
      obtain ⟨sock, -, hstep⟩ := Option.bind_eq_some_iff.mp hstep
      obtain ⟨server, hmove, hstep⟩ := Option.bind_eq_some_iff.mp hstep
      split at hstep <;> cases hstep <;> exact hserver (by simp) hmove
  | again =>
      obtain ⟨server, hmove, hstep⟩ := Option.bind_eq_some_iff.mp hstep
      cases hstep
      exact hserver (by simp) hmove

theorem pending_of_update {s s' : TcpServer TaggedByte} {fd : Fd} {sock? : Option (Socket TaggedByte)}
    (h : s'.sockets = Function.update s.sockets fd sock?) :
    s'.pending = Function.update s.pending fd (sock?.map fun sock => sock.recvQueue ++ sock.inFlight) := by
  funext fd'
  rw [pending, h]
  by_cases hfd : fd' = fd
  · subst hfd
    rw [Function.update_self, Function.update_self]
  · rw [Function.update_of_ne hfd, Function.update_of_ne hfd]
    rfl

/-- A change of the sockets that leaves their pending bytes. -/
theorem pending_of_map {s s' : TcpServer TaggedByte} {f : Fd → Socket TaggedByte → Socket TaggedByte}
    (h : s'.sockets = fun fd => (s.sockets fd).map (f fd))
    (hf : ∀ fd sock, (f fd sock).recvQueue ++ (f fd sock).inFlight = sock.recvQueue ++ sock.inFlight) :
    s'.pending = s.pending := by
  funext fd
  rw [pending, pending, h, Option.map_map]
  congr 1
  funext sock
  exact hf fd sock

/-- Nor does writing to a socket change what is to be read from it. -/
theorem pending_of_forwarded {s s' : TcpServer TaggedByte} {sockFd : Fd} {chunk : List TaggedByte}
    {writeRes : Fd → Except Errno Nat} {fds : List Fd}
    (h : s'.sockets = forwarded s.sockets sockFd chunk writeRes fds) : s'.pending = s.pending := by
  rw [forwarded_eq_map] at h
  refine pending_of_map h fun fd sock => ?_
  split <;> rfl

/-- An update by what was there changes nothing. -/
theorem update_pending {s : TcpServer TaggedByte} {fd : Fd} {sock : Socket TaggedByte} {bytes : List TaggedByte}
    (hsock : s.sockets fd = some sock) (hbytes : bytes = sock.recvQueue ++ sock.inFlight) :
    Function.update s.pending fd (some bytes) = s.pending := by
  rw [Function.update_eq_self_iff, pending, hsock, hbytes]
  rfl

theorem pending_eq_some {s : TcpServer TaggedByte} {fd : Fd} {sock : Socket TaggedByte}
    (hsock : s.sockets fd = some sock) : s.pending fd = some (sock.recvQueue ++ sock.inFlight) := by
  rw [pending, hsock]
  rfl

/-- A step in which nothing is said or read. -/
def Quiet : ChatRoom.Label → Prop
  | .arrive .. | .fin .. | .epollWait .. | .again => True
  | _ => False

/-- What a step does to the clients, their pending bytes, the reads and what has been said. -/
inductive Effect (v : Conversation) : ChatRoom.Label → Conversation → Prop
  | quiet {label : ChatRoom.Label} {server : TcpServer TaggedByte} (hquiet : Quiet label)
      (hpending : server.pending = v.room.server.pending) :
      Effect v label { v with room := { v.room with server } }
  | send {fd : Fd} {name message : Bytes} {c : ChatClient} {bytes : List TaggedByte}
      {server : TcpServer TaggedByte} (hc : v.room.clients fd = some c)
      (hbytes : v.room.server.pending fd = some bytes)
      (hpending : server.pending = Function.update v.room.server.pending fd
        (some (bytes ++ tag c.number c.sent (TcpClient.sendBuffer name message)))) :
      Effect v (.send fd name message)
        { room := { v.room with
            server
            clients := Function.update v.room.clients fd (some { c with sent := c.sent + 1 }) }
          said := Function.update v.said c.number (v.said c.number ++ [(name, message)]) }
  | join {connFd : Fd} {cliAddress name : Bytes} {early : List Bytes} {arrived : Nat} {eof : Bool}
      {server : TcpServer TaggedByte} (hfresh : v.room.server.pending connFd = none)
      (hpending : server.pending = Function.update v.room.server.pending connFd
        (some (tagAll v.room.acceptCnt 0 (early.map (TcpClient.sendBuffer name))))) :
      Effect v (.accept connFd cliAddress name early arrived eof)
        { room := { v.room with
            server
            clients := Function.update v.room.clients connFd
              (some { number := v.room.acceptCnt, sent := early.length, since := v.room.reads.length })
            acceptCnt := v.room.acceptCnt + 1 }
          said := Function.update v.said v.room.acceptCnt (early.map fun message => (name, message)) }
  | leave {fd : Fd} {c : ChatClient} {server : TcpServer TaggedByte}
      (hhead : v.room.server.epollEvents.head? = some fd) (hc : v.room.clients fd = some c)
      (hbytes : v.room.server.pending fd = some [])
      (hpending : server.pending = Function.update v.room.server.pending fd none) :
      Effect v (.message 0)
        { v with room := { v.room with server, clients := Function.update v.room.clients fd none } }
  | read {fd : Fd} {c : ChatClient} {sock : Socket TaggedByte} {nbytes : Nat} {server : TcpServer TaggedByte}
      (hhead : v.room.server.epollEvents.head? = some fd) (hc : v.room.clients fd = some c)
      (hsock : v.room.server.sockets fd = some sock) (hpos : 0 < nbytes) (hle : nbytes ≤ sock.recvQueue.length)
      (hpending : server.pending = Function.update v.room.server.pending fd
        (some ((sock.recvQueue ++ sock.inFlight).drop nbytes))) :
      Effect v (.message nbytes)
        { v with room := { v.room with
            server
            reads := v.room.reads ++ [{ client := c.number, chunk := sock.recvQueue.take nbytes }] } }

theorem effect_of_send {fd : Fd} {name message : Bytes} {room : ChatRoom}
    (hmove : v.room.step (.send fd name message) = some room) :
    Effect v (.send fd name message) { room, said := v.record (.send fd name message) } := by
  obtain ⟨c, hc, hmove⟩ := Option.bind_eq_some_iff.mp hmove
  obtain ⟨server, hserver, hmove⟩ := Option.bind_eq_some_iff.mp hmove
  cases hmove
  obtain ⟨he, -⟩ := effect_of_serverStep hserver
  have hsaid : v.record (.send fd name message) =
      Function.update v.said c.number (v.said c.number ++ [(name, message)]) := by
    rw [record, hc]
  rw [hsaid]
  cases he with
  | @send _ sock _ hsock heof =>
      refine .send hc (pending_eq_some hsock) ?_
      rw [pending_of_update (s := v.room.server) rfl, Option.map_some, List.append_assoc]

theorem effect_of_accept {connFd : Fd} {cliAddress name : Bytes} {early : List Bytes} {arrived : Nat} {eof : Bool}
    {room : ChatRoom} (hmove : v.room.step (.accept connFd cliAddress name early arrived eof) = some room) :
    Effect v (.accept connFd cliAddress name early arrived eof)
      { room, said := v.record (.accept connFd cliAddress name early arrived eof) } := by
  obtain ⟨server, hserver, hmove⟩ := Option.bind_eq_some_iff.mp hmove
  cases hmove
  obtain ⟨he, -⟩ := effect_of_serverStep hserver
  cases he with
  | accept hbatch hlisten hfresh heof =>
      refine .join (by rw [pending, hfresh]; rfl) ?_
      rw [pending_of_update (s := v.room.server) rfl, Option.map_some, List.take_append_drop]

theorem effect_of_message (hlast : EofLast v.room.server) {nbytes : Nat} {room : ChatRoom}
    (hmove : v.room.step (.message nbytes) = some room) :
    Effect v (.message nbytes) { room, said := v.record (.message nbytes) } := by
  obtain ⟨fd, hhead, hmove⟩ := Option.bind_eq_some_iff.mp hmove
  obtain ⟨c, hc, hmove⟩ := Option.bind_eq_some_iff.mp hmove
  obtain ⟨sock, hsock, hmove⟩ := Option.bind_eq_some_iff.mp hmove
  obtain ⟨server, hserver, hmove⟩ := Option.bind_eq_some_iff.mp hmove
  obtain ⟨fds, hbatch⟩ := List.head?_eq_some_iff.mp hhead
  obtain ⟨he, -⟩ := effect_of_serverStep hserver
  cases he with
  | @disconnect fd' _ sock' _ hbatch' hlisten hsock' hqueue heof =>
      obtain ⟨rfl, -⟩ := List.cons.inj (hbatch.symm.trans hbatch')
      rw [if_pos rfl] at hmove
      cases hmove
      refine .leave hhead hc ?_ ?_
      · rw [pending_eq_some hsock', hqueue, hlast fd sock' hsock' heof]
        rfl
      · rw [pending_of_update (s := v.room.server) rfl, Option.map_none]
  | @message fd' _ sock' _ _ hbatch' hlisten hsock' hpos hbuffer hle hwrite =>
      obtain ⟨rfl, -⟩ := List.cons.inj (hbatch.symm.trans hbatch')
      obtain rfl := Option.some.inj (hsock.symm.trans hsock')
      rw [if_neg (by omega)] at hmove
      cases hmove
      refine .read hhead hc hsock hpos hle ?_
      let afterRead : TcpServer TaggedByte := { v.room.server with
        sockets := Function.update v.room.server.sockets fd
          (some { sock with recvQueue := sock.recvQueue.drop nbytes }) }
      have hread : afterRead.pending = Function.update v.room.server.pending fd
          (some (sock.recvQueue.drop nbytes ++ sock.inFlight)) := by
        rw [pending_of_update (s := v.room.server) rfl, Option.map_some]
      rw [pending_of_forwarded (s := afterRead) rfl, hread, List.drop_append_of_le_length hle]

theorem effect_of_step (hv : (system listenSockfd).Reachable v) {label : ChatRoom.Label}
    (hstep : (system listenSockfd).step v label = some v') : Effect v label v' := by
  obtain ⟨room, hmove, hv'⟩ := Option.bind_eq_some_iff.mp hstep
  cases hv'
  cases label with
  | send fd name message => exact effect_of_send hmove
  | accept connFd cliAddress name early arrived eof => exact effect_of_accept hmove
  | message nbytes => exact effect_of_message (eofLast_of_reachable (room_reachable hv)) hmove
  | arrive fd n =>
      obtain ⟨server, hserver, hmove⟩ := Option.bind_eq_some_iff.mp hmove
      cases hmove
      obtain ⟨he, -⟩ := effect_of_serverStep hserver
      cases he with
      | @arrive _ sock _ hsock hn hle =>
          refine .quiet trivial ?_
          rw [pending_of_update (s := v.room.server) rfl, Option.map_some]
          refine update_pending hsock ?_
          simp only [List.append_assoc, List.take_append_drop]
  | fin fd =>
      obtain ⟨server, hserver, hmove⟩ := Option.bind_eq_some_iff.mp hmove
      cases hmove
      obtain ⟨he, -⟩ := effect_of_serverStep hserver
      cases he with
      | fin hsock heof hflight =>
          refine .quiet trivial ?_
          rw [pending_of_update (s := v.room.server) rfl, Option.map_some]
          exact update_pending hsock rfl
  | epollWait fds =>
      obtain ⟨server, hserver, hmove⟩ := Option.bind_eq_some_iff.mp hmove
      cases hmove
      obtain ⟨he, -⟩ := effect_of_serverStep hserver
      cases he with
      | epollWait hbatch hnodup hready =>
          exact .quiet trivial (pending_of_map (s := v.room.server) rfl fun fd sock => by split <;> rfl)
  | again =>
      obtain ⟨server, hserver, hmove⟩ := Option.bind_eq_some_iff.mp hmove
      cases hmove
      obtain ⟨he, -⟩ := effect_of_serverStep hserver
      cases he with
      | again _ hbatch hlisten hsock hread => exact .quiet trivial rfl

/-! ### Each client's bytes -/

theorem readOf_append (reads reads' : List ReadChunk) (number : Nat) :
    readOf (reads ++ reads') number = readOf reads number ++ readOf reads' number := by
  rw [readOf, List.filter_append, List.flatMap_append, readOf, readOf]

theorem readOf_singleton (r : ReadChunk) (number : Nat) :
    readOf [r] number = if r.client = number then r.chunk else [] := by
  by_cases hclient : r.client = number
  · simp [readOf, hclient]
  · simp [readOf, hclient]

theorem stream_congr {number : Nat} (h : v'.said number = v.said number) : v'.stream number = v.stream number := by
  rw [stream, stream, buffers, buffers, h]

/-- What has been read of a client and what is still to be read are all its bytes, and nothing else is. -/
structure Streams (v : Conversation) : Prop where
  sent : ∀ fd c, v.room.clients fd = some c → c.sent = (v.said c.number).length
  connected : ∀ fd c bytes, v.room.clients fd = some c → v.room.server.pending fd = some bytes →
    readOf v.room.reads c.number ++ bytes = v.stream c.number
  gone : ∀ number < v.room.acceptCnt, (∀ fd c, v.room.clients fd = some c → c.number ≠ number) →
    readOf v.room.reads number = v.stream number
  later : ∀ number, v.room.acceptCnt ≤ number → v.said number = [] ∧ readOf v.room.reads number = []

theorem Streams.send (h : Streams v) (hrelays : Relays v.room) {fd : Fd} {name message : Bytes} {c : ChatClient}
    {bytes : List TaggedByte} {server : TcpServer TaggedByte} (hc : v.room.clients fd = some c)
    (hbytes : v.room.server.pending fd = some bytes)
    (hpending : server.pending = Function.update v.room.server.pending fd
      (some (bytes ++ tag c.number c.sent (TcpClient.sendBuffer name message)))) :
    Streams { room := { v.room with
                server
                clients := Function.update v.room.clients fd (some { c with sent := c.sent + 1 }) }
              said := Function.update v.said c.number (v.said c.number ++ [(name, message)]) } := by
  have hother : ∀ fd' c', v.room.clients fd' = some c' → fd' ≠ fd → c'.number ≠ c.number :=
    fun fd' c' hc' hne heq => hne (hrelays.number_inj fd' fd c' c hc' hc heq)
  have hstream : ∀ v₁ : Conversation, v₁.said c.number = v.said c.number ++ [(name, message)] →
      v₁.stream c.number = v.stream c.number ++ tag c.number c.sent (TcpClient.sendBuffer name message) := by
    intro v₁ hsaid
    rw [stream, buffers, hsaid, List.map_append, List.map_singleton, tagAll_concat, List.length_map, Nat.zero_add,
      h.sent fd c hc]
    rfl
  refine ⟨fun fd' c' hc' => ?_, fun fd' c' bytes' hc' hbytes' => ?_, fun number hlt hnone => ?_,
    fun number hle => ?_⟩
  · rcases update_eq_some hc' with ⟨rfl, rfl⟩ | ⟨hne, hold⟩
    · simp [h.sent fd' c hc]
    · simp only [Function.update_of_ne (hother fd' c' hold hne)]
      exact h.sent fd' c' hold
  · simp only [hpending] at hbytes'
    rcases update_eq_some hc' with ⟨rfl, rfl⟩ | ⟨hne, hold⟩
    · rw [Function.update_self] at hbytes'
      obtain rfl := Option.some.inj hbytes'
      rw [hstream _ (Function.update_self _ _ _), ← List.append_assoc, h.connected fd' c bytes hc hbytes]
    · rw [Function.update_of_ne hne] at hbytes'
      rw [stream_congr (v := v) (Function.update_of_ne (hother fd' c' hold hne) _ _)]
      exact h.connected fd' c' bytes' hold hbytes'
  · have hnumber : c.number ≠ number := hnone fd { c with sent := c.sent + 1 } (Function.update_self _ _ _)
    rw [stream_congr (v := v) (Function.update_of_ne hnumber.symm _ _)]
    refine h.gone number hlt fun fd' c' hc' => ?_
    by_cases hfd : fd' = fd
    · subst hfd
      cases hc.symm.trans hc'
      exact hnumber
    · exact hnone fd' c' ((Function.update_of_ne hfd _ _).trans hc')
  · have hlt := hrelays.number_lt fd c hc
    have hne : number ≠ c.number := by
      rintro rfl
      exact absurd hle (Nat.not_le.mpr hlt)
    simp only [Function.update_of_ne hne]
    exact h.later number hle

theorem Streams.join (h : Streams v) (hrelays : Relays v.room) {connFd : Fd} {name : Bytes} {early : List Bytes}
    {server : TcpServer TaggedByte} (hfresh : v.room.server.pending connFd = none)
    (hpending : server.pending = Function.update v.room.server.pending connFd
      (some (tagAll v.room.acceptCnt 0 (early.map (TcpClient.sendBuffer name))))) :
    Streams { room := { v.room with
                server
                clients := Function.update v.room.clients connFd
                  (some { number := v.room.acceptCnt, sent := early.length, since := v.room.reads.length })
                acceptCnt := v.room.acceptCnt + 1 }
              said := Function.update v.said v.room.acceptCnt (early.map fun message => (name, message)) } := by
  have hother : ∀ fd c, v.room.clients fd = some c → c.number ≠ v.room.acceptCnt :=
    fun fd c hc heq => absurd (hrelays.number_lt fd c hc) (by omega)
  refine ⟨fun fd c hc => ?_, fun fd c bytes hc hbytes => ?_, fun number hlt hnone => ?_, fun number hle => ?_⟩
  · rcases update_eq_some hc with ⟨rfl, rfl⟩ | ⟨-, hold⟩
    · simp
    · simp only [Function.update_of_ne (hother fd c hold)]
      exact h.sent fd c hold
  · simp only [hpending] at hbytes
    rcases update_eq_some hc with ⟨rfl, rfl⟩ | ⟨hne, hold⟩
    · rw [Function.update_self] at hbytes
      obtain rfl := Option.some.inj hbytes
      simp only [stream, buffers, Function.update_self, (h.later v.room.acceptCnt (le_refl _)).2, List.nil_append,
        List.map_map]
      rfl
    · rw [Function.update_of_ne hne] at hbytes
      rw [stream_congr (v := v) (Function.update_of_ne (hother fd c hold) _ _)]
      exact h.connected fd c bytes hold hbytes
  · have hnumber : v.room.acceptCnt ≠ number := hnone connFd _ (Function.update_self _ _ _)
    rw [stream_congr (v := v) (Function.update_of_ne hnumber.symm _ _)]
    have hlt' : number < v.room.acceptCnt := by
      simp only at hlt
      omega
    refine h.gone number hlt' fun fd c hc heq => ?_
    by_cases hfd : fd = connFd
    · subst hfd
      obtain ⟨sock, hsock⟩ := (hrelays.clients fd).mp ⟨c, hc⟩
      rw [pending_eq_some hsock] at hfresh
      cases hfresh
    · exact hnone fd c ((Function.update_of_ne hfd _ _).trans hc) heq
  · have hle' : v.room.acceptCnt + 1 ≤ number := hle
    simp only [Function.update_of_ne (show number ≠ v.room.acceptCnt by omega)]
    exact h.later number (by omega)

theorem Streams.leave (h : Streams v) {fd : Fd} {c : ChatClient} {server : TcpServer TaggedByte}
    (hc : v.room.clients fd = some c) (hbytes : v.room.server.pending fd = some [])
    (hpending : server.pending = Function.update v.room.server.pending fd none) :
    Streams { v with room := { v.room with server, clients := Function.update v.room.clients fd none } } := by
  have hclients : ∀ fd' c', Function.update v.room.clients fd none fd' = some c' →
      fd' ≠ fd ∧ v.room.clients fd' = some c' := by
    intro fd' c' hc'
    by_cases hfd : fd' = fd
    · rw [hfd, Function.update_self] at hc'
      cases hc'
    · exact ⟨hfd, (Function.update_of_ne hfd _ _).symm.trans hc'⟩
  refine ⟨fun fd' c' hc' => h.sent fd' c' (hclients fd' c' hc').2, fun fd' c' bytes hc' hbytes' => ?_,
    fun number hlt hnone => ?_, h.later⟩
  · obtain ⟨hfd, hold⟩ := hclients fd' c' hc'
    simp only [hpending, Function.update_of_ne hfd] at hbytes'
    exact h.connected fd' c' bytes hold hbytes'
  · by_cases hnumber : c.number = number
    · subst hnumber
      -- all that the client has sent was read before the end of its stream
      have hall := h.connected fd c [] hc hbytes
      rwa [List.append_nil] at hall
    · refine h.gone number hlt fun fd' c' hc' => ?_
      by_cases hfd : fd' = fd
      · subst hfd
        cases hc.symm.trans hc'
        exact hnumber
      · exact hnone fd' c' ((Function.update_of_ne hfd _ _).trans hc')

theorem Streams.read (h : Streams v) (hrelays : Relays v.room) {fd : Fd} {c : ChatClient}
    {sock : Socket TaggedByte} {nbytes : Nat} {server : TcpServer TaggedByte}
    (hc : v.room.clients fd = some c) (hsock : v.room.server.sockets fd = some sock)
    (hle : nbytes ≤ sock.recvQueue.length)
    (hpending : server.pending = Function.update v.room.server.pending fd
      (some ((sock.recvQueue ++ sock.inFlight).drop nbytes))) :
    Streams { v with room := { v.room with
                server
                reads := v.room.reads ++ [{ client := c.number, chunk := sock.recvQueue.take nbytes }] } } := by
  have hread : ∀ number, number ≠ c.number → readOf (v.room.reads ++
      [{ client := c.number, chunk := sock.recvQueue.take nbytes }]) number = readOf v.room.reads number := by
    intro number hne
    rw [readOf_append, readOf_singleton, if_neg (Ne.symm hne), List.append_nil]
  refine ⟨h.sent, fun fd' c' bytes hc' hbytes => ?_, fun number hlt hnone => ?_, fun number hle' => ?_⟩
  · simp only [hpending] at hbytes
    by_cases hfd : fd' = fd
    · subst hfd
      cases hc.symm.trans hc'
      rw [Function.update_self] at hbytes
      obtain rfl := Option.some.inj hbytes
      have hchunk : sock.recvQueue.take nbytes = (sock.recvQueue ++ sock.inFlight).take nbytes :=
        (List.take_append_of_le_length hle).symm
      rw [readOf_append, readOf_singleton, if_pos rfl, List.append_assoc]
      simp only [hchunk, List.take_append_drop]
      exact h.connected fd' c _ hc (pending_eq_some hsock)
    · have hne : c'.number ≠ c.number := fun heq => hfd (hrelays.number_inj fd' fd c' c hc' hc heq)
      rw [Function.update_of_ne hfd] at hbytes
      rw [hread c'.number hne]
      exact h.connected fd' c' bytes hc' hbytes
  · have hne : number ≠ c.number := (hnone fd c hc).symm
    rw [hread number hne]
    exact h.gone number hlt hnone
  · have hlt := hrelays.number_lt fd c hc
    have hne : number ≠ c.number := by
      rintro rfl
      exact absurd hle' (Nat.not_le.mpr hlt)
    exact ⟨(h.later number hle').1, (hread number hne).trans (h.later number hle').2⟩

theorem Streams.effect (h : Streams v) (hrelays : Relays v.room) {label : ChatRoom.Label}
    (he : Effect v label v') : Streams v' := by
  cases he with
  | quiet _ hpending => exact ⟨h.sent, fun fd c bytes hc hbytes => h.connected fd c bytes hc (hpending ▸ hbytes), h.gone, h.later⟩
  | send hc hbytes hpending => exact h.send hrelays hc hbytes hpending
  | join hfresh hpending => exact h.join hrelays hfresh hpending
  | leave _ hc hbytes hpending => exact h.leave hc hbytes hpending
  | read hhead hc hsock hpos hle hpending => exact h.read hrelays hc hsock hle hpending

theorem streams_of_reachable (hv : (system listenSockfd).Reachable v) : Streams v := by
  have hnone : ∀ fd c, (system listenSockfd).start.room.clients fd ≠ some c := fun fd c h => by cases h
  have hstart : Streams (system listenSockfd).start :=
    { sent := fun fd c hc => absurd hc (hnone fd c)
      connected := fun fd c bytes hc => absurd hc (hnone fd c)
      gone := fun number hlt => absurd hlt (Nat.not_lt_zero _)
      later := fun number _ => ⟨rfl, rfl⟩ }
  exact hv.invariant hstart fun v label v' hv h _ hstep =>
    h.effect (relays_of_reachable (room_reachable hv)) (effect_of_step hv hstep)

/-! ### What a client is written -/

/-- Bytes picked by their client are the chunks picked by their client. -/
theorem filter_flatMap_chunk {reads : List ReadChunk} (h : ∀ r ∈ reads, ∀ b ∈ r.chunk, b.client = r.client)
    (p : Nat → Bool) : (reads.flatMap ReadChunk.chunk).filter (fun b => p b.client) =
      (reads.filter fun r => p r.client).flatMap ReadChunk.chunk := by
  induction reads with
  | nil => rfl
  | cons r reads ih =>
      have hrest := ih fun r' hr' => h r' (List.mem_cons_of_mem _ hr')
      have hchunk := h r List.mem_cons_self
      rw [List.flatMap_cons, List.filter_append, hrest, List.filter_cons]
      by_cases hp : p r.client = true
      · rw [if_pos hp, List.flatMap_cons, List.filter_eq_self.mpr]
        intro b hb
        rw [hchunk b hb, hp]
      · rw [if_neg hp, List.filter_eq_nil_iff.mpr, List.nil_append]
        intro b hb
        rw [hchunk b hb]
        exact hp

/-- What is still to be read of a client: its pending bytes, and nothing once it has left. -/
def Unread (v : Conversation) (number : Nat) (rest : List TaggedByte) : Prop :=
  (∀ fd c, v.room.clients fd = some c → c.number = number → v.room.server.pending fd = some rest) ∧
  ((∀ fd c, v.room.clients fd = some c → c.number ≠ number) → rest = [])

/-- What was read of a client before another joined, what the other has been written of it, and what is unread of it,
are all its bytes. -/
structure Delivered (v : Conversation) (c : ChatClient) (written : List TaggedByte) : Prop where
  others : ∀ b ∈ written, b.client ≠ c.number
  inOrder : ∀ number, number ≠ c.number → ∃ rest, Unread v number rest ∧
    readOf (v.room.reads.take c.since) number ++ (written.filter (·.client = number) ++ rest) = v.stream number

/-- The reads of a client and its unread bytes. -/
theorem exists_unread (hv : (system listenSockfd).Reachable v) (number : Nat) :
    ∃ rest, Unread v number rest ∧ readOf v.room.reads number ++ rest = v.stream number := by
  have h := streams_of_reachable hv
  have hrelays := relays_of_reachable (room_reachable hv)
  by_cases hconnected : ∃ fd c, v.room.clients fd = some c ∧ c.number = number
  · obtain ⟨fd, c, hc, rfl⟩ := hconnected
    obtain ⟨sock, hsock⟩ := (hrelays.clients fd).mp ⟨c, hc⟩
    have hpending := pending_eq_some hsock
    refine ⟨_, ⟨fun fd' c' hc' hnumber => ?_, fun hnone => absurd rfl (hnone fd c hc)⟩,
      h.connected fd c _ hc hpending⟩
    obtain rfl := hrelays.number_inj fd' fd c' c hc' hc hnumber
    exact hpending
  · have hnone : ∀ fd c, v.room.clients fd = some c → c.number ≠ number :=
      fun fd c hc hnumber => hconnected ⟨fd, c, hc, hnumber⟩
    refine ⟨[], ⟨fun fd c hc hnumber => absurd hnumber (hnone fd c hc), fun _ => rfl⟩, ?_⟩
    rw [List.append_nil]
    by_cases hlt : number < v.room.acceptCnt
    · exact h.gone number hlt hnone
    · obtain ⟨hsaid, hread⟩ := h.later number (Nat.not_lt.mp hlt)
      rw [hread, stream, buffers, hsaid]
      rfl

/-- In every run, a connected client has been written of every other client, byte by byte and in the order in which
they were sent, all that was read since it joined, and nothing else; what is missing of the stream of the other was
read before or is unread. Two connected clients have been written the bytes of third ones in the same order: what the
later one has is the end of what the earlier one has. -/
theorem delivered_of_reachable (hv : (system listenSockfd).Reachable v) {fd : Fd} {c : ChatClient}
    {sock : Socket TaggedByte} (hc : v.room.clients fd = some c) (hsock : v.room.server.sockets fd = some sock) :
    Delivered v c sock.written ∧
      ∀ fd' c' sock', v.room.clients fd' = some c' → v.room.server.sockets fd' = some sock' → c.since ≤ c'.since →
        ∃ earlier, sock.written.filter (fun b => b.client ≠ c.number ∧ b.client ≠ c'.number) =
          earlier ++ sock'.written.filter (fun b => b.client ≠ c.number ∧ b.client ≠ c'.number) := by
  have hrelays := relays_of_reachable (room_reachable hv)
  have hchunks : ∀ n, ∀ r ∈ v.room.reads.drop n, ∀ b ∈ r.chunk, b.client = r.client :=
    fun n r hr => (hrelays.chunks r (List.mem_of_mem_drop hr)).2
  -- what a client has been written of some of the others
  have hpick : ∀ fd c sock, v.room.clients fd = some c → v.room.server.sockets fd = some sock →
      ∀ p : Nat → Bool, p c.number = false → sock.written.filter (fun b => p b.client) =
        ((v.room.reads.drop c.since).filter fun r => p r.client).flatMap ReadChunk.chunk := by
    intro fd c sock hc hsock p hself
    have hheard : ∀ r ∈ v.room.heard c, ∀ b ∈ r.chunk, b.client = r.client :=
      fun r hr => hchunks c.since r (List.mem_of_mem_filter hr)
    rw [hrelays.written fd c sock hc hsock, filter_flatMap_chunk hheard, heard, List.filter_filter]
    congr 1
    apply List.filter_congr
    intro r _
    by_cases hr : r.client = c.number
    · rw [hr, hself]
      rfl
    · simp [hr]
  refine ⟨⟨fun b hb => ?_, fun number hne => ?_⟩, fun fd' c' sock' hc' hsock' hsince => ?_⟩
  · rw [hrelays.written fd c sock hc hsock] at hb
    obtain ⟨r, hr, hb⟩ := List.mem_flatMap.mp hb
    obtain ⟨hmem, hclient⟩ := List.mem_filter.mp hr
    rw [hchunks c.since r hmem b hb]
    simpa using hclient
  · obtain ⟨rest, hrest, hstream⟩ := exists_unread hv number
    refine ⟨rest, hrest, ?_⟩
    have hwritten := hpick fd c sock hc hsock (fun n => n = number) (by simpa using hne.symm)
    have hsplit : readOf (v.room.reads.take c.since) number ++ readOf (v.room.reads.drop c.since) number =
        readOf v.room.reads number := by
      rw [← readOf_append, List.take_append_drop]
    rw [hwritten, ← List.append_assoc, ← hstream, ← hsplit]
    rfl
  · have hwritten := hpick fd c sock hc hsock (fun n => n ≠ c.number ∧ n ≠ c'.number) (by simp)
    have hwritten' := hpick fd' c' sock' hc' hsock' (fun n => n ≠ c.number ∧ n ≠ c'.number) (by simp)
    obtain ⟨between, hdrop⟩ := List.drop_suffix_drop_left v.room.reads hsince
    refine ⟨(between.filter fun r => r.client ≠ c.number ∧ r.client ≠ c'.number).flatMap ReadChunk.chunk, ?_⟩
    rw [hwritten, hwritten', ← hdrop, List.filter_append, List.flatMap_append]

/-- Cat and dog are accepted, the first part of cat's message is read, mouse is accepted, and the rest is read behind a
message of dog. -/
def lateMouse : List ChatRoom.Label :=
  [.epollWait [3], .accept 5 (ascii "127.0.0.1:4001") (ascii "cat") [] 0 false,
    .epollWait [3], .accept 6 (ascii "127.0.0.1:4002") (ascii "dog") [] 0 false,
    .send 5 (ascii "cat") (ascii "hi"), .arrive 5 4, .epollWait [5], .message 4,
    .epollWait [3], .accept 7 (ascii "127.0.0.1:4003") (ascii "mouse") [] 0 false,
    .send 6 (ascii "dog") (ascii "x"), .arrive 6 9, .epollWait [6], .message 9,
    .arrive 5 6, .epollWait [5], .message 6]

theorem delivered_of_reachable_lateMouse :
    ∃ v c sock, (system 3).Reachable v ∧ v.room.clients 7 = some c ∧ v.room.server.sockets 7 = some sock ∧
      sock.written = tag 1 0 (ascii "[dog]: x\n") ++ tag 0 0 (ascii "]: hi\n") ∧ Delivered v c sock.written := by
  obtain ⟨v, c, sock, hrun, hc, hsock, hwritten⟩ : ∃ v c sock,
      (system 3).run (system 3).start lateMouse = some v ∧ v.room.clients 7 = some c ∧
      v.room.server.sockets 7 = some sock ∧
      sock.written = tag 1 0 (ascii "[dog]: x\n") ++ tag 0 0 (ascii "]: hi\n") :=
    ⟨_, _, _, rfl, rfl, rfl, rfl⟩
  have hv := TransitionSystem.reachable_of_run hrun
  exact ⟨v, c, sock, hv, hc, hsock, hwritten, (delivered_of_reachable hv hc hsock).1⟩

end Conversation

end ToyBox
