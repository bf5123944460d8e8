import ToyBox.Library.Simulation
import ToyBox.TcpChat.Conversation
import ToyBox.TcpChat.Framing

/-! What the chat room is for: a log to which the lines of each member come in the order in which it has said them,
and which a member reads from where it has joined, but for its own lines. As long as every message fits the buffer and
no read of the server ends inside of a message, the room is such a forum, and the receive loop of each client prints
what the member may read. -/

namespace ToyBox

open Cxx

/-- The number of a member, and the length of the log when it has joined. -/
structure Member where
  number : Nat
  since : Nat

@[ext]
structure Forum where
  log : List (Nat × Bytes) := []
  /-- What each member has said and the log does not have yet. -/
  drafts : Nat → List Bytes := fun _ => []
  members : Fd → Option Member := fun _ => none
  joined : Nat := 0

namespace Forum

inductive Label where
  | join (fd : Fd) (drafts : List Bytes)
  | say (fd : Fd) (line : Bytes)
  /-- The next lines of a member come to the end of the log. -/
  | post (fd : Fd) (count : Nat)
  | leave (fd : Fd)

def step (f : Forum) : Label → Option Forum
  | .join fd drafts =>
      if (f.members fd).isSome then none
      else some { f with
        drafts := Function.update f.drafts f.joined drafts
        members := Function.update f.members fd (some { number := f.joined, since := f.log.length })
        joined := f.joined + 1 }
  | .say fd line => do
      let m ← f.members fd
      some { f with drafts := Function.update f.drafts m.number (f.drafts m.number ++ [line]) }
  | .post fd count => do
      let m ← f.members fd
      if (f.drafts m.number).length < count then none
      else some { f with
        log := f.log ++ ((f.drafts m.number).take count).map fun line => (m.number, line)
        drafts := Function.update f.drafts m.number ((f.drafts m.number).drop count) }
  | .leave fd => do
      let m ← f.members fd
      if f.drafts m.number ≠ [] then none
      else some { f with members := Function.update f.members fd none }

def system : TransitionSystem Forum Label where
  start := {}
  step := step

/-- The lines of the others since a member has joined. -/
def view (f : Forum) (m : Member) : List Bytes := ((f.log.drop m.since).filter (·.1 ≠ m.number)).map Prod.snd

end Forum

namespace Conversation

open ChatRoom TcpServer TcpClient

variable {listenSockfd : Fd} {v v' : Conversation}

/-- A message that `Send` writes with its newline. -/
structure Short (name message : Bytes) : Prop where
  plain_name : Plain name
  plain_message : Plain message
  length_lt : name.length + message.length + 5 < kBufferSize

instance (name message : Bytes) : Decidable (Short name message) :=
  decidable_of_iff (Plain name ∧ Plain message ∧ name.length + message.length + 5 < kBufferSize)
    ⟨fun h => ⟨h.1, h.2.1, h.2.2⟩, fun h => ⟨h.plain_name, h.plain_message, h.length_lt⟩⟩

/-- Messages fit the buffer, and what the server has read of a client after a read are whole messages. -/
def Tidy (v : Conversation) : ChatRoom.Label → Prop
  | .send _ name message => Short name message
  | .accept _ _ name early _ _ => ∀ message ∈ early, Short name message
  | .message nbytes => ∀ fd c sock, v.room.server.epollEvents.head? = some fd → v.room.clients fd = some c →
      v.room.server.sockets fd = some sock → ∃ k,
        readOf v.room.reads c.number ++ sock.recvQueue.take nbytes = tagAll c.number 0 ((v.buffers c.number).take k)
  | _ => True

/-! ### Tagged messages -/

theorem map_val_tag (client msg : Nat) (bytes : Bytes) : (tag client msg bytes).map TaggedByte.val = bytes := by
  rw [tag, List.map_map]
  exact List.map_id bytes

theorem map_val_tagAll (client msg : Nat) (messages : List Bytes) :
    (tagAll client msg messages).map TaggedByte.val = messages.flatten := by
  induction messages generalizing msg with
  | nil => rfl
  | cons bytes messages ih => rw [tagAll, List.map_append, map_val_tag, ih, List.flatten_cons]

theorem tagAll_append (client msg : Nat) (messages messages' : List Bytes) :
    tagAll client msg (messages ++ messages') =
      tagAll client msg messages ++ tagAll client (msg + messages.length) messages' := by
  induction messages generalizing msg with
  | nil => simp [tagAll]
  | cons bytes messages ih =>
      rw [List.cons_append, tagAll, tagAll, ih, List.length_cons, List.append_assoc]
      congr 3
      omega

/-- What leads from some whole messages to some whole messages are the messages in between. -/
theorem exists_between {client : Nat} {messages : List Bytes} {k k' : Nat} (hk : k ≤ messages.length)
    {chunk : List TaggedByte} (hchunk : chunk ≠ [])
    (h : tagAll client 0 (messages.take k) ++ chunk = tagAll client 0 (messages.take k')) :
    ∃ count, chunk = tagAll client k ((messages.drop k).take count) ∧ k + count ≤ messages.length ∧ 0 < count ∧
      tagAll client 0 (messages.take k') = tagAll client 0 (messages.take (k + count)) := by
  have hmin : messages.take k' = messages.take (min k' messages.length) := by
    rcases Nat.le_total k' messages.length with hle | hle
    · rw [Nat.min_eq_left hle]
    · rw [Nat.min_eq_right hle, List.take_of_length_le hle, List.take_of_length_le (le_refl _)]
  rcases Nat.lt_or_ge k (min k' messages.length) with hlt | hge
  · obtain ⟨count, hcount⟩ := Nat.exists_eq_add_of_lt hlt
    have hsum : min k' messages.length = k + (count + 1) := hcount
    have hle : min k' messages.length ≤ messages.length := Nat.min_le_right _ _
    have hlength : (messages.take k).length = k := List.length_take_of_le hk
    rw [hmin, hsum] at h ⊢
    rw [List.take_add, tagAll_append, List.append_cancel_left_eq, hlength, Nat.zero_add] at h
    exact ⟨count + 1, h, hsum ▸ hle, Nat.succ_pos _, rfl⟩
  · -- the second lot of messages would be no longer than the first
    obtain ⟨rest, hrest⟩ := List.take_prefix_take_left (l := messages) hge
    rw [hmin, ← hrest, tagAll_append, List.append_assoc, List.append_right_eq_self] at h
    exact absurd (List.append_eq_nil_iff.mp h).2 hchunk

/-! ### The forum of a conversation -/

/-- The text of a message. -/
def lineOf (pair : Bytes × Bytes) : Bytes := messageLine pair.1 pair.2

/-- The lines that a read returns, with their client. -/
def posted (r : ReadChunk) : List (Nat × Bytes) :=
  (pieces newline (r.chunk.map TaggedByte.val)).map fun line => (r.client, line)

/-- The lines of a client that were read. -/
def postedOf (reads : List ReadChunk) (number : Nat) : List (Nat × Bytes) :=
  (reads.filter (·.client = number)).flatMap posted

/-- The log is what was read, and the drafts of a member are its lines behind those. -/
def forum (v : Conversation) : Forum where
  log := v.room.reads.flatMap posted
  drafts number := ((v.said number).map lineOf).drop (postedOf v.room.reads number).length
  members fd := (v.room.clients fd).map fun c =>
    { number := c.number, since := ((v.room.reads.take c.since).flatMap posted).length }
  joined := v.room.acceptCnt

/-- What a step of the conversation is in the forum, if anything. -/
def move (v : Conversation) : ChatRoom.Label → Option Forum.Label
  | .accept connFd _ name early _ _ => some (.join connFd ((early.map fun message => (name, message)).map lineOf))
  | .send fd name message => some (.say fd (lineOf (name, message)))
  | .message nbytes => do
      let fd ← v.room.server.epollEvents.head?
      if nbytes = 0 then some (.leave fd)
      else do
        let sock ← v.room.server.sockets fd
        some (.post fd (pieces newline ((sock.recvQueue.take nbytes).map TaggedByte.val)).length)
  | _ => none

/-- What a read returns are whole short messages, and of each client the first ones were read. -/
structure Whole (v : Conversation) : Prop where
  short : ∀ number, ∀ pair ∈ v.said number, Short pair.1 pair.2
  chunks : ∀ r ∈ v.room.reads, ∃ pairs : List (Bytes × Bytes), pairs ≠ [] ∧ (∀ pair ∈ pairs, Short pair.1 pair.2) ∧
    r.chunk.map TaggedByte.val = pairs.flatMap fun pair => sendBuffer pair.1 pair.2
  firsts : ∀ number, ∃ k ≤ (v.said number).length,
    readOf v.room.reads number = tagAll number 0 ((v.buffers number).take k) ∧
    postedOf v.room.reads number = (((v.said number).map lineOf).take k).map fun line => (number, line)

theorem postedOf_append (reads reads' : List ReadChunk) (number : Nat) :
    postedOf (reads ++ reads') number = postedOf reads number ++ postedOf reads' number := by
  rw [postedOf, List.filter_append, List.flatMap_append, postedOf, postedOf]

theorem postedOf_singleton (r : ReadChunk) (number : Nat) :
    postedOf [r] number = if r.client = number then posted r else [] := by
  by_cases hclient : r.client = number
  · simp [postedOf, hclient]
  · simp [postedOf, hclient]

/-- The lines of whole short messages are their texts. -/
theorem pieces_short {pairs : List (Bytes × Bytes)} (h : ∀ pair ∈ pairs, Short pair.1 pair.2) :
    pieces newline (pairs.flatMap fun pair => sendBuffer pair.1 pair.2) = pairs.map lineOf := by
  rw [← split_eq_pieces]
  refine (split_sendBuffers_iff fun pair hpair => ⟨(h pair hpair).plain_name, (h pair hpair).plain_message⟩).mpr ?_
  constructor
  · exact fun pair hpair => (h pair (List.dropLast_subset _ hpair)).length_lt
  · exact fun pair hpair => (h pair (List.mem_of_getLast? hpair)).length_lt.le

theorem buffers_ne_nil (h : Whole v) {number : Nat} {bytes : Bytes} (hbytes : bytes ∈ v.buffers number) :
    bytes ≠ [] := by
  obtain ⟨pair, hpair, rfl⟩ := List.mem_map.mp hbytes
  exact sendBuffer_ne_nil (h.short number pair hpair).plain_name (h.short number pair hpair).plain_message

theorem length_buffers (number : Nat) : (v.buffers number).length = (v.said number).length := List.length_map _

/-- The part of the drafts is decided by how many messages were read. -/
theorem drafts_eq {number k : Nat} (hk : k ≤ (v.said number).length)
    (hposted : postedOf v.room.reads number = (((v.said number).map lineOf).take k).map fun line => (number, line)) :
    v.forum.drafts number = ((v.said number).map lineOf).drop k := by
  have hlength : (postedOf v.room.reads number).length = k := by
    rw [hposted, List.length_map, List.length_take_of_le (by rwa [List.length_map])]
  show ((v.said number).map lineOf).drop (postedOf v.room.reads number).length = _
  rw [hlength]

/-! ### Steps -/

theorem Whole.read (h : Whole v) {fd : Fd} {c : ChatClient} {sock : Socket TaggedByte} {nbytes : Nat}
    {server : TcpServer TaggedByte} (hhead : v.room.server.epollEvents.head? = some fd)
    (hc : v.room.clients fd = some c) (hsock : v.room.server.sockets fd = some sock) (hpos : 0 < nbytes)
    (hle : nbytes ≤ sock.recvQueue.length) (htidy : Tidy v (.message nbytes))
    {r : ReadChunk} (hr : r = { client := c.number, chunk := sock.recvQueue.take nbytes }) :
    Whole { v with room := { v.room with server, reads := v.room.reads ++ [r] } } ∧
      ∃ count, 0 < count ∧ count ≤ (v.forum.drafts c.number).length ∧
        posted r = ((v.forum.drafts c.number).take count).map (fun line => (c.number, line)) := by
  obtain ⟨k, hk, hread, hposted⟩ := h.firsts c.number
  obtain ⟨k', hwhole⟩ := htidy fd c sock hhead hc hsock
  have hne : sock.recvQueue.take nbytes ≠ [] :=
    List.ne_nil_of_length_pos (by rw [List.length_take_of_le hle]; exact hpos)
  rw [hread] at hwhole
  obtain ⟨count, hchunk, hsum, hcount, hall⟩ := exists_between (by rwa [length_buffers]) hne hwhole
  rw [length_buffers] at hsum
  -- the messages that the read returns
  have hpairs : ((v.buffers c.number).drop k).take count =
      (((v.said c.number).drop k).take count).map fun pair => sendBuffer pair.1 pair.2 := by
    rw [buffers, List.map_take, List.map_drop]
  have hshort : ∀ pair ∈ ((v.said c.number).drop k).take count, Short pair.1 pair.2 := fun pair hpair =>
    h.short c.number pair (List.mem_of_mem_drop (List.mem_of_mem_take hpair))
  have hval : r.chunk.map TaggedByte.val =
      (((v.said c.number).drop k).take count).flatMap fun pair => sendBuffer pair.1 pair.2 := by
    rw [hr, hchunk, map_val_tagAll, hpairs, List.flatMap_def]
  have hlines : posted r = ((((v.said c.number).map lineOf).drop k).take count).map fun line => (c.number, line) := by
    rw [posted, hval, pieces_short hshort, List.map_take, List.map_drop, hr]
  have hdrafts := drafts_eq hk hposted
  refine ⟨⟨h.short, fun r' hr' => ?_, fun number => ?_⟩, count, hcount, ?_, ?_⟩
  · rcases List.mem_append.mp hr' with hr' | hr'
    · exact h.chunks r' hr'
    · obtain rfl := List.mem_singleton.mp hr'
      refine ⟨_, ?_, hshort, hval⟩
      refine List.ne_nil_of_length_pos ?_
      rw [List.length_take_of_le (by rw [List.length_drop]; omega)]
      exact hcount
  · rw [readOf_append, readOf_singleton, postedOf_append, postedOf_singleton]
    by_cases hnumber : number = c.number
    · subst hnumber
      have hclient : r.client = c.number := by rw [hr]
      have hbytes : r.chunk = sock.recvQueue.take nbytes := by rw [hr]
      refine ⟨k + count, hsum, ?_, ?_⟩
      · rw [if_pos hclient, hbytes, hread, hwhole, hall]
        rfl
      · rw [if_pos hclient, hposted, hlines, ← List.map_append, ← List.take_add]
    · have hclient : r.client ≠ number := by
        rw [hr]
        exact Ne.symm hnumber
      rw [if_neg hclient, if_neg hclient, List.append_nil, List.append_nil]
      exact h.firsts number
  · rw [hdrafts, List.length_drop, List.length_map]
    omega
  · rw [hlines, hdrafts]

/-- What was read does not depend on what is said later. -/
theorem Whole.firsts_of_said (h : Whole v) (number : Nat) {more : List (Bytes × Bytes)} {w : Conversation}
    (hreads : w.room.reads = v.room.reads) (hsaid : w.said number = v.said number ++ more) :
    ∃ k ≤ (w.said number).length, k ≤ (v.said number).length ∧
      readOf w.room.reads number = tagAll number 0 ((w.buffers number).take k) ∧
      postedOf w.room.reads number = (((w.said number).map lineOf).take k).map fun line => (number, line) := by
  obtain ⟨k, hk, hread, hposted⟩ := h.firsts number
  refine ⟨k, ?_, hk, ?_, ?_⟩
  · rw [hsaid, List.length_append]
    exact hk.trans (Nat.le_add_right _ _)
  · rw [hreads, hread, buffers, buffers, hsaid, List.map_append, List.take_append_of_le_length (by rwa [List.length_map])]
  · rw [hreads, hposted, hsaid, List.map_append, List.take_append_of_le_length (by rwa [List.length_map])]

theorem Whole.said (h : Whole v) (number : Nat) {more : List (Bytes × Bytes)}
    (hmore : ∀ pair ∈ more, Short pair.1 pair.2) {room : ChatRoom} (hreads : room.reads = v.room.reads) :
    Whole { room, said := Function.update v.said number (v.said number ++ more) } := by
  refine ⟨fun number' pair hpair => ?_, fun r hr => h.chunks r (hreads ▸ hr), fun number' => ?_⟩
  · by_cases hnumber : number' = number
    · subst hnumber
      simp only [Function.update_self] at hpair
      rcases List.mem_append.mp hpair with hpair | hpair
      · exact h.short number' pair hpair
      · exact hmore pair hpair
    · simp only [Function.update_of_ne hnumber] at hpair
      exact h.short number' pair hpair
  · by_cases hnumber : number' = number
    · subst hnumber
      obtain ⟨k, hk, -, hread, hposted⟩ := h.firsts_of_said number'
        (w := { room, said := Function.update v.said number' (v.said number' ++ more) }) hreads
        (Function.update_self _ _ _)
      exact ⟨k, hk, hread, hposted⟩
    · obtain ⟨k, hk, -, hread, hposted⟩ := h.firsts_of_said number'
        (w := { room, said := Function.update v.said number (v.said number ++ more) }) hreads
        ((Function.update_of_ne hnumber _ _).trans (List.append_nil _).symm)
      exact ⟨k, hk, hread, hposted⟩

theorem forum_member {fd : Fd} {c : ChatClient} (hc : v.room.clients fd = some c) :
    v.forum.members fd =
      some { number := c.number, since := ((v.room.reads.take c.since).flatMap posted).length } := by
  show (v.room.clients fd).map _ = _
  rw [hc]
  rfl

/-- Saying something adds to the drafts. -/
theorem drafts_said (h : Whole v) {number : Nat} {more : List (Bytes × Bytes)} {w : Conversation}
    (hreads : w.room.reads = v.room.reads) (hsaid : w.said number = v.said number ++ more) :
    w.forum.drafts number = v.forum.drafts number ++ more.map lineOf := by
  obtain ⟨k, hk, hk', -, hposted⟩ := h.firsts_of_said number hreads hsaid
  obtain ⟨k₁, hk₁, -, hposted₁⟩ := h.firsts number
  have hsame : k = k₁ := by
    have hlength := congrArg List.length hposted
    rw [hreads, hposted₁, List.length_map, List.length_map, List.length_take_of_le (by rwa [List.length_map]),
      List.length_take_of_le (by rwa [List.length_map])] at hlength
    exact hlength.symm
  rw [drafts_eq hk hposted, drafts_eq hk₁ hposted₁, hsaid, List.map_append, hsame,
    List.drop_append_of_le_length (by rwa [List.length_map])]

theorem forum_send (h : Whole v) {fd : Fd} {name message : Bytes} {c : ChatClient}
    (hc : v.room.clients fd = some c) {w : Conversation} (hreads : w.room.reads = v.room.reads)
    (hcnt : w.room.acceptCnt = v.room.acceptCnt)
    (hclients : w.room.clients = Function.update v.room.clients fd (some { c with sent := c.sent + 1 }))
    (hsaid : w.said = Function.update v.said c.number (v.said c.number ++ [(name, message)])) :
    Forum.system.step v.forum (.say fd (lineOf (name, message))) = some w.forum := by
  refine Option.bind_eq_some_iff.mpr ⟨_, forum_member hc, congrArg some (Forum.ext ?_ ?_ ?_ hcnt.symm)⟩
  · show v.room.reads.flatMap posted = w.room.reads.flatMap posted
    rw [hreads]
  · funext number
    show Function.update v.forum.drafts c.number (v.forum.drafts c.number ++ [lineOf (name, message)]) number = _
    by_cases hnumber : number = c.number
    · subst hnumber
      rw [Function.update_self, drafts_said h hreads (by rw [hsaid, Function.update_self])]
      rfl
    · have hsame : w.said number = v.said number ++ [] := by
        rw [hsaid, Function.update_of_ne hnumber, List.append_nil]
      rw [Function.update_of_ne hnumber, drafts_said h hreads hsame, List.map_nil, List.append_nil]
  · funext fd'
    show (v.room.clients fd').map _ = (w.room.clients fd').map _
    rw [hreads, hclients]
    by_cases hfd : fd' = fd
    · subst hfd
      rw [Function.update_self, hc]
      rfl
    · rw [Function.update_of_ne hfd]

theorem forum_join (h : Whole v) (hstreams : Streams v) {connFd : Fd} {name : Bytes}
    {early : List Bytes} (hfresh : v.room.clients connFd = none) {w : Conversation}
    (hreads : w.room.reads = v.room.reads) (hcnt : w.room.acceptCnt = v.room.acceptCnt + 1)
    (hclients : w.room.clients = Function.update v.room.clients connFd
      (some { number := v.room.acceptCnt, sent := early.length, since := v.room.reads.length }))
    (hsaid : w.said = Function.update v.said v.room.acceptCnt (early.map fun message => (name, message))) :
    Forum.system.step v.forum (.join connFd ((early.map fun message => (name, message)).map lineOf)) =
      some w.forum := by
  have hnone : v.forum.members connFd = none := by
    show (v.room.clients connFd).map _ = none
    rw [hfresh]
    rfl
  have hnew : v.said v.room.acceptCnt = [] := (hstreams.later _ (le_refl _)).1
  show (if (v.forum.members connFd).isSome then none else _) = _
  rw [hnone, Option.isSome_none, if_neg Bool.false_ne_true]
  refine congrArg some (Forum.ext ?_ ?_ ?_ hcnt.symm)
  · show v.room.reads.flatMap posted = w.room.reads.flatMap posted
    rw [hreads]
  · funext number
    show Function.update v.forum.drafts v.room.acceptCnt _ number = _
    by_cases hnumber : number = v.room.acceptCnt
    · subst hnumber
      have hmore : w.said v.room.acceptCnt = v.said v.room.acceptCnt ++ early.map fun message => (name, message) := by
        rw [hsaid, Function.update_self, hnew, List.nil_append]
      have hdrafts : v.forum.drafts v.room.acceptCnt = [] := by
        show ((v.said v.room.acceptCnt).map lineOf).drop _ = []
        rw [hnew, List.map_nil, List.drop_nil]
      rw [Function.update_self, drafts_said h hreads hmore, hdrafts, List.nil_append]
    · have hsame : w.said number = v.said number ++ [] := by
        rw [hsaid, Function.update_of_ne hnumber, List.append_nil]
      rw [Function.update_of_ne hnumber, drafts_said h hreads hsame, List.map_nil, List.append_nil]
  · funext fd
    show Function.update v.forum.members connFd _ fd = (w.room.clients fd).map _
    rw [hreads, hclients]
    by_cases hfd : fd = connFd
    · subst hfd
      rw [Function.update_self, Function.update_self, Option.map_some, List.take_length]
      rfl
    · rw [Function.update_of_ne hfd, Function.update_of_ne hfd]
      rfl

theorem forum_leave (h : Whole v) (hstreams : Streams v) {fd : Fd} {c : ChatClient}
    (hc : v.room.clients fd = some c) (hbytes : v.room.server.pending fd = some []) {w : Conversation}
    (hreads : w.room.reads = v.room.reads) (hcnt : w.room.acceptCnt = v.room.acceptCnt)
    (hclients : w.room.clients = Function.update v.room.clients fd none) (hsaid : w.said = v.said) :
    Forum.system.step v.forum (.leave fd) = some w.forum := by
  have hdrafts : v.forum.drafts c.number = [] := by
    obtain ⟨k, hk, hread, hposted⟩ := h.firsts c.number
    have hall := hstreams.connected fd c [] hc hbytes
    -- the messages that were read are all messages
    have hsplit : tagAll c.number 0 (v.buffers c.number) =
        tagAll c.number 0 ((v.buffers c.number).take k) ++ tagAll c.number k ((v.buffers c.number).drop k) := by
      conv_lhs => rw [← List.take_append_drop k (v.buffers c.number)]
      rw [tagAll_append, List.length_take_of_le (by rwa [length_buffers]), Nat.zero_add]
    rw [List.append_nil, hread, stream, hsplit, eq_comm, List.append_right_eq_self] at hall
    have hnil := congrArg (List.map TaggedByte.val) hall
    rw [map_val_tagAll, List.map_nil, List.flatten_eq_nil_iff] at hnil
    have hdrop : (v.buffers c.number).drop k = [] := by
      rw [List.eq_nil_iff_forall_not_mem]
      exact fun bytes hmem => buffers_ne_nil h (List.mem_of_mem_drop hmem) (hnil bytes hmem)
    have hlength : (v.said c.number).length ≤ k := by
      rw [← length_buffers]
      exact List.drop_eq_nil_iff.mp hdrop
    rw [drafts_eq hk hposted, List.drop_eq_nil_iff, List.length_map]
    exact hlength
  refine Option.bind_eq_some_iff.mpr ⟨_, forum_member hc, ?_⟩
  rw [if_neg (not_not.mpr hdrafts)]
  refine congrArg some (Forum.ext ?_ ?_ ?_ hcnt.symm)
  · show v.room.reads.flatMap posted = w.room.reads.flatMap posted
    rw [hreads]
  · funext number
    show ((v.said number).map lineOf).drop _ = ((w.said number).map lineOf).drop _
    rw [hreads, hsaid]
  · funext fd'
    show Function.update v.forum.members fd none fd' = (w.room.clients fd').map _
    rw [hreads, hclients]
    by_cases hfd : fd' = fd
    · subst hfd
      rw [Function.update_self, Function.update_self]
      rfl
    · rw [Function.update_of_ne hfd, Function.update_of_ne hfd]
      rfl

theorem forum_read (hrelays : Relays v.room) {fd : Fd} {c : ChatClient} (hc : v.room.clients fd = some c)
    {r : ReadChunk} (hclient : r.client = c.number) {count : Nat} (hcount : count ≤ (v.forum.drafts c.number).length)
    (hposted : posted r = ((v.forum.drafts c.number).take count).map fun line => (c.number, line))
    {w : Conversation} (hreads : w.room.reads = v.room.reads ++ [r]) (hcnt : w.room.acceptCnt = v.room.acceptCnt)
    (hclients : w.room.clients = v.room.clients) (hsaid : w.said = v.said) :
    Forum.system.step v.forum (.post fd count) = some w.forum := by
  refine Option.bind_eq_some_iff.mpr ⟨_, forum_member hc, ?_⟩
  rw [if_neg (Nat.not_lt.mpr hcount)]
  refine congrArg some (Forum.ext ?_ ?_ ?_ hcnt.symm)
  · show v.room.reads.flatMap posted ++ _ = w.room.reads.flatMap posted
    rw [hreads, List.flatMap_append, List.flatMap_singleton, hposted]
  · funext number
    show Function.update v.forum.drafts c.number _ number =
      ((w.said number).map lineOf).drop (postedOf w.room.reads number).length
    rw [hreads, hsaid, postedOf_append, postedOf_singleton, hclient]
    by_cases hnumber : number = c.number
    · subst hnumber
      have hlength : (posted r).length = count := by
        rw [hposted, List.length_map, List.length_take_of_le hcount]
      rw [Function.update_self, if_pos rfl, List.length_append, hlength, ← List.drop_drop]
      rfl
    · rw [Function.update_of_ne hnumber, if_neg (Ne.symm hnumber), List.append_nil]
      rfl
  · funext fd'
    show (v.room.clients fd').map _ = (w.room.clients fd').map _
    rw [hreads, hclients]
    cases hc' : v.room.clients fd' with
    | none => rfl
    | some c' =>
        rw [Option.map_some, Option.map_some, List.take_append_of_le_length (hrelays.since_le fd' c' hc')]

theorem move_of_quiet {label : ChatRoom.Label} (h : Quiet label) : v.move label = none := by
  cases label with
  | arrive | fin | epollWait | again => rfl
  | send | accept | message => exact h.elim

/-- A step of the conversation is one of the forum, or none. -/
theorem Whole.effect (h : Whole v) (hrelays : Relays v.room) (hstreams : Streams v) {label : ChatRoom.Label}
    (htidy : Tidy v label) (he : Effect v label v') :
    Whole v' ∧ Forum.system.stepIf v.forum (v.move label) = some v'.forum := by
  cases he with
  | quiet hquiet hpending =>
      rw [move_of_quiet hquiet]
      exact ⟨⟨h.short, h.chunks, h.firsts⟩, rfl⟩
  | send hc hbytes hpending =>
      have hmore : ∀ pair ∈ [(_, _)], Short pair.1 pair.2 := fun pair hpair => by
        rw [List.mem_singleton.mp hpair]
        exact htidy
      exact ⟨h.said _ hmore rfl, forum_send h hc rfl rfl rfl rfl⟩
  | @join connFd _ name early _ _ _ hfresh hpending =>
      have hmore : ∀ pair ∈ early.map fun message => (name, message), Short pair.1 pair.2 := by
        intro pair hpair
        obtain ⟨message, hmessage, rfl⟩ := List.mem_map.mp hpair
        exact htidy message hmessage
      have hnew : v.said v.room.acceptCnt = [] := (hstreams.later _ (le_refl _)).1
      have hnone : v.room.clients connFd = none := by
        by_contra hsome
        obtain ⟨c, hc⟩ := Option.ne_none_iff_exists'.mp hsome
        obtain ⟨sock, hsock⟩ := (hrelays.clients connFd).mp ⟨c, hc⟩
        rw [pending_eq_some hsock] at hfresh
        cases hfresh
      refine ⟨?_, forum_join h hstreams hnone rfl rfl rfl rfl⟩
      let said := Function.update v.said v.room.acceptCnt
        (v.said v.room.acceptCnt ++ early.map fun message => (name, message))
      have hwhole : Whole { v with said } := h.said _ hmore rfl
      simp only [said, hnew, List.nil_append] at hwhole
      exact ⟨hwhole.short, hwhole.chunks, hwhole.firsts⟩
  | @leave fd c server hhead hc hbytes hpending =>
      have hmove : v.move (.message 0) = some (.leave fd) := by
        rw [move, hhead]
        rfl
      rw [hmove]
      exact ⟨⟨h.short, h.chunks, h.firsts⟩, forum_leave h hstreams hc hbytes rfl rfl rfl rfl⟩
  | @read fd c sock nbytes server hhead hc hsock hpos hle hpending =>
      obtain ⟨hwhole, count, -, hcount, hposted⟩ := h.read hhead hc hsock hpos hle htidy rfl
      have hlength : (pieces newline ((sock.recvQueue.take nbytes).map TaggedByte.val)).length = count := by
        have hlines := congrArg List.length hposted
        rwa [posted, List.length_map, List.length_map, List.length_take_of_le hcount] at hlines
      have hmove : v.move (.message nbytes) = some (.post fd count) := by
        rw [move, hhead, Option.bind_eq_bind, Option.bind_some, if_neg (Nat.ne_of_gt hpos), hsock, Option.bind_eq_bind,
          Option.bind_some, hlength]
      rw [hmove]
      exact ⟨hwhole, forum_read hrelays hc rfl hcount hposted rfl rfl rfl rfl⟩

theorem whole_of_reachable (hv : (system listenSockfd).ReachableBy Tidy v) : Whole v := by
  have hstart : Whole (system listenSockfd).start :=
    { short := fun _ _ h => absurd h List.not_mem_nil
      chunks := fun _ h => absurd h List.not_mem_nil
      firsts := fun _ => ⟨0, le_refl _, rfl, rfl⟩ }
  exact hv.invariant hstart fun v label v' hv h htidy hstep =>
    (h.effect (relays_of_reachable (room_reachable hv.reachable)) (streams_of_reachable hv.reachable) htidy
      (effect_of_step hv.reachable hstep)).1

theorem forum_step (hv : (system listenSockfd).ReachableBy Tidy v) {label : ChatRoom.Label} (htidy : Tidy v label)
    (hstep : (system listenSockfd).step v label = some v') :
    Forum.system.stepIf v.forum (v.move label) = some v'.forum :=
  ((whole_of_reachable hv).effect (relays_of_reachable (room_reachable hv.reachable))
    (streams_of_reachable hv.reachable) htidy (effect_of_step hv.reachable hstep)).2

theorem forum_reachable (hv : (system listenSockfd).ReachableBy Tidy v) : Forum.system.Reachable v.forum :=
  TransitionSystem.ReachableBy.map (f := forum) rfl
    (fun _ _ _ hs htidy hstep => TransitionSystem.stepOrStay_of_stepIf (forum_step hs htidy hstep)) hv

/-- The lines of a member in the log are the first ones of what it has said, and the drafts are the others. -/
theorem Whole.log_append_drafts (h : Whole v) (number : Nat) :
    (v.forum.log.filter (·.1 = number)).map Prod.snd ++ v.forum.drafts number = (v.said number).map lineOf := by
  obtain ⟨k, hk, -, hposted⟩ := h.firsts number
  have hone : ∀ r : ReadChunk, (posted r).filter (·.1 = number) = if r.client = number then posted r else [] := by
    intro r
    rw [posted, List.filter_map]
    by_cases hclient : r.client = number <;> simp [hclient, Function.comp_def]
  have hlog : v.forum.log.filter (·.1 = number) = postedOf v.room.reads number := by
    show (v.room.reads.flatMap posted).filter (·.1 = number) = _
    rw [List.filter_flatMap, postedOf]
    simp only [hone]
    induction v.room.reads with
    | nil => rfl
    | cons r reads ih =>
        rw [List.flatMap_cons, ih, List.filter_cons]
        by_cases hclient : r.client = number <;> simp [hclient]
  have hlines : (((v.said number).map lineOf).take k).map (Prod.snd ∘ fun line => (number, line)) =
      ((v.said number).map lineOf).take k := List.map_id _
  rw [hlog, hposted, List.map_map, hlines, drafts_eq hk hposted, List.take_append_drop]

/-! ### What a client prints -/

/-- Whole short messages end with a newline and have no NUL. -/
theorem flatMap_sendBuffer {pairs : List (Bytes × Bytes)} (hne : pairs ≠ [])
    (h : ∀ pair ∈ pairs, Short pair.1 pair.2) :
    (pairs.flatMap fun pair => sendBuffer pair.1 pair.2).getLast? = some newline ∧
      0 ∉ pairs.flatMap fun pair => sendBuffer pair.1 pair.2 := by
  have hbuffer : ∀ pair ∈ pairs, sendBuffer pair.1 pair.2 = messageLine pair.1 pair.2 ++ [newline] := fun pair hpair =>
    sendBuffer_of_lt (h pair hpair).plain_name (h pair hpair).plain_message (h pair hpair).length_lt
  constructor
  · obtain ⟨init, last, rfl⟩ := (List.eq_nil_or_concat' pairs).resolve_left hne
    rw [List.flatMap_append, List.flatMap_singleton, hbuffer last (by simp), ← List.append_assoc, List.getLast?_concat]
  · intro hmem
    obtain ⟨pair, hpair, hmem⟩ := List.mem_flatMap.mp hmem
    rw [hbuffer pair hpair] at hmem
    rcases List.mem_append.mp hmem with hmem | hmem
    · exact (plain_messageLine (h pair hpair).plain_name (h pair hpair).plain_message).2 hmem
    · exact absurd hmem (by decide)

/-- So does each chunk that a client could hear. -/
theorem Whole.heard_chunks (h : Whole v) (c : ChatClient) :
    ∀ bytes ∈ (v.room.heard c).map fun r => r.chunk.map TaggedByte.val, bytes.getLast? = some newline ∧ 0 ∉ bytes := by
  intro bytes hbytes
  obtain ⟨r, hr, rfl⟩ := List.mem_map.mp hbytes
  obtain ⟨pairs, hne, hshort, hval⟩ := h.chunks r (List.mem_of_mem_drop (List.mem_of_mem_filter hr))
  rw [hval]
  exact flatMap_sendBuffer hne hshort

/-- No line goes over from one chunk to the next. -/
theorem Whole.pieces_heard (h : Whole v) (c : ChatClient) :
    pieces newline ((v.room.heard c).map fun r => r.chunk.map TaggedByte.val).flatten =
      (v.room.heard c).flatMap fun r => pieces newline (r.chunk.map TaggedByte.val) := by
  rw [← flatMap_pieces_of_isChain, List.flatMap_map]
  · intro bytes hbytes hnil
    have hlast := (h.heard_chunks c bytes hbytes).1
    rw [hnil] at hlast
    cases hlast
  · refine (isChain_left_iff.mpr fun bytes hbytes => ?_).imp fun _ _ hlast => Or.inl hlast
    exact (h.heard_chunks c bytes (List.dropLast_subset _ hbytes)).1

/-- What a member may read are the lines of the chunks that its client could hear. -/
theorem view_eq {c : ChatClient} {m : Member} (hnumber : m.number = c.number)
    (hsince : m.since = ((v.room.reads.take c.since).flatMap posted).length) :
    v.forum.view m = (v.room.heard c).flatMap fun r => pieces newline (r.chunk.map TaggedByte.val) := by
  have hlog : v.forum.log.drop m.since = (v.room.reads.drop c.since).flatMap posted := by
    have hsplit : v.forum.log =
        (v.room.reads.take c.since).flatMap posted ++ (v.room.reads.drop c.since).flatMap posted := by
      rw [← List.flatMap_append, List.take_append_drop]
      rfl
    rw [hsplit, hsince, List.drop_left]
  rw [Forum.view, hlog, heard, hnumber]
  generalize v.room.reads.drop c.since = reads
  induction reads with
  | nil => rfl
  | cons r reads ih =>
      rw [List.flatMap_cons, List.filter_append, List.map_append, ih, List.filter_cons]
      by_cases hclient : r.client = c.number
      · rw [if_neg (by simpa using hclient), List.filter_eq_nil_iff.mpr, List.map_nil, List.nil_append]
        intro line hline
        obtain ⟨text, -, rfl⟩ := List.mem_map.mp hline
        simpa using hclient
      · rw [if_pos (by simpa using hclient), List.flatMap_cons, List.filter_eq_self.mpr]
        · rw [posted, List.map_map]
          congr 1
          exact List.map_id _
        · intro line hline
          obtain ⟨text, -, rfl⟩ := List.mem_map.mp hline
          simpa using hclient

/-- In every run with messages that fit the buffer and reads that end between messages, the room is a forum that
members join, in which they say and post lines, and which they leave: each step is what `move` says. The log has the
first lines that a member has said, in order. The stream of each client consists of the lines that its member may read,
and cut next to newlines into reads that leave room for the terminator, its receive loop prints these lines. -/
theorem forum_of_reachable (hv : (system listenSockfd).ReachableBy Tidy v) :
    Forum.system.Reachable v.forum ∧
      (∀ label v', Tidy v label → (system listenSockfd).step v label = some v' →
        Forum.system.stepIf v.forum (v.move label) = some v'.forum) ∧
      (∀ number, (v.forum.log.filter (·.1 = number)).map Prod.snd ++ v.forum.drafts number =
        (v.said number).map lineOf) ∧
      ∀ fd c sock, v.room.clients fd = some c → v.room.server.sockets fd = some sock →
        ∃ m, v.forum.members fd = some m ∧ m.number = c.number ∧
          pieces newline (sock.written.map TaggedByte.val) = v.forum.view m ∧
          ∀ reads : List Bytes, reads.flatten = sock.written.map TaggedByte.val →
            (∀ data ∈ reads, data ≠ [] ∧ data.length < kBufferSize) → reads.IsChain (CutAt newline) →
            receiveAll reads = .ok (v.forum.view m) := by
  have h := whole_of_reachable hv
  have hrelays := relays_of_reachable (room_reachable hv.reachable)
  refine ⟨forum_reachable hv, fun _ _ => forum_step hv, h.log_append_drafts, fun fd c sock hc hsock => ?_⟩
  have hwritten : sock.written.map TaggedByte.val =
      ((v.room.heard c).map fun r => r.chunk.map TaggedByte.val).flatten := by
    rw [hrelays.written fd c sock hc hsock, List.map_flatMap, List.flatMap_def]
  have hlines : pieces newline (sock.written.map TaggedByte.val) =
      (v.room.heard c).flatMap fun r => pieces newline (r.chunk.map TaggedByte.val) := by
    rw [hwritten, h.pieces_heard c]
  have hview := view_eq (v := v) (c := c)
    (m := { number := c.number, since := ((v.room.reads.take c.since).flatMap posted).length }) rfl rfl
  refine ⟨_, forum_member hc, rfl, hlines.trans hview.symm, fun reads hreads hdata hcuts => ?_⟩
  have hnul : ∀ data ∈ reads, 0 ∉ data := by
    intro data hmem hzero
    have hstream : (0 : UInt8) ∈ reads.flatten := List.mem_flatten.mpr ⟨data, hmem, hzero⟩
    rw [hreads, hwritten, List.mem_flatten] at hstream
    obtain ⟨bytes, hbytes, hzero⟩ := hstream
    exact (h.heard_chunks c bytes hbytes).2 hzero
  have hall := (receiveAll_eq_iff (fun data hmem => (hdata data hmem).1) hnul).mpr
    ⟨fun data hmem => (hdata data hmem).2, hcuts⟩
  rw [hall, hreads, hlines, hview]

/-- Cat and dog are accepted, and two messages of cat arrive. -/
def catTwice : List ChatRoom.Label :=
  [.epollWait [3], .accept 5 (ascii "127.0.0.1:4001") (ascii "cat") [] 0 false,
    .epollWait [3], .accept 6 (ascii "127.0.0.1:4002") (ascii "dog") [] 0 false,
    .send 5 (ascii "cat") (ascii "hi"), .send 5 (ascii "cat") (ascii "bye"), .arrive 5 21, .epollWait [5]]

/-- One read returns both. -/
theorem forum_of_reachable_catTwice :
    ∃ v sock m, (system 3).ReachableBy Tidy v ∧ Forum.system.Reachable v.forum ∧
      (v.forum.log.filter (·.1 = 0)).map Prod.snd ++ v.forum.drafts 0 = [ascii "[cat]: hi", ascii "[cat]: bye"] ∧
      v.room.server.sockets 6 = some sock ∧ v.forum.members 6 = some m ∧
      pieces newline (sock.written.map TaggedByte.val) = v.forum.view m ∧
      receiveAll [ascii "[cat]: hi\n[cat]: bye\n"] = .ok (v.forum.view m) := by
  have hshort : Short (ascii "cat") (ascii "hi") ∧ Short (ascii "cat") (ascii "bye") := by decide
  have htidy : ∀ label ∈ catTwice, ∀ v, Tidy v label := by
    intro label hlabel v
    simp only [catTwice, List.mem_cons, List.not_mem_nil, or_false] at hlabel
    rcases hlabel with rfl | rfl | rfl | rfl | rfl | rfl | rfl | rfl
    · trivial
    · exact fun _ h => absurd h List.not_mem_nil
    · trivial
    · exact fun _ h => absurd h List.not_mem_nil
    · exact hshort.1
    · exact hshort.2
    · trivial
    · trivial
  obtain ⟨v, hrun⟩ : ∃ v, (system 3).run (system 3).start catTwice = some v := ⟨_, rfl⟩
  have hv : (system 3).ReachableBy Tidy v := TransitionSystem.ReachableBy.run .start htidy hrun
  obtain ⟨v', c, sock, hstep, hc, hsock, hwritten, hsaid⟩ : ∃ v' c sock, (system 3).step v (.message 21) = some v' ∧
      v'.room.clients 6 = some c ∧ v'.room.server.sockets 6 = some sock ∧
      sock.written.map TaggedByte.val = ascii "[cat]: hi\n[cat]: bye\n" ∧
      (v'.said 0).map lineOf = [ascii "[cat]: hi", ascii "[cat]: bye"] := by
    cases hrun
    exact ⟨_, _, _, rfl, rfl, rfl, rfl, rfl⟩
  have hread : Tidy v (.message 21) := by
    cases hrun
    intro fd c sock hhead hc hsock
    cases hhead
    cases hc
    cases hsock
    exact ⟨2, rfl⟩
  have hv' : (system 3).ReachableBy Tidy v' := .step hv hread hstep
  obtain ⟨hforum, -, hlines, hclients⟩ := forum_of_reachable hv'
  obtain ⟨m, hm, -, hpieces, hprints⟩ := hclients 6 c sock hc hsock
  refine ⟨v', sock, m, hv', hforum, (hlines 0).trans hsaid, hsock, hm, hpieces, ?_⟩
  refine hprints [ascii "[cat]: hi\n[cat]: bye\n"] ?_ ?_ (List.isChain_singleton _)
  · rw [hwritten, List.flatten_singleton]
  · intro data hdata
    rw [List.mem_singleton.mp hdata]
    decide

end Conversation

end ToyBox
