import ToyBox.TcpChat.ChatRoom

/-! What the clients are written. The server relays the chunk of every read as it is, so a client is written
the chunks read from the others, in the order of the reads. Two messages mix exactly when one is cut
between two reads and a chunk of a third client is read in between. -/

namespace ToyBox.ChatRoom

open Cxx TcpServer

theorem heard_congr {r r' : ChatRoom} {c c' : ChatClient} (hreads : r'.reads = r.reads)
    (hnumber : c'.number = c.number) (hsince : c'.since = c.since) : r'.heard c' = r.heard c := by
  rw [heard, heard, hreads, hnumber, hsince]

/-- A step that neither accepts a client nor returns bytes from a read. -/
theorem Relays.of_same {r r' : ChatRoom} (h : Relays r) (hreads : r'.reads = r.reads)
    (hcnt : r'.acceptCnt = r.acceptCnt) (hrun : r'.server.exited = false)
    (hconsistent : r'.server.Consistent)
    (hiff : ∀ fd, (∃ c, r'.clients fd = some c) ↔ ∃ sock, r'.server.sockets fd = some sock)
    (hclients : ∀ fd c', r'.clients fd = some c' →
      ∃ c, r.clients fd = some c ∧ c'.number = c.number ∧ c'.since = c.since)
    (hsockets : ∀ fd sock', r'.server.sockets fd = some sock' →
      ∃ sock, r.server.sockets fd = some sock ∧ sock'.written = sock.written ∧
        ∀ c, r.clients fd = some c → ∀ b ∈ sock'.recvQueue ++ sock'.inFlight,
          b ∈ sock.recvQueue ++ sock.inFlight ∨ b.client = c.number) : Relays r' where
  running := hrun
  consistent := hconsistent
  clients := hiff
  number_lt fd c' hc' := by
    obtain ⟨c, hc, hnumber, -⟩ := hclients fd c' hc'
    rw [hnumber, hcnt]
    exact h.number_lt fd c hc
  number_inj fd fd' c₁ c₂ h₁ h₂ heq := by
    obtain ⟨c, hc, hnumber, -⟩ := hclients fd c₁ h₁
    obtain ⟨c', hc', hnumber', -⟩ := hclients fd' c₂ h₂
    exact h.number_inj fd fd' c c' hc hc' (by rw [← hnumber, ← hnumber', heq])
  since_le fd c' hc' := by
    obtain ⟨c, hc, -, hsince⟩ := hclients fd c' hc'
    rw [hsince, hreads]
    exact h.since_le fd c hc
  pending fd c' sock' hc' hsock' b hb := by
    obtain ⟨c, hc, hnumber, -⟩ := hclients fd c' hc'
    obtain ⟨sock, hsock, -, hpending⟩ := hsockets fd sock' hsock'
    rw [hnumber]
    exact (hpending c hc b hb).elim (h.pending fd c sock hc hsock b) id
  chunks read hread := h.chunks read (hreads ▸ hread)
  written fd c' sock' hc' hsock' := by
    obtain ⟨c, hc, hnumber, hsince⟩ := hclients fd c' hc'
    obtain ⟨sock, hsock, hwritten, -⟩ := hsockets fd sock' hsock'
    rw [hwritten, h.written fd c sock hc hsock, heard_congr hreads hnumber hsince]

/-- A step of the server in which nothing is written to a socket and nothing is put into one. -/
theorem Relays.of_update {r : ChatRoom} (h : Relays r) {s' : TcpServer TaggedByte}
    {label : TcpServer.Label TaggedByte} (he : Effect r.server label s') (hrun : s'.exited = false)
    (hsame : SameSockets r.server.sockets s'.sockets)
    (hsockets : ∀ fd sock', s'.sockets fd = some sock' →
      ∃ sock, r.server.sockets fd = some sock ∧ sock'.written = sock.written ∧
        ∀ b ∈ sock'.recvQueue ++ sock'.inFlight, b ∈ sock.recvQueue ++ sock.inFlight) :
    Relays { r with server := s' } :=
  h.of_same rfl rfl hrun (h.consistent.effect he) (fun fd => (h.clients fd).trans (hsame.isSome fd).symm)
    (fun fd c' hc' => ⟨c', hc', rfl, rfl⟩) fun fd sock' hsock' => by
      obtain ⟨sock, hsock, hwritten, hpending⟩ := hsockets fd sock' hsock'
      exact ⟨sock, hsock, hwritten, fun c _ b hb => Or.inl (hpending b hb)⟩

/-- Such a step that changes one socket only. -/
theorem Relays.of_socket {r : ChatRoom} (h : Relays r) {fd : Fd} {sock sock' : Socket TaggedByte}
    {label : TcpServer.Label TaggedByte} (he : Effect r.server label (r.server.setSocket fd sock'))
    (hrun : r.server.exited = false) (hsock : r.server.sockets fd = some sock)
    (hreg : sock'.registered = sock.registered) (hwritten : sock'.written = sock.written)
    (hpending : ∀ b ∈ sock'.recvQueue ++ sock'.inFlight, b ∈ sock.recvQueue ++ sock.inFlight) :
    Relays { r with server := r.server.setSocket fd sock' } := by
  refine h.of_update he hrun (sameSockets_update hsock hreg) ?_
  intro fd' sock₁ hsock₁
  rcases update_eq_some hsock₁ with ⟨rfl, rfl⟩ | ⟨-, hsock₁⟩
  · exact ⟨sock, hsock, hwritten, hpending⟩
  · exact ⟨sock₁, hsock₁, rfl, fun b hb => hb⟩

theorem tag_client {client msg : Nat} {bytes : Bytes} {b : TaggedByte} (hb : b ∈ tag client msg bytes) :
    b.client = client := by
  obtain ⟨val, -, rfl⟩ := List.mem_map.mp hb
  rfl

theorem tagAll_client {client msg : Nat} {messages : List Bytes} {b : TaggedByte}
    (hb : b ∈ tagAll client msg messages) : b.client = client := by
  induction messages generalizing msg with
  | nil => exact absurd hb List.not_mem_nil
  | cons bytes messages ih =>
      rcases List.mem_append.mp hb with hb | hb
      · exact tag_client hb
      · exact ih hb

theorem Relays.send {r r' : ChatRoom} (h : Relays r) {fd : Fd} {name message : Bytes}
    (hstep : r.step (.send fd name message) = some r') : Relays r' := by
  obtain ⟨c, hc, hstep⟩ := Option.bind_eq_some_iff.mp hstep
  obtain ⟨s', hserver, hstep⟩ := Option.bind_eq_some_iff.mp hstep
  cases hstep
  obtain ⟨he, hrun⟩ := effect_of_serverStep hserver
  have hconsistent := h.consistent.effect he
  cases he with
  | @send _ sock _ hsock heof =>
      refine h.of_same rfl rfl hrun hconsistent (fun fd' => ?_) (fun fd' c' hc' => ?_)
        fun fd' sock' hsock' => ?_
      · by_cases hfd : fd' = fd
        · simp [hfd]
        · simpa [hfd] using h.clients fd'
      · rcases update_eq_some hc' with ⟨rfl, rfl⟩ | ⟨-, hc'⟩
        · exact ⟨c, hc, rfl, rfl⟩
        · exact ⟨c', hc', rfl, rfl⟩
      · rcases update_eq_some hsock' with ⟨rfl, rfl⟩ | ⟨-, hsock'⟩
        · refine ⟨sock, hsock, rfl, fun c' hc' b hb => ?_⟩
          obtain rfl := Option.some.inj (hc.symm.trans hc')
          simp only [← List.append_assoc] at hb
          exact (List.mem_append.mp hb).imp id tag_client
        · exact ⟨sock', hsock', rfl, fun _ _ b hb => Or.inl hb⟩

theorem Relays.arrive {r r' : ChatRoom} (h : Relays r) {fd : Fd} {n : Nat}
    (hstep : r.step (.arrive fd n) = some r') : Relays r' := by
  obtain ⟨s', hserver, hstep⟩ := Option.bind_eq_some_iff.mp hstep
  cases hstep
  obtain ⟨he, hrun⟩ := effect_of_serverStep hserver
  cases id he with
  | @arrive _ sock _ hsock hn hle =>
      apply h.of_socket he hrun hsock rfl rfl
      intro b hb
      simpa only [List.append_assoc, List.take_append_drop] using hb

theorem Relays.fin {r r' : ChatRoom} (h : Relays r) {fd : Fd}
    (hstep : r.step (.fin fd) = some r') : Relays r' := by
  obtain ⟨s', hserver, hstep⟩ := Option.bind_eq_some_iff.mp hstep
  cases hstep
  obtain ⟨he, hrun⟩ := effect_of_serverStep hserver
  cases id he with
  | @fin _ sock hsock heof hflight =>
      exact h.of_socket he hrun hsock rfl rfl fun b hb => hb

theorem Relays.epollWait {r r' : ChatRoom} (h : Relays r) {fds : List Fd}
    (hstep : r.step (.epollWait fds) = some r') : Relays r' := by
  obtain ⟨s', hserver, hstep⟩ := Option.bind_eq_some_iff.mp hstep
  cases hstep
  obtain ⟨he, hrun⟩ := effect_of_serverStep hserver
  cases id he with
  | epollWait hbatch hnodup hready =>
      refine h.of_update he hrun (sameSockets_map fun fd sock => by split <;> rfl) fun fd sock' hsock' => ?_
      obtain ⟨sock, hsock, hclear⟩ := Option.map_eq_some_iff.mp hsock'
      refine ⟨sock, hsock, ?_, fun b hb => ?_⟩
      · rw [← hclear]
        split <;> rfl
      · rw [← hclear] at hb
        split at hb <;> exact hb

theorem Relays.again {r r' : ChatRoom} (h : Relays r) (hstep : r.step .again = some r') : Relays r' := by
  obtain ⟨s', hserver, hstep⟩ := Option.bind_eq_some_iff.mp hstep
  cases hstep
  obtain ⟨he, hrun⟩ := effect_of_serverStep hserver
  cases id he with
  | again _ hbatch hlisten hsock hread =>
      exact h.of_update he hrun (.refl _) fun fd sock' hsock' => ⟨sock', hsock', rfl, fun b hb => hb⟩

theorem Relays.accept {r r' : ChatRoom} (h : Relays r) {connFd : Fd} {cliAddress name : Bytes}
    {early : List Bytes} {arrived : Nat} {eof : Bool}
    (hstep : r.step (.accept connFd cliAddress name early arrived eof) = some r') : Relays r' := by
  obtain ⟨s', hserver, hstep⟩ := Option.bind_eq_some_iff.mp hstep
  cases hstep
  obtain ⟨he, hrun⟩ := effect_of_serverStep hserver
  have hconsistent := h.consistent.effect he
  cases he with
  | @accept fds conn hbatch hlisten hfresh heof =>
      refine ⟨hrun, hconsistent, fun fd => ?_, fun fd c hc => ?_, fun fd fd' c c' hc hc' heq => ?_,
        fun fd c hc => ?_, fun fd c sock hc hsock b hb => ?_, h.chunks, fun fd c sock hc hsock => ?_⟩
      · by_cases hfd : fd = connFd
        · simp [hfd]
        · simpa [hfd] using h.clients fd
      · rcases update_eq_some hc with ⟨-, rfl⟩ | ⟨-, hc⟩
        · exact Nat.lt_succ_self r.acceptCnt
        · exact (h.number_lt fd c hc).trans (Nat.lt_succ_self _)
      · rcases update_eq_some hc with ⟨rfl, rfl⟩ | ⟨-, hold⟩
        · rcases update_eq_some hc' with ⟨rfl, -⟩ | ⟨-, hold'⟩
          · rfl
          · have hlt := h.number_lt fd' c' hold'
            simp only at heq
            omega
        · rcases update_eq_some hc' with ⟨rfl, rfl⟩ | ⟨-, hold'⟩
          · have hlt := h.number_lt fd c hold
            simp only at heq
            omega
          · exact h.number_inj fd fd' c c' hold hold' heq
      · rcases update_eq_some hc with ⟨-, rfl⟩ | ⟨-, hc⟩
        · exact le_refl _
        · exact h.since_le fd c hc
      · rcases update_eq_some hc with ⟨rfl, rfl⟩ | ⟨hne, hold⟩
        · rcases update_eq_some hsock with ⟨-, rfl⟩ | ⟨hne, -⟩
          · rw [List.take_append_drop] at hb
            exact tagAll_client hb
          · exact absurd rfl hne
        · rcases update_eq_some hsock with ⟨rfl, -⟩ | ⟨-, hopen⟩
          · exact absurd rfl hne
          · exact h.pending fd c sock hold hopen b hb
      · rcases update_eq_some hc with ⟨rfl, rfl⟩ | ⟨hne, hold⟩
        · rcases update_eq_some hsock with ⟨-, rfl⟩ | ⟨hne, -⟩
          · simp [heard]
          · exact absurd rfl hne
        · rcases update_eq_some hsock with ⟨rfl, -⟩ | ⟨-, hopen⟩
          · exact absurd rfl hne
          · exact h.written fd c sock hold hopen

/-- A client that disconnects leaves the others as they are. -/
theorem Relays.disconnect {r : ChatRoom} (h : Relays r) {s' : TcpServer TaggedByte} {fd : Fd}
    {fds : List Fd} {nbytes : Nat} (hzero : nbytes = 0) (hbatch : r.server.epollEvents = fd :: fds)
    (he : Effect r.server (.message (.ok nbytes) fun _ => .ok nbytes) s') (hrun : s'.exited = false) :
    Relays { r with server := s', clients := Function.update r.clients fd none } := by
  have hconsistent := h.consistent.effect he
  cases he with
  | @disconnect fd' fds' sock _ hbatch' hlisten hsock hqueue heof =>
      obtain ⟨rfl, rfl⟩ := List.cons.inj (hbatch.symm.trans hbatch')
      refine h.of_same rfl rfl hrun hconsistent (fun fd' => ?_) (fun fd' c' hc' => ?_)
        fun fd' sock' hsock' => ?_
      · by_cases hfd : fd' = fd
        · simp [hfd]
        · simpa [hfd] using h.clients fd'
      · by_cases hfd : fd' = fd
        · simp [hfd] at hc'
        · exact ⟨c', by simpa [hfd] using hc', rfl, rfl⟩
      · by_cases hfd : fd' = fd
        · simp [hfd] at hsock'
        · exact ⟨sock', by simpa [hfd] using hsock', rfl, fun c _ b hb => Or.inl hb⟩
  | message _ _ _ hpos => omega

/-- A read that returns bytes is heard by every client but its own. -/
theorem Relays.relay {r : ChatRoom} (h : Relays r) {s' : TcpServer TaggedByte} {fd : Fd} {fds : List Fd}
    {c : ChatClient} {sock : Socket TaggedByte} {nbytes : Nat} (hpos : nbytes ≠ 0)
    (hbatch : r.server.epollEvents = fd :: fds) (hc : r.clients fd = some c)
    (hsock : r.server.sockets fd = some sock)
    (he : Effect r.server (.message (.ok nbytes) fun _ => .ok nbytes) s') (hrun : s'.exited = false) :
    Relays { r with
      server := s'
      reads := r.reads ++ [{ client := c.number, chunk := sock.recvQueue.take nbytes }] } := by
  have hconsistent := h.consistent.effect he
  cases he with
  | disconnect => exact absurd rfl hpos
  | @message fd' fds' sock' _ _ hbatch' hlisten hsock' _ hbuffer hle hwrite =>
      obtain ⟨rfl, rfl⟩ := List.cons.inj (hbatch.symm.trans hbatch')
      obtain rfl := Option.some.inj (hsock.symm.trans hsock')
      have hlen : (sock.recvQueue.take nbytes).length = nbytes := List.length_take_of_le hle
      -- where a socket of the new state comes from
      have hsockets : ∀ fd' sock', forwarded (Function.update r.server.sockets fd
          (some { sock with recvQueue := sock.recvQueue.drop nbytes })) fd
          (sock.recvQueue.take nbytes) (fun _ => .ok nbytes) r.server.sockFdToClientAddr.keys fd' =
            some sock' →
          (fd' = fd ∧ sock' = { sock with recvQueue := sock.recvQueue.drop nbytes }) ∨
          (fd' ≠ fd ∧ ∃ sock₁, r.server.sockets fd' = some sock₁ ∧
            sock' = sock₁.write (sock.recvQueue.take nbytes)) := by
        intro fd' sock' hsock'
        rw [forwarded] at hsock'
        by_cases hfd : fd' = fd
        · subst hfd
          rw [if_neg (fun hne => hne.2 rfl), Function.update_self] at hsock'
          exact Or.inl ⟨rfl, (Option.some.inj hsock').symm⟩
        · rw [Function.update_of_ne hfd] at hsock'
          have hopen : ∃ sock₁, r.server.sockets fd' = some sock₁ := by
            by_cases hmem : fd' ∈ r.server.sockFdToClientAddr.keys ∧ fd' ≠ fd
            · rw [if_pos hmem] at hsock'
              obtain ⟨sock₁, hsock₁, -⟩ := Option.map_eq_some_iff.mp hsock'
              exact ⟨sock₁, hsock₁⟩
            · rw [if_neg hmem] at hsock'
              exact ⟨sock', hsock'⟩
          have hmem : fd' ∈ r.server.sockFdToClientAddr.keys :=
            AList.mem_keys.mp ((h.consistent.mem_table fd').mpr hopen)
          obtain ⟨sock₁, hsock₁⟩ := hopen
          rw [if_pos ⟨hmem, hfd⟩, hsock₁, Option.map_some, taken,
            List.take_of_length_le (Nat.le_of_eq hlen)] at hsock'
          exact Or.inr ⟨hfd, sock₁, hsock₁, (Option.some.inj hsock').symm⟩
      have hread : SameSockets r.server.sockets (Function.update r.server.sockets fd
          (some { sock with recvQueue := sock.recvQueue.drop nbytes })) :=
        sameSockets_update hsock rfl
      have hsame := hread.trans (sameSockets_forwarded _ fd (sock.recvQueue.take nbytes)
        (fun _ => .ok nbytes) r.server.sockFdToClientAddr.keys)
      refine ⟨hrun, hconsistent, fun fd' => (h.clients fd').trans (hsame.isSome fd').symm, h.number_lt,
        h.number_inj, fun fd' c' hc' => ?_, fun fd' c' sock' hc' hsock' b hb => ?_, fun read hread => ?_,
        fun fd' c' sock' hc' hsock' => ?_⟩
      · rw [List.length_append]
        exact (h.since_le fd' c' hc').trans (Nat.le_add_right _ _)
      · rcases hsockets fd' sock' hsock' with ⟨rfl, rfl⟩ | ⟨-, sock₁, hsock₁, rfl⟩
        · apply h.pending fd' c' sock hc' hsock b
          exact List.mem_append.mpr ((List.mem_append.mp hb).imp List.mem_of_mem_drop id)
        · exact h.pending fd' c' sock₁ hc' hsock₁ b hb
      · rcases List.mem_append.mp hread with hread | hread
        · exact h.chunks read hread
        · obtain rfl := List.mem_singleton.mp hread
          refine ⟨List.ne_nil_of_length_pos (by rw [hlen]; omega), fun b hb => ?_⟩
          exact h.pending fd c sock hc hsock b (List.mem_append_left _ (List.mem_of_mem_take hb))
      · rw [heard, List.drop_append_of_le_length (h.since_le fd' c' hc'), List.filter_append]
        rcases hsockets fd' sock' hsock' with ⟨rfl, rfl⟩ | ⟨hne, sock₁, hsock₁, rfl⟩
        · obtain rfl := Option.some.inj (hc.symm.trans hc')
          rw [List.filter_cons_of_neg (by simp), List.filter_nil, List.append_nil]
          exact h.written fd' c sock hc hsock
        · have hnumber : c.number ≠ c'.number := fun heq => hne (h.number_inj fd' fd c' c hc' hc heq.symm)
          rw [List.filter_cons_of_pos (by simpa using hnumber), List.filter_nil, List.flatMap_append]
          have hwritten := h.written fd' c' sock₁ hc' hsock₁
          simp only [Socket.write, hwritten, heard, List.flatMap_cons, List.flatMap_nil, List.append_nil]

theorem Relays.message {r r' : ChatRoom} (h : Relays r) {nbytes : Nat}
    (hstep : r.step (.message nbytes) = some r') : Relays r' := by
  obtain ⟨fd, hfd, hstep⟩ := Option.bind_eq_some_iff.mp hstep
  obtain ⟨c, hc, hstep⟩ := Option.bind_eq_some_iff.mp hstep
  obtain ⟨sock, hsock, hstep⟩ := Option.bind_eq_some_iff.mp hstep
  obtain ⟨s', hserver, hstep⟩ := Option.bind_eq_some_iff.mp hstep
  obtain ⟨fds, hbatch⟩ := List.head?_eq_some_iff.mp hfd
  obtain ⟨he, hrun⟩ := effect_of_serverStep hserver
  split at hstep
  · rename_i hzero
    cases hstep
    exact h.disconnect hzero hbatch he hrun
  · rename_i hpos
    cases hstep
    exact h.relay hpos hbatch hc hsock he hrun

/-- In every run of the room a client has been written what it could hear. -/
theorem relays_of_reachable {listenSockfd : Fd} {r : ChatRoom} (hr : (system listenSockfd).Reachable r) :
    Relays r := by
  refine hr.invariant ?_ ?_
  · have hnone : ∀ fd c, (system listenSockfd).start.clients fd ≠ some c := fun fd c h => nomatch h
    exact
      { running := rfl
        consistent := consistent_start
        clients := fun fd => by simp [system]
        number_lt := fun fd c h => absurd h (hnone fd c)
        number_inj := fun fd _ c _ h => absurd h (hnone fd c)
        since_le := fun fd c h => absurd h (hnone fd c)
        pending := fun fd c _ h => absurd h (hnone fd c)
        chunks := fun _ h => absurd h List.not_mem_nil
        written := fun fd c _ h => absurd h (hnone fd c) }
  · intro r label r' _ h _ hstep
    cases label with
    | send fd name message => exact h.send hstep
    | arrive fd n => exact h.arrive hstep
    | fin fd => exact h.fin hstep
    | epollWait fds => exact h.epollWait hstep
    | accept connFd cliAddress name early arrived eof => exact h.accept hstep
    | message nbytes => exact h.message hstep
    | again => exact h.again hstep

end ToyBox.ChatRoom
