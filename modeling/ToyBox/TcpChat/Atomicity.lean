import Mathlib.Data.List.Flatten
import ToyBox.TcpChat.Relay

/-! Message atomicity. A message that a read cuts in two stays whole for a client if nothing else is read
before its rest, and is mixed with any other message that is. -/

namespace ToyBox.ChatRoom

open Cxx

/-- No byte of another sender lies between two bytes of one message. -/
def Unmixed (stream : List TaggedByte) : Prop :=
  ∀ a b c, [a, b, c].Sublist stream → a.client = c.client → a.msg = c.msg → b.client = a.client

/-- Two reads that return bytes of one message. -/
def SharesMessage (r r' : ReadChunk) : Prop :=
  ∃ a ∈ r.chunk, ∃ c ∈ r'.chunk, a.client = c.client ∧ a.msg = c.msg

/-- No read of another client lies between two reads that share a message. -/
def Uninterrupted (reads : List ReadChunk) : Prop :=
  ∀ r₁ r₂ r₃, [r₁, r₂, r₃].Sublist reads → SharesMessage r₁ r₃ → r₂.client = r₁.client

/-- Every read returns bytes, all of its client. -/
def SingleSender (reads : List ReadChunk) : Prop :=
  ∀ r ∈ reads, r.chunk ≠ [] ∧ ∀ b ∈ r.chunk, b.client = r.client

theorem SingleSender.tail {r : ReadChunk} {reads : List ReadChunk} (h : SingleSender (r :: reads)) :
    SingleSender reads :=
  fun r' hr' => h r' (List.mem_cons_of_mem _ hr')

/-- Two bytes of the relayed stream come from one read or from two in this order. -/
theorem sublist_two {reads : List ReadChunk} {b c : TaggedByte}
    (h : [b, c].Sublist (reads.flatMap ReadChunk.chunk)) :
    (∃ r ∈ reads, b ∈ r.chunk ∧ c ∈ r.chunk) ∨
      ∃ r₂ r₃, [r₂, r₃].Sublist reads ∧ b ∈ r₂.chunk ∧ c ∈ r₃.chunk := by
  induction reads with
  | nil => exact absurd (List.sublist_nil.mp h) (List.cons_ne_nil _ _)
  | cons r reads ih =>
      rw [List.flatMap_cons, List.sublist_append_iff] at h
      obtain ⟨l₁, l₂, hl, h₁, h₂⟩ := h
      match l₁, hl with
      | [], hl =>
          obtain rfl := hl
          rcases ih h₂ with ⟨r', hr', hb, hc⟩ | ⟨r₂, r₃, hsub, hb, hc⟩
          · exact Or.inl ⟨r', List.mem_cons_of_mem _ hr', hb, hc⟩
          · exact Or.inr ⟨r₂, r₃, hsub.cons _, hb, hc⟩
      | [x], hl =>
          obtain ⟨rfl, rfl⟩ := List.cons.inj hl
          obtain ⟨r₃, hr₃, hc⟩ := List.mem_flatMap.mp (List.singleton_sublist.mp h₂)
          exact Or.inr ⟨r, r₃, (List.singleton_sublist.mpr hr₃).cons_cons r,
            List.singleton_sublist.mp h₁, hc⟩
      | x :: y :: rest, hl =>
          obtain ⟨rfl, hrest⟩ := List.cons.inj hl
          obtain ⟨rfl, -⟩ := List.cons.inj hrest
          exact Or.inl ⟨r, List.mem_cons_self, h₁.subset List.mem_cons_self,
            h₁.subset (List.mem_cons_of_mem _ List.mem_cons_self)⟩

theorem Uninterrupted.unmixed {reads : List ReadChunk} (hsingle : SingleSender reads)
    (h : Uninterrupted reads) : Unmixed (reads.flatMap ReadChunk.chunk) := by
  induction reads with
  | nil => exact fun a b c hsub => absurd (List.sublist_nil.mp hsub) (List.cons_ne_nil _ _)
  | cons r reads ih =>
      intro a b c hsub hclient hmsg
      rw [List.flatMap_cons, List.sublist_append_iff] at hsub
      obtain ⟨l₁, l₂, hl, h₁, h₂⟩ := hsub
      have hhead := (hsingle r List.mem_cons_self).2
      match l₁, hl with
      | [], hl =>
          obtain rfl := hl
          have htail : Uninterrupted reads := fun r₁ r₂ r₃ hsub => h r₁ r₂ r₃ (hsub.cons r)
          exact ih hsingle.tail htail a b c h₂ hclient hmsg
      | [x], hl =>
          obtain ⟨rfl, rfl⟩ := List.cons.inj hl
          have ha : a ∈ r.chunk := List.singleton_sublist.mp h₁
          rcases sublist_two h₂ with ⟨r', hr', hb, hc⟩ | ⟨r₂, r₃, hsub, hb, hc⟩
          · have hsender := (hsingle r' (List.mem_cons_of_mem _ hr')).2
            rw [hsender b hb, ← hsender c hc, hclient]
          · have hr₂ := hsub.subset (List.mem_cons_self (a := r₂))
            rw [(hsingle r₂ (List.mem_cons_of_mem _ hr₂)).2 b hb, hhead a ha]
            exact h r r₂ r₃ (hsub.cons_cons r) ⟨a, ha, c, hc, hclient, hmsg⟩
      | x :: y :: rest, hl =>
          obtain ⟨rfl, hrest⟩ := List.cons.inj hl
          obtain ⟨rfl, -⟩ := List.cons.inj hrest
          rw [hhead a (h₁.subset List.mem_cons_self),
            hhead b (h₁.subset (List.mem_cons_of_mem _ List.mem_cons_self))]

theorem Unmixed.uninterrupted {reads : List ReadChunk} (hsingle : SingleSender reads)
    (h : Unmixed (reads.flatMap ReadChunk.chunk)) : Uninterrupted reads := by
  rintro r₁ r₂ r₃ hsub ⟨a, ha, c, hc, hclient, hmsg⟩
  have hmem : ∀ r ∈ [r₁, r₂, r₃], r ∈ reads := fun r hr => hsub.subset hr
  have h₁ := hsingle r₁ (hmem r₁ (by simp))
  have h₂ := hsingle r₂ (hmem r₂ (by simp))
  obtain ⟨b, hb⟩ := List.exists_mem_of_ne_nil _ h₂.1
  have hbytes : [a, b, c].Sublist (reads.flatMap ReadChunk.chunk) := by
    have hthree : ([a] ++ ([b] ++ ([c] ++ []))).Sublist ([r₁, r₂, r₃].flatMap ReadChunk.chunk) :=
      (List.singleton_sublist.mpr ha).append ((List.singleton_sublist.mpr hb).append
        ((List.singleton_sublist.mpr hc).append (List.Sublist.refl _)))
    exact hthree.trans (hsub.flatMap _)
  have := h a b c hbytes hclient hmsg
  rwa [h₂.2 b hb, h₁.2 a ha] at this

theorem unmixed_flatMap_iff {reads : List ReadChunk} (hsingle : SingleSender reads) :
    Unmixed (reads.flatMap ReadChunk.chunk) ↔ Uninterrupted reads :=
  ⟨fun h => h.uninterrupted hsingle, fun h => h.unmixed hsingle⟩

/-- In every run, the bytes written to a connected client are the chunks read from the other clients since
it was accepted, in the order of the reads. They mix no messages exactly when no message is cut with a
read of a third client between its parts. -/
theorem written_unmixed_iff {listenSockfd : Fd} {r : ChatRoom}
    (hr : (system listenSockfd).Reachable r) {fd : Fd} {c : ChatClient} {sock : Socket TaggedByte}
    (hc : r.clients fd = some c) (hsock : r.server.sockets fd = some sock) :
    sock.written = (r.heard c).flatMap ReadChunk.chunk ∧
      (Unmixed sock.written ↔ Uninterrupted (r.heard c)) := by
  have h := relays_of_reachable hr
  have hwritten := h.written fd c sock hc hsock
  have hsingle : SingleSender (r.heard c) := fun read hread =>
    h.chunks read (List.mem_of_mem_drop (List.mem_of_mem_filter hread))
  exact ⟨hwritten, by rw [hwritten, unmixed_flatMap_iff hsingle]⟩

/-! ### A message cut in two -/

/-- Cat, dog and mouse are accepted. -/
def threeClients : List Label :=
  [.epollWait [3], .accept 5 (ascii "127.0.0.1:4001") (ascii "cat") [] 0 false,
    .epollWait [3], .accept 6 (ascii "127.0.0.1:4002") (ascii "dog") [] 0 false,
    .epollWait [3], .accept 7 (ascii "127.0.0.1:4003") (ascii "mouse") [] 0 false]

/-- Cat's message arrives in two parts, which are read one after the other. -/
def twoParts : List Label := threeClients ++
  [.send 5 (ascii "cat") (ascii "hi"), .arrive 5 4, .epollWait [5], .message 4,
    .arrive 5 6, .epollWait [5], .message 6]

/-- The same with a message of dog between the parts. -/
def interleaved : List Label := threeClients ++
  [.send 5 (ascii "cat") (ascii "hi"), .arrive 5 4, .epollWait [5], .message 4,
    .send 6 (ascii "dog") (ascii "x"), .arrive 6 9, .epollWait [6], .message 9,
    .arrive 5 6, .epollWait [5], .message 6]

theorem written_unmixed_iff_twoParts :
    ∃ r c sock, (system 3).Reachable r ∧ r.clients 7 = some c ∧ r.server.sockets 7 = some sock ∧
      Unmixed sock.written := by
  obtain ⟨r, c, sock, hrun, hc, hsock, hlen⟩ : ∃ r c sock,
      (system 3).run (system 3).start twoParts = some r ∧ r.clients 7 = some c ∧
      r.server.sockets 7 = some sock ∧ (r.heard c).length = 2 :=
    ⟨_, _, _, rfl, rfl, rfl, rfl⟩
  have hr := TransitionSystem.reachable_of_run hrun
  refine ⟨r, c, sock, hr, hc, hsock, (written_unmixed_iff hr hc hsock).2.mpr ?_⟩
  intro r₁ r₂ r₃ hsub
  have := hsub.length_le
  rw [hlen] at this
  exact absurd this (by simp)

/-- Mouse is written the first part of cat's message, dog's message, and the rest of cat's. -/
theorem not_unmixed_interleaved :
    ¬∀ r, (system 3).Reachable r → ∀ fd sock, r.server.sockets fd = some sock →
      Unmixed sock.written := by
  intro hunmixed
  obtain ⟨r, sock, hrun, hsock, hwritten⟩ : ∃ r sock,
      (system 3).run (system 3).start interleaved = some r ∧ r.server.sockets 7 = some sock ∧
      sock.written = tag 0 0 (ascii "[cat") ++ tag 1 0 (ascii "[dog]: x\n") ++ tag 0 0 (ascii "]: hi\n") :=
    ⟨_, _, rfl, rfl, rfl⟩
  have := hunmixed r (TransitionSystem.reachable_of_run hrun) 7 sock hsock
    ⟨0, 0, 91⟩ ⟨1, 0, 91⟩ ⟨0, 0, 93⟩ (by rw [hwritten]; decide) rfl rfl
  exact absurd this (by decide)

end ToyBox.ChatRoom
