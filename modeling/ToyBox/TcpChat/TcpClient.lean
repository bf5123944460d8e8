import ToyBox.Cxx.Stream
import ToyBox.Library.Pieces

/-! `TcpClient`: what `Send` writes, and what the receive loop prints for the results of its reads. Each
read is split on its own, so the printed lines are those of the stream only if no read ends inside a
line. -/

namespace ToyBox.TcpClient

open Cxx

def kBufferSize : Nat := 1024

/-- `Split`. -/
def split (msg : Bytes) (delim : UInt8) : List Bytes :=
  (getlinesToEof delim msg).filter fun temp => temp ≠ [newline] ∧ temp ≠ []

/-- What `Send` hands to `write`: the message as far as `snprintf` puts it into the buffer. -/
def sendBuffer (name message : Bytes) : Bytes :=
  (cString (ascii "[" ++ name ++ ascii "]: " ++ message ++ [newline])).take (kBufferSize - 1)

/-- `buffer[idx] = value`; the error is the index of a store past the end. -/
def store (buffer : Bytes) (idx : Nat) (value : UInt8) : Except Nat Bytes :=
  if idx < buffer.length then .ok (buffer.set idx value) else .error idx

/-- The lines printed for a `read` that puts some bytes into the zeroed buffer. -/
def receive (data : Bytes) : Except Nat (List Bytes) := do
  let buffer ← store (data ++ List.replicate (kBufferSize - data.length) 0) data.length 0
  .ok (split (cString buffer) newline)

/-- The lines printed over successive reads. -/
def receiveAll : List Bytes → Except Nat (List Bytes)
  | [] => .ok []
  | data :: reads => do
      let msgList ← receive data
      .ok (msgList ++ (← receiveAll reads))

/-- The comparison with `"\n"` never fails: no value contains the delimiter. -/
theorem split_eq_pieces (msg : Bytes) : split msg newline = pieces newline msg := by
  rw [split, pieces, ← getlinesToEof_eq_splitOn]
  apply List.filter_congr
  intro temp htemp
  have hne : temp ≠ [newline] := by
    rintro rfl
    exact not_mem_of_mem_getlinesToEof newline htemp List.mem_cons_self
  simp [hne]

/-- A read that leaves room for the terminator prints its nonempty lines. -/
theorem receive_of_lt {data : Bytes} (hnul : 0 ∉ data) (hlen : data.length < kBufferSize) :
    receive data = .ok (pieces newline data) := by
  obtain ⟨room, hroom⟩ : ∃ room, kBufferSize - data.length = room + 1 :=
    ⟨kBufferSize - data.length - 1, by omega⟩
  have hset : (data ++ 0 :: List.replicate room (0 : UInt8)).set data.length 0 =
      data ++ 0 :: List.replicate room 0 := by
    rw [List.set_append_right _ _ (le_refl _), Nat.sub_self, List.set_cons_zero]
  have hstring : cString (data ++ 0 :: List.replicate room 0) = data := by
    rw [cString, List.takeWhile_append_of_pos (fun b hb => by
      rw [decide_eq_true_eq]
      rintro rfl
      exact hnul hb), List.takeWhile_cons_of_neg (by simp), List.append_nil]
  rw [receive, hroom, List.replicate_succ, store, if_pos (by simp), hset]
  show Except.ok (split (cString _) newline) = _
  rw [hstring, split_eq_pieces]

/-- A read that fills the buffer stores its terminator past the end. -/
theorem receive_of_le {data : Bytes} (hlen : kBufferSize ≤ data.length) :
    receive data = .error data.length := by
  have hroom : kBufferSize - data.length = 0 := by omega
  rw [receive, hroom, List.replicate_zero, List.append_nil, store, if_neg (lt_irrefl _)]
  rfl

theorem receiveAll_of_lt {reads : List Bytes} (hnul : ∀ data ∈ reads, 0 ∉ data)
    (hlen : ∀ data ∈ reads, data.length < kBufferSize) :
    receiveAll reads = .ok (reads.flatMap (pieces newline)) := by
  induction reads with
  | nil => rfl
  | cons data reads ih =>
      rw [receiveAll, receive_of_lt (hnul data List.mem_cons_self) (hlen data List.mem_cons_self),
        ih (fun data hdata => hnul data (List.mem_cons_of_mem _ hdata))
          fun data hdata => hlen data (List.mem_cons_of_mem _ hdata), List.flatMap_cons]
      rfl

theorem lt_of_receiveAll_eq_ok {reads : List Bytes} {lines : List Bytes}
    (h : receiveAll reads = .ok lines) : ∀ data ∈ reads, data.length < kBufferSize := by
  induction reads generalizing lines with
  | nil => exact fun data hdata => absurd hdata List.not_mem_nil
  | cons first reads ih =>
      have hfirst : first.length < kBufferSize := by
        by_contra hle
        rw [receiveAll, receive_of_le (by omega)] at h
        cases h
      intro data hdata
      rcases List.mem_cons.mp hdata with rfl | hdata
      · exact hfirst
      · rw [receiveAll] at h
        cases hrest : receiveAll reads with
        | error e =>
            rw [hrest] at h
            cases hmsgs : receive first with
            | error e => rw [hmsgs] at h; cases h
            | ok msgs => rw [hmsgs] at h; cases h
        | ok rest => exact ih hrest data hdata

/-- The receive loop makes no store past the buffer and prints the nonempty lines of the whole stream
exactly when every read leaves room for the terminator and every cut between two reads is next to a
newline. -/
theorem receiveAll_eq_iff {reads : List Bytes} (hne : ∀ data ∈ reads, data ≠ [])
    (hnul : ∀ data ∈ reads, 0 ∉ data) :
    receiveAll reads = .ok (pieces newline reads.flatten) ↔
      (∀ data ∈ reads, data.length < kBufferSize) ∧ reads.IsChain (CutAt newline) := by
  rw [← flatMap_pieces_eq_iff hne]
  constructor
  · intro h
    have hlen := lt_of_receiveAll_eq_ok h
    rw [receiveAll_of_lt hnul hlen] at h
    exact ⟨hlen, Except.ok.inj h⟩
  · rintro ⟨hlen, hpieces⟩
    rw [receiveAll_of_lt hnul hlen, hpieces]

theorem receiveAll_eq_iff_whole :
    receiveAll [ascii "[cat]: hello\n[dog]: hi\n"] = .ok [ascii "[cat]: hello", ascii "[dog]: hi"] := by
  have hne : ∀ data ∈ [ascii "[cat]: hello\n[dog]: hi\n"], data ≠ [] := by decide
  have hnul : ∀ data ∈ [ascii "[cat]: hello\n[dog]: hi\n"], 0 ∉ data := by decide
  exact (receiveAll_eq_iff hne hnul).mpr ⟨by decide, List.isChain_singleton _⟩

/-- A line cut in two is printed as two lines, and a line that fills the buffer is terminated past its
end. -/
theorem receiveAll_ne_cut :
    receiveAll [ascii "[cat]: he", ascii "llo\n"] ≠ .ok (pieces newline (ascii "[cat]: hello\n")) ∧
    receiveAll [List.replicate 1023 97 ++ [newline]] = .error 1024 := by
  constructor
  · rw [receiveAll_of_lt (by decide) (by decide)]
    decide
  · have hlen : (List.replicate 1023 (97 : UInt8) ++ [newline]).length = kBufferSize := by
      rw [List.length_append, List.length_replicate, List.length_singleton, kBufferSize]
    generalize List.replicate 1023 (97 : UInt8) ++ [newline] = data at hlen
    rw [receiveAll, receive_of_le (Nat.le_of_eq hlen.symm), hlen]
    rfl

end ToyBox.TcpClient
