import Mathlib.Data.List.TakeDrop
import Mathlib.Data.List.TakeWhile
import ToyBox.TcpChat.TcpClient

/-! Sending and splitting. `Send` ends a message with a newline and `Split` relies on it; the buffer of `Send`
keeps the newline only of a message that is short enough, so that a longer one runs into the next. -/

namespace ToyBox

/-- A chain of a relation that looks at its left side only. -/
theorem isChain_left_iff {α : Type*} {p : α → Prop} {l : List α} :
    l.IsChain (fun a _ => p a) ↔ ∀ a ∈ l.dropLast, p a := by
  induction l with
  | nil => simp
  | cons a l ih =>
      cases l with
      | nil => simp
      | cons b l => rw [List.isChain_cons_cons, ih, List.dropLast_cons_cons, List.forall_mem_cons]

variable {α : Type*} [DecidableEq α] {d : α}

theorem pieces_of_not_mem {l : List α} (hne : l ≠ []) (h : d ∉ l) : pieces d l = [l] := by
  have hsplit : l.splitOn d = [l] := by
    have hone : ∀ piece ∈ [l], d ∉ piece := by simpa using h
    have hjoin := List.splitOn_intercalate d hone (List.cons_ne_nil l [])
    rwa [List.intercalate_singleton] at hjoin
  simp [pieces, hsplit, hne]

theorem pieces_concat_separator {l : List α} (hne : l ≠ []) (h : d ∉ l) : pieces d (l ++ [d]) = [l] := by
  rw [pieces_append (.inr rfl), pieces_of_not_mem hne h, pieces_cons_separator, pieces_nil, List.append_nil]

namespace TcpClient

open Cxx

/-- The text of a message. -/
def messageLine (name message : Bytes) : Bytes := ascii "[" ++ name ++ ascii "]: " ++ message

/-- What the names and messages are taken to be free of. -/
def Plain (bytes : Bytes) : Prop := newline ∉ bytes ∧ 0 ∉ bytes

instance : DecidablePred Plain := fun _ => inferInstanceAs (Decidable (_ ∧ _))

theorem length_messageLine (name message : Bytes) :
    (messageLine name message).length = name.length + message.length + 4 := by
  have hopen : (ascii "[").length = 1 := rfl
  have hclose : (ascii "]: ").length = 3 := rfl
  rw [messageLine, List.length_append, List.length_append, List.length_append, hopen, hclose]
  omega

theorem plain_messageLine {name message : Bytes} (hname : Plain name) (hmessage : Plain message) :
    Plain (messageLine name message) := by
  have hopen : Plain (ascii "[") := by decide
  have hclose : Plain (ascii "]: ") := by decide
  simp only [Plain, messageLine, List.mem_append, not_or]
  exact ⟨⟨⟨⟨hopen.1, hname.1⟩, hclose.1⟩, hmessage.1⟩, ⟨⟨hopen.2, hname.2⟩, hclose.2⟩, hmessage.2⟩

section Send

variable {name message : Bytes} (hname : Plain name) (hmessage : Plain message)
include hname hmessage

theorem sendBuffer_eq_take :
    sendBuffer name message = (messageLine name message ++ [newline]).take (kBufferSize - 1) := by
  have hstring : cString (messageLine name message ++ [newline]) = messageLine name message ++ [newline] := by
    rw [cString, List.takeWhile_eq_self_iff]
    intro b hb
    rw [decide_eq_true_eq]
    rintro rfl
    rcases List.mem_append.mp hb with hb | hb
    · exact (plain_messageLine hname hmessage).2 hb
    · exact absurd hb (by decide)
  exact congrArg (List.take (kBufferSize - 1)) hstring

/-- A message that leaves room for the terminator is sent with its newline. -/
theorem sendBuffer_of_lt (h : name.length + message.length + 5 < kBufferSize) :
    sendBuffer name message = messageLine name message ++ [newline] := by
  rw [sendBuffer_eq_take hname hmessage, List.take_of_length_le]
  rw [List.length_append, length_messageLine, List.length_singleton]
  omega

/-- A longer one is sent without. -/
theorem sendBuffer_of_le (h : kBufferSize ≤ name.length + message.length + 5) :
    sendBuffer name message = (messageLine name message).take (kBufferSize - 1) := by
  rw [sendBuffer_eq_take hname hmessage, List.take_append_of_le_length]
  rw [length_messageLine]
  omega

theorem head?_sendBuffer : (sendBuffer name message).head? = some 91 := by
  rw [sendBuffer_eq_take hname hmessage]
  rfl

theorem sendBuffer_ne_nil : sendBuffer name message ≠ [] := by
  intro hnil
  have hhead := head?_sendBuffer hname hmessage
  rw [hnil] at hhead
  cases hhead

theorem pieces_sendBuffer :
    pieces newline (sendBuffer name message) = [(messageLine name message).take (kBufferSize - 1)] := by
  have hplain := plain_messageLine hname hmessage
  have hlength := length_messageLine name message
  by_cases h : name.length + message.length + 5 < kBufferSize
  · rw [sendBuffer_of_lt hname hmessage h, List.take_of_length_le (by omega)]
    exact pieces_concat_separator (List.ne_nil_of_length_pos (by omega)) hplain.1
  · rw [sendBuffer_of_le hname hmessage (by omega)]
    refine pieces_of_not_mem (List.ne_nil_of_length_pos ?_) fun hmem => hplain.1 (List.mem_of_mem_take hmem)
    rw [List.length_take, hlength, kBufferSize]
    omega

/-- The cut behind a message is next to a newline exactly when the newline of the message was sent. -/
theorem cutAt_sendBuffer {next : Bytes} (hnext : next.head? = some 91) :
    CutAt newline (sendBuffer name message) next ↔ name.length + message.length + 5 < kBufferSize := by
  have hhead : next.head? ≠ some newline := by
    rw [hnext]
    decide
  rw [CutAt, or_iff_left hhead]
  by_cases h : name.length + message.length + 5 < kBufferSize
  · rw [sendBuffer_of_lt hname hmessage h, List.getLast?_concat]
    exact iff_of_true rfl h
  · rw [sendBuffer_of_le hname hmessage (by omega)]
    refine iff_of_false (fun hlast => ?_) h
    exact (plain_messageLine hname hmessage).1 (List.mem_of_mem_take (List.mem_of_getLast? hlast))

/-- A message sent without its newline and the bytes behind it share a line. -/
theorem length_split_of_le (h : kBufferSize ≤ name.length + message.length + 5) {next : Bytes}
    (hnext : next.head? = some 91) :
    (split (sendBuffer name message ++ next) newline).length = (split next newline).length := by
  have hcut : ¬CutAt newline (sendBuffer name message) next := by
    rw [cutAt_sendBuffer hname hmessage hnext]
    omega
  have hjoin := length_pieces_append (sendBuffer_ne_nil hname hmessage) (by rintro rfl; cases hnext) hcut
  rw [pieces_sendBuffer hname hmessage, List.length_singleton] at hjoin
  rw [split_eq_pieces, split_eq_pieces]
  omega

end Send

/-- The bytes that whole writes of successive messages put on the stream, split at the newline, are the
texts of the messages exactly when every message but the last is sent with its newline, and the last one
up to its newline. -/
theorem split_sendBuffers_iff {pairs : List (Bytes × Bytes)}
    (hplain : ∀ pair ∈ pairs, Plain pair.1 ∧ Plain pair.2) :
    split (pairs.flatMap fun pair => sendBuffer pair.1 pair.2) newline =
        pairs.map (fun pair => messageLine pair.1 pair.2) ↔
      (∀ pair ∈ pairs.dropLast, pair.1.length + pair.2.length + 5 < kBufferSize) ∧
      ∀ pair ∈ pairs.getLast?, pair.1.length + pair.2.length + 5 ≤ kBufferSize := by
  have hne : ∀ chunk ∈ pairs.map (fun pair => sendBuffer pair.1 pair.2), chunk ≠ [] := by
    intro chunk hchunk
    obtain ⟨pair, hpair, rfl⟩ := List.mem_map.mp hchunk
    exact sendBuffer_ne_nil (hplain pair hpair).1 (hplain pair hpair).2
  -- the pieces of each buffer on its own
  have hpieces : (pairs.map fun pair => sendBuffer pair.1 pair.2).flatMap (pieces newline) =
      pairs.map fun pair => (messageLine pair.1 pair.2).take (kBufferSize - 1) := by
    rw [List.flatMap_map, List.map_eq_flatMap]
    refine List.flatMap_congr fun pair hpair => ?_
    exact pieces_sendBuffer (hplain pair hpair).1 (hplain pair hpair).2
  have hchain : (pairs.map fun pair => sendBuffer pair.1 pair.2).IsChain (CutAt newline) ↔
      ∀ pair ∈ pairs.dropLast, pair.1.length + pair.2.length + 5 < kBufferSize := by
    rw [List.isChain_map, ← isChain_left_iff]
    refine List.IsChain.iff_of_mem_imp fun a b ha hb => ?_
    exact cutAt_sendBuffer (hplain a ha).1 (hplain a ha).2
      (head?_sendBuffer (hplain b hb).1 (hplain b hb).2)
  -- no text is cut by the buffer
  have hwhole : (pairs.map fun pair => (messageLine pair.1 pair.2).take (kBufferSize - 1)) =
        pairs.map (fun pair => messageLine pair.1 pair.2) ↔
      ∀ pair ∈ pairs, pair.1.length + pair.2.length + 5 ≤ kBufferSize := by
    rw [List.map_inj_left]
    refine forall₂_congr fun pair _ => ?_
    rw [List.take_eq_self_iff, length_messageLine, kBufferSize]
    omega
  rw [split_eq_pieces, List.flatMap_def, ← hchain]
  constructor
  · intro h
    have hcuts := isChain_of_length_pieces hne (by rw [hpieces, h, List.length_map, List.length_map])
    rw [← flatMap_pieces_of_isChain hne hcuts, hpieces, hwhole] at h
    exact ⟨hcuts, fun pair hpair => h pair (List.mem_of_getLast? hpair)⟩
  · rintro ⟨hcuts, hlast⟩
    rw [← flatMap_pieces_of_isChain hne hcuts, hpieces, hwhole]
    intro pair hpair
    rcases List.eq_nil_or_concat' pairs with rfl | ⟨init, last, rfl⟩
    · exact absurd hpair List.not_mem_nil
    · rcases List.mem_append.mp hpair with hpair | hpair
      · have := hchain.mp hcuts pair (by simpa using hpair)
        omega
      · obtain rfl := List.mem_singleton.mp hpair
        exact hlast pair List.getLast?_concat

/-- Two short messages. -/
theorem split_sendBuffers_short :
    split ([(ascii "cat", ascii "hi"), (ascii "dog", [])].flatMap fun pair => sendBuffer pair.1 pair.2) newline =
      [ascii "[cat]: hi", ascii "[dog]: "] := by
  have hplain : ∀ pair ∈ [(ascii "cat", ascii "hi"), (ascii "dog", [])], Plain pair.1 ∧ Plain pair.2 := by decide
  exact (split_sendBuffers_iff hplain).mpr ⟨by decide, by decide⟩

/-- A message one byte too long for its newline, and one after it: they come back as one string. -/
theorem split_sendBuffers_long :
    ¬∀ pairs : List (Bytes × Bytes), (∀ pair ∈ pairs, Plain pair.1 ∧ Plain pair.2) →
      split (pairs.flatMap fun pair => sendBuffer pair.1 pair.2) newline =
        pairs.map fun pair => messageLine pair.1 pair.2 := by
  intro h
  have hplain : Plain (List.replicate 1018 97) :=
    ⟨fun hmem => absurd (List.eq_of_mem_replicate hmem) (by decide),
      fun hmem => absurd (List.eq_of_mem_replicate hmem) (by decide)⟩
  have hlength : (List.replicate 1018 (97 : UInt8)).length = 1018 := List.length_replicate
  generalize List.replicate 1018 (97 : UInt8) = message at hplain hlength
  have ha : Plain (ascii "a") := by decide
  have hb : Plain (ascii "b") := by decide
  have hhi : Plain (ascii "hi") := by decide
  have hlong := length_split_of_le ha hplain (by rw [hlength]; decide) (head?_sendBuffer hb hhi)
  have hpairs := h [(ascii "a", message), (ascii "b", ascii "hi")] (by
    rw [List.forall_mem_cons, List.forall_mem_singleton]
    exact ⟨⟨ha, hplain⟩, hb, hhi⟩)
  have hcount := congrArg List.length hpairs
  simp only [List.flatMap_cons, List.flatMap_nil, List.append_nil, List.map_cons, List.map_nil,
    List.length_cons, List.length_nil] at hcount
  rw [hlong, split_eq_pieces, pieces_sendBuffer hb hhi, List.length_singleton] at hcount
  omega

end TcpClient

end ToyBox
