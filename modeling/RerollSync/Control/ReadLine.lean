import Mathlib.Data.List.TakeWhile
import Mathlib.Data.Nat.Notation
import Mathlib.Tactic.Common

/-!
# Reading a request

`_read_line` buffers what `recv` returns up to the first newline and refuses a buffer
that grows too long.  It measures whole chunks, so a line that is short enough may be
refused for what arrives behind it.
-/

namespace RerollSync.Control

/-- The newline. -/
def newline : UInt8 := 10

/-- The most that one `recv` returns. -/
def recvSize : ℕ := 4096

/-- What comes of the read: nothing, a line, or `ControlProtocolError`. -/
inductive LineRead
  | nothing
  | line (bytes : List UInt8)
  | tooLong
deriving DecidableEq

/-- The end of `_read_line`. -/
def finish (buf : List UInt8) : LineRead :=
  if buf = [] then .nothing else .line (buf.takeWhile (· ≠ newline))

/-- The loop of `_read_line`, over the chunks that `recv` returns before the end of the
stream. -/
def readInto (maxBytes : ℕ) (buf : List UInt8) : List (List UInt8) → LineRead
  | [] => finish buf
  | chunk :: chunks =>
      if newline ∈ buf then finish buf
      else if maxBytes < (buf ++ chunk).length then .tooLong
      else readInto maxBytes (buf ++ chunk) chunks

/-- `_read_line`. -/
def readLine (maxBytes : ℕ) (chunks : List (List UInt8)) : LineRead := readInto maxBytes [] chunks

/-- The chunks of a stream, each of one byte or more and of at most `size`. -/
structure Splits (size : ℕ) (stream : List UInt8) (chunks : List (List UInt8)) : Prop where
  flatten : chunks.flatten = stream
  bounds : ∀ chunk ∈ chunks, chunk ≠ [] ∧ chunk.length ≤ size

/-- The result depends on the bytes alone. -/
def ChunkFree (maxBytes : ℕ) (stream : List UInt8) : Prop :=
  ∀ chunks chunks', Splits recvSize stream chunks → Splits recvSize stream chunks' →
    readLine maxBytes chunks = readLine maxBytes chunks'

/-- The first line with its newline. -/
def lineLength (stream : List UInt8) : ℕ := (stream.takeWhile (· ≠ newline)).length + 1

/-- The line is short enough, the stream is not, and a chunk of at most `size` bytes can
reach from the line past the limit. -/
def Straddles (size maxBytes : ℕ) (stream : List UInt8) : Prop :=
  newline ∈ stream ∧ lineLength stream ≤ maxBytes ∧ maxBytes < stream.length ∧
    maxBytes + 1 < lineLength stream + size

instance (size maxBytes : ℕ) (stream : List UInt8) : Decidable (Straddles size maxBytes stream) :=
  inferInstanceAs (Decidable (_ ∧ _))

/-- What is read when only the line is measured, or the stream when it has no line. -/
def measured (maxBytes : ℕ) (stream : List UInt8) : LineRead :=
  if newline ∈ stream then
    if maxBytes < lineLength stream then .tooLong
    else .line (stream.takeWhile (· ≠ newline))
  else if maxBytes < stream.length then .tooLong
  else finish stream

/-! ## Lines -/

theorem takeWhile_append_of_mem {buf : List UInt8} (h : newline ∈ buf) (rest : List UInt8) :
    (buf ++ rest).takeWhile (· ≠ newline) = buf.takeWhile (· ≠ newline) := by
  induction buf with
  | nil => cases h
  | cons b buf ih =>
      by_cases hb : b = newline
      · simp [hb]
      · rcases List.mem_cons.mp h with heq | hmem
        · exact absurd heq.symm hb
        · simp only [List.cons_append, List.takeWhile_cons, ih hmem]

theorem lineLength_le_of_mem {buf : List UInt8} (h : newline ∈ buf) (rest : List UInt8) :
    lineLength (buf ++ rest) ≤ buf.length := by
  rw [lineLength, takeWhile_append_of_mem h]
  induction buf with
  | nil => cases h
  | cons b buf ih =>
      by_cases hb : b = newline
      · simp [hb]
      · rcases List.mem_cons.mp h with heq | hmem
        · exact absurd heq.symm hb
        · have := ih hmem
          rw [List.takeWhile_cons_of_pos (by simpa using hb), List.length_cons, List.length_cons]
          omega

theorem lt_lineLength_of_notMem {buf : List UInt8} (h : newline ∉ buf) (rest : List UInt8) :
    buf.length < lineLength (buf ++ rest) := by
  have hall : buf.takeWhile (· ≠ newline) = buf := by
    rw [List.takeWhile_eq_self_iff]
    intro b hb
    have hne : b ≠ newline := fun heq => h (heq ▸ hb)
    simpa using hne
  rw [lineLength, List.takeWhile_append, if_pos (by rw [hall]), List.length_append]
  omega

/-! ## Chunks -/

/-- A stream that no chunk can carry past the limit is read by its line. -/
theorem readInto_eq {size maxBytes : ℕ} {buf : List UInt8} {chunks : List (List UInt8)}
    (hbuf : buf.length ≤ maxBytes) (hchunks : ∀ chunk ∈ chunks, chunk.length ≤ size)
    (h : ¬Straddles size maxBytes (buf ++ chunks.flatten)) :
    readInto maxBytes buf chunks = measured maxBytes (buf ++ chunks.flatten) := by
  induction chunks generalizing buf with
  | nil =>
      rw [List.flatten_nil, List.append_nil, readInto, measured]
      by_cases hmem : newline ∈ buf
      · have hline := lineLength_le_of_mem hmem []
        rw [List.append_nil] at hline
        have hne : buf ≠ [] := List.ne_nil_of_mem hmem
        rw [if_pos hmem, if_neg (by omega), finish, if_neg hne]
      · rw [if_neg hmem, if_neg (by omega)]
  | cons chunk chunks ih =>
      obtain ⟨hchunk, hrest⟩ := List.forall_mem_cons.mp hchunks
      rw [List.flatten_cons] at h ⊢
      rw [readInto]
      by_cases hmem : newline ∈ buf
      · have hline := lineLength_le_of_mem hmem (chunk ++ chunks.flatten)
        have hne : buf ≠ [] := List.ne_nil_of_mem hmem
        rw [if_pos hmem, measured, if_pos (List.mem_append_left _ hmem), if_neg (by omega),
          takeWhile_append_of_mem hmem, finish, if_neg hne]
      rw [if_neg hmem]
      by_cases hlong : maxBytes < (buf ++ chunk).length
      · rw [if_pos hlong, measured]
        have hline := lt_lineLength_of_notMem hmem (chunk ++ chunks.flatten)
        have hlength : maxBytes < (buf ++ (chunk ++ chunks.flatten)).length := by
          simp only [List.length_append] at hlong ⊢
          omega
        rw [List.length_append] at hlong
        by_cases hnewline : newline ∈ buf ++ (chunk ++ chunks.flatten)
        · have hfar : maxBytes < lineLength (buf ++ (chunk ++ chunks.flatten)) := by
            by_contra hle
            exact h ⟨hnewline, by omega, hlength, by omega⟩
          rw [if_pos hnewline, if_pos hfar]
        · rw [if_neg hnewline, if_pos hlength]
      · rw [if_neg hlong, ← List.append_assoc]
        exact ih (Nat.not_lt.mp hlong) hrest (by rwa [List.append_assoc])

/-- Chunks in front of the line's end that stay within the limit. -/
theorem readInto_append {maxBytes : ℕ} {buf : List UInt8} {before chunks : List (List UInt8)}
    (hmem : newline ∉ buf ++ before.flatten) (hlength : (buf ++ before.flatten).length ≤ maxBytes) :
    readInto maxBytes buf (before ++ chunks) =
      readInto maxBytes (buf ++ before.flatten) chunks := by
  induction before generalizing buf with
  | nil => simp
  | cons chunk before ih =>
      rw [List.flatten_cons, ← List.append_assoc] at hmem hlength ⊢
      have hbuf : newline ∉ buf := fun h => hmem (by simp [h])
      have hshort : ¬maxBytes < (buf ++ chunk).length := by
        rw [List.length_append] at hlength
        omega
      rw [List.cons_append, readInto, if_neg hbuf, if_neg hshort, ih hmem hlength]

/-- The bytes of a stream one by one. -/
def singles (stream : List UInt8) : List (List UInt8) := stream.map ([·])

theorem flatten_singles (stream : List UInt8) : (singles stream).flatten = stream := by
  simp [singles, List.flatten_eq_flatMap, List.flatMap_map]

theorem splits_singles (stream : List UInt8) : Splits recvSize stream (singles stream) where
  flatten := flatten_singles stream
  bounds := by simp [singles, recvSize]

theorem readLine_singles (maxBytes : ℕ) (stream : List UInt8) :
    readLine maxBytes (singles stream) = measured maxBytes stream := by
  have hbounds : ∀ chunk ∈ singles stream, chunk.length ≤ 1 := by simp [singles]
  have hnone : ¬Straddles 1 maxBytes ([] ++ (singles stream).flatten) := by
    rw [Straddles]
    omega
  have heq := readInto_eq (Nat.zero_le maxBytes) hbounds hnone
  rwa [flatten_singles, List.nil_append] at heq

/-- The chunks do not matter, unless one can reach from the line past the limit. -/
theorem chunkFree_iff (maxBytes : ℕ) (stream : List UInt8) :
    ChunkFree maxBytes stream ↔ ¬Straddles recvSize maxBytes stream := by
  constructor
  · rintro h ⟨hmem, hline, hlength, hreach⟩
    -- a chunk begins in front of the line's end and ends just behind the limit
    obtain ⟨start, hstart⟩ : ∃ start, maxBytes + 1 - recvSize = start := ⟨_, rfl⟩
    have hsplit : stream.take start ++
        ((stream.drop start).take (maxBytes + 1 - start) ++ stream.drop (maxBytes + 1)) =
          stream := by
      have hdrop : stream.drop (maxBytes + 1) =
          (stream.drop start).drop (maxBytes + 1 - start) := by
        have hle : start ≤ maxBytes + 1 := hstart ▸ Nat.sub_le _ _
        rw [List.drop_drop, Nat.add_sub_cancel' hle]
      rw [hdrop, List.take_append_drop, List.take_append_drop]
    have hbefore : newline ∉ [] ++ (singles (stream.take start)).flatten := by
      rw [flatten_singles, List.nil_append]
      intro hnewline
      have hle := lineLength_le_of_mem hnewline (stream.drop start)
      rw [List.take_append_drop, List.length_take] at hle
      have hpos : 0 < lineLength stream := Nat.succ_pos _
      omega
    have hshort : ([] ++ (singles (stream.take start)).flatten).length ≤ maxBytes := by
      rw [flatten_singles, List.nil_append, List.length_take]
      rw [recvSize] at hstart
      omega
    obtain ⟨chunks, hchunks⟩ : ∃ chunks, singles (stream.take start) ++
        (stream.drop start).take (maxBytes + 1 - start) :: singles (stream.drop (maxBytes + 1)) =
          chunks := ⟨_, rfl⟩
    have hread : readLine maxBytes chunks = .tooLong := by
      rw [← hchunks, readLine, readInto_append hbefore hshort, readInto, if_neg hbefore, if_pos]
      rw [flatten_singles, List.nil_append, List.length_append, List.length_take, List.length_take,
        List.length_drop]
      omega
    have hsplits : Splits recvSize stream chunks := by
      constructor
      · rw [← hchunks, List.flatten_append, List.flatten_cons, flatten_singles, flatten_singles,
          hsplit]
      · rw [← hchunks]
        simp only [List.mem_append, List.mem_cons]
        rintro chunk (hchunk | rfl | hchunk)
        · exact (splits_singles _).bounds chunk hchunk
        · rw [← List.length_pos_iff, List.length_take, List.length_drop]
          rw [recvSize] at hstart ⊢
          omega
        · exact (splits_singles _).bounds chunk hchunk
    have heq := h chunks (singles stream) hsplits (splits_singles stream)
    rw [hread, readLine_singles, measured, if_pos hmem, if_neg (by omega)] at heq
    cases heq
  · intro h chunks chunks' hchunks hchunks'
    have hread : ∀ chunks, Splits recvSize stream chunks →
        readLine maxBytes chunks = measured maxBytes stream := by
      intro chunks hsplits
      have hnone : ¬Straddles recvSize maxBytes ([] ++ chunks.flatten) := by
        rwa [List.nil_append, hsplits.flatten]
      have heq := readInto_eq (Nat.zero_le maxBytes)
        (fun chunk hchunk => (hsplits.bounds chunk hchunk).2) hnone
      rwa [List.nil_append, hsplits.flatten] at heq
    rw [hread chunks hchunks, hread chunks' hchunks']

end RerollSync.Control
