import Mathlib.Tactic.Abel

/-!
# The frames of the join protocol

`writeLenPrefixed` and `readLenPrefixed` of `join.go`: four bytes for the length, then the data. The
reader gets the stream in chunks of any size.
-/
namespace Westcoast.Cluster

open List

/-- A byte string whose length fits into the four bytes. -/
structure Frame where
  data : List UInt8
  short : data.length < 2 ^ 32

/-- `binary.BigEndian.PutUint32` -/
def putUint32 (n : ℕ) : List UInt8 := [n / 2 ^ 24, n / 2 ^ 16, n / 2 ^ 8, n].map UInt8.ofNat

/-- `binary.BigEndian.Uint32` -/
def uint32 (b : List UInt8) : ℕ := b.foldl (fun n b => n * 2 ^ 8 + b.toNat) 0

def writeLenPrefixed (w data : List UInt8) : List UInt8 :=
  let w := w ++ putUint32 (data.length % 2 ^ 32)
  if data.length > 0 then w ++ data else w

def maxLen : ℕ := 2 ^ 20

inductive ReadError
  | eof
  | unexpectedEOF
  | tooLarge (n : ℕ)

/-- What is still to be read, as the calls of `Read` return it. -/
abbrev Chunks := List (List UInt8)

/-- `io.ReadFull`, with what it has got so far. -/
def readFull (got : List UInt8) : ℕ → Chunks → Except ReadError (List UInt8 × Chunks)
  | 0, chunks => .ok (got, chunks)
  | _ + 1, [] => .error (if got = [] then .eof else .unexpectedEOF)
  | n + 1, chunk :: chunks =>
    if chunk.length ≤ n + 1 then readFull (got ++ chunk) (n + 1 - chunk.length) chunks
    else .ok (got ++ chunk.take (n + 1), chunk.drop (n + 1) :: chunks)

def readLenPrefixed (chunks : Chunks) : Except ReadError (List UInt8 × Chunks) :=
  match readFull [] 4 chunks with
  | .error e => .error e
  | .ok (lenBuf, chunks) =>
    if uint32 lenBuf > maxLen then .error (.tooLarge (uint32 lenBuf))
    else if uint32 lenBuf > 0 then readFull [] (uint32 lenBuf) chunks
    else .ok ([], chunks)

/-- A number of strings is read one after the other, up to the first error. -/
def readStrings : ℕ → Chunks → List (List UInt8) × Option ReadError
  | 0, _ => ([], none)
  | k + 1, chunks =>
    match readLenPrefixed chunks with
    | .error e => ([], some e)
    | .ok (data, chunks) => (data :: (readStrings k chunks).1, (readStrings k chunks).2)

def Frame.bytes (f : Frame) : List UInt8 := putUint32 f.data.length ++ f.data

theorem uint32_putUint32 {n : ℕ} (h : n < 2 ^ 32) : uint32 (putUint32 n) = n := by
  simp only [uint32, putUint32, map_cons, map_nil, foldl_cons, foldl_nil, UInt8.toNat_ofNat']
  omega

theorem foldl_writeLenPrefixed (fs : List Frame) (w : List UInt8) :
    (fs.map (·.data)).foldl writeLenPrefixed w = w ++ fs.flatMap (·.bytes) := by
  induction fs generalizing w with
  | nil => simp
  | cons f fs ih =>
    have hwrite : writeLenPrefixed w f.data = w ++ f.bytes := by
      simp only [writeLenPrefixed, Frame.bytes, Nat.mod_eq_of_lt f.short]
      split_ifs with hpos
      · rw [append_assoc]
      · rw [length_eq_zero_iff.mp (Nat.eq_zero_of_not_pos hpos), append_nil]
    rw [map_cons, foldl_cons, ih, hwrite, flatMap_cons, append_assoc]

/-! ### What is read -/

theorem readFull_of_le {n : ℕ} (chunks : Chunks) (got : List UInt8)
    (h : n ≤ chunks.flatten.length) :
    ∃ rest, readFull got n chunks = .ok (got ++ chunks.flatten.take n, rest) ∧
      rest.flatten = chunks.flatten.drop n := by
  induction chunks generalizing got n with
  | nil =>
    obtain rfl : n = 0 := by simpa using h
    exact ⟨[], by simp [readFull], rfl⟩
  | cons chunk chunks ih =>
    cases n with
    | zero => exact ⟨_, by simp [readFull], rfl⟩
    | succ n =>
      rw [flatten_cons, length_append] at h
      simp only [readFull, flatten_cons]
      split_ifs with hle
      · obtain ⟨rest, hread, hrest⟩ := ih (got ++ chunk) (n := n + 1 - chunk.length) (by omega)
        refine ⟨rest, ?_, ?_⟩
        · rw [hread, take_append, take_of_length_le hle, append_assoc]
        · rw [hrest, drop_append, drop_of_length_le hle, nil_append]
      · refine ⟨chunk.drop (n + 1) :: chunks, ?_, ?_⟩
        · rw [take_append_of_le_length (by omega)]
        · rw [flatten_cons, drop_append_of_le_length (by omega)]

theorem readFull_of_lt {n : ℕ} (chunks : Chunks) (got : List UInt8)
    (h : chunks.flatten.length < n) : ∃ e, readFull got n chunks = .error e := by
  induction chunks generalizing got n with
  | nil =>
    obtain ⟨n, rfl⟩ := Nat.exists_eq_add_one_of_ne_zero (Nat.ne_of_gt h)
    exact ⟨_, rfl⟩
  | cons chunk chunks ih =>
    rw [flatten_cons, length_append] at h
    obtain ⟨n, rfl⟩ := Nat.exists_eq_add_one_of_ne_zero (show n ≠ 0 by omega)
    rw [readFull, if_pos (by omega)]
    exact ih _ (by omega)

/-- Once the four bytes are there, the length is known. -/
theorem readLenPrefixed_eq (f : Frame) {chunks : Chunks} {later : List UInt8}
    (h : chunks.flatten = putUint32 f.data.length ++ later) :
    ∃ rest : Chunks, rest.flatten = later ∧ readLenPrefixed chunks =
      if f.data.length > maxLen then .error (.tooLarge f.data.length)
      else readFull [] f.data.length rest := by
  have hlen : (putUint32 f.data.length).length = 4 := rfl
  obtain ⟨rest, hread, hrest⟩ := readFull_of_le (n := 4) chunks [] (by simp [h, hlen])
  rw [h, drop_left' hlen] at hrest
  rw [h, nil_append, take_left' hlen] at hread
  refine ⟨rest, hrest, ?_⟩
  simp only [readLenPrefixed, hread, uint32_putUint32 f.short]
  split_ifs with hlarge hpos
  · rfl
  · rfl
  · rw [Nat.eq_zero_of_not_pos hpos, readFull]

theorem readLenPrefixed_frame (f : Frame) {chunks : Chunks} {later : List UInt8}
    (h : chunks.flatten = f.bytes ++ later) (hsize : f.data.length ≤ maxLen) :
    ∃ rest, readLenPrefixed chunks = .ok (f.data, rest) ∧ rest.flatten = later := by
  rw [Frame.bytes, append_assoc] at h
  obtain ⟨rest, hrest, hread⟩ := readLenPrefixed_eq f h
  obtain ⟨rest', hfull, hrest'⟩ := readFull_of_le (n := f.data.length) rest [] (by simp [hrest])
  rw [hread, if_neg (Nat.not_lt.mpr hsize), hfull, hrest, take_left, nil_append]
  exact ⟨rest', rfl, by rw [hrest', hrest, drop_left]⟩

theorem readLenPrefixed_cut (f : Frame) {chunks : Chunks} (h : chunks.flatten <+: f.bytes)
    (hlt : chunks.flatten.length < f.bytes.length) : ∃ e, readLenPrefixed chunks = .error e := by
  have hlen : (putUint32 f.data.length).length = 4 := rfl
  by_cases hfour : chunks.flatten.length < 4
  · obtain ⟨e, he⟩ := readFull_of_lt chunks [] hfour
    exact ⟨e, by rw [readLenPrefixed, he]⟩
  · obtain ⟨later, hlater⟩ := prefix_of_prefix_length_le (prefix_append _ _) h
      (hlen.symm ▸ Nat.le_of_not_lt hfour)
    obtain ⟨rest, hrest, hread⟩ := readLenPrefixed_eq f hlater.symm
    rw [hread]
    split_ifs
    · exact ⟨_, rfl⟩
    · refine readFull_of_lt rest [] ?_
      rw [← hlater, Frame.bytes, length_append, length_append] at hlt
      rw [hrest]
      omega

theorem readStrings_all (fs : List Frame) {chunks : Chunks}
    (h : chunks.flatten = fs.flatMap (·.bytes)) :
    readStrings fs.length chunks = ((fs.map (·.data)).takeWhile (·.length ≤ maxLen),
      ((fs.map (·.data)).find? (·.length > maxLen)).map fun d => .tooLarge d.length) := by
  induction fs generalizing chunks with
  | nil => rfl
  | cons f fs ih =>
    rw [flatMap_cons] at h
    rw [length_cons, readStrings]
    by_cases hsize : f.data.length ≤ maxLen
    · obtain ⟨rest, hread, hrest⟩ := readLenPrefixed_frame f h hsize
      simp [hread, ih hrest, hsize, Nat.not_lt.mpr hsize]
    · rw [Frame.bytes, append_assoc] at h
      obtain ⟨rest, -, hread⟩ := readLenPrefixed_eq f h
      simp [hread, hsize, Nat.lt_of_not_le hsize]

theorem readStrings_cut (fs : List Frame) {chunks : Chunks}
    (h : chunks.flatten <+: fs.flatMap (·.bytes)) (hne : chunks.flatten ≠ fs.flatMap (·.bytes)) :
    (readStrings fs.length chunks).1 <+: fs.map (·.data) ∧
      (readStrings fs.length chunks).2.isSome = true := by
  induction fs generalizing chunks with
  | nil => exact absurd (prefix_nil.mp h) hne
  | cons f fs ih =>
    rw [flatMap_cons] at h hne
    rw [length_cons, readStrings]
    by_cases hlt : chunks.flatten.length < f.bytes.length
    · have hpre := prefix_of_prefix_length_le h (prefix_append _ _) (Nat.le_of_lt hlt)
      obtain ⟨e, he⟩ := readLenPrefixed_cut f hpre hlt
      simp [he]
    · -- the frame is there, and the rest is cut
      obtain ⟨later, hlater⟩ :=
        prefix_of_prefix_length_le (prefix_append _ _) h (Nat.le_of_not_lt hlt)
      rw [← hlater, prefix_append_right_inj] at h
      rw [← hlater, ne_eq, append_cancel_left_eq] at hne
      by_cases hsize : f.data.length ≤ maxLen
      · obtain ⟨rest, hread, hrest⟩ := readLenPrefixed_frame f hlater.symm hsize
        rw [← hrest] at h hne
        simpa [hread, prefix_cons_inj] using ih h hne
      · rw [Frame.bytes, append_assoc] at hlater
        obtain ⟨rest, -, hread⟩ := readLenPrefixed_eq f hlater.symm
        simp [hread, Nat.lt_of_not_le hsize]

/-- **Frames round-trip, and truncation is detected**, however the stream is cut into chunks: what
was written is read up to the first string over the limit, at which reading fails; and on a strict
beginning of the stream it fails, after strings that were written. -/
theorem framing_round_trip (fs : List Frame) :
    (∀ chunks : Chunks, chunks.flatten = (fs.map (·.data)).foldl writeLenPrefixed [] →
      readStrings fs.length chunks = ((fs.map (·.data)).takeWhile (·.length ≤ maxLen),
        ((fs.map (·.data)).find? (·.length > maxLen)).map fun d => .tooLarge d.length)) ∧
    ∀ chunks : Chunks, chunks.flatten <+: (fs.map (·.data)).foldl writeLenPrefixed [] →
      chunks.flatten ≠ (fs.map (·.data)).foldl writeLenPrefixed [] →
      (readStrings fs.length chunks).1 <+: fs.map (·.data) ∧
        (readStrings fs.length chunks).2.isSome = true := by
  rw [foldl_writeLenPrefixed, nil_append]
  exact ⟨fun _ => readStrings_all fs, fun _ => readStrings_cut fs⟩

end Westcoast.Cluster
