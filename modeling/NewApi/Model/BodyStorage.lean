import NewApi.Lib.Integers
import NewApi.Lib.Machine
import NewApi.Lib.Pool
import NewApi.Lib.System
import Mathlib.Tactic.Linarith

/-!
# Body storage in memory and on disk

A request body is kept behind a `bytes.Reader` or in a file with its own cursor. Both are cursors
over one content until they are closed; global counters say how many storages of each kind are open
and how many bytes they have.
-/

namespace NewApi.Model

open NewApi.Lib NewApi.Lib.Strings

namespace BodyStorage

/-- The values of `whence` that `io.Seeker` has. -/
inductive Whence
  | seekStart
  | seekCurrent
  | seekEnd
deriving DecidableEq

/-- What a call returns: bytes, a position or size, and an error. -/
structure Answer where
  data : List UInt8
  position : ℤ
  err : Option String
deriving DecidableEq

def ErrStorageClosed : String := "body storage is closed"

def EOF : String := "EOF"

def Answer.failed (message : String) : Answer :=
  ⟨[], 0, some message⟩

/-! ## The global counters -/

structure DiskCacheStats where
  activeDiskFiles : ℤ
  currentDiskUsageBytes : ℤ
  activeMemoryBuffers : ℤ
  currentMemoryUsageBytes : ℤ
deriving DecidableEq

namespace DiskCacheStats

def incrementDiskFiles (stats : DiskCacheStats) (size : ℤ) : DiskCacheStats :=
  { stats with
    activeDiskFiles := stats.activeDiskFiles + 1
    currentDiskUsageBytes := stats.currentDiskUsageBytes + size }

def decrementDiskFiles (stats : DiskCacheStats) (size : ℤ) : DiskCacheStats :=
  { stats with
    activeDiskFiles := stats.activeDiskFiles - 1
    currentDiskUsageBytes := stats.currentDiskUsageBytes - size }

def incrementMemoryBuffers (stats : DiskCacheStats) (size : ℤ) : DiskCacheStats :=
  { stats with
    activeMemoryBuffers := stats.activeMemoryBuffers + 1
    currentMemoryUsageBytes := stats.currentMemoryUsageBytes + size }

def decrementMemoryBuffers (stats : DiskCacheStats) (size : ℤ) : DiskCacheStats :=
  { stats with
    activeMemoryBuffers := stats.activeMemoryBuffers - 1
    currentMemoryUsageBytes := stats.currentMemoryUsageBytes - size }

end DiskCacheStats

/-! ## The storage in memory -/

/-- `bytes.Reader`: the bytes and the index of the next one. -/
structure BytesReader where
  s : List UInt8
  i : ℤ
deriving DecidableEq

namespace BytesReader

def read (r : BytesReader) (n : ℕ) : Answer × BytesReader :=
  if r.i ≥ r.s.length then (.failed EOF, r)
  else
    let b := (r.s.drop r.i.toNat).take n
    (⟨b, 0, none⟩, { r with i := r.i + b.length })

/-- Sums are those of the machine. -/
def seek (r : BytesReader) (offset : Int64) (whence : Whence) : Answer × BytesReader :=
  let abs :=
    match whence with
    | .seekStart => offset.toInt
    | .seekCurrent => (r.i + offset.toInt).bmod (2 ^ 64)
    | .seekEnd => (r.s.length + offset.toInt).bmod (2 ^ 64)
  if abs < 0 then (.failed "bytes.Reader.Seek: negative position", r)
  else (⟨[], abs, none⟩, { r with i := abs })

end BytesReader

structure MemoryStorage where
  data : List UInt8
  reader : BytesReader
  size : ℤ
  closed : Bool
deriving DecidableEq

namespace MemoryStorage

def new (data : List UInt8) : MemoryStorage where
  data := data
  reader := ⟨data, 0⟩
  size := data.length
  closed := false

def read (m : MemoryStorage) (n : ℕ) : Answer × MemoryStorage :=
  if m.closed then (.failed ErrStorageClosed, m)
  else
    let (answer, reader) := m.reader.read n
    (answer, { m with reader := reader })

def seek (m : MemoryStorage) (offset : Int64) (whence : Whence) : Answer × MemoryStorage :=
  if m.closed then (.failed ErrStorageClosed, m)
  else
    let (answer, reader) := m.reader.seek offset whence
    (answer, { m with reader := reader })

def bytes (m : MemoryStorage) : Answer :=
  if m.closed then .failed ErrStorageClosed else ⟨m.data, 0, none⟩

def close (m : MemoryStorage) (stats : DiskCacheStats) : MemoryStorage × DiskCacheStats :=
  if m.closed then (m, stats) else ({ m with closed := true }, stats.decrementMemoryBuffers m.size)

end MemoryStorage

/-! ## The storage on disk -/

/-- An open file: its content and its cursor. -/
structure File where
  content : List UInt8
  cursor : ℤ
deriving DecidableEq

namespace File

/-- A read returns all bytes that are there, up to `n`. -/
def read (file : File) (n : ℕ) : Answer × File :=
  let b := (file.content.drop file.cursor.toNat).take n
  if n ≠ 0 ∧ b = [] then (.failed EOF, file)
  else (⟨b, 0, none⟩, { file with cursor := file.cursor + b.length })

/-- The cursor goes to any offset that is not negative. -/
def seek (file : File) (offset : Int64) (whence : Whence) : Answer × File :=
  let position :=
    match whence with
    | .seekStart => offset.toInt
    | .seekCurrent => file.cursor + offset.toInt
    | .seekEnd => file.content.length + offset.toInt
  if 0 ≤ position ∧ position < 2 ^ 63 then (⟨[], position, none⟩, { file with cursor := position })
  else (.failed "invalid argument", file)

/-- `io.ReadFull`, where one read returns all that is there. -/
def readFull (file : File) (n : ℕ) : Answer × File :=
  if n = 0 then (⟨[], 0, none⟩, file)
  else
    let (answer, file) := file.read n
    if answer.err.isNone ∧ answer.data.length < n then
      ({ answer with err := some "unexpected EOF" }, file)
    else (answer, file)

/-- The position is saved, all is read from the start, and the position is restored. -/
def bytes (file : File) (size : ℤ) : Answer × File :=
  let (currentPos, file) := file.seek 0 .seekCurrent
  if currentPos.err.isSome then (.failed (currentPos.err.getD ""), file)
  else
    let (start, file) := file.seek 0 .seekStart
    if start.err.isSome then (.failed (start.err.getD ""), file)
    else
      let (data, file) := file.readFull size.toNat
      if data.err.isSome then (.failed (data.err.getD ""), file)
      else
        let (restored, file) := file.seek (.ofInt currentPos.position) .seekStart
        if restored.err.isSome then (.failed (restored.err.getD ""), file)
        else (⟨data.data, 0, none⟩, file)

end File

/-- The file is there until the storage is closed. -/
structure DiskStorage where
  file : Option File
  size : ℤ
  closed : Bool
deriving DecidableEq

namespace DiskStorage

def new (data : List UInt8) : DiskStorage where
  file := some ⟨data, 0⟩
  size := data.length
  closed := false

/-- What a call does with the open file. -/
def withFile (d : DiskStorage) (call : File → Answer × File) : Answer × DiskStorage :=
  if d.closed then (.failed ErrStorageClosed, d)
  else
    match d.file with
    | none => (.failed "file already closed", d)
    | some file =>
        let (answer, file) := call file
        (answer, { d with file := some file })

def read (d : DiskStorage) (n : ℕ) : Answer × DiskStorage :=
  d.withFile fun file => file.read n

def seek (d : DiskStorage) (offset : Int64) (whence : Whence) : Answer × DiskStorage :=
  d.withFile fun file => file.seek offset whence

def bytes (d : DiskStorage) : Answer × DiskStorage :=
  d.withFile fun file => file.bytes d.size

/-- The file is closed and removed. -/
def close (d : DiskStorage) (stats : DiskCacheStats) : DiskStorage × DiskCacheStats :=
  if d.closed then (d, stats)
  else ({ d with file := none, closed := true }, stats.decrementDiskFiles d.size)

end DiskStorage

/-! ## The interface -/

inductive StorageOp
  | read (n : ℕ)
  | seek (offset : Int64) (whence : Whence)
  | bytes
  | close
  | size
deriving DecidableEq

/-- The storage in memory, with the counters. -/
def memoryStorage : Machine (MemoryStorage × DiskCacheStats) StorageOp Answer where
  respond := fun (m, stats) op =>
    match op with
    | .read n => ((m.read n).1, (m.read n).2, stats)
    | .seek offset whence => ((m.seek offset whence).1, (m.seek offset whence).2, stats)
    | .bytes => (m.bytes, m, stats)
    | .close => (⟨[], 0, none⟩, m.close stats)
    | .size => (⟨[], m.size, none⟩, m, stats)

/-- The storage on disk, with the counters. -/
def diskStorage : Machine (DiskStorage × DiskCacheStats) StorageOp Answer where
  respond := fun (d, stats) op =>
    match op with
    | .read n => ((d.read n).1, (d.read n).2, stats)
    | .seek offset whence => ((d.seek offset whence).1, (d.seek offset whence).2, stats)
    | .bytes => (d.bytes.1, d.bytes.2, stats)
    | .close => (⟨[], 0, none⟩, d.close stats)
    | .size => (⟨[], d.size, none⟩, d, stats)

/-- Data, position and whether there is an error. -/
def Answer.seen (answer : Answer) : List UInt8 × ℤ × Bool :=
  (answer.data, answer.position, answer.err.isSome)

/-! ## The cursor that both are -/

/-- A content with a position, until it is closed; lengths and positions are those of the machine.
-/
structure BodyCursor where
  data : List UInt8
  position : ℕ
  closed : Bool
  length_lt : data.length < 2 ^ 63
  position_lt : position < 2 ^ 63

namespace BodyCursor

def new (data : List UInt8) (hdata : data.length < 2 ^ 63) : BodyCursor where
  data := data
  position := 0
  closed := false
  length_lt := hdata
  position_lt := by decide

/-- What a read of `n` bytes gives. -/
def chunk (c : BodyCursor) (n : ℕ) : List UInt8 :=
  (c.data.drop c.position).take n

theorem chunk_lt (c : BodyCursor) (n : ℕ) (hdata : c.position < c.data.length) :
    c.position + (c.chunk n).length < 2 ^ 63 := by
  have hlength := c.length_lt
  rw [chunk, List.length_take, List.length_drop]
  omega

def read (c : BodyCursor) (n : ℕ) : (List UInt8 × ℤ × Bool) × BodyCursor :=
  if hdata : c.position < c.data.length then
    ((c.chunk n, 0, false),
      { c with position := c.position + (c.chunk n).length, position_lt := c.chunk_lt n hdata })
  else (([], 0, true), c)

/-- Where a seek is to go. -/
def target (c : BodyCursor) (offset : Int64) : Whence → ℤ
  | .seekStart => offset.toInt
  | .seekCurrent => c.position + offset.toInt
  | .seekEnd => c.data.length + offset.toInt

def seek (c : BodyCursor) (offset : Int64) (whence : Whence) :
    (List UInt8 × ℤ × Bool) × BodyCursor :=
  if htarget : 0 ≤ c.target offset whence ∧ c.target offset whence < 2 ^ 63 then
    (([], c.target offset whence, false),
      { c with position := (c.target offset whence).toNat, position_lt := by omega })
  else (([], 0, true), c)

/-- The cursor with the answers as they are seen. -/
def machine : Machine BodyCursor StorageOp (List UInt8 × ℤ × Bool) where
  respond := fun c op =>
    match op with
    | .read n => if c.closed then (([], 0, true), c) else c.read n
    | .seek offset whence => if c.closed then (([], 0, true), c) else c.seek offset whence
    | .bytes => (if c.closed then ([], 0, true) else (c.data, 0, false), c)
    | .close => (([], 0, false), { c with closed := true })
    | .size => (([], c.data.length, false), c)

end BodyCursor

/-- Reads are into a buffer that is not empty. -/
def StorageOp.Proper : StorageOp → Prop
  | .read n => 1 ≤ n
  | _ => True

instance : ∀ op, Decidable (StorageOp.Proper op)
  | .read n => inferInstanceAs (Decidable (1 ≤ n))
  | .seek _ _ => inferInstanceAs (Decidable True)
  | .bytes => inferInstanceAs (Decidable True)
  | .close => inferInstanceAs (Decidable True)
  | .size => inferInstanceAs (Decidable True)

/-- The storage in memory is a cursor. -/
structure InMemory (s : MemoryStorage × DiskCacheStats) (c : BodyCursor) : Prop where
  data : s.1.data = c.data
  reader : s.1.reader = ⟨c.data, c.position⟩
  size : s.1.size = c.data.length
  closed : s.1.closed = c.closed

/-- The storage on disk is a cursor as long as it has a file. -/
structure OnDisk (s : DiskStorage × DiskCacheStats) (c : BodyCursor) : Prop where
  file : c.closed = false → s.1.file = some ⟨c.data, c.position⟩
  size : s.1.size = c.data.length
  closed : s.1.closed = c.closed

/-! ## Each of them is a cursor -/

section

variable {c : BodyCursor} {n : ℕ} {offset : Int64} {whence : Whence}

/-- A sum beyond the largest position is negative on the machine. -/
theorem bmod_neg {sum : ℤ} (hlow : 2 ^ 63 ≤ sum) (hhigh : sum < 2 ^ 64) :
    sum.bmod (2 ^ 64) < 0 := by
  have hmod : sum % (2 ^ 64 : ℕ) = sum := Int.emod_eq_of_lt (by omega) (by norm_num; omega)
  rw [Int.bmod_def, hmod, if_neg (by norm_num; omega)]
  norm_num
  omega

/-- A sum of the machine is negative exactly if the position is none. -/
theorem bmod_neg_iff {sum : ℤ} (hlow : -2 ^ 63 ≤ sum) (hhigh : sum < 2 ^ 64) :
    sum.bmod (2 ^ 64) < 0 ↔ ¬ (0 ≤ sum ∧ sum < 2 ^ 63) := by
  by_cases hrange : sum < 2 ^ 63
  · rw [bmod_of_inInt64 ⟨hlow, hrange⟩]
    omega
  · refine iff_of_true (bmod_neg (by omega) hhigh) fun hposition => hrange hposition.2

theorem chunk_ne_nil (hn : 1 ≤ n) (hdata : c.position < c.data.length) : c.chunk n ≠ [] := by
  rw [← List.length_pos_iff, BodyCursor.chunk, List.length_take, List.length_drop]
  omega

theorem chunk_eq_nil (hdata : ¬ c.position < c.data.length) : c.chunk n = [] := by
  rw [BodyCursor.chunk, List.drop_of_length_le (by omega), List.take_nil]

theorem BodyCursor.read_of_lt (hdata : c.position < c.data.length) :
    (c.read n).1 = (c.chunk n, 0, false) ∧
      (c.read n).2.position = c.position + (c.chunk n).length := by
  rw [BodyCursor.read, dif_pos hdata]
  exact ⟨rfl, rfl⟩

theorem BodyCursor.read_of_not_lt (hdata : ¬ c.position < c.data.length) :
    c.read n = (([], 0, true), c) :=
  dif_neg hdata

theorem BodyCursor.seek_of_range
    (htarget : 0 ≤ c.target offset whence ∧ c.target offset whence < 2 ^ 63) :
    (c.seek offset whence).1 = ([], c.target offset whence, false) ∧
      (c.seek offset whence).2.position = c.target offset whence := by
  rw [BodyCursor.seek, dif_pos htarget]
  exact ⟨rfl, Int.toNat_of_nonneg htarget.1⟩

theorem BodyCursor.seek_of_not_range
    (htarget : ¬ (0 ≤ c.target offset whence ∧ c.target offset whence < 2 ^ 63)) :
    c.seek offset whence = (([], 0, true), c) :=
  dif_neg htarget

/-- Reading and seeking keep the content. -/
theorem BodyCursor.read_keeps (c : BodyCursor) (n : ℕ) :
    (c.read n).2.data = c.data ∧ (c.read n).2.closed = c.closed := by
  unfold BodyCursor.read
  split <;> exact ⟨rfl, rfl⟩

theorem BodyCursor.seek_keeps (c : BodyCursor) (offset : Int64) (whence : Whence) :
    (c.seek offset whence).2.data = c.data ∧ (c.seek offset whence).2.closed = c.closed := by
  unfold BodyCursor.seek
  split <;> exact ⟨rfl, rfl⟩

/-- A `bytes.Reader` reads as the cursor does. -/
theorem bytesReader_read (c : BodyCursor) (n : ℕ) :
    (BytesReader.read ⟨c.data, c.position⟩ n).1.seen = (c.read n).1 ∧
      (BytesReader.read ⟨c.data, c.position⟩ n).2 = ⟨c.data, (c.read n).2.position⟩ := by
  unfold BytesReader.read
  by_cases hdata : c.position < c.data.length
  · obtain ⟨hanswer, hposition⟩ := BodyCursor.read_of_lt (n := n) hdata
    rw [if_neg (by simpa using hdata), hanswer, hposition, Nat.cast_add]
    exact ⟨rfl, rfl⟩
  · rw [if_pos (by simpa using hdata), BodyCursor.read_of_not_lt hdata]
    exact ⟨rfl, rfl⟩

/-- A file reads as the cursor does. -/
theorem file_read (hn : 1 ≤ n) :
    (File.read ⟨c.data, c.position⟩ n).1.seen = (c.read n).1 ∧
      (File.read ⟨c.data, c.position⟩ n).2 = ⟨c.data, (c.read n).2.position⟩ := by
  unfold File.read
  have hchunk : (c.data.drop (c.position : ℤ).toNat).take n = c.chunk n := rfl
  simp only [hchunk]
  by_cases hdata : c.position < c.data.length
  · obtain ⟨hanswer, hposition⟩ := BodyCursor.read_of_lt (n := n) hdata
    rw [if_neg fun hnone => chunk_ne_nil hn hdata hnone.2, hanswer, hposition, Nat.cast_add]
    exact ⟨rfl, rfl⟩
  · rw [if_pos ⟨by omega, chunk_eq_nil hdata⟩, BodyCursor.read_of_not_lt hdata]
    exact ⟨rfl, rfl⟩

/-- A file seeks as the cursor does. -/
theorem file_seek (c : BodyCursor) (offset : Int64) (whence : Whence) :
    (File.seek ⟨c.data, c.position⟩ offset whence).1.seen = (c.seek offset whence).1 ∧
      (File.seek ⟨c.data, c.position⟩ offset whence).2 =
        ⟨c.data, (c.seek offset whence).2.position⟩ := by
  have hfile : File.seek ⟨c.data, c.position⟩ offset whence =
      if 0 ≤ c.target offset whence ∧ c.target offset whence < 2 ^ 63 then
        (⟨[], c.target offset whence, none⟩, ⟨c.data, c.target offset whence⟩)
      else (.failed "invalid argument", ⟨c.data, c.position⟩) := by
    cases whence <;> rfl
  rw [hfile]
  by_cases htarget : 0 ≤ c.target offset whence ∧ c.target offset whence < 2 ^ 63
  · obtain ⟨hanswer, hposition⟩ := BodyCursor.seek_of_range htarget
    rw [if_pos htarget, hanswer, hposition]
    exact ⟨rfl, rfl⟩
  · rw [if_neg htarget, BodyCursor.seek_of_not_range htarget]
    exact ⟨rfl, rfl⟩

/-- A `bytes.Reader` seeks as the cursor does. -/
theorem bytesReader_seek (c : BodyCursor) (offset : Int64) (whence : Whence) :
    (BytesReader.seek ⟨c.data, c.position⟩ offset whence).1.seen = (c.seek offset whence).1 ∧
      (BytesReader.seek ⟨c.data, c.position⟩ offset whence).2 =
        ⟨c.data, (c.seek offset whence).2.position⟩ := by
  have hlow := offset.le_toInt
  have hhigh := offset.toInt_lt
  have hdata := c.length_lt
  have hposition := c.position_lt
  have hbounds : -2 ^ 63 ≤ c.target offset whence ∧ c.target offset whence < 2 ^ 64 := by
    cases whence with
    | seekStart => exact ⟨hlow, hhigh.trans (by norm_num)⟩
    | seekCurrent =>
        show -2 ^ 63 ≤ (c.position : ℤ) + offset.toInt ∧ (c.position : ℤ) + offset.toInt < 2 ^ 64
        omega
    | seekEnd =>
        show -2 ^ 63 ≤ (c.data.length : ℤ) + offset.toInt ∧
          (c.data.length : ℤ) + offset.toInt < 2 ^ 64
        omega
  have hreader : BytesReader.seek ⟨c.data, c.position⟩ offset whence =
      if (c.target offset whence).bmod (2 ^ 64) < 0 then
        (.failed "bytes.Reader.Seek: negative position", ⟨c.data, c.position⟩)
      else (⟨[], (c.target offset whence).bmod (2 ^ 64), none⟩,
        ⟨c.data, (c.target offset whence).bmod (2 ^ 64)⟩) := by
    cases whence with
    | seekStart =>
        have hstart : (c.target offset .seekStart).bmod (2 ^ 64) = offset.toInt :=
          bmod_of_inInt64 ⟨hlow, hhigh⟩
        rw [hstart]
        rfl
    | seekCurrent => rfl
    | seekEnd => rfl
  rw [hreader]
  by_cases htarget : 0 ≤ c.target offset whence ∧ c.target offset whence < 2 ^ 63
  · obtain ⟨hanswer, hposition⟩ := BodyCursor.seek_of_range htarget
    rw [if_neg fun hneg => (bmod_neg_iff hbounds.1 hbounds.2).1 hneg htarget, hanswer, hposition,
      bmod_of_inInt64 ⟨hbounds.1, htarget.2⟩]
    exact ⟨rfl, rfl⟩
  · rw [if_pos ((bmod_neg_iff hbounds.1 hbounds.2).2 htarget), BodyCursor.seek_of_not_range htarget]
    exact ⟨rfl, rfl⟩

theorem File.seek_start (file : File) (offset : Int64) (hoffset : 0 ≤ offset.toInt) :
    file.seek offset .seekStart =
      (⟨[], offset.toInt, none⟩, ⟨file.content, offset.toInt⟩) :=
  if_pos ⟨hoffset, offset.toInt_lt⟩

/-- A seek by nothing gives the position. -/
theorem File.seek_current (file : File) (hcursor : 0 ≤ file.cursor ∧ file.cursor < 2 ^ 63) :
    file.seek 0 .seekCurrent = (⟨[], file.cursor, none⟩, file) := by
  have hsame : file.cursor + (0 : Int64).toInt = file.cursor := add_zero _
  unfold File.seek
  dsimp only
  rw [hsame, if_pos hcursor]

theorem readFull_all (data : List UInt8) :
    File.readFull ⟨data, 0⟩ data.length = (⟨data, 0, none⟩, ⟨data, data.length⟩) := by
  unfold File.readFull
  split
  case isTrue hzero =>
    obtain rfl := List.eq_nil_of_length_eq_zero hzero
    rfl
  case isFalse hlength =>
    have hall : (data.drop (0 : ℤ).toNat).take data.length = data := List.take_length
    have hread : File.read ⟨data, 0⟩ data.length = (⟨data, 0, none⟩, ⟨data, data.length⟩) := by
      unfold File.read
      simp only [hall]
      rw [if_neg fun hnone => hlength (by rw [hnone.2]; rfl), zero_add]
    rw [hread]
    exact if_neg fun hshort => absurd hshort.2 (Nat.lt_irrefl _)

/-- `Bytes` on disk gives the content and leaves the cursor where it was. -/
theorem file_bytes (c : BodyCursor) :
    File.bytes ⟨c.data, c.position⟩ c.data.length =
      (⟨c.data, 0, none⟩, ⟨c.data, c.position⟩) := by
  have hnone : ¬ (none : Option String).isSome = true := Bool.false_ne_true
  have hposition : (c.position : ℤ) < 2 ^ 63 := by exact_mod_cast c.position_lt
  have hcurrent := File.seek_current ⟨c.data, c.position⟩ ⟨Int.natCast_nonneg _, hposition⟩
  have hstart : File.seek ⟨c.data, c.position⟩ 0 .seekStart = (⟨[], 0, none⟩, ⟨c.data, 0⟩) :=
    File.seek_start _ 0 (le_refl 0)
  have hback : (Int64.ofInt c.position).toInt = c.position := by
    rw [Int64.toInt_ofInt]
    exact bmod_of_inInt64 ⟨by omega, hposition⟩
  have hrestore := File.seek_start ⟨c.data, c.data.length⟩ (.ofInt c.position) (by omega)
  rw [hback] at hrestore
  rw [File.bytes, hcurrent]
  dsimp only
  rw [if_neg hnone, hstart]
  dsimp only
  rw [if_neg hnone, Int.toNat_natCast, readFull_all]
  dsimp only
  rw [if_neg hnone, hrestore]
  dsimp only
  rw [if_neg hnone]

theorem withFile_open {d : DiskStorage} {file file' : File} {answer : Answer}
    {call : File → Answer × File} (hopen : d.closed = false) (hfile : d.file = some file)
    (hcall : call file = (answer, file')) :
    d.withFile call = (answer, { d with file := some file' }) := by
  unfold DiskStorage.withFile
  rw [hopen, if_neg Bool.false_ne_true, hfile]
  dsimp only
  rw [hcall]

theorem disk_bytes {d : DiskStorage} (hopen : d.closed = false)
    (hfile : d.file = some ⟨c.data, c.position⟩) (hsize : d.size = c.data.length) :
    d.bytes = (⟨c.data, 0, none⟩, d) := by
  have hcall : File.bytes ⟨c.data, c.position⟩ d.size =
      (⟨c.data, 0, none⟩, ⟨c.data, c.position⟩) := by
    rw [hsize]
    exact file_bytes c
  calc d.bytes
      _ = d.withFile fun file => file.bytes d.size := rfl
      _ = (⟨c.data, 0, none⟩, { d with file := some ⟨c.data, c.position⟩ }) :=
          withFile_open hopen hfile hcall
      _ = (⟨c.data, 0, none⟩, d) := by rw [← hfile]

theorem withFile_closed {d : DiskStorage} (hclosed : d.closed = true) (call : File → Answer × File) :
    d.withFile call = (.failed ErrStorageClosed, d) :=
  if_pos hclosed

end

/-! ## They are interchangeable -/

section

variable {c : BodyCursor} {m : MemoryStorage} {d : DiskStorage} {stats : DiskCacheStats}

/-- After `Close` the storage in memory refuses reads, seeks and `Bytes`. -/
theorem memory_closed (hm : InMemory (m, stats) c) (hstate : c.closed = true) (op : StorageOp) :
    (memoryStorage.respond (m, stats) op).1.seen = (BodyCursor.machine.respond c op).1 ∧
      InMemory (memoryStorage.respond (m, stats) op).2 (BodyCursor.machine.respond c op).2 := by
  have hclosed : m.closed = true := hm.closed.trans hstate
  have hsize : m.size = c.data.length := hm.size
  cases op with
  | read n =>
      simp only [memoryStorage, BodyCursor.machine, MemoryStorage.read, hclosed, hstate, if_true]
      exact ⟨rfl, hm⟩
  | seek offset whence =>
      simp only [memoryStorage, BodyCursor.machine, MemoryStorage.seek, hclosed, hstate, if_true]
      exact ⟨rfl, hm⟩
  | bytes =>
      simp only [memoryStorage, BodyCursor.machine, MemoryStorage.bytes, hclosed, hstate, if_true]
      exact ⟨rfl, hm⟩
  | close =>
      simp only [memoryStorage, BodyCursor.machine, MemoryStorage.close, hclosed, if_true]
      exact ⟨rfl, hm.data, hm.reader, hm.size, hclosed⟩
  | size =>
      simp only [memoryStorage, BodyCursor.machine, hsize]
      exact ⟨rfl, hm⟩

theorem memory_open (hm : InMemory (m, stats) c) (hstate : c.closed = false) (op : StorageOp) :
    (memoryStorage.respond (m, stats) op).1.seen = (BodyCursor.machine.respond c op).1 ∧
      InMemory (memoryStorage.respond (m, stats) op).2 (BodyCursor.machine.respond c op).2 := by
  have hopen : m.closed = false := hm.closed.trans hstate
  have hdata : m.data = c.data := hm.data
  have hreader : m.reader = ⟨c.data, c.position⟩ := hm.reader
  have hsize : m.size = c.data.length := hm.size
  cases op with
  | read n =>
      obtain ⟨hanswer, hnext⟩ := bytesReader_read c n
      obtain ⟨hsame, hkept⟩ := c.read_keeps n
      simp only [memoryStorage, BodyCursor.machine, MemoryStorage.read, hopen, hstate, hreader,
        Bool.false_eq_true, if_false]
      refine ⟨hanswer, hdata.trans hsame.symm, ?_, by rw [hsame]; exact hsize,
        (hkept.trans hstate).symm⟩
      rw [hsame]
      exact hnext
  | seek offset whence =>
      obtain ⟨hanswer, hnext⟩ := bytesReader_seek c offset whence
      obtain ⟨hsame, hkept⟩ := c.seek_keeps offset whence
      simp only [memoryStorage, BodyCursor.machine, MemoryStorage.seek, hopen, hstate, hreader,
        Bool.false_eq_true, if_false]
      refine ⟨hanswer, hdata.trans hsame.symm, ?_, by rw [hsame]; exact hsize,
        (hkept.trans hstate).symm⟩
      rw [hsame]
      exact hnext
  | bytes =>
      simp only [memoryStorage, BodyCursor.machine, MemoryStorage.bytes, hopen, hstate, hdata,
        Bool.false_eq_true, if_false]
      exact ⟨rfl, hm⟩
  | close =>
      simp only [memoryStorage, BodyCursor.machine, MemoryStorage.close, hopen, Bool.false_eq_true,
        if_false]
      exact ⟨rfl, hdata, hreader, hsize, rfl⟩
  | size =>
      simp only [memoryStorage, BodyCursor.machine, hsize]
      exact ⟨rfl, hm⟩

theorem disk_closed (hd : OnDisk (d, stats) c) (hstate : c.closed = true) (op : StorageOp) :
    (diskStorage.respond (d, stats) op).1.seen = (BodyCursor.machine.respond c op).1 ∧
      OnDisk (diskStorage.respond (d, stats) op).2 (BodyCursor.machine.respond c op).2 := by
  have hclosed : d.closed = true := hd.closed.trans hstate
  have hsize : d.size = c.data.length := hd.size
  cases op with
  | read n =>
      simp only [diskStorage, BodyCursor.machine, DiskStorage.read, withFile_closed hclosed, hstate,
        if_true]
      exact ⟨rfl, hd⟩
  | seek offset whence =>
      simp only [diskStorage, BodyCursor.machine, DiskStorage.seek, withFile_closed hclosed, hstate,
        if_true]
      exact ⟨rfl, hd⟩
  | bytes =>
      simp only [diskStorage, BodyCursor.machine, DiskStorage.bytes, withFile_closed hclosed, hstate,
        if_true]
      exact ⟨rfl, hd⟩
  | close =>
      simp only [diskStorage, BodyCursor.machine, DiskStorage.close, hclosed, if_true]
      exact ⟨rfl, nofun, hsize, hclosed⟩
  | size =>
      simp only [diskStorage, BodyCursor.machine, hsize]
      exact ⟨rfl, hd⟩

theorem disk_open (hd : OnDisk (d, stats) c) (hstate : c.closed = false) (op : StorageOp)
    (hproper : op.Proper) :
    (diskStorage.respond (d, stats) op).1.seen = (BodyCursor.machine.respond c op).1 ∧
      OnDisk (diskStorage.respond (d, stats) op).2 (BodyCursor.machine.respond c op).2 := by
  have hopen : d.closed = false := hd.closed.trans hstate
  have hfile : d.file = some ⟨c.data, c.position⟩ := hd.file hstate
  have hsize : d.size = c.data.length := hd.size
  cases op with
  | read n =>
      obtain ⟨hanswer, hnext⟩ := file_read (c := c) hproper
      obtain ⟨hsame, hkept⟩ := c.read_keeps n
      have hcall : d.read n = _ := withFile_open hopen hfile rfl
      have hcursor : BodyCursor.machine.respond c (.read n) = c.read n := if_neg (by simp [hstate])
      show (d.read n).1.seen = _ ∧ OnDisk ((d.read n).2, stats) _
      rw [hcursor, hcall]
      refine ⟨hanswer, fun _ => ?_, by rw [hsame]; exact hsize,
        hopen.trans (hkept.trans hstate).symm⟩
      rw [hsame]
      exact congrArg some hnext
  | seek offset whence =>
      obtain ⟨hanswer, hnext⟩ := file_seek c offset whence
      obtain ⟨hsame, hkept⟩ := c.seek_keeps offset whence
      have hcall : d.seek offset whence = _ := withFile_open hopen hfile rfl
      have hcursor : BodyCursor.machine.respond c (.seek offset whence) = c.seek offset whence :=
        if_neg (by simp [hstate])
      show (d.seek offset whence).1.seen = _ ∧ OnDisk ((d.seek offset whence).2, stats) _
      rw [hcursor, hcall]
      refine ⟨hanswer, fun _ => ?_, by rw [hsame]; exact hsize,
        hopen.trans (hkept.trans hstate).symm⟩
      rw [hsame]
      exact congrArg some hnext
  | bytes =>
      have hcursor : BodyCursor.machine.respond c .bytes = ((c.data, 0, false), c) :=
        congrArg (·, c) (if_neg (by simp [hstate]))
      show d.bytes.1.seen = _ ∧ OnDisk (d.bytes.2, stats) _
      rw [hcursor, disk_bytes hopen hfile hsize]
      exact ⟨rfl, hd⟩
  | close =>
      simp only [diskStorage, BodyCursor.machine, DiskStorage.close, hopen, Bool.false_eq_true,
        if_false]
      exact ⟨rfl, nofun, hsize, rfl⟩
  | size =>
      simp only [diskStorage, BodyCursor.machine, hsize]
      exact ⟨rfl, hd⟩

end

theorem memoryStorage_simulates :
    memoryStorage.Simulates BodyCursor.machine Answer.seen id StorageOp.Proper InMemory := by
  rintro ⟨m, stats⟩ c op hm -
  cases hstate : c.closed with
  | true => exact memory_closed hm hstate op
  | false => exact memory_open hm hstate op

theorem diskStorage_simulates :
    diskStorage.Simulates BodyCursor.machine Answer.seen id StorageOp.Proper OnDisk := by
  rintro ⟨d, stats⟩ c op hd hproper
  cases hstate : c.closed with
  | true => exact disk_closed hd hstate op
  | false => exact disk_open hd hstate op hproper

/-! ## The counters -/

inductive AnyStorage
  | memory (m : MemoryStorage)
  | disk (d : DiskStorage)
deriving DecidableEq

/-- All storages that have been made, and the global counters. -/
structure StorageState where
  storages : List AnyStorage
  stats : DiskCacheStats
deriving DecidableEq

inductive StorageAction
  | newMemoryStorage (data : List UInt8)
  | newDiskStorage (data : List UInt8)
  | call (storage : ℕ) (op : StorageOp)
deriving DecidableEq

def step (s : StorageState) : StorageAction → Option StorageState
  | .newMemoryStorage data =>
      some ⟨s.storages ++ [.memory (.new data)], s.stats.incrementMemoryBuffers data.length⟩
  | .newDiskStorage data =>
      some ⟨s.storages ++ [.disk (.new data)], s.stats.incrementDiskFiles data.length⟩
  | .call storage op =>
      match s.storages[storage]? with
      | some (.memory m) =>
          let (m, stats) := (memoryStorage.respond (m, s.stats) op).2
          some ⟨s.storages.set storage (.memory m), stats⟩
      | some (.disk d) =>
          let (d, stats) := (diskStorage.respond (d, s.stats) op).2
          some ⟨s.storages.set storage (.disk d), stats⟩
      | none => none

def system : System StorageState StorageAction where
  step := step

def StorageState.initial : StorageState where
  storages := []
  stats := ⟨0, 0, 0, 0⟩

namespace AnyStorage

/-- Whether the storage counts as a file, and the bytes of its file. -/
def diskFiles : AnyStorage → ℤ
  | .memory _ => 0
  | .disk d => if d.closed then 0 else 1

def diskBytes : AnyStorage → ℤ
  | .memory _ => 0
  | .disk d => if d.closed then 0 else (d.file.map fun file => (file.content.length : ℤ)).getD 0

/-- Whether the storage counts as a buffer, and the bytes of its buffer. -/
def memoryBuffers : AnyStorage → ℤ
  | .memory m => if m.closed then 0 else 1
  | .disk _ => 0

def memoryBytes : AnyStorage → ℤ
  | .memory m => if m.closed then 0 else m.data.length
  | .disk _ => 0

/-- The size is that of the content. -/
def Sized : AnyStorage → Prop
  | .memory m => m.size = m.data.length
  | .disk d => d.closed = false → ∃ file, d.file = some file ∧ d.size = file.content.length

end AnyStorage

/-- The counters are the sums over the storages that are open. -/
structure Counted (s : StorageState) : Prop where
  diskFiles : s.stats.activeDiskFiles = total AnyStorage.diskFiles s.storages
  diskBytes : s.stats.currentDiskUsageBytes = total AnyStorage.diskBytes s.storages
  memoryBuffers : s.stats.activeMemoryBuffers = total AnyStorage.memoryBuffers s.storages
  memoryBytes : s.stats.currentMemoryUsageBytes = total AnyStorage.memoryBytes s.storages

section

variable {s s' : StorageState} {action : StorageAction}

/-- A call changes the counters only where it closes an open storage. -/
theorem memory_call (m : MemoryStorage) (stats : DiskCacheStats) (op : StorageOp) {m' : MemoryStorage}
    {stats' : DiskCacheStats} (hcall : (memoryStorage.respond (m, stats) op).2 = (m', stats')) :
    m'.data = m.data ∧ m'.size = m.size ∧
      (m'.closed = m.closed ∧ stats' = stats ∨
        m.closed = false ∧ m'.closed = true ∧ stats' = stats.decrementMemoryBuffers m.size) := by
  cases op with
  | read n =>
      obtain ⟨rfl, rfl⟩ := Prod.mk.inj hcall
      unfold MemoryStorage.read
      split <;> exact ⟨rfl, rfl, .inl ⟨rfl, rfl⟩⟩
  | seek offset whence =>
      obtain ⟨rfl, rfl⟩ := Prod.mk.inj hcall
      unfold MemoryStorage.seek
      split <;> exact ⟨rfl, rfl, .inl ⟨rfl, rfl⟩⟩
  | bytes =>
      obtain ⟨rfl, rfl⟩ := Prod.mk.inj hcall
      exact ⟨rfl, rfl, .inl ⟨rfl, rfl⟩⟩
  | close =>
      have hclose : m.close stats = (m', stats') := hcall
      rw [MemoryStorage.close] at hclose
      cases hclosed : m.closed with
      | true =>
          rw [if_pos hclosed] at hclose
          cases hclose
          exact ⟨rfl, rfl, .inl ⟨hclosed, rfl⟩⟩
      | false =>
          rw [if_neg (by simp [hclosed])] at hclose
          cases hclose
          exact ⟨rfl, rfl, .inr ⟨rfl, rfl, rfl⟩⟩
  | size =>
      obtain ⟨rfl, rfl⟩ := Prod.mk.inj hcall
      exact ⟨rfl, rfl, .inl ⟨rfl, rfl⟩⟩

theorem File.read_content (file : File) (n : ℕ) : (file.read n).2.content = file.content := by
  unfold File.read
  dsimp only
  split <;> rfl

theorem File.seek_content (file : File) (offset : Int64) (whence : Whence) :
    (file.seek offset whence).2.content = file.content := by
  unfold File.seek
  dsimp only
  split_ifs <;> rfl

theorem File.readFull_content (file : File) (n : ℕ) :
    (file.readFull n).2.content = file.content := by
  unfold File.readFull
  dsimp only
  split
  · rfl
  · split <;> exact file.read_content n

theorem File.bytes_content (file : File) (size : ℤ) :
    (file.bytes size).2.content = file.content := by
  unfold File.bytes
  dsimp only
  split_ifs <;> simp only [File.seek_content, File.readFull_content]

/-- A call with the open file leaves its content, the size and whether the storage is closed. -/
theorem withFile_keeps {call : File → Answer × File}
    (hcall : ∀ file, (call file).2.content = file.content) (d : DiskStorage) :
    (d.withFile call).2.size = d.size ∧ (d.withFile call).2.closed = d.closed ∧
      (d.withFile call).2.file.map File.content = d.file.map File.content := by
  unfold DiskStorage.withFile
  split
  case isTrue => exact ⟨rfl, rfl, rfl⟩
  case isFalse =>
    split
    case h_1 => exact ⟨rfl, rfl, rfl⟩
    case h_2 file hfile =>
      refine ⟨rfl, rfl, ?_⟩
      rw [hfile]
      exact congrArg some (hcall file)

theorem disk_call (d : DiskStorage) (stats : DiskCacheStats) (op : StorageOp) {d' : DiskStorage}
    {stats' : DiskCacheStats} (hcall : (diskStorage.respond (d, stats) op).2 = (d', stats')) :
    d'.size = d.size ∧
      (d'.closed = d.closed ∧ stats' = stats ∧
          d'.file.map File.content = d.file.map File.content ∨
        d.closed = false ∧ d'.closed = true ∧ stats' = stats.decrementDiskFiles d.size) := by
  have hkeeps : ∀ {call : File → Answer × File}, (∀ file, (call file).2.content = file.content) →
      ((d.withFile call).2, stats) = (d', stats') →
      d'.size = d.size ∧ (d'.closed = d.closed ∧ stats' = stats ∧
          d'.file.map File.content = d.file.map File.content ∨
        d.closed = false ∧ d'.closed = true ∧ stats' = stats.decrementDiskFiles d.size) := by
    intro call hcontent hsame
    obtain ⟨rfl, rfl⟩ := Prod.mk.inj hsame
    obtain ⟨hsize, hclosed, hfile⟩ := withFile_keeps hcontent d
    exact ⟨hsize, .inl ⟨hclosed, rfl, hfile⟩⟩
  cases op with
  | read n => exact hkeeps (fun file => file.read_content n) hcall
  | seek offset whence => exact hkeeps (fun file => file.seek_content offset whence) hcall
  | bytes => exact hkeeps (fun file => file.bytes_content d.size) hcall
  | close =>
      have hclose : d.close stats = (d', stats') := hcall
      rw [DiskStorage.close] at hclose
      cases hclosed : d.closed with
      | true =>
          rw [if_pos hclosed] at hclose
          cases hclose
          exact ⟨rfl, .inl ⟨hclosed, rfl, rfl⟩⟩
      | false =>
          rw [if_neg (by simp [hclosed])] at hclose
          cases hclose
          exact ⟨rfl, .inr ⟨rfl, rfl, rfl⟩⟩
  | size =>
      obtain ⟨rfl, rfl⟩ := Prod.mk.inj hcall
      exact ⟨rfl, .inl ⟨rfl, rfl, rfl⟩⟩

/-- A new storage adds what it measures to the sums. -/
theorem counted_append {storage : AnyStorage} {stats : DiskCacheStats} (hs : Counted s)
    (hdiskFiles : stats.activeDiskFiles = s.stats.activeDiskFiles + storage.diskFiles)
    (hdiskBytes : stats.currentDiskUsageBytes = s.stats.currentDiskUsageBytes + storage.diskBytes)
    (hmemoryBuffers :
      stats.activeMemoryBuffers = s.stats.activeMemoryBuffers + storage.memoryBuffers)
    (hmemoryBytes :
      stats.currentMemoryUsageBytes = s.stats.currentMemoryUsageBytes + storage.memoryBytes) :
    Counted ⟨s.storages ++ [storage], stats⟩ := by
  obtain ⟨hfiles, hbytes, hbuffers, hheld⟩ := hs
  constructor
  · simpa [hdiskFiles] using hfiles
  · simpa [hdiskBytes] using hbytes
  · simpa [hmemoryBuffers] using hbuffers
  · simpa [hmemoryBytes] using hheld

/-- A storage that is replaced exchanges what it measures. -/
theorem counted_set {i : ℕ} {old storage : AnyStorage} {stats : DiskCacheStats} (hs : Counted s)
    (hold : s.storages[i]? = some old)
    (hdiskFiles :
      stats.activeDiskFiles + old.diskFiles = s.stats.activeDiskFiles + storage.diskFiles)
    (hdiskBytes : stats.currentDiskUsageBytes + old.diskBytes =
      s.stats.currentDiskUsageBytes + storage.diskBytes)
    (hmemoryBuffers : stats.activeMemoryBuffers + old.memoryBuffers =
      s.stats.activeMemoryBuffers + storage.memoryBuffers)
    (hmemoryBytes : stats.currentMemoryUsageBytes + old.memoryBytes =
      s.stats.currentMemoryUsageBytes + storage.memoryBytes) :
    Counted ⟨s.storages.set i storage, stats⟩ := by
  obtain ⟨hfiles, hbytes, hbuffers, hheld⟩ := hs
  constructor
  · show stats.activeDiskFiles = total AnyStorage.diskFiles (s.storages.set i storage)
    rw [Pool.total_set hold]
    omega
  · show stats.currentDiskUsageBytes = total AnyStorage.diskBytes (s.storages.set i storage)
    rw [Pool.total_set hold]
    omega
  · show stats.activeMemoryBuffers = total AnyStorage.memoryBuffers (s.storages.set i storage)
    rw [Pool.total_set hold]
    omega
  · show stats.currentMemoryUsageBytes = total AnyStorage.memoryBytes (s.storages.set i storage)
    rw [Pool.total_set hold]
    omega

theorem counted_memory {i : ℕ} {m m' : MemoryStorage} {op : StorageOp} {stats : DiskCacheStats}
    (hs : Counted s) (hm : s.storages[i]? = some (.memory m)) (hsized : AnyStorage.Sized (.memory m))
    (hcall : (memoryStorage.respond (m, s.stats) op).2 = (m', stats)) :
    Counted ⟨s.storages.set i (.memory m'), stats⟩ ∧ AnyStorage.Sized (.memory m') := by
  have hsized : m.size = m.data.length := hsized
  obtain ⟨hdata, hsize, ⟨hclosed, rfl⟩ | ⟨hopen, hclosed, rfl⟩⟩ := memory_call m s.stats op hcall
  · refine ⟨counted_set hs hm rfl rfl ?_ ?_, hsize.trans (hsized.trans (by rw [hdata]))⟩
    · simp only [AnyStorage.memoryBuffers, hclosed]
    · simp only [AnyStorage.memoryBytes, hclosed, hdata]
  · refine ⟨counted_set hs hm rfl rfl ?_ ?_, hsize.trans (hsized.trans (by rw [hdata]))⟩
    · simp [AnyStorage.memoryBuffers, DiskCacheStats.decrementMemoryBuffers, hopen, hclosed]
    · simp [AnyStorage.memoryBytes, DiskCacheStats.decrementMemoryBuffers, hopen, hclosed, hsized]

theorem counted_disk {i : ℕ} {d d' : DiskStorage} {op : StorageOp} {stats : DiskCacheStats}
    (hs : Counted s) (hd : s.storages[i]? = some (.disk d)) (hsized : AnyStorage.Sized (.disk d))
    (hcall : (diskStorage.respond (d, s.stats) op).2 = (d', stats)) :
    Counted ⟨s.storages.set i (.disk d'), stats⟩ ∧ AnyStorage.Sized (.disk d') := by
  obtain ⟨hsize, ⟨hclosed, rfl, hcontent⟩ | ⟨hopen, hclosed, rfl⟩⟩ := disk_call d s.stats op hcall
  · have hlength : d'.file.map (fun file => (file.content.length : ℤ)) =
        d.file.map fun file => (file.content.length : ℤ) := by
      have hmap := congrArg (Option.map fun content => (content.length : ℤ)) hcontent
      rw [Option.map_map, Option.map_map] at hmap
      exact hmap
    refine ⟨counted_set hs hd ?_ ?_ rfl rfl, fun hopen => ?_⟩
    · simp only [AnyStorage.diskFiles, hclosed]
    · simp only [AnyStorage.diskBytes, hclosed, hlength]
    · obtain ⟨file, hfile, hlength⟩ := hsized (hclosed.symm.trans hopen)
      rw [hfile, Option.map_some] at hcontent
      obtain ⟨file', hfile', hsame⟩ := Option.map_eq_some_iff.1 hcontent
      exact ⟨file', hfile', by rw [hsize, hlength, hsame]⟩
  · obtain ⟨file, hfile, hlength⟩ := hsized hopen
    refine ⟨counted_set hs hd ?_ ?_ rfl rfl, fun hstill => absurd (hclosed.symm.trans hstill) nofun⟩
    · simp [AnyStorage.diskFiles, DiskCacheStats.decrementDiskFiles, hopen, hclosed]
    · simp [AnyStorage.diskBytes, DiskCacheStats.decrementDiskFiles, hopen, hclosed, hfile, hlength]

/-- Every step keeps the counters equal to the sums. -/
theorem counted_step (hstep : step s action = some s')
    (hs : Counted s ∧ ∀ storage ∈ s.storages, storage.Sized) :
    Counted s' ∧ ∀ storage ∈ s'.storages, storage.Sized := by
  obtain ⟨hcounted, hsized⟩ := hs
  cases action with
  | newMemoryStorage data =>
      cases hstep
      refine ⟨counted_append hcounted ?_ ?_ ?_ ?_, List.forall_mem_append.2
        ⟨hsized, List.forall_mem_singleton.2 rfl⟩⟩
      · exact (add_zero _).symm
      · exact (add_zero _).symm
      · rfl
      · rfl
  | newDiskStorage data =>
      cases hstep
      refine ⟨counted_append hcounted ?_ ?_ ?_ ?_, List.forall_mem_append.2
        ⟨hsized, List.forall_mem_singleton.2 fun _ => ⟨_, rfl, rfl⟩⟩⟩
      · rfl
      · rfl
      · exact (add_zero _).symm
      · exact (add_zero _).symm
  | call storage op =>
      rw [step] at hstep
      split at hstep
      case h_1 m hm =>
        cases hstep
        obtain ⟨hafter, hsize⟩ :=
          counted_memory hcounted hm (hsized _ (List.mem_of_getElem? hm)) rfl
        exact ⟨hafter, Pool.forall_mem_set hsized hsize⟩
      case h_2 d hd =>
        cases hstep
        obtain ⟨hafter, hsize⟩ :=
          counted_disk hcounted hd (hsized _ (List.mem_of_getElem? hd)) rfl
        exact ⟨hafter, Pool.forall_mem_set hsized hsize⟩
      case h_3 => cases hstep

end

/-- Nobody can tell by the answers where a body is stored, whose length is an `int`, and in every
run of any storages the counters are the sums over those that are open. -/
theorem storages_interchangeable :
    (∀ (data : List UInt8) (stats stats' : DiskCacheStats) (ops : List StorageOp),
      data.length < 2 ^ 63 → (∀ op ∈ ops, op.Proper) →
        (memoryStorage.answers (.new data, stats) ops).map Answer.seen =
          (diskStorage.answers (.new data, stats') ops).map Answer.seen) ∧
      ∀ (actions : List StorageAction) (s : StorageState),
        system.run .initial actions = some s → Counted s := by
  constructor
  · intro data stats stats' ops hdata hproper
    exact Machine.answers_eq memoryStorage_simulates diskStorage_simulates
      (t := .new data hdata) ⟨rfl, rfl, rfl, rfl⟩ ⟨fun _ => rfl, rfl, rfl⟩ hproper
  · intro actions s hrun
    exact (System.kept_run (I := fun s => Counted s ∧ ∀ storage ∈ s.storages, storage.Sized)
      counted_step ⟨⟨rfl, rfl, rfl, rfl⟩, List.forall_mem_nil _⟩ hrun).1

/-- Reads, seeks, `Bytes` in between, a position before the start, and use after `Close`. -/
def sampleOps : List StorageOp :=
  [.read 2, .bytes, .read 2, .read 1, .seek (-1) .seekEnd, .read 5, .seek (-9) .seekCurrent,
    .seek 1 .seekStart, .read 1, .close, .close, .read 1, .bytes, .size]

theorem sample_answers_agree :
    (memoryStorage.answers (.new [1, 2, 3], ⟨0, 0, 0, 0⟩) sampleOps).map Answer.seen =
        (diskStorage.answers (.new [1, 2, 3], ⟨0, 0, 0, 0⟩) sampleOps).map Answer.seen ∧
      Counted ⟨[.memory ⟨[1, 2], ⟨[1, 2], 0⟩, 2, true⟩, .disk ⟨some ⟨[3], 0⟩, 1, false⟩],
        ⟨1, 1, 0, 0⟩⟩ :=
  ⟨storages_interchangeable.1 [1, 2, 3] _ _ sampleOps (by decide) (by decide),
    storages_interchangeable.2 [.newMemoryStorage [1, 2], .newDiskStorage [3], .call 0 .close,
      .call 0 .close] _ rfl⟩

end BodyStorage

end NewApi.Model
