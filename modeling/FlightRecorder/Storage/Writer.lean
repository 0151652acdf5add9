import FlightRecorder.Storage

/-!
# Writing a file piece by piece

What is appended to a file goes through a buffer: it is held back as long as it fits there, and a
piece as large as the buffer goes straight to the file, behind everything that was held back. So in
the middle of the writing the file holds a front of what was appended. The rest of it is in the
buffer, and is lost if the writer is given up before it was flushed.

* `FileWriter` — a file with what is in it and what is held back of it
* `FileWriter.append`, `FileWriter.flush` — the operations
* `FileWriter.save` — the tree with the file as far as it is written
* `FileWriter.content_appendAll`, `FileWriter.content_flush` — nothing is lost up to a flush
* `FileWriter.written_prefix`, `FileWriter.length_content_le` — what is in the file before that
-/

namespace FlightRecorder

/-- How many bytes a buffer holds back at most. -/
def bufferSize : Nat := 8192

/-- Writes a file from its beginning on. -/
structure FileWriter where
  place : Place
  /-- What is in the file. -/
  written : Array UInt8
  /-- What comes behind it and is held back. -/
  buffered : Array UInt8
  size_le : buffered.size ≤ bufferSize
  deriving DecidableEq, Repr

namespace FileWriter

/-! ## Operations -/

/-- The writer of an empty file. -/
def start (place : Place) : FileWriter where
  place := place
  written := #[]
  buffered := #[]
  size_le := Nat.zero_le _

/-- Writes what is held back. -/
def flush (w : FileWriter) : FileWriter where
  place := w.place
  written := w.written ++ w.buffered
  buffered := #[]
  size_le := Nat.zero_le _

/-- Writes what is held back if so many bytes more would be too much for the buffer. -/
def makeRoom (w : FileWriter) (size : Nat) : FileWriter :=
  if bufferSize < w.buffered.size + size then w.flush else w

theorem size_makeRoom_add_le (w : FileWriter) {size : Nat} (h : size ≤ bufferSize) :
    (w.makeRoom size).buffered.size + size ≤ bufferSize := by
  rw [makeRoom]
  split
  · exact (Nat.zero_add size).symm ▸ h
  · omega

/-- Appends a piece: behind what is held back, or straight to the file if it is as large as the
buffer. -/
def append (w : FileWriter) (piece : Bytes) : FileWriter :=
  let room := w.makeRoom piece.length
  if h : bufferSize ≤ piece.length then { room with written := room.written ++ piece.toArray }
  else
    { room with
      buffered := room.buffered ++ piece.toArray
      size_le := by
        rw [Array.size_append, List.size_toArray]
        exact w.size_makeRoom_add_le (Nat.le_of_not_le h) }

/-- Appends pieces one behind the other. -/
def appendAll (w : FileWriter) (pieces : List Bytes) : FileWriter := pieces.foldl append w

/-- The tree with the file as far as it is written. -/
def save (w : FileWriter) (s : Storage) : Storage := s.write w.place w.written.toList

/-! ## What was appended -/

/-- Everything that was appended, whether it is in the file or held back. -/
def content (w : FileWriter) : Bytes := w.written.toList ++ w.buffered.toList

@[simp]
theorem place_flush (w : FileWriter) : w.flush.place = w.place := rfl

@[simp]
theorem place_makeRoom (w : FileWriter) (size : Nat) : (w.makeRoom size).place = w.place := by
  rw [makeRoom]
  split <;> rfl

@[simp]
theorem place_append (w : FileWriter) (piece : Bytes) : (w.append piece).place = w.place := by
  rw [append]
  split <;> exact w.place_makeRoom _

@[simp]
theorem place_appendAll (w : FileWriter) (pieces : List Bytes) :
    (w.appendAll pieces).place = w.place := by
  induction pieces generalizing w with
  | nil => rfl
  | cons piece pieces ih => exact (ih (w.append piece)).trans (w.place_append piece)

/-- **Behind a flush everything that was appended is in the file.** -/
theorem written_flush (w : FileWriter) : w.flush.written.toList = w.content :=
  Array.toList_append

theorem content_flush (w : FileWriter) : w.flush.content = w.content := by
  rw [content, written_flush]
  exact List.append_nil _

theorem content_makeRoom (w : FileWriter) (size : Nat) : (w.makeRoom size).content = w.content := by
  rw [makeRoom]
  split
  · exact w.content_flush
  · rfl

/-- There is nothing in the way of a piece that goes straight to the file. -/
theorem buffered_makeRoom (w : FileWriter) {size : Nat} (h : bufferSize ≤ size) :
    (w.makeRoom size).buffered = #[] := by
  rw [makeRoom]
  split
  · rfl
  · exact Array.eq_empty_of_size_eq_zero (by omega)

/-- **A piece comes behind everything that was appended before**, whichever way it takes. -/
theorem content_append (w : FileWriter) (piece : Bytes) :
    (w.append piece).content = w.content ++ piece := by
  rw [← w.content_makeRoom piece.length, append]
  split
  · next h => simp [content, w.buffered_makeRoom h]
  · simp [content]

theorem content_appendAll (w : FileWriter) (pieces : List Bytes) :
    (w.appendAll pieces).content = w.content ++ pieces.flatten := by
  induction pieces generalizing w with
  | nil => exact (List.append_nil _).symm
  | cons piece pieces ih =>
    calc ((w.append piece).appendAll pieces).content
      _ = (w.append piece).content ++ pieces.flatten := ih _
      _ = w.content ++ (piece :: pieces).flatten := by
        rw [content_append, List.append_assoc, List.flatten_cons]

/-- A new file has the data of the pieces that were appended to it, and nothing else. -/
theorem content_start_appendAll {α : Type} (place : Place) (data : α → Bytes) (pieces : List α) :
    ((start place).appendAll (pieces.map data)).content = pieces.flatMap data := by
  rw [content_appendAll, List.flatMap_def]
  rfl

/-! ## The file before a flush -/

/-- **The file holds a front of what was appended.** -/
theorem written_prefix (w : FileWriter) : w.written.toList <+: w.content :=
  List.prefix_append _ _

/-- **No more than a buffer is missing in the file.** -/
theorem length_content_le (w : FileWriter) : w.content.length ≤ w.written.size + bufferSize := by
  have := w.size_le
  simp only [content, List.length_append, Array.length_toList]
  omega

/-! ## The tree -/

/-- Of two writings of one file the later one counts. -/
theorem save_save {w w' : FileWriter} (h : w'.place = w.place) (s : Storage) :
    w'.save (w.save s) = w'.save s := by
  rw [save, save, save, h]
  exact Storage.put_put _ _ _ _

/-- **Behind a flush the file has everything that was appended.** -/
theorem save_flush (w : FileWriter) (s : Storage) :
    w.flush.save s = s.put w.place (.file w.content) := by
  rw [save, written_flush]
  rfl

end FileWriter

end FlightRecorder
