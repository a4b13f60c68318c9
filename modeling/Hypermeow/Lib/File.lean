/-
Files and readers, as far as code that streams through them uses them.

A file is its content and an offset. A write behind the end fills the gap with zeros, and so does a truncation to a larger
size. A reader hands out its bytes in chunks of any size; `readFull` reads until its buffer is full or the reader ends.

`Streams` is a source that is read in full buffers together with a sink that is written from the start on. `Streams.Law`
says that the two work together: what is read is the rest of the source, and what is written follows what was written
before. Four pairs meet it:
- `toFile`: a reader and a file that is written at positions, whatever it held before is overwritten;
- `toWriter`: a reader and an empty file that is written at its offset, in pieces that may be short;
- `toWrites`: a reader and a writer, each of whose calls takes a number of bytes of its own;
- `inPlace`: one file, overwritten behind the place it is read at.
-/
import Hypermeow.Lib.Slice

namespace Hypermeow.Lib

open List Option

/-! ## Files -/

structure File where
  content : Bytes
  offset : ℕ
deriving DecidableEq, Repr

/-- the content after `data` was written at `pos` -/
def overwrite (content : Bytes) (pos : ℕ) (data : Bytes) : Bytes :=
  if data = [] then content
  else content.take pos ++ (List.replicate (pos - content.length) 0 ++ (data ++ content.drop (pos + data.length)))

theorem overwrite_append (a b data : Bytes) : overwrite (a ++ b) a.length data = a ++ (data ++ b.drop data.length) := by
  rw [overwrite]
  split_ifs with h
  · simp [h]
  · have hz : a.length - (a ++ b).length = 0 := by simp
    rw [take_left, hz, drop_append]
    simp

theorem overwrite_zero (content data : Bytes) : overwrite content 0 data = data ++ content.drop data.length :=
  overwrite_append [] content data

theorem overwrite_end (content data : Bytes) : overwrite content content.length data = content ++ data := by
  have := overwrite_append content [] data
  simpa using this

variable {data : Bytes}

theorem length_overwrite (content : Bytes) (pos : ℕ) (h : data ≠ []) :
    (overwrite content pos data).length = max content.length (pos + data.length) := by
  rw [overwrite, if_neg h]
  simp only [length_append, length_take, length_replicate, length_drop]
  omega

namespace File

variable (f : File)

/-- write at the offset -/
def write (data : Bytes) : File := ⟨overwrite f.content f.offset data, f.offset + data.length⟩

def writeAt (data : Bytes) (pos : ℕ) : File := { f with content := overwrite f.content pos data }

def seekStart : File := { f with offset := 0 }

/-- what is there from the offset on, and the file after it was read -/
def readAll : Bytes × File := (f.content.drop f.offset, { f with offset := max f.offset f.content.length })

/-- as many bytes as there are, at most `n` -/
def readFull (n : ℕ) : Bytes × File :=
  let bs := (f.content.drop f.offset).take n
  (bs, { f with offset := f.offset + bs.length })

/-- exactly `n` bytes from `pos` on -/
def readAt (n pos : ℕ) : Option Bytes :=
  let bs := (f.content.drop pos).take n
  if bs.length = n then some bs else none

def truncate (size : ℕ) : File :=
  { f with content := f.content.take size ++ List.replicate (size - f.content.length) 0 }

/-- room for `size` bytes; the file is only extended, with zeros -/
def preallocate (size : ℕ) : File := { f with content := f.content ++ List.replicate (size - f.content.length) 0 }

theorem truncate_le {size : ℕ} (h : size ≤ f.content.length) :
    f.truncate size = { f with content := f.content.take size } := by
  simp [truncate, Nat.sub_eq_zero_of_le h]

theorem readAt_run {n pos : ℕ} (h : pos + n ≤ f.content.length) :
    f.readAt n pos = some ((f.content.drop pos).take n) := by
  rw [readAt, if_pos]
  rw [length_take, length_drop]
  omega

end File

/-! ## Readers -/

/-- `io.ReadFull` on a reader that returns the chunks one after the other and then the end: what was read and what the reader
still has. A read takes no more of a chunk than there is room for. -/
def readFull : ℕ → List Bytes → Bytes × List Bytes
  | _, [] => ([], [])
  | n, c :: cs =>
    if n = 0 then ([], c :: cs)
    else if c.length ≤ n then
      let r := readFull (n - c.length) cs
      (c ++ r.1, r.2)
    else (c.take n, c.drop n :: cs)

theorem readFull_spec (n : ℕ) (cs : List Bytes) :
    (readFull n cs).1 = cs.flatten.take n ∧ (readFull n cs).2.flatten = cs.flatten.drop n := by
  induction cs generalizing n with
  | nil => simp [readFull]
  | cons c cs ih =>
    rw [readFull]
    split_ifs with h0 hc
    · simp [h0]
    · obtain ⟨hread, hrest⟩ := ih (n - c.length)
      simp [hread, hrest, take_append, drop_append, take_of_length_le hc, drop_eq_nil_of_le hc]
    · have hle : n ≤ c.length := by omega
      simp [take_append_of_le_length hle, drop_append_of_le_length hle]

/-- `Write` until everything is written; one call takes at most `room` bytes, and taking none is an error -/
def writeAll (room : ℕ) : ℕ → Bytes → File → Option File
  | 0, _, f => some f
  | fuel + 1, data, f =>
    if data = [] then some f
    else if room = 0 then none
    else writeAll room fuel (data.drop room) (f.write (data.take room))

theorem writeAll_run {room : ℕ} (hroom : 0 < room) {fuel : ℕ} (hfuel : data.length ≤ fuel) (content : Bytes) :
    writeAll room fuel data ⟨content, content.length⟩ = some ⟨content ++ data, (content ++ data).length⟩ := by
  induction fuel generalizing data content with
  | zero =>
    have hdata : data = [] := eq_nil_of_length_eq_zero (Nat.le_zero.1 hfuel)
    simp [writeAll, hdata]
  | succ fuel ih =>
    rw [writeAll]
    split_ifs with hdata
    · simp [hdata]
    · omega
    · have hpos : 0 < data.length := length_pos_iff.2 hdata
      have hwrite : (File.mk content content.length).write (data.take room) =
          ⟨content ++ data.take room, (content ++ data.take room).length⟩ := by
        simp [File.write, overwrite_end]
      have hlen : (data.drop room).length ≤ fuel := by
        rw [length_drop]
        omega
      rw [hwrite, ih hlen, append_assoc, take_append_drop]

/-- a plain writer: what it has taken so far, and in how many calls -/
structure Writer where
  written : Bytes
  calls : ℕ
deriving DecidableEq, Repr

/-- one call; it takes at most `takes` of its number -/
def Writer.write (takes : ℕ → ℕ) (data : Bytes) (w : Writer) : Writer :=
  ⟨w.written ++ data.take (takes w.calls), w.calls + 1⟩

/-- `Write` until everything is written; a call that takes none is an error -/
def Writer.writeAll (takes : ℕ → ℕ) : ℕ → Bytes → Writer → Option Writer
  | 0, _, w => some w
  | fuel + 1, data, w =>
    if data = [] then some w
    else if takes w.calls = 0 then none
    else Writer.writeAll takes fuel (data.drop (takes w.calls)) (w.write takes data)

theorem Writer.writeAll_run {takes : ℕ → ℕ} (htakes : ∀ k, 0 < takes k) {fuel : ℕ}
    (hfuel : data.length ≤ fuel) (w : Writer) :
    ∃ w', w.writeAll takes fuel data = some w' ∧ w'.written = w.written ++ data := by
  induction fuel generalizing data w with
  | zero =>
    have hdata : data = [] := eq_nil_of_length_eq_zero (Nat.le_zero.1 hfuel)
    exact ⟨w, rfl, by simp [hdata]⟩
  | succ fuel ih =>
    rw [Writer.writeAll]
    split_ifs with hdata hnone
    · exact ⟨w, rfl, by simp [hdata]⟩
    · exact absurd hnone (htakes w.calls).ne'
    · have hpos : 0 < data.length := length_pos_iff.2 hdata
      have hlen : (data.drop (takes w.calls)).length ≤ fuel := by
        have := htakes w.calls
        rw [length_drop]
        omega
      obtain ⟨w', hrun, hwritten⟩ := ih hlen (w.write takes data)
      refine ⟨w', hrun, ?_⟩
      rw [hwritten, Writer.write, append_assoc, take_append_drop]

/-! ## Sources with sinks -/

/-- a source that is read in full buffers and a sink -/
structure Streams (σ : Type) where
  /-- how many bytes the source still has -/
  remaining : σ → ℕ
  readFull : ℕ → σ → Bytes × σ
  /-- write at a position; a sink that is written at its offset ignores it -/
  put : Bytes → ℕ → σ → Option σ

/-- `Open s rest out`: the source still has `rest` and the sink has `out`. `Closed s out`: the source has ended. A buffer
that was read in full is replaced by one of its own length, the last one by any that is not shorter. -/
structure Streams.Law {σ : Type} (S : Streams σ) (Open : σ → Bytes → Bytes → Prop) (Closed : σ → Bytes → Prop) :
    Prop where
  remaining : ∀ {s rest out}, Open s rest out → S.remaining s = rest.length
  read : ∀ {s rest out}, Open s rest out → ∀ n, (S.readFull n s).1 = rest.take n
  full : ∀ {s rest out n buf}, Open s rest out → buf.length = n → n ≤ rest.length →
    ∃ s', S.put buf out.length (S.readFull n s).2 = some s' ∧ Open s' (rest.drop n) (out ++ buf)
  last : ∀ {s rest out n buf}, Open s rest out → rest.length < n → rest.length ≤ buf.length →
    ∃ s', S.put buf out.length (S.readFull n s).2 = some s' ∧ Closed s' (out ++ buf)
  append : ∀ {s out}, Closed s out → ∀ buf, ∃ s', S.put buf out.length s = some s' ∧ Closed s' (out ++ buf)

/-- a reader and a file with `WriteAt` -/
def Streams.toFile : Streams (List Bytes × File) where
  remaining s := s.1.flatten.length
  readFull n s := ((Lib.readFull n s.1).1, (Lib.readFull n s.1).2, s.2)
  put buf pos s := some (s.1, s.2.writeAt buf pos)

/-- a reader and a file without; a write takes at most `room` bytes -/
def Streams.toWriter (room : ℕ) : Streams (List Bytes × File) where
  remaining s := s.1.flatten.length
  readFull n s := ((Lib.readFull n s.1).1, (Lib.readFull n s.1).2, s.2)
  put buf _ s := (writeAll room buf.length buf s.2).map fun f => (s.1, f)

/-- a reader and a writer that takes what it likes of each call -/
def Streams.toWrites (takes : ℕ → ℕ) : Streams (List Bytes × Writer) where
  remaining s := s.1.flatten.length
  readFull n s := ((Lib.readFull n s.1).1, (Lib.readFull n s.1).2, s.2)
  put buf _ s := (s.2.writeAll takes buf.length buf).map fun w => (s.1, w)

/-- one file that is read at its offset and written with `WriteAt` -/
def Streams.inPlace : Streams File where
  remaining f := (f.content.drop f.offset).length
  readFull n f := f.readFull n
  put buf pos f := some (f.writeAt buf pos)

theorem Streams.law_toFile :
    toFile.Law (fun s rest out => s.1.flatten = rest ∧ s.2.content = out) (fun s out => s.2.content = out) where
  remaining := by
    rintro s rest out ⟨rfl, -⟩
    rfl
  read := by
    rintro s rest out ⟨rfl, -⟩ n
    exact (readFull_spec n s.1).1
  full := by
    rintro s rest out n buf ⟨rfl, rfl⟩ - -
    exact ⟨_, rfl, (readFull_spec n s.1).2, overwrite_end _ _⟩
  last := by
    rintro s rest out n buf ⟨rfl, rfl⟩ - -
    exact ⟨_, rfl, overwrite_end _ _⟩
  append := by
    rintro s out rfl buf
    exact ⟨_, rfl, overwrite_end _ _⟩

/-- a file that held something is overwritten from its start on -/
theorem Streams.law_toFile_over (old : Bytes) :
    toFile.Law (fun s rest out => s.1.flatten = rest ∧ s.2.content = overwrite old 0 out)
      (fun s out => s.2.content = overwrite old 0 out) := by
  have hput : ∀ {content out : Bytes} (buf : Bytes), content = overwrite old 0 out →
      overwrite content out.length buf = overwrite old 0 (out ++ buf) := by
    rintro content out buf rfl
    rw [overwrite_zero, overwrite_append, overwrite_zero, drop_drop, length_append, append_assoc]
  constructor
  · rintro s rest out ⟨rfl, -⟩
    rfl
  · rintro s rest out ⟨rfl, -⟩ n
    exact (readFull_spec n s.1).1
  · rintro ⟨cs, f⟩ rest out n buf ⟨rfl, hf⟩ - -
    exact ⟨_, rfl, (readFull_spec n cs).2, hput buf hf⟩
  · rintro ⟨cs, f⟩ rest out n buf ⟨rfl, hf⟩ - -
    exact ⟨_, rfl, hput buf hf⟩
  · rintro ⟨cs, f⟩ out hf buf
    exact ⟨_, rfl, hput buf hf⟩

/-- what a writer had taken before stays in front -/
theorem Streams.law_toWrites {takes : ℕ → ℕ} (htakes : ∀ k, 0 < takes k) (old : Bytes) :
    (toWrites takes).Law (fun s rest out => s.1.flatten = rest ∧ s.2.written = old ++ out)
      (fun s out => s.2.written = old ++ out) := by
  have hput : ∀ (cs : List Bytes) (w : Writer) (out buf : Bytes) (pos : ℕ), w.written = old ++ out →
      ∃ w', (toWrites takes).put buf pos (cs, w) = some (cs, w') ∧ w'.written = old ++ (out ++ buf) := by
    intro cs w out buf pos hw
    obtain ⟨w', hrun, hwritten⟩ := Writer.writeAll_run htakes (le_refl buf.length) w
    refine ⟨w', ?_, ?_⟩
    · simp only [toWrites, hrun, map_some]
    · rw [hwritten, hw, append_assoc]
  constructor
  · rintro s rest out ⟨rfl, -⟩
    rfl
  · rintro s rest out ⟨rfl, -⟩ n
    exact (readFull_spec n s.1).1
  · rintro ⟨cs, w⟩ rest out n buf ⟨rfl, hw⟩ - -
    obtain ⟨w', hrun, hwritten⟩ := hput (Lib.readFull n cs).2 w out buf out.length hw
    exact ⟨(_, w'), hrun, (readFull_spec n cs).2, hwritten⟩
  · rintro ⟨cs, w⟩ rest out n buf ⟨rfl, hw⟩ - -
    obtain ⟨w', hrun, hwritten⟩ := hput (Lib.readFull n cs).2 w out buf out.length hw
    exact ⟨(_, w'), hrun, hwritten⟩
  · rintro ⟨cs, w⟩ out hw buf
    obtain ⟨w', hrun, hwritten⟩ := hput cs w out buf out.length hw
    exact ⟨(cs, w'), hrun, hwritten⟩

theorem Streams.law_toWriter {room : ℕ} (hroom : 0 < room) :
    (toWriter room).Law (fun s rest out => s.1.flatten = rest ∧ s.2 = ⟨out, out.length⟩)
      (fun s out => s.2 = ⟨out, out.length⟩) := by
  have hput : ∀ (cs : List Bytes) (out buf : Bytes) (pos : ℕ), (toWriter room).put buf pos (cs, ⟨out, out.length⟩) =
      some (cs, ⟨out ++ buf, (out ++ buf).length⟩) := by
    intro cs out buf pos
    simp only [toWriter, writeAll_run hroom (le_refl _), map_some]
  constructor
  · rintro s rest out ⟨rfl, -⟩
    rfl
  · rintro s rest out ⟨rfl, -⟩ n
    exact (readFull_spec n s.1).1
  · rintro ⟨cs, f⟩ rest out n buf ⟨rfl, rfl⟩ - -
    exact ⟨_, hput _ _ _ _, (readFull_spec n cs).2, rfl⟩
  · rintro ⟨cs, f⟩ rest out n buf ⟨rfl, rfl⟩ - -
    exact ⟨_, hput _ _ _ _, rfl⟩
  · rintro ⟨cs, f⟩ out rfl buf
    exact ⟨_, hput _ _ _ _, rfl⟩

theorem Streams.law_inPlace :
    inPlace.Law (fun f rest out => f = ⟨out ++ rest, out.length⟩) (fun f out => f.content = out) where
  remaining := by
    rintro f rest out rfl
    simp [inPlace]
  read := by
    rintro f rest out rfl n
    simp [inPlace, File.readFull]
  full := by
    rintro f rest out n buf rfl hbuf hn
    refine ⟨_, rfl, ?_⟩
    simp [inPlace, File.readFull, File.writeAt, overwrite_append, hbuf, hn]
  last := by
    rintro f rest out n buf rfl hn hbuf
    refine ⟨_, rfl, ?_⟩
    simp [inPlace, File.readFull, File.writeAt, overwrite_append, drop_eq_nil_of_le hbuf]
  append := by
    rintro f out rfl buf
    exact ⟨_, rfl, overwrite_end _ _⟩

end Hypermeow.Lib
