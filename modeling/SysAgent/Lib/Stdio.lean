import Mathlib

set_option autoImplicit false

/-! # Buffered files

A stream opened on a file: its content and the position. Reads and seeks behave as C's `fread` and
`fseek` for one item of a given size, apart from device errors, which a caller passes in as the
answer of the call; a write may stop after any number of bytes. -/

namespace Stdio

/-- The largest offset a `long` holds. -/
def LONG_MAX : Nat := 2 ^ 63 - 1

structure File where
  content : List UInt8
  position : Nat
  deriving DecidableEq, Repr

namespace File

/-- A file opened with `"w+b"`. -/
def create : File :=
  { content := [], position := 0 }

@[simp] theorem create_content : create.content = [] := rfl
@[simp] theorem create_position : create.position = 0 := rfl

/-- A file opened with `"rb"`. -/
def opened (content : List UInt8) : File :=
  { content := content, position := 0 }

/-- `fseek(file, offset, SEEK_SET)`; an offset past `LONG_MAX` is negative as a `long`. -/
def seekSet (f : File) (offset : Nat) : Option File :=
  if offset ≤ LONG_MAX then some { f with position := offset } else none

/-- `fseek(file, 0, SEEK_END)`. -/
def seekEnd (f : File) : File :=
  { f with position := f.content.length }

@[simp] theorem seekEnd_content (f : File) : f.seekEnd.content = f.content := rfl
@[simp] theorem seekEnd_position (f : File) : f.seekEnd.position = f.content.length := rfl

/-- `fread(buffer, size, 1, file)`: the item, unless the file ends before it. -/
def read (f : File) (size : Nat) : Option (List UInt8 × File) :=
  if f.position + size ≤ f.content.length then
    some ((f.content.drop f.position).take size, { f with position := f.position + size })
  else none

/-- `fwrite(bytes, size, 1, file)` where the device takes `accepted` bytes at most: whether the
    item was written, and the file with what was taken of it. No file grows past `LONG_MAX`. -/
def write (f : File) (bytes : List UInt8) (accepted : Nat) : Bool × File :=
  let n := min bytes.length (min accepted (LONG_MAX - f.position))
  (n == bytes.length,
    { content := f.content.take f.position ++
        List.replicate (f.position - f.content.length) 0 ++ bytes.take n ++
        f.content.drop (f.position + n)
      position := f.position + n })

/-! ## Reading what a file holds -/

/-- The bytes at an offset. -/
theorem read_at {f : File} {before item after : List UInt8}
    (hcontent : f.content = before ++ item ++ after) (hposition : f.position = before.length) :
    f.read item.length = some (item, { f with position := before.length + item.length }) := by
  have hfits : f.position + item.length ≤ f.content.length := by
    rw [hcontent, hposition]
    simp
  rw [read, if_pos hfits, hposition, hcontent, List.append_assoc, List.drop_left,
    List.take_left]

theorem seekSet_eq {f : File} {offset : Nat} (h : offset ≤ LONG_MAX) :
    f.seekSet offset = some { f with position := offset } :=
  if_pos h

/-! ## Writing -/

/-- A whole item was written: nothing was cut off. -/
theorem write_ok {f f' : File} {bytes : List UInt8} {accepted : Nat}
    (h : f.write bytes accepted = (true, f')) :
    f.position + bytes.length ≤ max f.position LONG_MAX ∧ f' =
      { content := f.content.take f.position ++
          List.replicate (f.position - f.content.length) 0 ++ bytes ++
          f.content.drop (f.position + bytes.length)
        position := f.position + bytes.length } := by
  simp only [write, Prod.mk.injEq, beq_iff_eq] at h
  obtain ⟨hlen, rfl⟩ := h
  rw [hlen, List.take_length]
  exact ⟨by omega, rfl⟩

/-- Writing at the end appends. -/
theorem write_end {f f' : File} {bytes : List UInt8} {accepted : Nat}
    (hend : f.position = f.content.length) (h : f.write bytes accepted = (true, f')) :
    f' = { content := f.content ++ bytes, position := f.content.length + bytes.length } := by
  obtain ⟨-, rfl⟩ := write_ok h
  simp [hend]

/-- After that the position is at the end again. -/
theorem write_end_position {f f' : File} {bytes : List UInt8} {accepted : Nat}
    (hend : f.position = f.content.length) (h : f.write bytes accepted = (true, f')) :
    f'.position = f'.content.length := by
  rw [write_end hend h]
  exact (List.length_append).symm

/-- Writing at the end keeps the file within `LONG_MAX`. -/
theorem write_end_le {f f' : File} {bytes : List UInt8} {accepted : Nat}
    (hend : f.position = f.content.length) (hle : f.content.length ≤ LONG_MAX)
    (h : f.write bytes accepted = (true, f')) : f'.content.length ≤ LONG_MAX := by
  obtain ⟨hbound, -⟩ := write_ok h
  rw [write_end hend h]
  simp only [List.length_append]
  omega

/-- Overwriting the beginning. -/
theorem write_start {f f' : File} {old rest bytes : List UInt8} {accepted : Nat}
    (hstart : f.position = 0) (hcontent : f.content = old ++ rest)
    (hlen : bytes.length = old.length) (h : f.write bytes accepted = (true, f')) :
    f' = { content := bytes ++ rest, position := bytes.length } := by
  obtain ⟨-, rfl⟩ := write_ok h
  simp [hstart, hcontent, hlen]

end File

end Stdio
