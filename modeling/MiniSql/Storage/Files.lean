import Mathlib.Logic.Function.Basic
import MiniSql.Foundation.Cut
import MiniSql.Parser.Ast

set_option autoImplicit false

/-!
# Files

The files under their paths, compared byte for byte.  Opening a missing file to
read it fails; every other file call succeeds, and the directories a new file
needs are there.
-/

namespace MiniSql

open Foundation

/-- The content of every file there is. -/
abbrev FileSystem : Type := Bytes → Option Bytes

/-- The content of a file, a missing file counting as empty. -/
def FileSystem.content (files : FileSystem) (path : Bytes) : Bytes := (files path).getD []

/-- `read_text_file`, its buffer read as a C string by every caller. -/
def readTextFile (path : Bytes) (files : FileSystem) : Except SqlError Bytes :=
  match files path with
  | none => .error (.openFailed path)
  | some content => .ok (cString content)

/-- `write_text_file`. -/
def writeTextFile (path content : Bytes) (files : FileSystem) : FileSystem :=
  Function.update files path (some content)

/-- `append_text_file`. -/
def appendTextFile (path content : Bytes) (files : FileSystem) : FileSystem :=
  Function.update files path (some (files.content path ++ content))

section Frame

variable {path other content : Bytes} {files : FileSystem}

@[simp] theorem writeTextFile_same :
    writeTextFile path content files path = some content := by
  simp [writeTextFile]

theorem writeTextFile_of_ne (h : other ≠ path) :
    writeTextFile path content files other = files other := by
  simp [writeTextFile, h]

@[simp] theorem appendTextFile_same :
    appendTextFile path content files path = some (files.content path ++ content) := by
  simp [appendTextFile]

theorem appendTextFile_of_ne (h : other ≠ path) :
    appendTextFile path content files other = files other := by
  simp [appendTextFile, h]

@[simp] theorem content_appendTextFile :
    (appendTextFile path content files).content path = files.content path ++ content := by
  simp [FileSystem.content]

theorem content_appendTextFile_of_ne (h : other ≠ path) :
    (appendTextFile path content files).content other = files.content other := by
  simp [FileSystem.content, appendTextFile_of_ne h]

@[simp] theorem content_writeTextFile :
    (writeTextFile path content files).content path = content := by
  simp [FileSystem.content]

/-- Emptying a file that holds nothing changes no content. -/
theorem content_writeTextFile_empty (h : files.content path = []) :
    (writeTextFile path [] files).content other = files.content other := by
  by_cases hpath : other = path
  · rw [hpath, content_writeTextFile, h]
  · simp [FileSystem.content, writeTextFile_of_ne hpath]

end Frame

/-! ## Reading a file with `fgets` -/

/-- `sizeof(line)` in `run_select_query`. -/
def lineCapacity : Nat := 4096

/-- `fgets` returns behind a newline, or when only the terminator still fits. -/
def recordFull : Bytes → Bool := chunkFull (· == newline) (lineCapacity - 1)

/-- What the successive calls of `fgets` leave in `line`, up to its first NUL. -/
def readRecords (content : Bytes) : List Bytes := (cut recordFull content).map cString

/-- The lines of a file, however long they are. -/
def fileLines (content : Bytes) : List Bytes := cut (endsWith (· == newline)) content

end MiniSql
