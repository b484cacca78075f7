import ReplicaWatch.Text.Utf8

/-!
# Files

What a path leads to: bytes, or the reason why there are none.

- `Files`, `Files.readText`: whatever answers a path, and the text it leads to;
- `FileTree`, `FileTree.read`: the files below a directory; paths are relative to it.

A path is followed name by name, and the first name that leads nowhere decides. A path that is too long as a whole
is not followed at all; a name that is too long is an error of its own where a file of that name could be.
-/

namespace ReplicaWatch

/-- Why a file cannot be read as text. -/
inductive ReadError
  | missing
  | isDirectory
  | notDirectory
  /-- The path, or one of the names in it, is too long. -/
  | nameTooLong
  /-- The path contains a zero character. -/
  | zeroInPath
  | notUtf8
  /-- The system gives another reason. -/
  | other (reason : String)
deriving DecidableEq, Repr

def ReadError.message : ReadError → String
  | missing => "No such file or directory (os error 2)"
  | isDirectory => "Is a directory (os error 21)"
  | notDirectory => "Not a directory (os error 20)"
  | nameTooLong => "File name too long (os error 36)"
  | zeroInPath => "file name contained an unexpected NUL byte"
  | notUtf8 => Text.notUtf8
  | other reason => reason

/-- The text of bytes. -/
def readUtf8 (bytes : List UInt8) : Except ReadError String :=
  match Text.decodeUtf8 bytes with
  | .ok s => .ok s
  | .error _ => .error .notUtf8

theorem readUtf8_plainBytes {cs : List Char} (h : cs.all Text.isPlain = true) :
    readUtf8 (Text.plainBytes cs) = .ok (String.ofList cs) := by
  unfold readUtf8
  rw [Text.decodeUtf8_plainBytes h]

/-- What paths lead to. -/
abbrev Files := String → Except ReadError (List UInt8)

/-- The text that a path leads to. -/
def Files.readText (files : Files) (path : String) : Except ReadError String :=
  match files path with
  | .error e => .error e
  | .ok bytes => readUtf8 bytes

/-- The files below a directory. -/
structure FileTree where
  /-- Every file: the names on the way to it, and its content. -/
  files : List (List (List Char) × List UInt8) := []

namespace FileTree

/-- A path cut at its slashes. -/
def segments : List Char → List (List Char)
  | [] => [[]]
  | c :: rest =>
    if c = '/' then [] :: segments rest
    else
      match segments rest with
      | [] => [[c]]
      | s :: ss => (c :: s) :: ss

/-- The files with the given paths and contents. -/
def ofList (files : List (String × List UInt8)) : FileTree :=
  ⟨files.map fun f => (segments f.1.toList, f.2)⟩

/-- Whether a segment stays where it is. -/
def stays (segment : List Char) : Bool := segment = [] || segment = ['.']

/-- How many bytes a text of a path has. -/
def byteCount (text : List Char) : Nat := (String.ofList text).utf8ByteSize

/-- The most bytes that the name of a file can have. -/
def longestName : Nat := 255

/-- The most bytes that a path can have. -/
def longestPath : Nat := 4095

/-- Why a name leads nowhere in a directory that has no such file. -/
def absence (name : List Char) : ReadError := if byteCount name ≤ longestName then .missing else .nameTooLong

/-- Where a path leads that leaves the directory: nothing is known there but directories. -/
def outside (rest : List (List Char)) : Except ReadError (List UInt8) :=
  match rest.find? (fun s => !stays s && s ≠ ['.', '.']) with
  | none => .error .isDirectory
  | some name => .error (absence name)

/-- What a path leads to, one segment after the other, from the directory with the given names on the way. -/
def walk (t : FileTree) (here : List (List Char)) : List (List Char) → Except ReadError (List UInt8)
  | [] => .error .isDirectory
  | s :: rest =>
    if stays s then walk t here rest
    else if s = ['.', '.'] then
      if here.isEmpty then outside rest else walk t here.dropLast rest
    else
      let there := here ++ [s]
      match t.files.find? (fun f => f.1 = there) with
      | some (_, bytes) => if rest.isEmpty then .ok bytes else .error .notDirectory
      | none => if t.files.any (fun f => there.isPrefixOf f.1) then walk t there rest else .error (absence s)

/-- What a path leads to; one that starts with a slash leaves the directory. -/
def read (t : FileTree) : Files := fun path =>
  if path.toList.contains '\x00' then .error .zeroInPath
  else if longestPath < byteCount path.toList then .error .nameTooLong
  else
    match path.toList with
    | [] => .error .missing
    | c :: rest => if c = '/' then outside (segments rest) else t.walk [] (segments (c :: rest))

end FileTree

end ReplicaWatch
