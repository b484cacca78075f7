import ReplicaWatch.Cluster.Decode
import ReplicaWatch.Monitor.Notice
import ReplicaWatch.Signals.Queue
import ReplicaWatch.Text.Blank
import ReplicaWatch.Text.Utf8

/-!
# Signals from a text, one on each line

Bytes arrive in pieces of any size. A line is complete with its line end, the last one with the end of the
input. Blank lines say nothing; a line that is not a signal is reported and passed over; a line that is not even
text is reported and ends the stream. The line end does not belong to what a line says.

- `Feed.takeLine`: the first complete line; `Feed.withoutLineEnd`: what stands in it;
- `LineReading.ofBytes`: what that says;
- `Feed.next`: the next step of reading, which takes at most one line;
- `Feed.append_of_takeLine`, `Feed.takeLine_shorter`: a line is what there was in front, and taking it uses up
  bytes.
-/

namespace ReplicaWatch

open Monitor

/-- What a line says. -/
inductive LineReading
  | blank
  | signal (s : Signal)
  /-- Something else, with the fault that was met. -/
  | garbled (fault : Json.Fault) (line : String)
  /-- The bytes are no text. -/
  | notText (fault : Text.Utf8Fault)

/-- What the text of a line says. Blanks around it do not count. -/
def LineReading.ofText (text : String) : LineReading :=
  let line := String.ofList (Text.trim text.toList)
  if line.isEmpty then .blank
  else
    match Json.decodeText Signal.decoder line with
    | .ok s => .signal s
    | .error fault => .garbled fault line

/-- What the bytes in a line say. -/
def LineReading.ofBytes (bytes : List UInt8) : LineReading :=
  match Text.decodeUtf8 bytes with
  | .error fault => .notText fault
  | .ok text => .ofText text

/-- Lines on their way. -/
structure Feed where
  /-- The bytes that have arrived and have not been read. -/
  unread : List UInt8 := []
  /-- Whether no more bytes will arrive. -/
  hasEnded : Bool := false
  /-- Whether somebody reads. -/
  isOpen : Bool := true

namespace Feed

/-- The byte that ends a line. -/
def lineEnd : UInt8 := 10

/-- The byte that may stand just before the one that ends a line, and is a part of the line end then. -/
def carriageReturn : UInt8 := 13

/-- What stands in a line. -/
def withoutLineEnd (line : List UInt8) : List UInt8 :=
  if line.getLast? = some lineEnd then
    let body := line.dropLast
    if body.getLast? = some carriageReturn then body.dropLast else body
  else line

/-- The first complete line with its line end, and what follows it. The last line may lack the line end. -/
def takeLine (bytes : List UInt8) (hasEnded : Bool) : Option (List UInt8 × List UInt8) :=
  match bytes.dropWhile (fun b => b != lineEnd) with
  | b :: rest => some (bytes.takeWhile (fun b => b != lineEnd) ++ [b], rest)
  | [] => if hasEnded && !bytes.isEmpty then some (bytes, []) else none

/-- A line and what follows it are what there was. -/
theorem append_of_takeLine {bytes line rest : List UInt8} {hasEnded : Bool}
    (h : takeLine bytes hasEnded = some (line, rest)) : line ++ rest = bytes := by
  unfold takeLine at h
  split at h
  · rename_i b r hd
    cases h
    rw [List.append_assoc, List.singleton_append, ← hd]
    exact List.takeWhile_append_dropWhile
  · split at h
    · cases h
      simp
    · simp at h

/-- A line has at least one byte. -/
theorem ne_nil_of_takeLine {bytes line rest : List UInt8} {hasEnded : Bool}
    (h : takeLine bytes hasEnded = some (line, rest)) : line ≠ [] := by
  unfold takeLine at h
  split at h
  · cases h
    simp
  · split at h
    · rename_i hc
      cases h
      simp only [Bool.and_eq_true, Bool.not_eq_true', List.isEmpty_eq_false_iff] at hc
      exact hc.2
    · simp at h

/-- Taking a line uses up bytes. -/
theorem takeLine_shorter {bytes line rest : List UInt8} {hasEnded : Bool}
    (h : takeLine bytes hasEnded = some (line, rest)) : rest.length < bytes.length := by
  have hne := List.length_pos_iff.mpr (ne_nil_of_takeLine h)
  have := congrArg List.length (append_of_takeLine h)
  rw [List.length_append] at this
  omega

/-- Reads on: at most one line. -/
def next (f : Feed) : Taken × Feed × List Notice :=
  if !f.isOpen then (.ended, f, [])
  else
    match takeLine f.unread f.hasEnded with
    | none => (if f.hasEnded then .ended else .nothing, f, [])
    | some (line, rest) =>
      let after := { f with unread := rest }
      match LineReading.ofBytes (withoutLineEnd line) with
      | .blank => (.skipped, after, [])
      | .signal s => (.signal s, after, [])
      | .garbled fault text => (.skipped, after, [.lineUnreadable fault.message text])
      | .notText fault => (.ended, after, [.streamFailed fault.message])

def write (f : Feed) (bytes : List UInt8) : Feed := { f with unread := f.unread ++ bytes }

def endInput (f : Feed) : Feed := { f with hasEnded := true }

def close (f : Feed) : Feed := { f with isOpen := false }

end Feed

end ReplicaWatch
