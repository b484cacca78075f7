/-!
# Bytes and text

Text is exchanged as UTF-8.

- `encodeUtf8`: the bytes of a text;
- `decodeUtf8`: the text of bytes, or where they stop being text and why (`Utf8Fault`); plain characters are read back
  from their bytes (`decodeUtf8_plainBytes`).

A sequence is faulty from its first byte on: `badBytes` are the bytes that cannot be the start of any character
together, and there are none if the input ends inside a character.
-/

namespace ReplicaWatch.Text

/-- The bytes of a text. -/
def encodeUtf8 (s : String) : List UInt8 := s.toUTF8.toList

/-- Where bytes stop being text. -/
structure Utf8Fault where
  /-- How many bytes in front are text. -/
  validBytes : Nat
  /-- How many bytes after them are at fault; none if the input ends inside a character. -/
  badBytes : Option Nat
deriving DecidableEq, Repr

def Utf8Fault.message (f : Utf8Fault) : String :=
  match f.badBytes with
  | some n => "invalid utf-8 sequence of " ++ toString n ++ " bytes from index " ++ toString f.validBytes
  | none => "incomplete utf-8 byte sequence from index " ++ toString f.validBytes

/-- Whether a byte continues a character. -/
def continues (b : UInt8) : Bool := 0x80 ≤ b.toNat && b.toNat ≤ 0xBF

/-- Whether a byte may stand second after a first byte of a character of three or four: no character has two
spellings, none is half of a surrogate pair, and none is beyond the last one. -/
def seconds (first second : UInt8) : Bool :=
  let n := second.toNat
  if first.toNat = 0xE0 then 0xA0 ≤ n && n ≤ 0xBF
  else if first.toNat = 0xED then 0x80 ≤ n && n ≤ 0x9F
  else if first.toNat = 0xF0 then 0x90 ≤ n && n ≤ 0xBF
  else if first.toNat = 0xF4 then 0x80 ≤ n && n ≤ 0x8F
  else continues second

/-- The last six bits of a byte. -/
def payload (b : UInt8) : Nat := b.toNat % 64

/-- The rest of a character after its first byte: the character and its number of bytes, or how many bytes are at
fault. -/
def decodeChar (first : UInt8) (rest : List UInt8) : Except (Option Nat) (Char × Nat) :=
  let n := first.toNat
  if n < 0x80 then .ok (Char.ofNat n, 1)
  else if 0xC2 ≤ n && n ≤ 0xDF then
    match rest with
    | [] => .error none
    | b :: _ =>
      if continues b then .ok (Char.ofNat (n % 32 * 64 + payload b), 2) else .error (some 1)
  else if 0xE0 ≤ n && n ≤ 0xEF then
    match rest with
    | [] => .error none
    | [b] => if seconds first b then .error none else .error (some 1)
    | b :: c :: _ =>
      if !seconds first b then .error (some 1)
      else if !continues c then .error (some 2)
      else .ok (Char.ofNat ((n % 16 * 64 + payload b) * 64 + payload c), 3)
  else if 0xF0 ≤ n && n ≤ 0xF4 then
    match rest with
    | [] => .error none
    | [b] => if seconds first b then .error none else .error (some 1)
    | [b, c] =>
      if !seconds first b then .error (some 1)
      else if !continues c then .error (some 2)
      else .error none
    | b :: c :: d :: _ =>
      if !seconds first b then .error (some 1)
      else if !continues c then .error (some 2)
      else if !continues d then .error (some 3)
      else .ok (Char.ofNat (((n % 8 * 64 + payload b) * 64 + payload c) * 64 + payload d), 4)
  else .error (some 1)

/-- The characters of bytes, of which the first ones may belong to a character that is known already; `index`
bytes have been looked at before. -/
def decodeFrom (index : Nat) : Nat → List UInt8 → Except Utf8Fault (List Char)
  | _, [] => .ok []
  | skip + 1, _ :: rest => decodeFrom (index + 1) skip rest
  | 0, b :: rest =>
    match decodeChar b rest with
    | .error badBytes => .error ⟨index, badBytes⟩
    | .ok (c, width) => (decodeFrom (index + 1) (width - 1) rest).map (c :: ·)

/-- The text of bytes. -/
def decodeUtf8 (bytes : List UInt8) : Except Utf8Fault String := (decodeFrom 0 0 bytes).map String.ofList

/-- Whether a character is its own byte. -/
def isPlain (c : Char) : Bool := c.toNat < 0x80

/-- The bytes of plain characters, one for each. -/
def plainBytes (cs : List Char) : List UInt8 := cs.map fun c => UInt8.ofNat c.toNat

theorem decodeFrom_plainBytes {cs : List Char} (h : cs.all isPlain = true) (index : Nat) :
    decodeFrom index 0 (plainBytes cs) = .ok cs := by
  induction cs generalizing index with
  | nil => rfl
  | cons c cs ih =>
    obtain ⟨hc, hcs⟩ := Bool.and_eq_true_iff.mp (List.all_cons.symm.trans h)
    have hc : c.toNat < 0x80 := of_decide_eq_true hc
    have hbyte : (UInt8.ofNat c.toNat).toNat = c.toNat := by
      rw [UInt8.toNat_ofNat']
      omega
    have hchar : decodeChar (UInt8.ofNat c.toNat) (plainBytes cs) = .ok (c, 1) := by
      simp [decodeChar, hbyte, hc]
    rw [show plainBytes (c :: cs) = UInt8.ofNat c.toNat :: plainBytes cs from rfl, decodeFrom, hchar]
    simp [ih hcs (index + 1), Except.map]

/-- Plain characters are read back from their bytes. -/
theorem decodeUtf8_plainBytes {cs : List Char} (h : cs.all isPlain = true) :
    decodeUtf8 (plainBytes cs) = .ok (String.ofList cs) := by
  unfold decodeUtf8
  rw [decodeFrom_plainBytes h]
  rfl

/-- What is said of a file that is not text. -/
def notUtf8 : String := "stream did not contain valid UTF-8"

end ReplicaWatch.Text
