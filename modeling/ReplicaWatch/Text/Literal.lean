import ReplicaWatch.Text.Invisible

/-!
# Text as a literal in a message

`Literal.write` puts a text between quotation marks so that a reader of the message sees every character of it:
the quotation mark, the backslash and four controls have an escape of one letter, everything else that shows
nothing of its own is given by its code point in braces, and all other characters stand for themselves.
-/

namespace ReplicaWatch.Text.Literal

/-- A character by its code point. -/
def byCode (c : Char) : List Char :=
  ['\\', 'u', '{'] ++ Nat.toDigits 16 c.toNat ++ ['}']

/-- A character of a literal. -/
def letter (c : Char) : List Char :=
  if c = '"' then ['\\', '"']
  else if c = '\\' then ['\\', '\\']
  else if c = '\n' then ['\\', 'n']
  else if c = '\r' then ['\\', 'r']
  else if c = '\t' then ['\\', 't']
  else if c = '\x00' then ['\\', '0']
  else if 32 ≤ c.toNat && c.toNat < 127 then [c]
  else if isInvisible c then byCode c
  else [c]

/-- A text as a literal. -/
def write (s : String) : String := String.ofList ('"' :: (s.toList.flatMap letter ++ ['"']))

end ReplicaWatch.Text.Literal
