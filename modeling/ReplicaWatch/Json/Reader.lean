import ReplicaWatch.Json.Token

/-!
# Reading a text

The reader takes one token after the other and keeps the arrays and objects that are open around its place as a
stack of frames, so the depth of a text costs no recursion.

- `Reader.step`: what one token does; `Reader.tree`: what has been read when the text breaks off;
- `Reader.run`: the whole text; `readText`: from the beginning.
-/

namespace ReplicaWatch.Json

/-- An array or object that is open around the place of reading. What is complete in it comes last part first. -/
inductive Frame
  /-- An array, with the items so far. -/
  | items (done : List Tree)
  /-- An object, with the members so far and the name of the member that is being read. -/
  | member (done : List (Option String × Tree)) (label : Option String)

/-- What has been read, and what must come next. -/
inductive Reader
  /-- The first value of the text. -/
  | start
  /-- An item of an array; or its end, if it has no items yet. -/
  | item (done : List Tree) (around : List Frame)
  | afterItem (done : List Tree) (around : List Frame)
  /-- A name in an object; or its end, if it has no members yet. -/
  | name (done : List (Option String × Tree)) (around : List Frame)
  /-- The colon after a name. -/
  | colon (done : List (Option String × Tree)) (label : Option String) (around : List Frame)
  /-- The value of a member. -/
  | value (done : List (Option String × Tree)) (label : Option String) (around : List Frame)
  /-- A comma or the end of an object. -/
  | afterMember (done : List (Option String × Tree)) (around : List Frame)
  /-- Nothing more: the first value is complete. -/
  | finished (tree : Tree)
  /-- Nothing that comes next counts. -/
  | stuck (tree : Tree)

namespace Reader

/-- A value that stands inside open frames, none of which is ever closed. -/
def enclose (t : Tree) : List Frame → Tree
  | [] => t
  | .items done :: around => enclose (.array (t :: done).reverse false) around
  | .member done label :: around => enclose (.object ((label, t) :: done).reverse false) around

/-- What has been read if nothing more can be read. -/
def tree : Reader → Tree
  | .start => .broken
  | .item done around => enclose (.array done.reverse false) around
  | .afterItem done around => enclose (.array done.reverse false) around
  | .name done around => enclose (.object done.reverse false) around
  | .colon done label around => enclose (.object ((label, .broken) :: done).reverse false) around
  | .value done label around => enclose (.object ((label, .broken) :: done).reverse false) around
  | .afterMember done around => enclose (.object done.reverse false) around
  | .finished t => t
  | .stuck t => t

/-- A value is complete. -/
def deliver (t : Tree) : List Frame → Reader
  | [] => .finished t
  | .items done :: around => .afterItem (t :: done) around
  | .member done label :: around => .afterMember ((label, t) :: done) around

/-- A token where a value must come. -/
def begin (around : List Frame) : Token → Reader
  | .openBracket => .item [] around
  | .openBrace => .name [] around
  | .scalar v => deliver (.scalar v) around
  | _ => .stuck (enclose .broken around)

/-- One token. -/
def step : Reader → Token → Reader
  | .start, t => begin [] t
  | .item done around, t =>
    if done.isEmpty && t = .closeBracket then deliver (.array [] true) around
    else begin (.items done :: around) t
  | .afterItem done around, t =>
    match t with
    | .comma => .item done around
    | .closeBracket => deliver (.array done.reverse true) around
    | _ => .stuck (enclose (.array done.reverse false) around)
  | .name done around, t =>
    match t with
    | .scalar (.string label) => .colon done label around
    | t =>
      if done.isEmpty && t = .closeBrace then deliver (.object [] true) around
      else .stuck (enclose (.object done.reverse false) around)
  | .colon done label around, t =>
    if t = .colon then .value done label around
    else .stuck (enclose (.object ((label, .broken) :: done).reverse false) around)
  | .value done label around, t => begin (.member done label :: around) t
  | .afterMember done around, t =>
    match t with
    | .comma => .name done around
    | .closeBrace => deliver (.object done.reverse true) around
    | _ => .stuck (enclose (.object done.reverse false) around)
  | .finished tree, _ => .stuck tree
  | .stuck tree, _ => .stuck tree

/-- The document at the end of the text. -/
def document : Reader → Document
  | .finished t => ⟨t, true⟩
  | r => ⟨r.tree, false⟩

/-- Reads a text to its end or to its first faulty token. -/
def run (r : Reader) (cs : List Char) : Document :=
  match _ : skipBlanks cs with
  | [] => r.document
  | c :: rest =>
    match _ : Token.scan (c :: rest) with
    | none => ⟨r.tree, false⟩
    | some (t, rest') => run (r.step t) rest'
termination_by cs.length
decreasing_by
  have h1 := Token.scan_shorter ‹Token.scan (c :: rest) = some (t, rest')›
  have h2 := skipBlanks_le cs
  rw [‹skipBlanks cs = c :: rest›] at h2
  omega

end Reader

/-- The readable part of a text. -/
def readText (text : String) : Document := Reader.start.run text.toList

end ReplicaWatch.Json
