import ClusterEvidence.Json.Basic

/-!
# Writing JSON call by call

A `Writer` takes a JSON text one call at a time and puts the commas in. It remembers for
every open container whether it is still empty, and whether a key waits for its value.
Calls are never refused : unbalanced ones are written as they come.

`Writer.tree` issues the calls of a depth-first walk over a tree.
-/

namespace ClusterEvidence

namespace Json

/-- A JSON text under construction. `chunks` holds the text, newest piece first;
`fresh` has an entry for each open container, innermost first, that is true until its
first element is written. -/
structure Writer where
  chunks : List Bytes := []
  fresh : List Bool := []
  afterKey : Bool := false

namespace Writer

/-- The text written so far. -/
def text (w : Writer) : Bytes := w.chunks.reverse.flatten

/-- Write a piece of text as it is. -/
def put (s : Bytes) (w : Writer) : Writer := { w with chunks := s :: w.chunks }

/-- Before a value : a pending key is used up; else a container that has an element
already gets a comma. -/
def beforeValue (w : Writer) : Writer :=
  if w.afterKey then { w with afterKey := false }
  else match w.fresh with
    | [] => w
    | true :: rest => { w with fresh := false :: rest }
    | false :: _ => w.put [0x2c]

/-- Open a container with the given bracket. -/
def openWith (bracket : UInt8) (w : Writer) : Writer :=
  let w := w.beforeValue.put [bracket]
  { w with fresh := true :: w.fresh }

/-- Close a container with the given bracket. -/
def closeWith (bracket : UInt8) (w : Writer) : Writer :=
  let w := w.put [bracket]
  { w with fresh := w.fresh.tail }

/-- Open an object. -/
def beginObject (w : Writer) : Writer := w.openWith 0x7b

/-- Close an object. -/
def endObject (w : Writer) : Writer := w.closeWith 0x7d

/-- Open an array. -/
def beginArray (w : Writer) : Writer := w.openWith 0x5b

/-- Close an array. -/
def endArray (w : Writer) : Writer := w.closeWith 0x5d

/-- A key, which the next value follows without a comma. -/
def key (k : Bytes) (w : Writer) : Writer :=
  { w.beforeValue.put (quote k ++ [0x3a]) with afterKey := true }

/-- A string, quoted and escaped. -/
def string (s : Bytes) (w : Writer) : Writer := w.beforeValue.put (quote s)

/-- A number in decimals. -/
def number (n : Int) (w : Writer) : Writer := w.beforeValue.put (Bytes.decimal n)

/-- A truth value. -/
def boolean (b : Bool) (w : Writer) : Writer := w.beforeValue.put (if b then "true" else "false")

/-- A null. -/
def null (w : Writer) : Writer := w.beforeValue.put "null"

/-- A member with a string. -/
def field (k v : Bytes) (w : Writer) : Writer := (w.key k).string v

/-- A member with a number. -/
def fieldNumber (k : Bytes) (n : Int) (w : Writer) : Writer := (w.key k).number n

/-- A member with a truth value. -/
def fieldBool (k : Bytes) (b : Bool) (w : Writer) : Writer := (w.key k).boolean b

/-- A string member that an empty value leaves out. -/
def fieldIfSet (k v : Bytes) (w : Writer) : Writer := if v.isEmpty then w else w.field k v

mutual

/-- The calls of a depth-first walk over a tree. -/
def tree : Json → Writer → Writer
  | .null, w => w.null
  | .bool b, w => w.boolean b
  | .num n, w => w.number n
  | .str s, w => w.string s
  | .arr items, w => (treeItems items w.beginArray).endArray
  | .obj members, w => (treeMembers members w.beginObject).endObject

/-- The items of an array in order. -/
def treeItems : List Json → Writer → Writer
  | [], w => w
  | j :: js, w => treeItems js (tree j w)

/-- The members of an object in order. -/
def treeMembers : List (Bytes × Json) → Writer → Writer
  | [], w => w
  | (k, j) :: ms, w => treeMembers ms (tree j (w.key k))

end

end Writer

end Json

end ClusterEvidence
