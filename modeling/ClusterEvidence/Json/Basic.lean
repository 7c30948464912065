import ClusterEvidence.Bytes

/-!
# JSON trees

`Json` is a JSON value whose numbers are integers, whose strings are byte strings and
whose objects are ordered member lists, so that equal trees have equal texts.
`Json.render` is the compact text : a comma between siblings, no blanks. `Json.escape`
writes a byte string inside quotes : the quote, the backslash and the bytes below 0x20
are escaped, everything else stands for itself.

`Json.fieldIfSet` is how optional members are left out of an object.
-/

namespace ClusterEvidence

/-- A JSON value with integer numbers and ordered members. -/
inductive Json
  | null
  | bool (b : Bool)
  | num (n : Int)
  | str (s : Bytes)
  | arr (items : List Json)
  | obj (members : List (Bytes × Json))

namespace Json

/-! ## Text -/

/-- One byte of a string between quotes. -/
def escapeByte (b : UInt8) : Bytes :=
  if b = 0x22 then [0x5c, 0x22]
  else if b = 0x5c then [0x5c, 0x5c]
  else if b = 0x08 then [0x5c, 0x62]
  else if b = 0x0c then [0x5c, 0x66]
  else if b = 0x0a then [0x5c, 0x6e]
  else if b = 0x0d then [0x5c, 0x72]
  else if b = 0x09 then [0x5c, 0x74]
  else if b < 0x20 then [0x5c, 0x75, 0x30, 0x30] ++ Bytes.hex b
  else [b]

/-- A byte string as it stands between quotes. -/
def escape (s : Bytes) : Bytes := s.flatMap escapeByte

/-- A byte string as a JSON string. -/
def quote (s : Bytes) : Bytes := 0x22 :: (escape s ++ [0x22])

mutual

/-- The compact text of a tree. -/
def render : Json → Bytes
  | null => "null"
  | bool true => "true"
  | bool false => "false"
  | num n => Bytes.decimal n
  | str s => quote s
  | arr items => 0x5b :: (renderItems items ++ [0x5d])
  | obj members => 0x7b :: (renderMembers members ++ [0x7d])

/-- The items of an array, a comma between neighbours. -/
def renderItems : List Json → Bytes
  | [] => []
  | [j] => j.render
  | j :: j' :: js => j.render ++ 0x2c :: renderItems (j' :: js)

/-- The members of an object, a comma between neighbours. -/
def renderMembers : List (Bytes × Json) → Bytes
  | [] => []
  | [(k, j)] => quote k ++ 0x3a :: j.render
  | (k, j) :: m :: ms => quote k ++ 0x3a :: (j.render ++ 0x2c :: renderMembers (m :: ms))

end

/-! ## Members -/

/-- A member. -/
def member (k : Bytes) (j : Json) : Bytes × Json := (k, j)

/-- A string member. -/
def field (k v : Bytes) : Bytes × Json := member k (.str v)

/-- A number member. -/
def fieldNumber (k : Bytes) (n : Int) : Bytes × Json := member k (.num n)

/-- A string member that an empty value leaves out. -/
def fieldIfSet (k v : Bytes) : List (Bytes × Json) := if v.isEmpty then [] else [field k v]

/-- A list of strings. -/
def strings (l : List Bytes) : Json := .arr (l.map .str)

end Json

end ClusterEvidence
