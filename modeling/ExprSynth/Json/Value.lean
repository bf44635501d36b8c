/-!
JSON values as read from text: numbers keep whether they were unsigned, negative or
fractional, and objects keep their members in order. `Json.normalize` turns objects into
maps sorted by key where a later member replaces an earlier one.
-/

namespace ExprSynth

/-- A JSON number as the reader classifies it: a non-negative integer below `2^64`, a
negative integer of at least `-2^63`, or anything else as the bits of a double. -/
inductive Json.Number where
  | unsigned (n : UInt64)
  | signed (n : Int64)
  | float (bits : UInt64)
  deriving DecidableEq, Repr, Inhabited

/-- A JSON value. An object keeps its members in the order they were read, repeated keys
included; `Json.normalize` turns it into a map. -/
inductive Json where
  | null
  | bool (b : Bool)
  | num (n : Json.Number)
  | str (s : String)
  | arr (items : List Json)
  | obj (members : List (String × Json))
  deriving Repr, Inhabited

namespace Json

/-- An integer as a JSON number: non-negative ones are unsigned. -/
def ofInt64 (n : Int64) : Json :=
  if n < 0 then .num (.signed n) else .num (.unsigned n.toUInt64)

/-- A natural number below `2^64` as a JSON number. -/
def ofNat (n : Nat) : Json :=
  .num (.unsigned n.toUInt64)

/-- Adds a member to a list sorted by key; a member with the same key is replaced. -/
def insertMember (key : String) (v : Json) : List (String × Json) → List (String × Json)
  | [] => [(key, v)]
  | (k, w) :: rest =>
      if key < k then (key, v) :: (k, w) :: rest
      else if key = k then (key, v) :: rest
      else (k, w) :: insertMember key v rest

mutual
/-- The value as a map-based reader holds it: the members of every object sorted by key,
where a later member replaces an earlier one of the same key. -/
def normalize : Json → Json
  | .arr items => .arr (normalizeList items)
  | .obj members => .obj (normalizeMembers members [])
  | v => v

/-- `normalize` on every item. -/
def normalizeList : List Json → List Json
  | [] => []
  | v :: rest => normalize v :: normalizeList rest

/-- Inserts normalized members, in order, into the sorted list `acc`. -/
def normalizeMembers : List (String × Json) → List (String × Json) → List (String × Json)
  | [], acc => acc
  | (k, v) :: rest, acc => normalizeMembers rest (insertMember k (normalize v) acc)
end

/-- The member `key` of an object: the first one of that key. Other values have no
members. -/
def get? (v : Json) (key : String) : Option Json :=
  match v with
  | .obj members => members.lookup key
  | _ => none

/-- The text of a string value. -/
def str? : Json → Option String
  | .str s => some s
  | _ => none

/-- The items of an array. -/
def arr? : Json → Option (List Json)
  | .arr items => some items
  | _ => none

/-- The value as a 64-bit signed integer, when it is an integer in range. -/
def int64? : Json → Option Int64
  | .num (.unsigned n) => if n.toNat < Nat.pow 2 63 then some n.toNat.toInt64 else none
  | .num (.signed n) => some n
  | _ => none

/-- The value as a 64-bit unsigned integer, when it is a non-negative integer. -/
def nat? : Json → Option Nat
  | .num (.unsigned n) => some n.toNat
  | _ => none

end Json

end ExprSynth
