import CloudClient.Numeric.Binary64

/-!
JSON values. Integers from `-2 ^ 63` to below `2 ^ 64` are kept exact, all other numbers are binary
floating point. Objects keep the order of their members, and may repeat a key.
-/

namespace CloudClient

structure Json.Integer where
  val : Int
  inRange : -2 ^ 63 ≤ val ∧ val < 2 ^ 64
  deriving DecidableEq, Repr

inductive Json.Number where
  | int (i : Json.Integer)
  | float (x : Binary64)
  deriving DecidableEq, Repr

inductive Json where
  | null
  | bool (b : Bool)
  | number (n : Json.Number)
  | str (s : String)
  | arr (items : List Json)
  | obj (members : List (String × Json))
  deriving Repr, Inhabited

namespace Json

def Integer.ofInt? (i : Int) : Option Integer :=
  if h : -2 ^ 63 ≤ i ∧ i < 2 ^ 64 then some ⟨i, h⟩ else none

def ofUInt64 (n : UInt64) : Json :=
  .number <| .int ⟨n.toNat, by have := n.toNat_lt; omega⟩

def ofUInt32 (n : UInt32) : Json :=
  .number <| .int ⟨n.toNat, by have := n.toNat_lt; omega⟩

def ofUInt16 (n : UInt16) : Json :=
  .number <| .int ⟨n.toNat, by have := n.toNat_lt; omega⟩

def ofBinary64 (x : Binary64) : Json :=
  .number (.float x)

def get? (key : String) : Json → Option Json
  | .obj members => members.lookup key
  | _ => none

/-- Sets a key in members that are sorted by key. -/
def setSorted (key : String) (value : Json) : List (String × Json) → List (String × Json)
  | [] => [(key, value)]
  | (k, v) :: rest =>
    if key = k then (key, value) :: rest
    else if key < k then (key, value) :: (k, v) :: rest
    else (k, v) :: setSorted key value rest

mutual

/-- Keys sorted at every level, each with its last value. -/
def sorted : Json → Json
  | .arr items => .arr (sortedItems items)
  | .obj members => .obj (sortedMembers members [])
  | j => j

def sortedItems : List Json → List Json
  | [] => []
  | j :: rest => sorted j :: sortedItems rest

def sortedMembers : List (String × Json) → List (String × Json) → List (String × Json)
  | [], acc => acc
  | (k, v) :: rest, acc => sortedMembers rest (setSorted k (sorted v) acc)

end

mutual

/-- The number of arrays and objects that are open at the deepest place. -/
def depth : Json → Nat
  | .arr items => depthItems items + 1
  | .obj members => depthMembers members + 1
  | _ => 0

def depthItems : List Json → Nat
  | [] => 0
  | j :: rest => Nat.max (depth j) (depthItems rest)

def depthMembers : List (String × Json) → Nat
  | [] => 0
  | (_, j) :: rest => Nat.max (depth j) (depthMembers rest)

end

end Json

end CloudClient
