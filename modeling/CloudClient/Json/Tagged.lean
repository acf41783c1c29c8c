import CloudClient.Json.Record

/-!
Unions of records, told apart by a member `type`. A union is written as an object with the tag in
front, and read from an object that has the tag anywhere or from an array that begins with it. All
members are read before the fields of the record are looked up among them.
-/

namespace CloudClient.Json

/-- One record of a union. -/
structure Case (α : Type) where
  tag : String
  readObject : (levels : Nat) → List (Except Fault String × Node) → Except Problem α
  readArray : (levels : Nat) → List Node → Except Problem α
  write : α → Option (List (String × Json))

/-- Fields after the last one of the record. -/
def surplus (count : Nat) (items : List Node) : Reading Unit :=
  if count < items.length then
    .fault count (.invalidLength items.length
      (toString count ++ (if count = 1 then " element" else " elements") ++ " in sequence"))
  else .ok ()

def Shape.case {σ α : Type} (s : Shape σ α) (tag label : String) (project : α → Option σ) :
    Case α where
  tag := tag
  readObject levels members :=
    let reading := s.readObject ("struct variant " ++ label) .skipped levels members .closed
    (reading.map Prod.fst).toExcept
  readArray levels items :=
    let reading := s.read levels (s.describe ("struct variant " ++ label)) (.array items .closed)
    ((reading.map fun a () => a).both (surplus s.names.length items)).toExcept
  write a := (project a).map s.write

/-- The records of a union, in the order in which a problem lists their tags. -/
structure Tagged (α : Type) where
  name : String
  cases : List (Case α)

namespace Tagged

variable {α : Type}

def tagKey : String := "type"

def tags (t : Tagged α) : List String :=
  t.cases.map Case.tag

def ofTag (t : Tagged α) (tag : String) : Except Problem (Case α) :=
  match t.cases.find? (·.tag = tag) with
  | some c => .ok c
  | none => .error (.unknownVariant tag t.tags)

def caseOf (t : Tagged α) (n : Node) : Except Problem (Case α) :=
  match n with
  | .text l => do
    let tag ← l.text.mapError .notJson
    t.ofTag tag
  | n => .error (n.mismatch "variant identifier")

/-- Goes through an object for the tag and the other members. -/
def scanMembers (t : Tagged α) (levels : Nat) (tail : ObjectEnd) :
    Option (Case α) → List (Except Fault String × Node) →
      Except Problem (Option (Case α) × List (Except Fault String × Node))
  | found, [] => do
    (failIf tail.fault?).mapError .notJson
    return (found, [])
  | found, (key, n) :: rest => do
    let k ← key.mapError .notJson
    if k = tagKey then
      if found.isSome then throw (.duplicateField tagKey)
      let c ← t.caseOf n
      t.scanMembers levels tail (some c) rest
    else
      let _ ← (n.value levels).mapError .notJson
      let (c, content) ← t.scanMembers levels tail found rest
      return (c, (key, n) :: content)

def writeMembers (t : Tagged α) (a : α) : List (String × Json) :=
  match t.cases.findSome? fun c => (c.write a).map fun members => (c.tag, members) with
  | some (tag, members) => (tagKey, .str tag) :: members
  | none => []

/-- The items after the tag, which all have to have values. -/
def content (levels : Nat) (tail : ArrayEnd) (items : List Node) : Except Fault (List Node) := do
  let _ ← Node.values levels items
  failIf tail.fault?
  return items

def codec (t : Tagged α) : Codec α where
  decode levels n := match n, levels with
    | .object .., 0 => .error (.notJson .recursionLimit)
    | .object members tail, levels + 1 => do
      let (c, content) ← t.scanMembers levels tail none (keyed members)
      match c with
      | none => throw (.missingField tagKey)
      | some c => c.readObject levels content
    | .array .., 0 => .error (.notJson .recursionLimit)
    | .array [] tail, _ + 1 => .error (tail.fault?.elim (.missingField tagKey) .notJson)
    | .array (tag :: items) tail, levels + 1 => do
      let c ← t.caseOf tag
      let items ← (content levels tail items).mapError .notJson
      c.readArray levels items
    | n, _ => .error (n.mismatch ("internally tagged enum " ++ t.name))
  encode a := .obj (t.writeMembers a)

/-! ### Unions among the members of a record -/

/-- Here the tag may also be the number of a record. -/
def caseOfNumbered (t : Tagged α) (n : Node) : Except Problem (Case α) :=
  match n with
  | .number m =>
    match m.value with
    | .ok (.int i) =>
      if i.val < 0 then .error (n.mismatch "variant identifier")
      else
        match t.cases[i.val.toNat]? with
        | some c => .ok c
        | none =>
          .error (.invalidValue i.val ("variant index 0 <= i < " ++ toString t.cases.length))
    | _ => .error (n.mismatch "variant identifier")
  | n => t.caseOf n

/-- The case that the members name, and the members without the tag. -/
def pick (t : Tagged α) : Option (Case α) → List (String × Node) →
    Except Problem (Option (Case α) × List (Except Fault String × Node))
  | found, [] => .ok (found, [])
  | found, (k, n) :: rest => do
    if k = tagKey then
      if found.isSome then throw (.duplicateField tagKey)
      let c ← t.caseOfNumbered n
      t.pick (some c) rest
    else
      let (c, content) ← t.pick found rest
      return (c, (.ok k, n) :: content)

def ofMembers (t : Tagged α) (levels : Nat) (members : List (String × Node)) :
    Except Problem α := do
  let (c, content) ← t.pick none members
  match c with
  | none => throw (.missingField tagKey)
  | some c => c.readObject levels content

/-- A record whose other members are those of a union. -/
def within {β : Type} (t : Tagged α) (s : Shape β (α → β)) (label : String) (get : β → α) :
    Codec β where
  decode levels n := match n, levels with
    | .object .., 0 => .error (.notJson .recursionLimit)
    | .object members tail, levels + 1 => do
      let (f, others) ← (s.readObject label .nodes levels (keyed members) tail).toExcept
      return f (← t.ofMembers levels others)
    | n, _ => .error (n.mismatch label)
  encode b := .obj (s.write b ++ t.writeMembers (get b))

end Tagged

end CloudClient.Json
