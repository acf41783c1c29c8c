import CloudClient.Json.Codec

/-!
Records. A `Shape` lists the fields of a record once, for reading and for writing. A record is
written as an object, and read from an object or from an array of its fields in order.

In an object the fields may stand anywhere, so each is looked up on its own and reports the place of
its problem; of all problems the one that stands first is the problem of the record. What is missing
is missed at the closing brace.
-/

namespace CloudClient.Json

/-- The result of reading a part, or a problem and the place where it stands. -/
inductive Reading (α : Type) where
  | ok (a : α)
  | fault (place : Nat) (problem : Problem)

namespace Reading

variable {α β : Type}

def map (f : α → β) : Reading α → Reading β
  | .ok a => .ok (f a)
  | .fault place problem => .fault place problem

/-- Two parts together. The problem that stands first counts, of two at one place that of the first
part. -/
def both : Reading (α → β) → Reading α → Reading β
  | .ok f, r => r.map f
  | .fault p e, .ok _ => .fault p e
  | .fault p e, .fault q e' => if q < p then .fault q e' else .fault p e

def ofExcept (place : Nat) : Except Problem α → Reading α
  | .ok a => .ok a
  | .error e => .fault place e

def toExcept : Reading α → Except Problem α
  | .ok a => .ok a
  | .fault _ e => .error e

/-- A step that needs the result of the one before. -/
def bind (r : Reading α) (f : α → Reading β) : Reading β :=
  match r with
  | .ok a => f a
  | .fault place problem => .fault place problem

end Reading

/-- Where fields are read from. -/
inductive Source where
  | object (members : List (Except Fault String × Node))
  | array (items : List Node) (tail : ArrayEnd)

/-- What is found in the place of a field. -/
inductive Slot where
  | present (place : Nat) (n : Node)
  | missing (place : Nat)
  | ended (place : Nat)
  | broken (place : Nat) (f : Fault)

def findMember (name : String) : (place : Nat) → List (Except Fault String × Node) → Slot
  | place, [] => .missing (place + 1)
  | place, (key, n) :: rest =>
    match key with
    | .ok k => if k = name then .present place n else findMember name (place + 1) rest
    | .error _ => findMember name (place + 1) rest

/-- The field with a name in an object, or at an index in an array. -/
def Source.find (index : Nat) (name : String) : Source → Slot
  | .object members => findMember name 0 members
  | .array items tail =>
    match items[index]? with
    | some n => .present index n
    | none =>
      match tail.fault? with
      | none => .ended index
      | some f => .broken items.length f

/-- A field with its name. `absent` is its value in an object that lacks it, if it may be lacking,
and `absentLast` its value in an array that ends before it. Writing leaves it out where `leaveOut`
says so. -/
structure Field (α : Type) where
  name : String
  codec : Codec α
  absent : Option α
  absentLast : Option α
  leaveOut : α → Bool

namespace Field

variable {α : Type}

def required (name : String) (codec : Codec α) : Field α :=
  ⟨name, codec, none, none, fun _ => false⟩

/-- A field with a value of its own where it is lacking. -/
def defaulted (name : String) (codec : Codec α) (value : α) : Field α :=
  ⟨name, codec, some value, some value, fun _ => false⟩

/-- An option that is written as `null` when unset. -/
def nullable (name : String) (codec : Codec α) : Field (Option α) :=
  ⟨name, optional codec, some none, some none, fun _ => false⟩

/-- An option that is left out when unset. -/
def unset (name : String) (codec : Codec α) : Field (Option α) :=
  ⟨name, optional codec, some none, some none, Option.isNone⟩

/-- An option that is left out when unset, but has its place in an array. -/
def placed (name : String) (codec : Codec α) : Field (Option α) :=
  ⟨name, optional codec, some none, none, Option.isNone⟩

/-- A list that is left out when empty. -/
def several (name : String) (codec : Codec α) : Field (List α) :=
  ⟨name, list codec, some [], some [], List.isEmpty⟩

/-- Reads the field; `whole` says what the fields are those of. -/
def read (f : Field α) (levels : Nat) (whole : String) (index : Nat) (source : Source) :
    Reading α :=
  match source.find index f.name with
  | .present place n => .ofExcept place (f.codec.decode levels n)
  | .missing place =>
    match f.absent with
    | some a => .ok a
    | none => .fault place (.missingField f.name)
  | .ended place =>
    match f.absentLast with
    | some a => .ok a
    | none => .fault place (.invalidLength place whole)
  | .broken place fault => .fault place (.notJson fault)

def write (f : Field α) (a : α) : List (String × Json) :=
  if f.leaveOut a then [] else [(f.name, f.codec.encode a)]

end Field

/-- Fields that are read into a `β` and written from a `σ`. -/
structure Shape (σ β : Type) where
  names : List String
  read : (levels : Nat) → (whole : String) → Source → Reading β
  write : σ → List (String × Json)

namespace Shape

variable {σ α β : Type}

/-- No fields yet. -/
def of (σ : Type) {β : Type} (b : β) : Shape σ β where
  names := []
  read _ _ _ := .ok b
  write _ := []

/-- One more field. -/
def and (s : Shape σ (α → β)) (get : σ → α) (f : Field α) : Shape σ β where
  names := s.names ++ [f.name]
  read levels whole source :=
    (s.read levels whole source).both (f.read levels whole s.names.length source)
  write x := s.write x ++ f.write (get x)

def describe (s : Shape σ β) (label : String) : String :=
  label ++ " with " ++ toString s.names.length ++
    (if s.names.length = 1 then " element" else " elements")

end Shape

/-! ### Objects -/

def keyed (members : List (Literal × Node)) : List (Except Fault String × Node) :=
  members.map fun (key, n) => (key.text, n)

/-- What a member that is no field contributes to those kept. -/
abbrev Others (κ : Type) := (levels : Nat) → (key : String) → Node → Except Fault (List κ)

def Others.skipped : Others Empty := fun _ _ n =>
  (failIf n.skip).map fun _ => []

def Others.values : Others (String × Json) := fun levels key n =>
  (n.value levels).map fun j => [(key, j.sorted)]

/-- The members as they are, once they are known to have values. -/
def Others.nodes : Others (String × Node) := fun levels key n =>
  (n.value levels).map fun _ => [(key, n)]

/-- Goes through an object once, and gives the other members. Repeating a field is a problem. -/
def scan {κ : Type} (names : List String) (others : Others κ) (levels : Nat) (tail : ObjectEnd) :
    (place : Nat) → (seen : List String) → List (Except Fault String × Node) → Reading (List κ)
  | place, _, [] =>
    match tail.fault? with
    | none => .ok []
    | some f => .fault place (.notJson f)
  | place, seen, (key, n) :: rest =>
    match key with
    | .error f => .fault place (.notJson f)
    | .ok k =>
      if k ∈ names then
        if k ∈ seen then .fault place (.duplicateField k)
        else scan names others levels tail (place + 1) (k :: seen) rest
      else
        match others levels k n with
        | .error f => .fault place (.notJson f)
        | .ok kept => (scan names others levels tail (place + 1) seen rest).map (kept ++ ·)

/-- What may follow the fields in an array: its end. -/
def leftover (count : Nat) (items : List Node) (tail : ArrayEnd) : Reading Unit :=
  if count < items.length then .fault count (.notJson .trailingCharacters)
  else
    match tail with
    | .closed => .ok ()
    | .endOfText => .fault count (.notJson .endInList)
    | .commaClosed => .fault count (.notJson .trailingComma)
    | _ => .fault count (.notJson .trailingCharacters)

/-- Each key with its last value, in the order of the keys. -/
def collect (members : List (String × Json)) : List (String × Json) :=
  members.foldl (fun acc (k, j) => setSorted k j acc) []

namespace Shape

variable {α β σ κ : Type}

def readObject (s : Shape σ β) (label : String) (others : Others κ) (levels : Nat)
    (members : List (Except Fault String × Node)) (tail : ObjectEnd) : Reading (β × List κ) :=
  ((scan s.names others levels tail 0 [] members).map fun kept b => (b, kept)).both
    (s.read levels (s.describe label) (.object members))

/-- A record without other members. -/
def record (s : Shape α α) (label : String) : Codec α where
  decode levels n := match n, levels with
    | .object .., 0 => .error (.notJson .recursionLimit)
    | .object members tail, levels + 1 =>
      ((s.readObject label .skipped levels (keyed members) tail).map Prod.fst).toExcept
    | .array .., 0 => .error (.notJson .recursionLimit)
    | .array items tail, levels + 1 =>
      (((s.read levels (s.describe label) (.array items tail)).map fun a () => a).both
        (leftover s.names.length items tail)).toExcept
    | n, _ => .error (n.mismatch label)
  encode a := .obj (s.write a)

/-- A record that keeps its other members, sorted by key and each with its last value. -/
def openRecord (s : Shape α (List (String × Json) → α)) (label : String)
    (others : α → List (String × Json)) : Codec α where
  decode levels n := match n, levels with
    | .object .., 0 => .error (.notJson .recursionLimit)
    | .object members tail, levels + 1 =>
      ((s.readObject label .values levels (keyed members) tail).map
        fun (f, kept) => f (collect kept)).toExcept
    | n, _ => .error (n.mismatch label)
  encode a := .obj (s.write a ++ others a)

end Shape

end CloudClient.Json
