import CloudClient.Http.Percent

/-!
Where a request goes, below the base URL: a path of fixed segments with at most one name among them,
and a query.
-/

namespace CloudClient.Http

abbrev Query := List (String × String)

namespace Query

/-- Parameters that are left out when they have no value. -/
def ofOptions (params : List (String × Option String)) : Query :=
  params.filterMap fun (key, value?) => value?.map fun value => (key, value)

def pairChars (p : String × String) : List Char :=
  Percent.formChars p.1 ++ '=' :: Percent.formChars p.2

def chars : Query → List Char
  | [] => []
  | [p] => pairChars p
  | p :: rest => pairChars p ++ '&' :: chars rest

/-- A part of a form before and after its first `=`. -/
def splitPair (cs : List Char) : List Char × List Char :=
  (cs.takeWhile (· ≠ '='), (cs.dropWhile (· ≠ '=')).drop 1)

/-- The parts of a text between the signs `sep`. -/
def splitAt (sep : Char) : List Char → List (List Char)
  | [] => [[]]
  | c :: rest =>
    if c = sep then [] :: splitAt sep rest
    else
      match splitAt sep rest with
      | part :: parts => (c :: part) :: parts
      | [] => [[c]]

/-- The parameters of a form; empty parts are none. -/
def decode? (cs : List Char) : Option Query :=
  ((splitAt '&' cs).filter (!·.isEmpty)).mapM fun part => do
    let (key, value) := splitPair part
    return (← Percent.decodeForm? key, ← Percent.decodeForm? value)

end Query

/-- The segments before a name, the name, and the segments after it. Names may hold any characters.
-/
structure Target where
  collection : List String
  name : Option String := none
  suffix : List String := []
  query : Query := []
  deriving DecidableEq, Repr

namespace Target

/-- A collection as a whole. -/
def all (collection : List String) (query : Query := []) : Target :=
  { collection, query }

/-- One member of a collection, or an aspect of it. -/
def one (collection : List String) (name : String) (suffix : List String := [])
    (query : Query := []) : Target :=
  { collection, name := some name, suffix, query }

/-- The segments of the path as they are written. -/
def segments (t : Target) : List String :=
  t.collection ++ (t.name.map Percent.segment).toList ++ t.suffix

def path (t : Target) : String :=
  String.ofList (t.segments.flatMap fun s => '/' :: s.toList)

/-- Path and query; without parameters there is no question mark. -/
def render (t : Target) : String :=
  if t.query.isEmpty then t.path
  else String.ofList (t.path.toList ++ '?' :: t.query.chars)

end Target

/-- A path below a base URL, with exactly one slash between them. -/
def join (base path : String) : String :=
  String.ofList (base.toList ++ '/' :: path.toList.dropWhile (· == '/'))

end CloudClient.Http
