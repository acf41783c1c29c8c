import CloudClient.Proofs.Machine.Scripted
import CloudClient.Proofs.Service.Targets

/-!
Calls that name something: the collection that it is in, and what of it is asked for, are the same
whatever the name is.
-/

namespace CloudClient

open Http (OpensWith IsDots Query Target removeDots)

structure Place where
  collection : String
  name : String
  suffix : List String := []
  deriving DecidableEq, Repr

/-! ### The places -/

namespace Call

def instance? : InstanceCall → Option Place
  | .get id => some ⟨"instances", id, []⟩
  | .isAvailable instanceType _ _ => some ⟨"instance-availability", instanceType, []⟩
  | .list _ | .create _ | .act _ | .availabilities .. => none

def volume? : VolumeCall → Option Place
  | .get id => some ⟨"volumes", id, []⟩
  | .list _ | .create _ | .act _ | .clone .. | .trash | .types => none

def sshKey? : SshKeyCall → Option Place
  | .get id | .delete id => some ⟨"sshkeys", id, []⟩
  | .list | .create _ | .deleteMany _ => none

def startupScript? : StartupScriptCall → Option Place
  | .get id | .delete id => some ⟨"scripts", id, []⟩
  | .list | .create _ | .deleteMany _ => none

def cluster? : ClusterCall → Option Place
  | .get id => some ⟨"clusters", id, []⟩
  | .isAvailable clusterType _ => some ⟨"cluster-availability", clusterType, []⟩
  | .list | .create _ | .act _ | .types | .availabilities _ => none

def container? : ContainerCall → Option Place
  | .get name | .update name _ | .delete name => some ⟨"container-deployments", name, []⟩
  | .status name => some ⟨"container-deployments", name, ["status"]⟩
  | .restart name => some ⟨"container-deployments", name, ["restart"]⟩
  | .pause name => some ⟨"container-deployments", name, ["pause"]⟩
  | .resume name => some ⟨"container-deployments", name, ["resume"]⟩
  | .purgeQueue name => some ⟨"container-deployments", name, ["purge-queue"]⟩
  | .scaling name | .updateScaling name _ => some ⟨"container-deployments", name, ["scaling"]⟩
  | .replicas name => some ⟨"container-deployments", name, ["replicas"]⟩
  | .env name | .addEnv name _ | .updateEnv name _ | .deleteEnv name _ =>
    some ⟨"container-deployments", name, ["environment-variables"]⟩
  | .deleteSecret name => some ⟨"secrets", name, []⟩
  | .deleteRegistryCredentials name => some ⟨"container-registry-credentials", name, []⟩
  | .list | .create _ | .secrets | .createSecret _ | .registryCredentials
  | .createRegistryCredentials _ | .computeResources => none

def job? : JobCall → Option Place
  | .get name | .update name _ | .delete name => some ⟨"job-deployments", name, []⟩
  | .status name => some ⟨"job-deployments", name, ["status"]⟩
  | .scaling name => some ⟨"job-deployments", name, ["scaling"]⟩
  | .pause name => some ⟨"job-deployments", name, ["pause"]⟩
  | .resume name => some ⟨"job-deployments", name, ["resume"]⟩
  | .purgeQueue name => some ⟨"job-deployments", name, ["purge-queue"]⟩
  | .list | .create _ => none

/-- Where a call finds what it names. -/
def place? : Call → Option Place
  | .instances c => instance? c
  | .volumes c => volume? c
  | .sshKeys c => sshKey? c
  | .startupScripts c => startupScript? c
  | .clusters c => cluster? c
  | .containers c => container? c
  | .jobs c => job? c
  | .catalogue _ => none

variable {k : Call} {p : Place}

/-- The places are those that the requests go to. -/
theorem target_of_place? (h : k.place? = some p) :
    ∃ query, k.operation.target = .one [p.collection] p.name p.suffix query := by
  cases k with
  | catalogue c => cases h
  | instances c | volumes c | sshKeys c | startupScripts c | clusters c | containers c | jobs c =>
    cases c <;> cases h <;> exact ⟨_, rfl⟩

end Call

/-! ### What stands around a name -/

/-- A word that is a segment as it is. -/
def Plain (word : List Char) : Prop :=
  word ≠ [] ∧ '/' ∉ word ∧ '?' ∉ word ∧ ¬ IsDots word

instance (word : List Char) : Decidable (Plain word) :=
  inferInstanceAs (Decidable (_ ∧ _))

theorem Call.plain_of_place? {k : Call} {p : Place} (h : k.place? = some p) :
    Plain p.collection.toList ∧ ∀ word ∈ p.suffix, Plain word.toList := by
  cases k with
  | catalogue c => cases h
  | instances c | volumes c | sshKeys c | startupScripts c | clusters c | containers c | jobs c =>
    cases c <;> cases h <;> dsimp only <;> decide

/-! ### The path of a URL -/

namespace Http

theorem isDots_segmentChars {name : String} :
    IsDots (Percent.segmentChars name) ↔ name = "." ∨ name = ".." := by
  have hone : Percent.segmentChars name = ['.'] ↔ name = "." :=
    ⟨fun h => Percent.segmentChars_injective (t := ".") h, fun h => h ▸ rfl⟩
  have htwo : Percent.segmentChars name = ['.', '.'] ↔ name = ".." :=
    ⟨fun h => Percent.segmentChars_injective (t := "..") h, fun h => h ▸ rfl⟩
  exact or_congr hone htwo

end Http

namespace Place

/-- The segments of a path: fixed ones, and the name as it is written. -/
def segments (p : Place) : List (List Char) :=
  p.collection.toList :: Percent.segmentChars p.name :: p.suffix.map String.toList

variable {p : Place}

theorem path_one (query : Query) :
    (Target.one [p.collection] p.name p.suffix query).path.toList = Http.ofSegments p.segments := by
  simp [Target.one, Target.path, Target.segments, Http.ofSegments, segments, Percent.segment,
    List.flatMap_map]

/-- What holds of all plain words and of all names that are written holds of all segments. -/
theorem forall_segments {P : List Char → Prop} (hc : Plain p.collection.toList)
    (hs : ∀ word ∈ p.suffix, Plain word.toList) (hp : ∀ word, Plain word → P word) :
    (∀ segment ∈ p.segments, P segment) ↔ P (Percent.segmentChars p.name) := by
  have hsuffix : ∀ segment ∈ p.suffix.map String.toList, P segment := by
    intro segment h
    obtain ⟨word, hword, rfl⟩ := List.mem_map.1 h
    exact hp _ (hs word hword)
  rw [segments, List.forall_mem_cons, List.forall_mem_cons]
  constructor
  · exact fun h => h.2.1
  · exact fun h => ⟨hp _ hc, h, hsuffix⟩

theorem segments_slash (hc : Plain p.collection.toList)
    (hs : ∀ word ∈ p.suffix, Plain word.toList) : ∀ segment ∈ p.segments, '/' ∉ segment :=
  (forall_segments hc hs fun _ h => h.2.1).2 (Percent.slash_not_mem_segmentChars p.name)

theorem query_not_mem_path (hc : Plain p.collection.toList)
    (hs : ∀ word ∈ p.suffix, Plain word.toList) : '?' ∉ Http.ofSegments p.segments := by
  have hall : ∀ segment ∈ p.segments, '?' ∉ segment :=
    (forall_segments hc hs fun _ h => h.2.2.1).2 (Percent.query_not_mem_segmentChars p.name)
  intro h
  obtain ⟨segment, hsegment, hmem⟩ := List.mem_flatMap.1 h
  rcases List.mem_cons.1 hmem with hslash | hmem
  · contradiction
  · exact hall segment hsegment hmem

theorem dots_iff (hc : Plain p.collection.toList) (hs : ∀ word ∈ p.suffix, Plain word.toList) :
    (∀ segment ∈ p.segments, ¬ IsDots segment) ↔ p.name ≠ "." ∧ p.name ≠ ".." := by
  rw [forall_segments hc hs fun _ h => h.2.2.2, Http.isDots_segmentChars, not_or]

end Place

namespace Call

variable {k : Call} {p : Place}

/-- The URL of a call is its base, the path of the place, and perhaps a query. -/
theorem exists_url (c : Config) (h : k.place? = some p) :
    ∃ rest, (k.operation.url c).toList = c.baseUrl.toList ++ (Http.ofSegments p.segments ++ rest) ∧
      OpensWith '?' rest := by
  obtain ⟨query, htarget⟩ := target_of_place? h
  have hurl := Target.toList_join_render k.regular c.baseUrl
  have hpath : k.operation.target.path.toList = Http.ofSegments p.segments := by
    rw [htarget, Place.path_one]
  rw [hpath] at hurl
  exact ⟨k.operation.target.tail, hurl, Target.opensWith_tail _⟩

theorem pathBelow_url (c : Config) (h : k.place? = some p) :
    Http.pathBelow c.baseUrl (k.operation.url c) = Http.ofSegments p.segments := by
  obtain ⟨hcollection, hsuffix⟩ := plain_of_place? h
  obtain ⟨rest, hurl, hrest⟩ := exists_url c h
  rw [Http.pathBelow, hurl, List.drop_left]
  exact Http.takeWhile_part (Place.query_not_mem_path hcollection hsuffix) hrest

end Call

/-- The path of a call that names something has the name in one segment, between those of the
collection and of what is asked for; below a base without dot segments it is left as it is by their
removal just when the name is none. -/
theorem name_in_segment (c : Config) (k : Call) (p : Place) (h : k.place? = some p) :
    let path := Http.pathBelow c.baseUrl (k.operation.url c)
    c.baseUrl.toList <+: (k.operation.url c).toList ∧
    (∃ segment, Query.splitAt '/' path =
        [] :: p.collection.toList :: segment :: p.suffix.map String.toList ∧
      Percent.decodeSegment? segment = some p.name) ∧
    ∀ front, OpensWith '/' front → (∀ segment ∈ Query.splitAt '/' front, ¬ IsDots segment) →
      (removeDots [] (front ++ path) = front ++ path ↔ p.name ≠ "." ∧ p.name ≠ "..") := by
  intro path
  obtain ⟨hcollection, hsuffix⟩ := Call.plain_of_place? h
  have hpath : path = Http.ofSegments p.segments := Call.pathBelow_url c h
  have hslash := Place.segments_slash hcollection hsuffix
  have hsplit : Query.splitAt '/' path = [] :: p.segments := by
    rw [hpath, Http.splitAt_ofSegments hslash]
  refine ⟨?_, ⟨_, hsplit, Percent.decodeSegment?_segmentChars p.name⟩, fun front hat hfront => ?_⟩
  · obtain ⟨rest, hurl, _⟩ := Call.exists_url c h
    exact ⟨_, hurl.symm⟩
  · obtain ⟨rest, hrest⟩ : ∃ rest, path = '/' :: rest := ⟨_, hpath.trans (Http.ofSegments_cons ..)⟩
    have hwhole : OpensWith '/' (front ++ path) := by
      rcases hat with rfl | ⟨_, rfl⟩
      · exact .inr ⟨rest, hrest⟩
      · exact .inr ⟨_, rfl⟩
    have hparts : Query.splitAt '/' (front ++ path) = Query.splitAt '/' front ++ p.segments := by
      rw [hrest, Query.splitAt_sep] at hsplit
      rw [hrest, Query.splitAt_append_sep, List.tail_eq_of_cons_eq hsplit]
    rw [Http.removeDots_eq_self_iff hwhole, hparts, List.forall_mem_append,
      Place.dots_iff hcollection hsuffix]
    exact and_iff_right hfront

/-- A deployment whose name has a slash in it. -/
def Call.slashed : Call := .containers (.status "a/b")

theorem name_in_segment_of_slashed :
    let path := Http.pathBelow Config.plain.baseUrl (Call.slashed.operation.url .plain)
    Call.slashed.place? = some ⟨"container-deployments", "a/b", ["status"]⟩ ∧
    (∃ segment, Query.splitAt '/' path =
        [[], "container-deployments".toList, segment, "status".toList] ∧
      Percent.decodeSegment? segment = some "a/b") ∧
    (∀ segment ∈ Query.splitAt '/' "/v1".toList, ¬ IsDots segment) ∧
    removeDots [] ("/v1".toList ++ path) = "/v1".toList ++ path :=
  have hfront : ∀ segment ∈ Query.splitAt '/' "/v1".toList, ¬ IsDots segment := by decide
  have hplace := name_in_segment .plain .slashed ⟨"container-deployments", "a/b", ["status"]⟩ rfl
  ⟨rfl, hplace.2.1, hfront,
    (hplace.2.2 "/v1".toList (.inr ⟨_, rfl⟩) hfront).2 ⟨by decide, by decide⟩⟩

/-- An instance should not be looked for above its collection, but it can be. -/
theorem removeDots_of_parent :
    let path := Http.pathBelow Config.plain.baseUrl
      ((Call.instances (.get "..")).operation.url .plain)
    path = "/instances/..".toList ∧ removeDots [] ("/v1".toList ++ path) = "/v1/".toList := by
  decide +kernel

end CloudClient
