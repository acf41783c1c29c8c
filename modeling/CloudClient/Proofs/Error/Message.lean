import CloudClient.Error
import CloudClient.Proofs.Json.Accepted
import CloudClient.Proofs.Text.Trim

/-!
The message of an error. The service documents that a JSON object states it, in a string member
`message` or else `error`, and that any other body is its own message. What is taken from a body is
what is documented wherever all fields of an error are as expected, those that no message is taken
from included; and it says something unless the body states a blank message.
-/

namespace CloudClient

open Json (Node Literal named Once optionFrom Source Slot)

namespace ErrorBody

variable {levels : Nat} {whole : String} {source : Source} {held : Nat → String → Option Node}

/-- What can stand in the place of a field. -/
def Suits (name : String) (n : Node) : Prop :=
  n = .null ∨ if name = "status" then n.IsBelow (2 ^ 16) else n.string?.isSome

/-! ### Which bodies are read -/

theorem read_iff {b : ErrorBody} (h : ∀ i name, (source.find i name).Holds (held i name)) :
    shape.read levels whole source = .ok b ↔
      optionFrom Json.string levels (held 0 "message") = .ok b.message ∧
      optionFrom Json.string levels (held 1 "error") = .ok b.error ∧
      optionFrom Json.uint16 levels (held 2 "status") = .ok b.status ∧
      optionFrom Json.string levels (held 3 "code") = .ok b.code := by
  rw [shape]
  simp only [Json.Shape.read_and_iff, Json.Field.read_nullable_iff (h _ _)]
  constructor
  · rintro ⟨_, code, ⟨_, status, ⟨_, error, ⟨_, message, ⟨⟩, hm, rfl⟩, he, rfl⟩, hs, rfl⟩, hc, rfl⟩
    exact ⟨hm, he, hs, hc⟩
  · rintro ⟨hm, he, hs, hc⟩
    exact ⟨_, _, ⟨_, _, ⟨_, _, ⟨_, _, rfl, hm, rfl⟩, he, rfl⟩, hs, rfl⟩, hc, rfl⟩

/-- The message or else the error of what is read comes from the first two fields. -/
theorem stated_of_read {b : ErrorBody} (h : ∀ i name, (source.find i name).Holds (held i name))
    (hread : shape.read levels whole source = .ok b) :
    b.message.or b.error =
      ((held 0 "message").bind Node.string?).or ((held 1 "error").bind Node.string?) := by
  obtain ⟨hmessage, herror, _⟩ := (read_iff h).1 hread
  rw [(Json.optionFrom_string_iff.1 hmessage).2, (Json.optionFrom_string_iff.1 herror).2]

theorem exists_read_iff (h : ∀ i name, (source.find i name).Holds (held i name)) :
    (∃ b, shape.read levels whole source = .ok b) ↔
      ∀ f ∈ shape.names.zipIdx, ∀ n ∈ held f.2 f.1, Suits f.1 n := by
  have hstring {i : Nat} {name : String} (hname : name ≠ "status") :
      (∃ o, optionFrom Json.string levels (held i name) = .ok o) ↔
        ∀ n ∈ held i name, Suits name n := by
    simp only [Json.optionFrom_string_iff, exists_and_left, exists_eq, and_true, Suits,
      if_neg hname]
  have hstatus : (∃ o, optionFrom Json.uint16 levels (held 2 "status") = .ok o) ↔
      ∀ n ∈ held 2 "status", Suits "status" n := Json.exists_optionFrom_uint16_iff
  have hnames : shape.names.zipIdx = [("message", 0), ("error", 1), ("status", 2), ("code", 3)] :=
    rfl
  simp only [read_iff h, hnames, List.forall_mem_cons, ← hstatus,
    ← hstring (show "message" ≠ "status" by decide), ← hstring (show "error" ≠ "status" by decide),
    ← hstring (show "code" ≠ "status" by decide)]
  constructor
  · rintro ⟨b, hm, he, hs, hc⟩
    exact ⟨⟨_, hm⟩, ⟨_, he⟩, ⟨_, hs⟩, ⟨_, hc⟩, nofun⟩
  · rintro ⟨⟨message, hm⟩, ⟨error, he⟩, ⟨status, hs⟩, ⟨code, hc⟩, _⟩
    exact ⟨⟨message, error, status, code⟩, hm, he, hs, hc⟩

/-- An object all of whose fields are as expected. -/
structure Regular (members : List (Literal × Node)) : Prop where
  keys : ∀ m ∈ members, ∃ k, m.1.text = .ok k
  once : Once shape.names (named members)
  suits : ∀ m ∈ named members, m.1 ∈ shape.names → Suits m.1 m.2

/-- An array all of whose items are as expected of the fields in their order. -/
structure RegularItems (items : List Node) : Prop where
  length : items.length ≤ shape.names.length
  suits : ∀ f ∈ shape.names.zipIdx, ∀ n ∈ items[f.2]?, Suits f.1 n

theorem Suits.skip {name : String} {n : Node} (h : Suits name n) : n.skip = none := by
  rcases h with rfl | h
  · rfl
  · split at h
    · obtain ⟨k, i, rfl, _⟩ := h
      rfl
    · obtain ⟨s, hs⟩ := Option.isSome_iff_exists.1 h
      exact Node.skip_of_string? hs

theorem suits_lookup_iff {members : List (Literal × Node)}
    (honce : Once shape.names (named members)) :
    (∀ f ∈ shape.names.zipIdx, ∀ n ∈ (named members).lookup f.1, Suits f.1 n) ↔
      ∀ m ∈ named members, m.1 ∈ shape.names → Suits m.1 m.2 := by
  constructor
  · rintro h ⟨k, n⟩ hm hk
    obtain ⟨i, hi⟩ := List.mem_iff_getElem?.1 hk
    exact h (k, i) (List.mem_zipIdx_iff_getElem?.2 hi) n ((honce.lookup_iff hk).2 hm)
  · rintro h ⟨k, i⟩ hf n hn
    have hk : k ∈ shape.names := List.mem_of_getElem? (List.mem_zipIdx_iff_getElem?.1 hf)
    exact h (k, n) ((honce.lookup_iff hk).1 hn) hk

variable {members : List (Literal × Node)} {items : List Node}

theorem exists_decode_object_iff {tail : Json.ObjectEnd} :
    (∃ b, codec.decode (levels + 1) (.object members tail) = .ok b) ↔
      tail = .closed ∧ (Node.object members .closed).skip = none ∧ Regular members := by
  simp only [codec, Json.Shape.record_object_iff, exists_and_left]
  refine and_congr_right fun _ => ?_
  rw [exists_read_iff fun i name => Json.find_object_holds i name (named members),
    Node.skip_object_iff]
  constructor
  · rintro ⟨hkeys, hclean, hsuits⟩
    have hmembers := (suits_lookup_iff hclean.once).1 hsuits
    refine ⟨fun m hm => ?_, hkeys, hclean.once, hmembers⟩
    obtain ⟨k, hk⟩ := hkeys m hm
    have hnamed : (k, m.2) ∈ named members := Json.mem_named_iff.2 ⟨m.1, hm, hk⟩
    refine ⟨Json.Literal.skip_of_text hk, ?_⟩
    by_cases hfield : k ∈ shape.names
    · exact (hmembers _ hnamed hfield).skip
    · exact hclean.skips _ hnamed hfield
  · rintro ⟨hskip, hkeys, honce, hmembers⟩
    refine ⟨hkeys, ⟨honce, fun m hm _ => ?_⟩, (suits_lookup_iff honce).2 hmembers⟩
    obtain ⟨l, hl, _⟩ := Json.mem_named_iff.1 hm
    exact (hskip _ hl).2

theorem exists_decode_array_iff {tail : Json.ArrayEnd} :
    (∃ b, codec.decode (levels + 1) (.array items tail) = .ok b) ↔
      tail = .closed ∧ RegularItems items := by
  simp only [codec, Json.Shape.record_array_iff, exists_and_left]
  rw [exists_read_iff fun i name => Json.find_array_holds i name items]
  exact and_congr_right fun _ => ⟨fun h => ⟨h.1, h.2⟩, fun h => ⟨h.length, h.suits⟩⟩

end ErrorBody

namespace ApiError

open ErrorBody (Regular RegularItems)

variable {body : Bytes} {members : List (Literal × Node)} {items : List Node}

/-- The message of an object: its string `message`, or else its string `error`. -/
def memberMessage? (members : List (Literal × Node)) : Option String :=
  (Json.firstString? "message" (named members)).or (Json.firstString? "error" (named members))

/-- The message that a body states as it is documented: that of a JSON object, whatever other
members it has. -/
def documentedMessage? (body : Bytes) : Option String :=
  match Json.read body with
  | (.object members .closed, false) =>
    if (Node.object members .closed).skip = none then memberMessage? members else none
  | _ => none

/-- Where the message that is taken from a body is the documented one: an object has none, or all of
its fields are as expected; and an array is not taken for the fields of an error. -/
structure AsDocumented (body : Bytes) : Prop where
  object : ∀ members tail more, Json.read body = (.object members tail, more) →
    documentedMessage? body = none ∨ Regular members
  array : ∀ items, Json.read body = (.array items .closed, false) → RegularItems items →
    ∀ n ∈ items.take 2, n.string? = none

theorem statedMessage?_of_read {b : ErrorBody} (h : ErrorBody.codec.read body = .ok b) :
    statedMessage? body = b.message.or b.error := by
  rw [statedMessage?, h]

theorem statedMessage?_eq_none (h : ¬ ∃ b, ErrorBody.codec.read body = .ok b) :
    statedMessage? body = none := by
  rw [statedMessage?]
  cases hb : ErrorBody.codec.read body with
  | ok b => exact absurd ⟨b, hb⟩ h
  | error p => rfl

/-! ### Objects -/

section

variable {tail : Json.ObjectEnd} {more : Bool}

theorem documentedMessage?_object (hread : Json.read body = (.object members tail, more)) :
    documentedMessage? body =
      if tail = .closed ∧ more = false ∧ (Node.object members .closed).skip = none then
        memberMessage? members
      else none := by
  rw [documentedMessage?, hread]
  cases tail <;> cases more <;> simp

theorem read_object_iff (hread : Json.read body = (.object members tail, more)) :
    (∃ b, ErrorBody.codec.read body = .ok b) ↔
      (tail = .closed ∧ more = false ∧ (Node.object members .closed).skip = none) ∧
        Regular members := by
  simp only [Json.Codec.read_eq_ok_iff, hread, exists_and_right]
  rw [Json.levelLimit, ErrorBody.exists_decode_object_iff]
  tauto

theorem stated_of_read_object {b : ErrorBody}
    (hread : Json.read body = (.object members tail, more))
    (hb : ErrorBody.codec.read body = .ok b) : b.message.or b.error = memberMessage? members := by
  have hregular : Regular members := ((read_object_iff hread).1 ⟨b, hb⟩).2
  obtain ⟨hdecode, _⟩ := Json.Codec.read_eq_ok_iff.1 hb
  rw [hread] at hdecode
  obtain ⟨_, _, _, hfields⟩ := Json.Shape.record_object_iff.1 hdecode
  rw [ErrorBody.stated_of_read (fun i name => Json.find_object_holds i name _) hfields,
    memberMessage?, hregular.once.firstString?_eq (by decide),
    hregular.once.firstString?_eq (by decide)]

theorem statedMessage?_object (hread : Json.read body = (.object members tail, more)) :
    statedMessage? body = documentedMessage? body ↔
      documentedMessage? body = none ∨ Regular members := by
  have hdocumented := documentedMessage?_object hread
  by_cases hb : ∃ b, ErrorBody.codec.read body = .ok b
  · obtain ⟨hwhole, hregular⟩ := (read_object_iff hread).1 hb
    obtain ⟨b, hb⟩ := hb
    rw [if_pos hwhole] at hdocumented
    rw [statedMessage?_of_read hb, stated_of_read_object hread hb, hdocumented]
    exact iff_of_true rfl (.inr hregular)
  · rw [statedMessage?_eq_none hb, eq_comm]
    rw [read_object_iff hread, not_and] at hb
    -- a regular object that is not read is not whole, and nothing is documented for it
    have hnone : Regular members → documentedMessage? body = none := fun hregular => by
      rw [hdocumented, if_neg fun hwhole => hb hwhole hregular]
    exact ⟨.inl, fun h => h.elim id hnone⟩

end

/-! ### Arrays -/

section

variable {tail : Json.ArrayEnd} {more : Bool}

theorem read_array_iff (hread : Json.read body = (.array items tail, more)) :
    (∃ b, ErrorBody.codec.read body = .ok b) ↔
      (tail = .closed ∧ more = false) ∧ RegularItems items := by
  simp only [Json.Codec.read_eq_ok_iff, hread, exists_and_right]
  rw [Json.levelLimit, ErrorBody.exists_decode_array_iff]
  tauto

theorem stated_of_read_array {b : ErrorBody} (hread : Json.read body = (.array items tail, more))
    (hb : ErrorBody.codec.read body = .ok b) :
    b.message.or b.error = none ↔ ∀ n ∈ items.take 2, n.string? = none := by
  obtain ⟨hdecode, _⟩ := Json.Codec.read_eq_ok_iff.1 hb
  rw [hread] at hdecode
  obtain ⟨_, _, hfields⟩ := Json.Shape.record_array_iff.1 hdecode
  rw [ErrorBody.stated_of_read (fun i name => Json.find_array_holds i name _) hfields,
    Option.or_eq_none_iff]
  match items with
  | [] => simp
  | [n] => simp
  | n :: n' :: items => simp

theorem statedMessage?_array (hread : Json.read body = (.array items tail, more)) :
    statedMessage? body = none ↔ ((tail = .closed ∧ more = false) → RegularItems items →
      ∀ n ∈ items.take 2, n.string? = none) := by
  by_cases hb : ∃ b, ErrorBody.codec.read body = .ok b
  · obtain ⟨hwhole, hregular⟩ := (read_array_iff hread).1 hb
    obtain ⟨b, hb⟩ := hb
    rw [forall_prop_of_true hwhole, forall_prop_of_true hregular, statedMessage?_of_read hb]
    exact stated_of_read_array hread hb
  · rw [statedMessage?_eq_none hb]
    rw [read_array_iff hread, not_and] at hb
    exact iff_of_true rfl fun hwhole hregular => absurd hregular (hb hwhole)

end

/-! ### Any body -/

theorem statedMessage?_eq_iff (body : Bytes) :
    statedMessage? body = documentedMessage? body ↔ AsDocumented body := by
  cases hread : Json.read body with
  | mk root more =>
    cases root with
    | object members tail =>
      rw [statedMessage?_object hread]
      constructor
      · intro h
        refine ⟨fun members' tail' more' hread' => ?_, fun items hread' => ?_⟩
        · rw [hread] at hread'
          cases hread'
          exact h
        · rw [hread] at hread'
          cases hread'
      · exact fun h => h.object members tail more hread
    | array items tail =>
      have hnone : documentedMessage? body = none := by rw [documentedMessage?, hread]
      rw [hnone, statedMessage?_array hread]
      constructor
      · intro h
        refine ⟨fun members' tail' more' hread' => ?_, fun items hread' => ?_⟩
        · rw [hread] at hread'
          cases hread'
        · rw [hread] at hread'
          cases hread'
          exact h ⟨rfl, rfl⟩
      · rintro h ⟨rfl, rfl⟩
        exact h.array items hread
    | _ =>
      have hnone : documentedMessage? body = none := by rw [documentedMessage?, hread]
      have hstated : statedMessage? body = none := by
        refine statedMessage?_eq_none fun ⟨b, hb⟩ => ?_
        obtain ⟨hdecode, _⟩ := Json.Codec.read_eq_ok_iff.1 hb
        rw [hread] at hdecode
        cases hdecode
      refine iff_of_true (hstated.trans hnone.symm) ⟨fun _ _ _ h => ?_, fun _ h => ?_⟩
      all_goals
        rw [hread] at h
        cases h

/-- The message that is taken from a body is the documented one exactly where an object has none or
only fields as expected, and an array cannot be taken for the fields. There the message is that of
the object, else the text of the body, else the status. -/
theorem message_as_documented (status : UInt16) (body : Bytes) :
    (statedMessage? body = documentedMessage? body ↔ AsDocumented body) ∧
      (AsDocumented body → (ofResponse status body).message =
        ((documentedMessage? body).or (text? body)).getD
          ("HTTP " ++ decimal status ++ " error")) := by
  refine ⟨statedMessage?_eq_iff body, fun h => ?_⟩
  rw [ofResponse, (statedMessage?_eq_iff body).2 h]

/-- An error with a code beside the message. -/
def coded : Bytes :=
  Utf8.encode "\x7b\"code\":\"size\",\"message\":\"bad size\"\x7d"

theorem message_of_coded : AsDocumented coded ∧ (ofResponse 400 coded).message =
    ((documentedMessage? coded).or (text? coded)).getD ("HTTP " ++ decimal 400 ++ " error") := by
  have hstated : statedMessage? coded = documentedMessage? coded := by decide +kernel
  have h := message_as_documented 400 coded
  exact ⟨h.1.1 hstated, h.2 (h.1.1 hstated)⟩

/-- An error whose status is written with a fraction. -/
def fractional : Bytes :=
  Utf8.encode "\x7b\"message\":\"bad size\",\"status\":400.0\x7d"

/-- No message is taken from an object that has one, for the sake of a status that nobody reads. -/
theorem message_of_fractional : documentedMessage? fractional = some "bad size" ∧
    (ofResponse 400 fractional).message ≠
      ((documentedMessage? fractional).or (text? fractional)).getD
        ("HTTP " ++ decimal 400 ++ " error") := by
  decide +kernel

/-! ### Messages that say something -/

/-- There is more than blanks to read. -/
def Says (s : String) : Prop :=
  ∃ c ∈ s.toList, Text.isBlank c = false

theorem says_iff {s : String} : Says s ↔ s.toList.any (!Text.isBlank ·) = true := by
  rw [List.any_eq_true]
  simp only [Says, Bool.not_eq_true']

instance (s : String) : Decidable (Says s) :=
  decidable_of_iff _ says_iff.symm

theorem says_trim {s : String} (h : (Text.trim s).isEmpty = false) : Says (Text.trim s) := by
  have hlast := Text.last_trimList s.toList
  have htrim : (Text.trim s).toList = Text.trimList s.toList := String.toList_ofList
  cases hcs : (Text.trimList s.toList).getLast? with
  | none =>
    rw [List.getLast?_eq_none_iff] at hcs
    rw [Text.trim, hcs] at h
    cases h
  | some c => exact ⟨c, htrim ▸ List.mem_of_getLast? hcs, hlast c hcs⟩

theorem says_of_text? {s : String} (h : text? body = some s) : Says s := by
  rw [text?] at h
  split at h
  case isTrue => cases h
  case isFalse hempty =>
    cases h
    exact says_trim (Bool.eq_false_iff.2 hempty)

theorem says_status (status : UInt16) : Says ("HTTP " ++ decimal status ++ " error") := by
  refine ⟨'H', ?_, rfl⟩
  simp

/-- Only the body itself can make a message that says nothing, by stating one. -/
theorem message_says_iff (status : UInt16) (body : Bytes) :
    Says (ofResponse status body).message ↔ ∀ s ∈ statedMessage? body, Says s := by
  rw [ofResponse]
  cases hstated : statedMessage? body with
  | some s => simp
  | none =>
    refine iff_of_true ?_ nofun
    cases htext : text? body with
    | some s => exact says_of_text? htext
    | none => exact says_status status

/-- An object that states an empty message. -/
def unspoken : Bytes :=
  Utf8.encode "\x7b\"message\":\"\"\x7d"

theorem message_of_unspoken : ¬ Says (ofResponse 500 unspoken).message := by
  decide +kernel

end ApiError

end CloudClient
