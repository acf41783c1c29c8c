import CloudClient.Proofs.Json.Decimals

/-!
What is printed is read back: the text of a value, wherever it stands, is read as a tree that stands
for the value, but for floating point numbers that are not read back. These are read as other
numbers, and as `null` where they are not finite.
-/

namespace CloudClient

/-- What the text of a number is read as. -/
@[irreducible]
def Binary64.reread (x : Binary64) : Json :=
  (Json.anything.read (Json.anything.write (.ofBinary64 x))).toOption.getD .null

namespace Json

mutual

/-- What the text of a value is read as. -/
def reread : Json → Json
  | .number (.float x) => x.reread
  | .arr items => .arr (rereadItems items)
  | .obj members => .obj (rereadMembers members)
  | j => j

def rereadItems : List Json → List Json
  | [] => []
  | j :: rest => reread j :: rereadItems rest

def rereadMembers : List (String × Json) → List (String × Json)
  | [] => []
  | (k, j) :: rest => (k, reread j) :: rereadMembers rest

end

mutual

/-- Whether all numbers with a fraction in a value are read back. -/
def Survives : Json → Prop
  | .number (.float x) => x.Survives
  | .arr items => ItemsSurvive items
  | .obj members => MembersSurvive members
  | _ => True

def ItemsSurvive : List Json → Prop
  | [] => True
  | j :: rest => Survives j ∧ ItemsSurvive rest

def MembersSurvive : List (String × Json) → Prop
  | [] => True
  | (_, j) :: rest => Survives j ∧ MembersSurvive rest

end

mutual

theorem reread_of_survives : (j : Json) → j.Survives → j.reread = j
  | .null, _ | .bool _, _ | .number (.int _), _ | .str _, _ => by rw [reread]; all_goals nofun
  | .number (.float x), h => by
    have hread : anything.read (anything.write (ofBinary64 x)) = .ok (ofBinary64 x) := h
    rw [reread, Binary64.reread, hread]
    rfl
  | .arr items, h => by rw [reread, rereadItems_of_survive items h]
  | .obj members, h => by rw [reread, rereadMembers_of_survive members h]

theorem rereadItems_of_survive : (items : List Json) → ItemsSurvive items →
    rereadItems items = items
  | [], _ => rfl
  | j :: rest, h => by rw [rereadItems, reread_of_survives j h.1, rereadItems_of_survive rest h.2]

theorem rereadMembers_of_survive : (members : List (String × Json)) → MembersSurvive members →
    rereadMembers members = members
  | [], _ => rfl
  | (k, j) :: rest, h => by
    rw [rereadMembers, reread_of_survives j h.1, rereadMembers_of_survive rest h.2]

end

/-! ### Texts as bytes -/

theorem ofChars_quoted (s : String) : Utf8.ofChars (quoted s) =
    Byte.quote :: (Utf8.ofChars (s.toList.flatMap escapeChar) ++ [Byte.quote]) := by
  rw [quoted, List.cons_append, Utf8.ofChars_cons, Utf8.ofChars_append]
  rfl

theorem ofChars_integer (i : Int) : Utf8.ofChars (integerChars i) =
    (if i < 0 then [Byte.minus] else []) ++ Utf8.ofChars (Nat.toDigits 10 i.natAbs) := by
  rw [integerChars, Utf8.ofChars_append]
  split <;> rfl

/-- An integer begins as numbers do. -/
theorem exists_startsNumber (i : Integer) : ∃ k : Numeral, k.value = .ok (.int i) ∧
    StartsNumber (Utf8.ofChars (integerChars i.val)) k [] := by
  obtain ⟨k, hk, hread⟩ := exists_readNumber i
  refine ⟨k, hk, ?_⟩
  rw [ofChars_integer]
  by_cases hi : i.val < 0
  · rw [if_pos hi]
    rw [decide_eq_true hi] at hread
    exact .minus hread
  · rw [if_neg hi, List.nil_append]
    rw [decide_eq_false hi] at hread
    obtain ⟨d, ds, hchars, hlt, _⟩ := exists_digits i.val.natAbs
    rw [hchars] at hread ⊢
    refine .digit ?_ hread
    rw [digit?_digitByte d (hlt d List.mem_cons_self)]
    rfl

/-- A byte that begins a value or ends an object: no blank, and no end of an array. -/
def IsFirst (b : UInt8) : Prop :=
  Byte.isBlank b = false ∧ b ≠ Byte.closeBracket

theorem StartsNumber.exists_first {bs after : Bytes} {k : Numeral} (h : StartsNumber bs k after) :
    ∃ b t, bs = b :: t ∧ IsFirst b := by
  cases h with
  | minus _ => exact ⟨_, _, rfl, by decide, by decide⟩
  | digit hb _ => exact ⟨_, _, rfl, (of_digit hb).1, (of_digit hb).2 _ (by decide)⟩

/-! ### Numbers as texts -/

theorem write_float (x : Binary64) :
    anything.write (ofBinary64 x) = Utf8.ofChars (Binary64.wire.render x).toList := by
  change Utf8.encode (String.ofList (chars (ofBinary64 x))) = _
  rw [Utf8.encode_ofList, ofBinary64, chars, Number.chars]

theorem read_of_startsNumber {bs : Bytes} {k : Numeral} (h : StartsNumber bs k []) :
    Json.read bs = (.number k, false) := by
  rw [Json.read, readValue_of_startsNumber h]
  rfl

/-- The text of a finite number is read as a number. -/
theorem exists_reread {x : Binary64} (h : x.isFinite = true) : ∃ (k : Numeral) (m : Number),
    x.reread = .number m ∧ k.value = .ok m ∧
      StartsNumber (Utf8.ofChars (Binary64.wire.render x).toList) k [] := by
  obtain ⟨k, m, hk, hstarts⟩ := exists_startsNumber_float h
  refine ⟨k, m, ?_, hk, hstarts⟩
  have hread : anything.read (anything.write (ofBinary64 x)) = .ok (.number m) := by
    rw [Codec.read_eq_ok_iff, write_float, read_of_startsNumber hstarts]
    refine ⟨?_, rfl⟩
    change (((Node.number k).value levelLimit).mapError Problem.notJson).map sorted = _
    rw [Node.value, hk]
    rfl
  rw [Binary64.reread, hread]
  rfl

/-- Any other number is written `null`. -/
theorem render_of_not_isFinite {x : Binary64} (h : x.isFinite = false) :
    Utf8.ofChars (Binary64.wire.render x).toList = Utf8.ofChars ['n', 'u', 'l', 'l'] := by
  have hnull : Utf8.ofChars "null".toList = Utf8.ofChars ['n', 'u', 'l', 'l'] := rfl
  cases x with
  | finite _ _ _ _ => cases h
  | _ => exact hnull

theorem reread_of_not_isFinite {x : Binary64} (h : x.isFinite = false) : x.reread = .null := by
  have hread : anything.read (Utf8.ofChars ['n', 'u', 'l', 'l']) = .ok .null := rfl
  rw [Binary64.reread, write_float, render_of_not_isFinite h, hread]
  rfl

/-! ### Values as texts -/

theorem exists_first (j : Json) : ∃ b bs, Utf8.ofChars (chars j) = b :: bs ∧ IsFirst b := by
  cases j with
  | null => exact ⟨_, _, rfl, by decide, by decide⟩
  | bool b => cases b <;> exact ⟨_, _, rfl, by decide, by decide⟩
  | number m =>
    cases m with
    | int i =>
      obtain ⟨k, _, hstarts⟩ := exists_startsNumber i
      exact hstarts.exists_first
    | float x =>
      rw [chars, Number.chars]
      cases hx : x.isFinite with
      | true =>
        obtain ⟨k, _, _, hstarts⟩ := exists_startsNumber_float hx
        exact hstarts.exists_first
      | false =>
        rw [render_of_not_isFinite hx]
        exact ⟨_, _, rfl, by decide, by decide⟩
  | str s => exact ⟨_, _, ofChars_quoted s, by decide, by decide⟩
  | arr items => cases items <;> exact ⟨_, _, rfl, by decide, by decide⟩
  | obj members => cases members <;> exact ⟨_, _, rfl, by decide, by decide⟩

/-- The items of an array, and the bracket. -/
def itemsText : List Json → Bytes
  | [] => [Byte.closeBracket]
  | j :: rest => Utf8.ofChars (chars j) ++ Utf8.ofChars (itemsChars rest)

/-- The members of an object from after the opening quote of the first key, and the brace. -/
def membersText : List (String × Json) → Bytes
  | [] => [Byte.closeBrace]
  | (k, j) :: rest => Utf8.ofChars (k.toList.flatMap escapeChar) ++
      Byte.quote :: Byte.colon :: (Utf8.ofChars (chars j) ++ Utf8.ofChars (membersChars rest))

theorem ofChars_itemsChars (j : Json) (rest : List Json) :
    Utf8.ofChars (itemsChars (j :: rest)) = Byte.comma :: itemsText (j :: rest) := by
  rw [itemsChars, List.cons_append, Utf8.ofChars_cons, Utf8.ofChars_append]
  rfl

theorem ofChars_membersChars (k : String) (j : Json) (rest : List (String × Json)) :
    Utf8.ofChars (membersChars ((k, j) :: rest)) =
      Byte.comma :: Byte.quote :: membersText ((k, j) :: rest) := by
  simp only [membersChars, membersText, Utf8.ofChars_append, Utf8.ofChars_cons, ofChars_quoted,
    List.append_assoc, List.cons_append, List.nil_append]
  rfl

theorem ofChars_arr (j : Json) (rest : List Json) :
    Utf8.ofChars (chars (.arr (j :: rest))) = Byte.openBracket :: itemsText (j :: rest) := by
  rw [chars, List.cons_append, Utf8.ofChars_cons, Utf8.ofChars_append]
  rfl

theorem ofChars_obj (k : String) (j : Json) (rest : List (String × Json)) :
    Utf8.ofChars (chars (.obj ((k, j) :: rest))) =
      Byte.openBrace :: Byte.quote :: membersText ((k, j) :: rest) := by
  simp only [chars, membersText, Utf8.ofChars_append, Utf8.ofChars_cons, ofChars_quoted,
    List.append_assoc, List.cons_append, List.nil_append]
  rfl

/-! ### Steps of the reader -/

section Steps

variable {fuel : Nat} {b c : UInt8} {bs more after : Bytes} {n : Node} {l : Literal}

theorem readValue_str (h : readLiteral bs = (l, after)) :
    readValue (fuel + 1) (Byte.quote :: bs) = (.text l, after) := by
  rw [readValue.eq_def]
  dsimp only
  rw [skipBlanks_cons (by decide)]
  dsimp only
  rw [if_pos rfl, h]

theorem readValue_arr {ns : List Node} {tail : ArrayEnd} (hb : IsFirst b)
    (h : readItems fuel (b :: bs) = ((ns, tail), after)) :
    readValue (fuel + 1) (Byte.openBracket :: b :: bs) = (.array ns tail, after) := by
  rw [readValue.eq_def]
  dsimp only
  rw [skipBlanks_cons (by decide)]
  dsimp only
  rw [if_neg (by decide), if_pos rfl, skipBlanks_cons hb.1]
  dsimp only
  rw [if_neg hb.2, h]

theorem readValue_obj {ns : List (Literal × Node)} {tail : ObjectEnd}
    (h : readMembers fuel bs = ((ns, tail), after)) :
    readValue (fuel + 1) (Byte.openBrace :: Byte.quote :: bs) = (.object ns tail, after) := by
  rw [readValue.eq_def]
  dsimp only
  rw [skipBlanks_cons (by decide)]
  dsimp only
  rw [if_neg (by decide), if_neg (by decide), if_pos rfl, skipBlanks_cons (by decide)]
  dsimp only
  rw [if_neg (by decide), if_pos rfl, h]

theorem readItems_last (hv : readValue fuel bs = (n, Byte.closeBracket :: after))
    (hcut : n.isCut = false) : readItems (fuel + 1) bs = (([n], .closed), after) := by
  rw [readItems.eq_def]
  dsimp only
  rw [hv]
  dsimp only
  rw [if_neg (by rw [hcut]; decide), skipBlanks_cons (by decide)]
  dsimp only
  rw [if_pos rfl]

theorem readItems_cons {ns : List Node} {tail : ArrayEnd}
    (hv : readValue fuel bs = (n, Byte.comma :: c :: more)) (hcut : n.isCut = false)
    (hc : IsFirst c) (h : readItems fuel (c :: more) = ((ns, tail), after)) :
    readItems (fuel + 1) bs = ((n :: ns, tail), after) := by
  rw [readItems.eq_def]
  dsimp only
  rw [hv]
  dsimp only
  rw [if_neg (by rw [hcut]; decide), skipBlanks_cons (by decide)]
  dsimp only
  rw [if_neg (by decide), if_pos rfl, skipBlanks_cons hc.1]
  dsimp only
  rw [if_neg hc.2, h]

theorem readMembers_last (hl : readLiteral bs = (l, Byte.colon :: more)) (hwhole : l.cut = none)
    (hv : readValue fuel more = (n, Byte.closeBrace :: after)) (hcut : n.isCut = false) :
    readMembers (fuel + 1) bs = (([(l, n)], .closed), after) := by
  rw [readMembers.eq_def]
  dsimp only
  rw [hl]
  dsimp only
  rw [if_neg (by rw [hwhole]; decide), skipBlanks_cons (by decide)]
  dsimp only
  rw [if_pos rfl, hv]
  dsimp only
  rw [if_neg (by rw [hcut]; decide), skipBlanks_cons (by decide)]
  dsimp only
  rw [if_pos rfl]

theorem readMembers_cons {ns : List (Literal × Node)} {tail : ObjectEnd} {next : Bytes}
    (hl : readLiteral bs = (l, Byte.colon :: more)) (hwhole : l.cut = none)
    (hv : readValue fuel more = (n, Byte.comma :: Byte.quote :: next)) (hcut : n.isCut = false)
    (h : readMembers fuel next = ((ns, tail), after)) :
    readMembers (fuel + 1) bs = (((l, n) :: ns, tail), after) := by
  rw [readMembers.eq_def]
  dsimp only
  rw [hl]
  dsimp only
  rw [if_neg (by rw [hwhole]; decide), skipBlanks_cons (by decide)]
  dsimp only
  rw [if_pos rfl, hv]
  dsimp only
  rw [if_neg (by rw [hcut]; decide), skipBlanks_cons (by decide)]
  dsimp only
  rw [if_neg (by decide), if_pos rfl, skipBlanks_cons (by decide)]
  dsimp only
  rw [if_pos rfl, h]

end Steps

/-! ### Values -/

/-- The first byte of the items after the first one. -/
theorem exists_first_items (j : Json) (rest : List Json) :
    ∃ b bs, itemsText (j :: rest) = b :: bs ∧ IsFirst b := by
  obtain ⟨b, bs, hbs, hb⟩ := exists_first j
  exact ⟨b, _, by rw [itemsText, hbs, List.cons_append], hb⟩

theorem readValue_number {m : Number} {k : Numeral} {bs after : Bytes} {fuel : Nat}
    (hk : k.value = .ok m) (hstarts : StartsNumber bs k []) (hafter : Delimited after) :
    ∃ n, readValue (fuel + 1) (bs ++ after) = (n, after) ∧ n.Denotes (.number m) :=
  ⟨.number k, readValue_of_startsNumber (hstarts.append hafter) fuel, k, rfl, hk⟩

mutual

/-- The text of a value is read as a tree that stands for it, and what follows is left. Fuel for
every byte twice is enough. -/
theorem exists_readValue : (j : Json) → (fuel : Nat) → (after : Bytes) →
    2 * (Utf8.ofChars (chars j)).length ≤ fuel → Delimited after →
    ∃ n, readValue fuel (Utf8.ofChars (chars j) ++ after) = (n, after) ∧ n.Denotes j.reread
  | j, 0, after, hfuel, hafter => by
    obtain ⟨b, bs, hbs, _⟩ := exists_first j
    rw [hbs, List.length_cons] at hfuel
    omega
  | .null, fuel + 1, after, _, _ => ⟨.null, rfl, rfl⟩
  | .bool true, fuel + 1, after, _, _ => ⟨.bool true, rfl, rfl⟩
  | .bool false, fuel + 1, after, _, _ => ⟨.bool false, rfl, rfl⟩
  | .number (.int i), fuel + 1, after, _, hafter => by
    obtain ⟨k, hk, hstarts⟩ := exists_startsNumber i
    exact readValue_number hk hstarts hafter
  | .number (.float x), fuel + 1, after, _, hafter => by
    rw [chars, Number.chars, reread]
    cases hx : x.isFinite with
    | true =>
      obtain ⟨k, m, hm, hk, hstarts⟩ := exists_reread hx
      rw [hm]
      exact readValue_number hk hstarts hafter
    | false =>
      rw [render_of_not_isFinite hx, reread_of_not_isFinite hx]
      exact ⟨.null, rfl, rfl⟩
  | .str s, fuel + 1, after, _, _ => by
    obtain ⟨l, hread, hl⟩ := readLiteral_quoted s after
    refine ⟨.text l, ?_, l, rfl, hl⟩
    rw [chars, ofChars_quoted, List.cons_append, List.append_assoc]
    exact readValue_str hread
  | .arr [], fuel + 1, after, _, _ => ⟨.array [] .closed, rfl, [], rfl, rfl⟩
  | .arr (j :: rest), fuel + 1, after, hfuel, _ => by
    rw [ofChars_arr, List.length_cons] at hfuel
    obtain ⟨ns, hread, hns⟩ := exists_readItems (j :: rest) fuel after (by omega)
      (List.cons_ne_nil j rest)
    obtain ⟨b, bs, hbs, hb⟩ := exists_first_items j rest
    refine ⟨.array ns .closed, ?_, ns, rfl, hns⟩
    rw [ofChars_arr, hbs]
    rw [hbs] at hread
    exact readValue_arr hb hread
  | .obj [], fuel + 1, after, _, _ => ⟨.object [] .closed, rfl, [], rfl, rfl⟩
  | .obj ((k, j) :: rest), fuel + 1, after, hfuel, _ => by
    rw [ofChars_obj, List.length_cons, List.length_cons] at hfuel
    obtain ⟨ns, hread, hns⟩ := exists_readMembers ((k, j) :: rest) fuel after (by omega)
      (List.cons_ne_nil _ rest)
    refine ⟨.object ns .closed, ?_, ns, rfl, hns⟩
    rw [ofChars_obj]
    exact readValue_obj hread

theorem exists_readItems : (items : List Json) → (fuel : Nat) → (after : Bytes) →
    2 * (itemsText items).length ≤ fuel → items ≠ [] →
    ∃ ns, readItems fuel (itemsText items ++ after) = ((ns, .closed), after) ∧
      Node.ItemsDenote ns (rereadItems items)
  | [], _, _, _, hne => absurd rfl hne
  | j :: rest, 0, after, hfuel, _ => by
    obtain ⟨b, bs, hbs, _⟩ := exists_first_items j rest
    rw [hbs, List.length_cons] at hfuel
    omega
  | [j], fuel + 1, after, hfuel, _ => by
    have hclose : (Utf8.ofChars (itemsChars [])).length = 1 := rfl
    rw [itemsText, List.length_append, hclose] at hfuel
    obtain ⟨n, hread, hn⟩ := exists_readValue j fuel (Byte.closeBracket :: after)
      (by omega) (.more _ (by decide))
    refine ⟨[n], ?_, n, [], rfl, hn, rfl⟩
    rw [itemsText, List.append_assoc]
    exact readItems_last hread hn.isCut
  | j :: j' :: rest, fuel + 1, after, hfuel, _ => by
    rw [itemsText, ofChars_itemsChars, List.length_append, List.length_cons] at hfuel
    obtain ⟨n, hread, hn⟩ := exists_readValue j fuel
      (Byte.comma :: (itemsText (j' :: rest) ++ after)) (by omega) (.more _ (by decide))
    obtain ⟨ns, hrest, hns⟩ := exists_readItems (j' :: rest) fuel after (by omega)
      (List.cons_ne_nil j' rest)
    obtain ⟨b, bs, hbs, hb⟩ := exists_first_items j' rest
    refine ⟨n :: ns, ?_, n, ns, rfl, hn, hns⟩
    rw [itemsText, ofChars_itemsChars, List.append_assoc, List.cons_append]
    rw [hbs] at hread hrest ⊢
    exact readItems_cons hread hn.isCut hb hrest

theorem exists_readMembers : (members : List (String × Json)) → (fuel : Nat) → (after : Bytes) →
    2 * (membersText members).length ≤ fuel → members ≠ [] →
    ∃ ns, readMembers fuel (membersText members ++ after) = ((ns, .closed), after) ∧
      Node.MembersDenote ns (rereadMembers members)
  | [], _, _, _, hne => absurd rfl hne
  | (k, j) :: rest, 0, after, hfuel, _ => by
    rw [membersText, List.length_append, List.length_cons] at hfuel
    omega
  | [(k, j)], fuel + 1, after, hfuel, _ => by
    rw [membersText, List.length_append, List.length_cons, List.length_cons,
      List.length_append] at hfuel
    obtain ⟨l, hkey, hl⟩ := readLiteral_quoted k
      (Byte.colon :: (Utf8.ofChars (chars j) ++ Byte.closeBrace :: after))
    obtain ⟨n, hread, hn⟩ := exists_readValue j fuel (Byte.closeBrace :: after)
      (by omega) (.more _ (by decide))
    refine ⟨[(l, n)], ?_, l, n, [], rfl, hl, hn, rfl⟩
    refine readMembers_last ?_ hl.whole hread hn.isCut
    rw [← hkey, membersText]
    simp only [List.append_assoc, List.cons_append]
    rfl
  | (k, j) :: (k', j') :: rest, fuel + 1, after, hfuel, _ => by
    rw [membersText, ofChars_membersChars, List.length_append, List.length_cons, List.length_cons,
      List.length_append, List.length_cons, List.length_cons] at hfuel
    obtain ⟨l, hkey, hl⟩ := readLiteral_quoted k (Byte.colon :: (Utf8.ofChars (chars j) ++
      Byte.comma :: Byte.quote :: (membersText ((k', j') :: rest) ++ after)))
    obtain ⟨n, hread, hn⟩ := exists_readValue j fuel
      (Byte.comma :: Byte.quote :: (membersText ((k', j') :: rest) ++ after)) (by omega)
      (.more _ (by decide))
    obtain ⟨ns, hrest, hns⟩ := exists_readMembers ((k', j') :: rest) fuel after
      (by omega) (List.cons_ne_nil _ rest)
    refine ⟨(l, n) :: ns, ?_, l, n, ns, rfl, hl, hn, hns⟩
    refine readMembers_cons ?_ hl.whole hread hn.isCut hrest
    rw [← hkey, membersText, ofChars_membersChars]
    simp only [List.append_assoc, List.cons_append]

end

theorem encode_eq_ofChars (j : Json) : j.encode = Utf8.ofChars (chars j) :=
  Utf8.encode_ofList (chars j)

/-- The text of a value is read to its end. -/
theorem exists_read_encode (j : Json) :
    ∃ n, Json.read j.encode = (n, false) ∧ n.Denotes j.reread := by
  obtain ⟨n, hread, hn⟩ := exists_readValue j (2 * (Utf8.ofChars (chars j)).length + 2) []
    (Nat.le_add_right _ 2) .ends
  rw [List.append_nil] at hread
  refine ⟨n, ?_, hn⟩
  rw [encode_eq_ofChars, Json.read, hread]
  rfl

/-- The text of a value is read as the value. -/
theorem exists_read {j : Json} (hj : j.Survives) :
    ∃ n, Json.read j.encode = (n, false) ∧ n.Denotes j := by
  obtain ⟨n, hread, hn⟩ := exists_read_encode j
  exact ⟨n, hread, reread_of_survives j hj ▸ hn⟩

end Json

end CloudClient
