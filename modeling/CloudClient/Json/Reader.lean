import CloudClient.Json.Node

/-!
From bytes to trees. Every call of the reader on a text either uses up a byte or hands the text on
once, so twice the number of bytes is enough fuel, and a little more than that is given.
-/

namespace CloudClient.Json

namespace Byte

def quote : UInt8 := 0x22
def comma : UInt8 := 0x2C
def minus : UInt8 := 0x2D
def plus : UInt8 := 0x2B
def point : UInt8 := 0x2E
def colon : UInt8 := 0x3A
def backslash : UInt8 := 0x5C
def openBracket : UInt8 := 0x5B
def closeBracket : UInt8 := 0x5D
def openBrace : UInt8 := 0x7B
def closeBrace : UInt8 := 0x7D

def isBlank (b : UInt8) : Bool :=
  b == 0x20 || b == 0x0A || b == 0x09 || b == 0x0D

def digit? (b : UInt8) : Option Nat :=
  if 0x30 ≤ b ∧ b ≤ 0x39 then some (b.toNat - 0x30) else none

def hexDigit? (b : UInt8) : Option Nat :=
  if 0x30 ≤ b ∧ b ≤ 0x39 then some (b.toNat - 0x30)
  else if 0x41 ≤ b ∧ b ≤ 0x46 then some (b.toNat - 0x41 + 10)
  else if 0x61 ≤ b ∧ b ≤ 0x66 then some (b.toNat - 0x61 + 10)
  else none

/-- The byte that a letter after a backslash stands for. -/
def unescape? (b : UInt8) : Option UInt8 :=
  if b = 0x22 ∨ b = 0x5C ∨ b = 0x2F then some b
  else if b = 0x62 then some 0x08
  else if b = 0x66 then some 0x0C
  else if b = 0x6E then some 0x0A
  else if b = 0x72 then some 0x0D
  else if b = 0x74 then some 0x09
  else none

end Byte

def skipBlanks (bs : Bytes) : Bytes :=
  bs.dropWhile Byte.isBlank

def hexUnit? (a b c d : UInt8) : Option Nat := do
  let a ← Byte.hexDigit? a
  let b ← Byte.hexDigit? b
  let c ← Byte.hexDigit? c
  let d ← Byte.hexDigit? d
  return ((a * 16 + b) * 16 + c) * 16 + d

def Literal.push (p : Piece) (r : Literal × Bytes) : Literal × Bytes :=
  (⟨p :: r.1.pieces, r.1.cut⟩, r.2)

def Literal.ends (cut : Option Cut) (rest : Bytes) : Literal × Bytes :=
  (⟨[], cut⟩, rest)

/-- A literal from after its opening quote, and what follows it. -/
def readLiteral : Bytes → Literal × Bytes
  | [] => Literal.ends (some .endOfText) []
  | b :: rest =>
    if b = Byte.quote then Literal.ends none rest
    else if b = Byte.backslash then
      match rest with
      | [] => Literal.ends (some .endOfText) []
      | e :: rest =>
        if e = 0x75 then
          match rest with
          | h₁ :: h₂ :: h₃ :: h₄ :: rest =>
            match hexUnit? h₁ h₂ h₃ h₄ with
            | some u => Literal.push (.unit u) (readLiteral rest)
            | none => Literal.ends (some .hex) []
          | _ => Literal.ends (some .endOfText) []
        else
          match Byte.unescape? e with
          | some b => Literal.push (.byte b) (readLiteral rest)
          | none => Literal.ends (some .escape) []
    else if b < 0x20 then Literal.ends (some .control) []
    else Literal.push (.byte b) (readLiteral rest)

def readDigits (bs : Bytes) : List Nat × Bytes :=
  ((bs.takeWhile (Byte.digit? · |>.isSome)).filterMap Byte.digit?,
    bs.dropWhile (Byte.digit? · |>.isSome))

def cutNumber (rest : Bytes) : Node × Bytes :=
  (.broken (.number rest.isEmpty), [])

def readExponent (n : Numeral) (bs : Bytes) : Node × Bytes :=
  match bs with
  | [] => (.number n, [])
  | b :: rest =>
    if b = 0x65 ∨ b = 0x45 then
      let (negative, rest) := match rest with
        | s :: rest' =>
          if s = Byte.minus then (true, rest')
          else if s = Byte.plus then (false, rest')
          else (false, rest)
        | [] => (false, [])
      let (digits, after) := readDigits rest
      if digits.isEmpty then cutNumber rest
      else (.number { n with exponent := some (negative, digits) }, after)
    else (.number n, bs)

def readFraction (n : Numeral) (bs : Bytes) : Node × Bytes :=
  match bs with
  | [] => (.number n, [])
  | b :: rest =>
    if b = Byte.point then
      let (digits, after) := readDigits rest
      if digits.isEmpty then cutNumber rest
      else readExponent { n with fraction := digits } after
    else readExponent n bs

/-- A number from after its sign. A zero at its start is the only digit before the point. -/
def readNumber (negative : Bool) (bs : Bytes) : Node × Bytes :=
  let (digits, after) := readDigits bs
  match digits with
  | [] => cutNumber bs
  | 0 :: _ :: _ => cutNumber bs
  | digits => readFraction ⟨negative, digits, [], none⟩ after

/-- The rest of a word whose first letter has been read. -/
def readWord (w : Word) (node : Node) : (expected : List UInt8) → Bytes → Node × Bytes
  | [], bs => (node, bs)
  | _ :: _, [] => (.broken (.word w true), [])
  | e :: expected, b :: bs =>
    if b = e then readWord w node expected bs else (.broken (.word w false), [])

mutual

def readValue : (fuel : Nat) → Bytes → Node × Bytes
  | 0, _ => (.broken .endOfText, [])
  | fuel + 1, bs =>
    match skipBlanks bs with
    | [] => (.broken .endOfText, [])
    | b :: rest =>
      if b = Byte.quote then
        let (l, rest) := readLiteral rest
        (.text l, rest)
      else if b = Byte.openBracket then
        match skipBlanks rest with
        | [] => (.array [] .endOfText, [])
        | c :: rest =>
          if c = Byte.closeBracket then (.array [] .closed, rest)
          else
            let ((items, tail), rest) := readItems fuel (c :: rest)
            (.array items tail, rest)
      else if b = Byte.openBrace then
        match skipBlanks rest with
        | [] => (.object [] .endOfText, [])
        | c :: rest =>
          if c = Byte.closeBrace then (.object [] .closed, rest)
          else if c = Byte.quote then
            let ((members, tail), rest) := readMembers fuel rest
            (.object members tail, rest)
          else (.object [] .notKey, [])
      else if b = 0x6E then readWord .null .null [0x75, 0x6C, 0x6C] rest
      else if b = 0x74 then readWord .true (.bool true) [0x72, 0x75, 0x65] rest
      else if b = 0x66 then readWord .false (.bool false) [0x61, 0x6C, 0x73, 0x65] rest
      else if b = Byte.minus then readNumber true rest
      else if (Byte.digit? b).isSome then readNumber false (b :: rest)
      else (.broken .stray, [])

/-- The items of an array from the start of one. -/
def readItems : (fuel : Nat) → Bytes → (List Node × ArrayEnd) × Bytes
  | 0, _ => (([], .endOfText), [])
  | fuel + 1, bs =>
    let (item, rest) := readValue fuel bs
    if item.isCut then (([item], .endOfText), [])
    else
      match skipBlanks rest with
      | [] => (([item], .endOfText), [])
      | b :: rest =>
        if b = Byte.closeBracket then (([item], .closed), rest)
        else if b = Byte.comma then
          match skipBlanks rest with
          | [] => (([item], .commaEnd), [])
          | c :: rest =>
            if c = Byte.closeBracket then (([item], .commaClosed), [])
            else
              let ((items, tail), rest) := readItems fuel (c :: rest)
              ((item :: items, tail), rest)
        else (([item], .stray), [])

/-- The members of an object from after the opening quote of a key. -/
def readMembers : (fuel : Nat) → Bytes → (List (Literal × Node) × ObjectEnd) × Bytes
  | 0, _ => (([], .endOfText), [])
  | fuel + 1, bs =>
    let (key, rest) := readLiteral bs
    if key.cut.isSome then (([], .badKey key), [])
    else
      match skipBlanks rest with
      | [] => (([(key, .broken (.colon true))], .endOfText), [])
      | b :: rest =>
        if b = Byte.colon then
          let (value, rest) := readValue fuel rest
          if value.isCut then (([(key, value)], .endOfText), [])
          else
            match skipBlanks rest with
            | [] => (([(key, value)], .endOfText), [])
            | b :: rest =>
              if b = Byte.closeBrace then (([(key, value)], .closed), rest)
              else if b = Byte.comma then
                match skipBlanks rest with
                | [] => (([(key, value)], .commaEnd), [])
                | c :: rest =>
                  if c = Byte.quote then
                    let ((members, tail), rest) := readMembers fuel rest
                    (((key, value) :: members, tail), rest)
                  else if c = Byte.closeBrace then (([(key, value)], .commaClosed), [])
                  else (([(key, value)], .notKey), [])
              else (([(key, value)], .stray), [])
        else (([(key, .broken (.colon false))], .endOfText), [])

end

/-- The value at the start of a text, and whether something but blanks follows it. -/
def read (bs : Bytes) : Node × Bool :=
  let (root, rest) := readValue (2 * bs.length + 2) bs
  (root, !(skipBlanks rest).isEmpty)

/-- The most arrays and objects that may be open at once. -/
def levelLimit : Nat := 127

end CloudClient.Json
