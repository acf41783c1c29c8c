/-!
Where a text departs from JSON.
-/

namespace CloudClient.Json

inductive Fault where
  | endInValue
  | endInList
  | endInObject
  | endInString
  | expectedValue
  | expectedIdent
  | expectedColon
  | expectedListCommaOrEnd
  | expectedObjectCommaOrEnd
  | trailingComma
  | trailingCharacters
  | keyNotString
  | invalidNumber
  | numberOutOfRange
  | invalidEscape
  | controlCharacter
  | loneSurrogate
  | endOfHexEscape
  | invalidCodePoint
  | recursionLimit
  deriving DecidableEq, Repr

def Fault.message : Fault → String
  | .endInValue => "EOF while parsing a value"
  | .endInList => "EOF while parsing a list"
  | .endInObject => "EOF while parsing an object"
  | .endInString => "EOF while parsing a string"
  | .expectedValue => "expected value"
  | .expectedIdent => "expected ident"
  | .expectedColon => "expected `:`"
  | .expectedListCommaOrEnd => "expected `,` or `]`"
  | .expectedObjectCommaOrEnd => "expected `,` or `\x7d`"
  | .trailingComma => "trailing comma"
  | .trailingCharacters => "trailing characters"
  | .keyNotString => "key must be a string"
  | .invalidNumber => "invalid number"
  | .numberOutOfRange => "number out of range"
  | .invalidEscape => "invalid escape"
  | .controlCharacter => "control character (\\u0000-\\u001F) found while parsing a string"
  | .loneSurrogate => "lone leading surrogate in hex escape"
  | .endOfHexEscape => "unexpected end of hex escape"
  | .invalidCodePoint => "invalid unicode code point"
  | .recursionLimit => "recursion limit exceeded"

end CloudClient.Json
