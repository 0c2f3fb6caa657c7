/-!
# Faults in JSON text, and where they are

A fault says in what way a text is not JSON.  It is reported with the line and the column at which
the reader stood.
-/

namespace WirelessArchive.Json

/-- In what way a text fails to be JSON. -/
inductive Fault where
  | endInValue
  | endInString
  | endInList
  | endInObject
  | expectedValue
  | expectedLiteral
  | expectedColon
  | expectedListEnd
  | expectedObjectEnd
  | keyNotString
  | trailingComma
  | trailingCharacters
  | invalidNumber
  | numberOutOfRange
  | invalidEscape
  | controlCharacter
  | loneSurrogate
  | unfinishedSurrogate
  | depthExceeded
  /-- The content of a string is not UTF-8; `excess` bytes of it follow the longest valid prefix. -/
  | invalidUnicode (excess : Nat)
  deriving DecidableEq, Repr

/-- The wording of each fault. -/
def Fault.message : Fault → String
  | endInValue => "EOF while parsing a value"
  | endInString => "EOF while parsing a string"
  | endInList => "EOF while parsing a list"
  | endInObject => "EOF while parsing an object"
  | expectedValue => "expected value"
  | expectedLiteral => "expected ident"
  | expectedColon => "expected `:`"
  | expectedListEnd => "expected `,` or `]`"
  | expectedObjectEnd => "expected `,` or `\x7d`"
  | keyNotString => "key must be a string"
  | trailingComma => "trailing comma"
  | trailingCharacters => "trailing characters"
  | invalidNumber => "invalid number"
  | numberOutOfRange => "number out of range"
  | invalidEscape => "invalid escape"
  | controlCharacter => "control character (\\u0000-\\u001F) found while parsing a string"
  | loneSurrogate => "lone leading surrogate in hex escape"
  | unfinishedSurrogate => "unexpected end of hex escape"
  | depthExceeded => "recursion limit exceeded"
  | invalidUnicode _ => "invalid unicode code point"

/-- How far a fault is reported before the place where it was found, in bytes of the line. -/
def Fault.setback : Fault → Nat
  | invalidUnicode excess => excess
  | _ => 0

/-- A place in a text: lines are counted from one, columns are bytes read of the line. -/
structure Position where
  line : Nat
  column : Nat
  deriving DecidableEq, Repr

namespace Position

/-- Where a text starts. -/
def start : Position := ⟨1, 0⟩

/-- The place after one more byte. -/
def advance (p : Position) (b : UInt8) : Position :=
  if b = 0x0A then ⟨p.line + 1, 0⟩ else ⟨p.line, p.column + 1⟩

/-- The place after the bytes that were read. -/
def after (read : List UInt8) : Position := read.foldl advance start

/-- The place where a reader of `input` stands when `unread` is left. -/
def reached (input unread : List UInt8) : Position :=
  after (input.take (input.length - unread.length))

/-- The place a number of bytes earlier, but not before the start of the line. -/
def back (p : Position) (n : Nat) : Position := ⟨p.line, p.column - n⟩

/-- The end of a message that names the place. -/
def phrase (p : Position) : String :=
  " at line " ++ toString p.line ++ " column " ++ toString p.column

end Position

end WirelessArchive.Json
