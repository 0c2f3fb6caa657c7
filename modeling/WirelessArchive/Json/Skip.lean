import WirelessArchive.Json.Reader

/-!
# Passing over a value

A value that nobody asks for is passed over without being built.  Its brackets, the grammar of its
numbers, its escapes and its control characters are checked; the depth of nesting, the range of
numbers, the pairing of surrogates and the encoding of strings are not.
-/

namespace WirelessArchive.Json.Skip

/-- Where a string that is passed over stands. -/
inductive StringMode where
  | plain
  | escape
  /-- Within the four digits of an escape, which are kept newest first. -/
  | hex (digits : List UInt8)
  deriving DecidableEq, Repr

/-- Reads a byte of a string.  A control character is refused before it is read. -/
def StringMode.step (t : StringMode) (b : UInt8) : Progress StringMode Unit Fault :=
  match t with
  | plain =>
    if b = 0x22 then .done ()
    else if b = 0x5C then .more escape
    else if b < 0x20 then .halt ⟨.controlCharacter, false⟩
    else .more plain
  | escape =>
    if b = 0x75 then .more (hex [])
    else if (escapedByte? b).isSome then .more plain
    else .halt ⟨.invalidEscape, true⟩
  | hex digits =>
    let digits := b :: digits
    if digits.length < 4 then .more (hex digits)
    else if digits.all fun d => (hexDigit? d).isSome then .more plain
    else .halt ⟨.invalidEscape, true⟩

/-- The kind of an open container. -/
inductive Bracket where
  | list
  | object
  deriving DecidableEq, Repr

/-- What may come next. -/
inductive Control where
  | value
  /-- After an opening bracket. -/
  | firstItem
  | afterItem
  /-- After an opening brace. -/
  | firstKey
  | key (t : StringMode)
  | colon
  | afterMember
  /-- After a comma in an object. -/
  | nextKey
  | literal (owed : List UInt8)
  | numeral (phase : Phase)
  | text (t : StringMode)
  | complete
  deriving DecidableEq, Repr

/-- A state: the open containers, innermost first, and what may come next. -/
structure State where
  stack : List Bracket
  control : Control
  deriving DecidableEq, Repr

/-- The state before a value. -/
def start : State := ⟨[], .value⟩

/-- The state after a complete value within the open containers. -/
def deliver : List Bracket → State
  | [] => ⟨[], .complete⟩
  | .list :: stack => ⟨.list :: stack, .afterItem⟩
  | .object :: stack => ⟨.object :: stack, .afterMember⟩

/-- Halts at the byte that was looked at. -/
def refuse (fault : Fault) : Except (Halt Fault) State := .error ⟨fault, true⟩

/-- The state after the first byte of a value. -/
def begin (stack : List Bracket) (b : UInt8) : Except (Halt Fault) State :=
  if b = 0x5B then .ok ⟨.list :: stack, .firstItem⟩
  else if b = 0x7B then .ok ⟨.object :: stack, .firstKey⟩
  else
    match Scalar.start? b with
    | some (.literal owed _) => .ok ⟨stack, .literal owed⟩
    | some (.numeral n) => .ok ⟨stack, .numeral n.phase⟩
    | some (.text _) => .ok ⟨stack, .text .plain⟩
    | none => refuse .expectedValue

/-- The state after a byte between values, keys and marks. -/
def between (s : State) (b : UInt8) : Except (Halt Fault) State :=
  if isSpace b then .ok s
  else
    match s.control with
    | .value => begin s.stack b
    | .firstItem => if b = 0x5D then .ok (deliver s.stack.tail) else begin s.stack b
    | .afterItem =>
      if b = 0x2C then .ok ⟨s.stack, .value⟩
      else if b = 0x5D then .ok (deliver s.stack.tail)
      else refuse .expectedListEnd
    | .firstKey =>
      if b = 0x22 then .ok ⟨s.stack, .key .plain⟩
      else if b = 0x7D then .ok (deliver s.stack.tail)
      else refuse .keyNotString
    | .nextKey => if b = 0x22 then .ok ⟨s.stack, .key .plain⟩ else refuse .keyNotString
    | .colon => if b = 0x3A then .ok ⟨s.stack, .value⟩ else refuse .expectedColon
    | .afterMember =>
      if b = 0x2C then .ok ⟨s.stack, .nextKey⟩
      else if b = 0x7D then .ok (deliver s.stack.tail)
      else refuse .expectedObjectEnd
    | _ => .ok s

/-- The progress that a state makes: the value is done once nothing is open any more. -/
def settle : Except (Halt Fault) State → Progress State Unit Fault
  | .error h => .halt h
  | .ok s => if s.control = .complete then .done () else .more s

/-- The progress at a byte that follows a complete part of the value. -/
def follow (s : State) (b : UInt8) : Progress State Unit Fault :=
  if s.control = .complete then .before () else settle (between s b)

/-- Reads a byte. -/
def step (s : State) (b : UInt8) : Progress State Unit Fault :=
  match s.control with
  | .literal [] => follow (deliver s.stack) b
  | .literal (c :: owed) =>
    if b ≠ c then .halt ⟨.expectedLiteral, true⟩
    else if owed.isEmpty then settle (.ok (deliver s.stack))
    else .more ⟨s.stack, .literal owed⟩
  | .numeral phase =>
    match phase.next (Symbol.ofByte b) with
    | .go phase' => .more ⟨s.stack, .numeral phase'⟩
    | .complete => follow (deliver s.stack) b
    | .wrong => .halt ⟨.invalidNumber, true⟩
  | .text t =>
    match t.step b with
    | .more t' => .more ⟨s.stack, .text t'⟩
    | .done () => settle (.ok (deliver s.stack))
    | .before () => follow (deliver s.stack) b
    | .halt h => .halt h
  | .key t =>
    match t.step b with
    | .more t' => .more ⟨s.stack, .key t'⟩
    | .done () => .more ⟨s.stack, .colon⟩
    | .before () => settle (between ⟨s.stack, .colon⟩ b)
    | .halt h => .halt h
  | _ => settle (between s b)

/-- The fault of a container that is not closed when the text ends. -/
def endWithin : List Bracket → Except Fault Unit
  | [] => .ok ()
  | .list :: _ => .error .endInList
  | .object :: _ => .error .endInObject

/-- The outcome when the text ends. -/
def finish (s : State) : Except Fault Unit :=
  match s.control with
  | .value => .error .endInValue
  | .literal _ => .error .endInValue
  | .numeral phase => if phase.isComplete then endWithin s.stack else .error .invalidNumber
  | .text _ => .error .endInString
  | .key _ => .error .endInString
  | _ => endWithin s.stack

end WirelessArchive.Json.Skip
