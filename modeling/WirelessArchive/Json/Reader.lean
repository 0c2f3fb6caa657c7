import WirelessArchive.Json.Scalar

/-!
# Reading JSON text

The reader is a pushdown machine over bytes.  Its stack holds the containers that are open, its
control says what may come next.  `read` feeds it a whole text; the text must hold one value with
nothing but white space around it.
-/

namespace WirelessArchive.Json

/-- The white space of JSON. -/
def isSpace (b : UInt8) : Bool := b == 0x20 || b == 0x0A || b == 0x09 || b == 0x0D

/-- The largest number of containers that may be open at once. -/
def maxDepth : Nat := 127

namespace Reader

/-- A container that is open, with what has been read of it, newest first. -/
inductive Frame where
  | item (items : List Json)
  /-- The value of `key` is being read. -/
  | member (members : List (String × Json)) (key : String)

/-- What may come next. -/
inductive Control where
  | value
  /-- After an opening bracket. -/
  | firstItem
  | afterItem (items : List Json)
  /-- After a comma in an array. -/
  | nextItem
  /-- After an opening brace. -/
  | firstKey
  | key (members : List (String × Json)) (text : StringText)
  | colon (members : List (String × Json)) (key : String)
  | afterMember (members : List (String × Json))
  /-- After a comma in an object. -/
  | nextKey (members : List (String × Json))
  | scalar (s : Scalar)
  /-- The value of the text is complete. -/
  | complete (value : Json)

/-- A state of the reader: the open containers, innermost first, and what may come next. -/
structure State where
  stack : List Frame
  control : Control

/-- The state before a text. -/
def start : State := ⟨[], .value⟩

/-- The state after a complete value within the open containers. -/
def deliver (value : Json) : List Frame → State
  | [] => ⟨[], .complete value⟩
  | .item items :: stack => ⟨stack, .afterItem (value :: items)⟩
  | .member members key :: stack => ⟨stack, .afterMember ((key, value) :: members)⟩

/-- Halts at the byte that was looked at. -/
def refuse (fault : Fault) : Except (Halt Fault) State := .error ⟨fault, true⟩

/-- The state after the first byte of a value. -/
def begin (stack : List Frame) (b : UInt8) : Except (Halt Fault) State :=
  if b = 0x5B ∨ b = 0x7B then
    if stack.length < maxDepth then
      if b = 0x5B then .ok ⟨.item [] :: stack, .firstItem⟩ else .ok ⟨stack, .firstKey⟩
    else refuse .depthExceeded
  else
    match Scalar.start? b with
    | some s => .ok ⟨stack, .scalar s⟩
    | none => refuse .expectedValue

/-- The state after a byte between values, keys and marks. -/
def between (s : State) (b : UInt8) : Except (Halt Fault) State :=
  if isSpace b then .ok s
  else
    match s.control with
    | .value => begin s.stack b
    | .firstItem => if b = 0x5D then .ok (deliver (.array []) s.stack.tail) else begin s.stack b
    | .afterItem items =>
      if b = 0x2C then .ok ⟨.item items :: s.stack, .nextItem⟩
      else if b = 0x5D then .ok (deliver (.array items.reverse) s.stack)
      else refuse .expectedListEnd
    | .nextItem => if b = 0x5D then refuse .trailingComma else begin s.stack b
    | .firstKey =>
      if b = 0x22 then .ok ⟨s.stack, .key [] {}⟩
      else if b = 0x7D then .ok (deliver (.object []) s.stack)
      else refuse .keyNotString
    | .colon members key =>
      if b = 0x3A then .ok ⟨.member members key :: s.stack, .value⟩ else refuse .expectedColon
    | .afterMember members =>
      if b = 0x2C then .ok ⟨s.stack, .nextKey members⟩
      else if b = 0x7D then .ok (deliver (.object members.reverse) s.stack)
      else refuse .expectedObjectEnd
    | .nextKey members =>
      if b = 0x22 then .ok ⟨s.stack, .key members {}⟩
      else if b = 0x7D then refuse .trailingComma
      else refuse .keyNotString
    | .complete _ => refuse .trailingCharacters
    | .key _ _ => .ok s
    | .scalar _ => .ok s

/-- Reads a byte. -/
def step (s : State) (b : UInt8) : Except (Halt Fault) State :=
  match s.control with
  | .scalar scalar =>
    match scalar.step b with
    | .more scalar' => .ok ⟨s.stack, .scalar scalar'⟩
    | .done value => .ok (deliver value s.stack)
    | .before value => between (deliver value s.stack) b
    | .halt h => .error h
  | .key members text =>
    match text.step b with
    | .more text' => .ok ⟨s.stack, .key members text'⟩
    | .done key => .ok ⟨s.stack, .colon members key⟩
    | .before key => between ⟨s.stack, .colon members key⟩ b
    | .halt h => .error h
  | _ => between s b

/-- The outcome between values, keys and marks when the text ends. -/
def endBetween : Control → Except Fault Json
  | .value => .error .endInValue
  | .firstItem => .error .endInList
  | .afterItem _ => .error .endInList
  | .nextItem => .error .endInValue
  | .firstKey => .error .endInObject
  | .key _ _ => .error .endInString
  | .colon _ _ => .error .endInObject
  | .afterMember _ => .error .endInObject
  | .nextKey _ => .error .endInValue
  | .scalar _ => .error .endInValue
  | .complete value => .ok value

/-- The outcome when the text ends. -/
def finish (s : State) : Except Fault Json :=
  match s.control with
  | .scalar scalar =>
    match scalar.finish with
    | .ok value => endBetween (deliver value s.stack).control
    | .error fault => .error fault
  | control => endBetween control

end Reader

/-- The value of a whole text, or where it stops being JSON. -/
def read (text : List UInt8) : Except (Stop Fault) Json :=
  match feed Reader.step Reader.start text with
  | .error stop => .error stop
  | .ok s =>
    match Reader.finish s with
    | .ok value => .ok value
    | .error fault => .error ⟨fault, []⟩

/-- The message of a fault with the place where it was found. -/
def Stop.describe (text : List UInt8) (stop : Stop Fault) : String :=
  let place := (Position.reached text stop.unread).back stop.cause.setback
  stop.cause.message ++ place.phrase

end WirelessArchive.Json
