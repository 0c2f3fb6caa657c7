import WirelessArchive.Json.Skip
import WirelessArchive.Json.Typed
import WirelessArchive.Settings.Basic

/-!
# Reading settings

A settings file is an object with any of the three members, each at most once, or an array of their
values in declared order; what is not given has its default.  Other members are passed over.  The
reader is a machine over bytes that judges every value at its place.
-/

namespace WirelessArchive.Settings

open Json

/-- Puts the value of a member into the settings. -/
def put (s : Settings) : Member → Json → Read Settings
  | .schemaVersion, v => (asWord32 v).map ({ s with schemaVersion := · })
  | .prettyPrint, v => (asBool v).map ({ s with prettyPrint := · })
  | .maxBlobBytes, v => (asSize v).map ({ s with maxBlobBytes := · })

namespace Reader

/-- Where a member stands: in an object, or in an array with these members still to come. -/
inductive Place where
  | keyed
  | listed (rest : List Member)
  deriving DecidableEq, Repr

/-- What may come next. -/
inductive Control where
  | root
  /-- A scalar in place of the settings. -/
  | rootScalar (s : Scalar)
  /-- After the opening bracket. -/
  | firstItem
  /-- After an item, with these members still to come. -/
  | afterItem (rest : List Member)
  /-- After a comma between items. -/
  | nextItem (m : Member) (rest : List Member)
  /-- After a comma behind the last member. -/
  | surplus
  /-- After the opening brace. -/
  | firstKey
  /-- After a comma between members. -/
  | nextKey
  | key (text : StringText)
  /-- After a key; an unknown one has no member. -/
  | colon (m : Option Member)
  /-- After the key of a member that was given before. -/
  | duplicate (m : Member)
  | value (m : Member)
  | scalar (m : Member) (place : Place) (s : Scalar)
  | passing (s : Skip.State)
  | afterMember
  | complete

/-- A state: the settings so far, the members that were given, and what may come next. -/
structure State where
  settings : Settings := {}
  given : List Member := []
  control : Control := .root

/-- The outcome of a step. -/
abbrev Next := Except (Halt TypedFault) State

/-- A value in place of the settings is of the wrong type. -/
def asSettings (v : Json) : Read Unit := .error (.wrongType v "struct CodecSettings")

/-- The same state with another control. -/
def State.goto (s : State) (control : Control) : State := { s with control }

/-- The state after the key of a member or of none. -/
def State.afterKey (s : State) (key : String) : State :=
  match Member.ofKey? key with
  | none => s.goto (.colon none)
  | some m => if m ∈ s.given then s.goto (.duplicate m) else s.goto (.colon (some m))

/-- The state after the value of a member. -/
def State.afterValue (s : State) (m : Member) (place : Place) (settings : Settings) : State :=
  { settings
    given := m :: s.given
    control :=
      match place with
      | .keyed => .afterMember
      | .listed rest => .afterItem rest }

/-- The state after a value that was judged. -/
def State.accept (s : State) (m : Member) (place : Place) (v : Json) (counted : Bool) : Next :=
  (judge (s.settings.put m v) counted).map (s.afterValue m place)

/-- The state after the first byte of the value of a member. -/
def State.beginMember (s : State) (m : Member) (place : Place) (b : UInt8) : Next :=
  (beginScalar (s.settings.put m) b).map fun scalar => s.goto (.scalar m place scalar)

/-- The state after the first byte of the settings. -/
def State.beginRoot (s : State) (b : UInt8) : Next :=
  if b = 0x5B then .ok (s.goto .firstItem)
  else if b = 0x7B then .ok (s.goto .firstKey)
  else (beginScalar asSettings b).map fun scalar => s.goto (.rootScalar scalar)

/-- The state after a byte between values, keys and marks. -/
def between (s : State) (b : UInt8) : Next :=
  if isSpace b then .ok s
  else
    match s.control with
    | .root => s.beginRoot b
    | .firstItem =>
      if b = 0x5D then .ok (s.goto .complete)
      else s.beginMember .schemaVersion (.listed [.prettyPrint, .maxBlobBytes]) b
    | .afterItem (m :: rest) =>
      if b = 0x5D then .ok (s.goto .complete)
      else if b = 0x2C then .ok (s.goto (.nextItem m rest))
      else refuseText .expectedListEnd
    | .afterItem [] =>
      if b = 0x5D then .ok (s.goto .complete)
      else if b = 0x2C then .ok (s.goto .surplus)
      else refuseText .trailingCharacters
    | .nextItem m rest =>
      if b = 0x5D then refuseText .trailingComma else s.beginMember m (.listed rest) b
    | .surplus => refuseText (if b = 0x5D then .trailingComma else .trailingCharacters)
    | .firstKey =>
      if b = 0x22 then .ok (s.goto (.key {}))
      else if b = 0x7D then .ok (s.goto .complete)
      else refuseText .keyNotString
    | .nextKey =>
      if b = 0x22 then .ok (s.goto (.key {}))
      else if b = 0x7D then refuseText .trailingComma
      else refuseText .keyNotString
    | .colon m =>
      if b = 0x3A then
        match m with
        | some m => .ok (s.goto (.value m))
        | none => .ok (s.goto (.passing Skip.start))
      else refuseText .expectedColon
    | .duplicate m => .error ⟨.type (.duplicateField m.key), b == 0x7D⟩
    | .value m => s.beginMember m .keyed b
    | .afterMember =>
      if b = 0x2C then .ok (s.goto .nextKey)
      else if b = 0x7D then .ok (s.goto .complete)
      else refuseText .expectedObjectEnd
    | .complete => refuseText .trailingCharacters
    | _ => .ok s

/-- Reads a byte. -/
def step (s : State) (b : UInt8) : Next :=
  match s.control with
  | .rootScalar scalar =>
    match scalar.step b with
    | .more scalar' => .ok (s.goto (.rootScalar scalar'))
    | .done v => (judge (asSettings v) true).map fun _ => s
    | .before v => (judge (asSettings v) false).map fun _ => s
    | .halt h => .error h.ofText
  | .key text =>
    match text.step b with
    | .more text' => .ok (s.goto (.key text'))
    | .done key => .ok (s.afterKey key)
    | .before key => between (s.afterKey key) b
    | .halt h => .error h.ofText
  | .scalar m place scalar =>
    match scalar.step b with
    | .more scalar' => .ok (s.goto (.scalar m place scalar'))
    | .done v => s.accept m place v true
    | .before v => do between (← s.accept m place v false) b
    | .halt h => .error h.ofText
  | .passing skip =>
    match Skip.step skip b with
    | .more skip' => .ok (s.goto (.passing skip'))
    | .done () => .ok (s.goto .afterMember)
    | .before () => between (s.goto .afterMember) b
    | .halt h => .error h.ofText
  | _ => between s b

/-- The outcome between values, keys and marks when the text ends. -/
def endBetween (s : State) : Except TypedFault Settings :=
  match s.control with
  | .root => .error (.text .endInValue)
  | .firstItem => .error (.text .endInList)
  | .afterItem _ => .error (.text .endInList)
  | .nextItem _ _ => .error (.text .endInValue)
  | .surplus => .error (.text .trailingCharacters)
  | .firstKey => .error (.text .endInObject)
  | .nextKey => .error (.text .endInValue)
  | .key _ => .error (.text .endInString)
  | .colon _ => .error (.text .endInObject)
  | .duplicate m => .error (.type (.duplicateField m.key))
  | .value _ => .error (.text .endInValue)
  | .afterMember => .error (.text .endInObject)
  | .complete => .ok s.settings
  | _ => .error (.text .endInValue)

/-- The outcome when the text ends. -/
def finish (s : State) : Except TypedFault Settings :=
  match s.control with
  | .rootScalar scalar =>
    match scalar.finish with
    | .error fault => .error (.text fault)
    | .ok v => .error (.type (.wrongType v "struct CodecSettings"))
  | .scalar m place scalar =>
    match scalar.finish with
    | .error fault => .error (.text fault)
    | .ok v =>
      match s.settings.put m v with
      | .ok settings => endBetween (s.afterValue m place settings)
      | .error mismatch => .error (.type mismatch)
  | .passing skip =>
    match Skip.finish skip with
    | .error fault => .error (.text fault)
    | .ok () => endBetween (s.goto .afterMember)
  | _ => endBetween s

end Reader

/-- The settings that a text holds. -/
def read (text : List UInt8) : Except (Stop TypedFault) Settings :=
  runTyped Reader.step Reader.finish {} text

end WirelessArchive.Settings
