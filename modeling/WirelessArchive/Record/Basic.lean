import WirelessArchive.Record.Addressing

/-!
# Network records

The wire form of a profile, one element of a backup.  Credentials are written only for the security
type they belong to.  Flags travel as names; names that are not known are passed over, so that a
record of a newer writer can be read.
-/

namespace WirelessArchive

/-- The wire form of a profile. -/
structure Record where
  ssid : String := ""
  bssid : Option String := none
  security : Security := .unsecured
  preSharedKey : Option String := none
  /-- One entry per slot, nothing for an empty one. -/
  wepKeys : Option (List (Option String)) := none
  wepTxKeyIndex : Option UInt8 := none
  hiddenSsid : Bool := false
  keyManagement : List String := []
  protocols : List String := []
  authAlgorithms : List String := []
  shared : Bool := false
  creatorUid : UInt32 := 0
  ipConfiguration : Option AddressingRecord := none
  deriving DecidableEq, Repr

namespace Record

/-- The members of the wire form. -/
inductive Member where
  | ssid
  | bssid
  | security
  | preSharedKey
  | wepKeys
  | wepTxKeyIndex
  | hiddenSsid
  | keyManagement
  | protocols
  | authAlgorithms
  | shared
  | creatorUid
  | ipConfiguration
  deriving DecidableEq, Repr

/-- The key of a member. -/
def Member.key : Member → String
  | ssid => "ssid"
  | bssid => "bssid"
  | security => "security"
  | preSharedKey => "preSharedKey"
  | wepKeys => "wepKeys"
  | wepTxKeyIndex => "wepTxKeyIndex"
  | hiddenSsid => "hiddenSsid"
  | keyManagement => "allowedKeyManagement"
  | protocols => "allowedProtocols"
  | authAlgorithms => "allowedAuthAlgorithms"
  | shared => "shared"
  | creatorUid => "creatorUid"
  | ipConfiguration => "ipConfiguration"

/-- The members in declared order and in the order of their keys. -/
def schema : Json.Schema Member where
  name := "struct NetworkRecord"
  key := Member.key
  declared :=
    [.ssid, .bssid, .security, .preSharedKey, .wepKeys, .wepTxKeyIndex, .hiddenSsid,
      .keyManagement, .protocols, .authAlgorithms, .shared, .creatorUid, .ipConfiguration]
  byKey :=
    [.authAlgorithms, .keyManagement, .protocols, .bssid, .creatorUid, .hiddenSsid,
      .ipConfiguration, .preSharedKey, .security, .shared, .ssid, .wepKeys, .wepTxKeyIndex]
  mandatory := [.ssid, .security]

/-! ## Writing -/

/-- The wire form of a profile. -/
def ofProfile (p : Profile) : Record :=
  { ssid := p.ssid
    bssid := p.bssid
    security := p.security
    preSharedKey := if p.security = .psk then p.preSharedKey else none
    wepKeys :=
      if p.security = .wep ∧ p.wepKeys.anyFilled then some p.wepKeys.toList else none
    wepTxKeyIndex := if p.security = .wep then some p.wepTxKeyIndex else none
    hiddenSsid := p.hiddenSsid
    keyManagement := p.keyManagement.names
    protocols := p.protocols.names
    authAlgorithms := p.authAlgorithms.names
    shared := p.shared
    creatorUid := p.creatorUid
    ipConfiguration := some (.ofIpConfig p.ipConfig) }

/-- The names of a flag set, if there are any. -/
def names? (names : List String) : Option Json :=
  if names = [] then none else some (.strings names)

/-- The value of a member, if it is written. -/
def member? (r : Record) : Member → Option Json
  | .ssid => some (.string r.ssid)
  | .bssid => r.bssid.map .string
  | .security => some (.string r.security.wireName)
  | .preSharedKey => r.preSharedKey.map .string
  | .wepKeys => r.wepKeys.map fun keys => .array (keys.map .ofString?)
  | .wepTxKeyIndex => r.wepTxKeyIndex.map .octet
  | .hiddenSsid => some (.bool r.hiddenSsid)
  | .keyManagement => names? r.keyManagement
  | .protocols => names? r.protocols
  | .authAlgorithms => names? r.authAlgorithms
  | .shared => some (.bool r.shared)
  | .creatorUid => some (.word32 r.creatorUid)
  | .ipConfiguration => r.ipConfiguration.map AddressingRecord.toJson

/-- The object of the members that are written, in declared order. -/
def toJson (r : Record) : Json :=
  .object (schema.declared.filterMap fun m => (r.member? m).map (m.key, ·))

/-! ## Reading -/

/-- Puts a member that is given into the record. -/
def put (r : Record) : Member → Json → Json.Read Record
  | .ssid, v => (Json.asString v).map ({ r with ssid := · })
  | .bssid, v => (Json.asOption Json.asString v).map ({ r with bssid := · })
  | .security, v => (Json.asVariant Security.table v).map ({ r with security := · })
  | .preSharedKey, v => (Json.asOption Json.asString v).map ({ r with preSharedKey := · })
  | .wepKeys, v =>
    (Json.asOption (Json.asList (Json.asOption Json.asString)) v).map ({ r with wepKeys := · })
  | .wepTxKeyIndex, v => (Json.asOption Json.asOctet v).map ({ r with wepTxKeyIndex := · })
  | .hiddenSsid, v => (Json.asBool v).map ({ r with hiddenSsid := · })
  | .keyManagement, v => (Json.asList Json.asString v).map ({ r with keyManagement := · })
  | .protocols, v => (Json.asList Json.asString v).map ({ r with protocols := · })
  | .authAlgorithms, v => (Json.asList Json.asString v).map ({ r with authAlgorithms := · })
  | .shared, v => (Json.asBool v).map ({ r with shared := · })
  | .creatorUid, v => (Json.asWord32 v).map ({ r with creatorUid := · })
  | .ipConfiguration, v =>
    (Json.asOption AddressingRecord.ofJson v).map ({ r with ipConfiguration := · })

/-- The wire form that a value gives. -/
def ofJson (v : Json) : Json.Read Record := schema.read put {} v

/-- The flags of a list of names; names that are not known are passed over. -/
def flags (α : Type) [Flag α] (names : List String) : FlagSet α :=
  .ofList (names.filterMap Flag.parse?)

/-- The names of a list that are no flags of a kind. -/
def unknownNames (α : Type) [Flag α] (names : List String) : List String :=
  names.filter fun name => (Flag.parse? (α := α) name).isNone

/-- The names in the record that are not known, each with the key of the member it stands in. -/
def unknownFlags (r : Record) : List (String × String) :=
  (unknownNames KeyManagement r.keyManagement).map (Member.keyManagement.key, ·) ++
    (unknownNames Protocol r.protocols).map (Member.protocols.key, ·) ++
    (unknownNames AuthAlgorithm r.authAlgorithms).map (Member.authAlgorithms.key, ·)

/-- The key slots that a list of keys fills, if there are not too many. -/
def toWepKeys (keys : List (Option String)) : Except RecordError WepKeys :=
  if WepKeys.count < keys.length then .error (.tooManyWepKeys keys.length)
  else .ok (.ofList keys)

/-- The key slots of the record; only a WEP network has any. -/
def wepKeySlots (r : Record) : Except RecordError WepKeys :=
  if r.security = .wep then toWepKeys (r.wepKeys.getD []) else .ok {}

/-- The policy of the record; without one, the default. -/
def policy (r : Record) : Except RecordError IpConfig :=
  match r.ipConfiguration with
  | some addressing => addressing.toIpConfig
  | none => .ok {}

/-- The profile that the record describes, before it is judged. -/
def describes (r : Record) (ipConfig : IpConfig) (wepKeys : WepKeys) : Profile :=
  { ssid := r.ssid
    bssid := r.bssid
    security := r.security
    preSharedKey := if r.security = .psk then r.preSharedKey else none
    wepKeys
    wepTxKeyIndex := if r.security = .wep then r.wepTxKeyIndex.getD 0 else 0
    hiddenSsid := r.hiddenSsid
    keyManagement := flags KeyManagement r.keyManagement
    protocols := flags Protocol r.protocols
    authAlgorithms := flags AuthAlgorithm r.authAlgorithms
    shared := r.shared
    creatorUid := r.creatorUid
    ipConfig }

/-- The profile that the record denotes, if it denotes a valid one. -/
def toProfile (r : Record) : Except RecordError Profile := do
  let ipConfig ← r.policy
  let wepKeys ← r.wepKeySlots
  let profile := r.describes ipConfig wepKeys
  match profile.validate with
  | .ok () => return profile
  | .error reason => throw (.invalid reason)

/-- The profile that a value denotes as a record. -/
def decode (v : Json) : Except RecordError Profile :=
  match ofJson v with
  | .ok record => record.toProfile
  | .error mismatch => .error (.malformed mismatch.message)

end Record

end WirelessArchive
