import WirelessArchive.Profile.IpConfig
import WirelessArchive.Profile.Security
import WirelessArchive.Text.Blank

/-!
# Network profiles

One saved wireless network: its identity, credentials, flags and addressing.  `validate` says
whether a profile may be written and read back; `restored` is the part of a profile that a backup
carries, and what a restore gives back.
-/

namespace WirelessArchive

/-- The four key slots of a WEP network. -/
structure WepKeys where
  slot0 : Option String := none
  slot1 : Option String := none
  slot2 : Option String := none
  slot3 : Option String := none
  deriving DecidableEq, Repr

namespace WepKeys

/-- The number of slots. -/
def count : Nat := 4

/-- The slots in order. -/
def toList (k : WepKeys) : List (Option String) := [k.slot0, k.slot1, k.slot2, k.slot3]

/-- The first four entries of a list; slots beyond its end stay empty. -/
def ofList (keys : List (Option String)) : WepKeys :=
  ⟨keys[0]?.join, keys[1]?.join, keys[2]?.join, keys[3]?.join⟩

@[simp]
theorem ofList_toList (k : WepKeys) : ofList k.toList = k := rfl

/-- Whether some slot holds a key. -/
def anyFilled (k : WepKeys) : Bool := k.toList.any Option.isSome

/-- Whether the slot of this number exists and holds a key. -/
def isFilled (k : WepKeys) (slot : Nat) : Bool := (k.toList[slot]?.join).isSome

end WepKeys

/-- A saved wireless network. -/
structure Profile where
  /-- The network name in its stored form. -/
  ssid : String := ""
  /-- The access point to which the profile is pinned. -/
  bssid : Option String := none
  security : Security := .unsecured
  /-- The passphrase of a PSK network. -/
  preSharedKey : Option String := none
  /-- The keys of a WEP network. -/
  wepKeys : WepKeys := {}
  /-- The slot of the key used for transmission on a WEP network. -/
  wepTxKeyIndex : UInt8 := 0
  hiddenSsid : Bool := false
  keyManagement : FlagSet KeyManagement := .empty
  protocols : FlagSet Protocol := .empty
  authAlgorithms : FlagSet AuthAlgorithm := .empty
  /-- Visible to all users of the device. -/
  shared : Bool := false
  creatorUid : UInt32 := 0
  /-- The domain of a Passpoint home provider. -/
  fqdn : Option String := none
  /-- The display name of a Passpoint provider. -/
  providerName : Option String := none
  /-- A temporary network. -/
  ephemeral : Bool := false
  ipConfig : IpConfig := {}
  deriving DecidableEq, Repr

namespace Profile

/-! ## Fresh profiles -/

/-- A profile with the flags that a fresh network of this security type gets. -/
def fresh (ssid : String) (security : Security) : Profile :=
  { ssid
    security
    keyManagement := .ofList security.defaultKeyManagement
    authAlgorithms := if security = .wep then .ofList [.openSystem, .sharedKey] else .empty
    shared := true }

/-- An unsecured network. -/
def unsecured (ssid : String) : Profile := fresh ssid .unsecured

/-- A network with a pre-shared key. -/
def psk (ssid key : String) : Profile := { fresh ssid .psk with preSharedKey := some key }

/-- A network with static keys and the slot used for transmission. -/
def wep (ssid : String) (keys : WepKeys) (txKeyIndex : UInt8) : Profile :=
  { fresh ssid .wep with wepKeys := keys, wepTxKeyIndex := txKeyIndex }

/-- An enterprise network. -/
def eap (ssid : String) : Profile := fresh ssid .eap

/-! ## Properties -/

/-- A Passpoint profile names the domain of its home provider. -/
def isPasspoint (p : Profile) : Bool := p.fqdn.any (· ≠ "")

/-- The network name and the description of its security type. -/
def display (p : Profile) : String := p.ssid ++ " (" ++ p.security.description ++ ")"

/-- Why a profile is invalid. -/
inductive Invalid where
  | emptySsid
  | wepKeyIndexOutOfRange (slot : UInt8)
  | missingWepTxKey (slot : UInt8)
  deriving DecidableEq, Repr

/-- The wording of each error. -/
def Invalid.message : Invalid → String
  | emptySsid => "SSID is empty"
  | wepKeyIndexOutOfRange slot =>
    "WEP transmit key index " ++ toString slot.toNat ++ " is out of range"
  | missingWepTxKey slot => "WEP transmit key slot " ++ toString slot.toNat ++ " is empty"

/-- A valid profile has a network name that is not blank.  On a WEP network the transmission slot
exists, and holds a key if any slot does. -/
def validate (p : Profile) : Except Invalid Unit :=
  if Text.isAllBlank p.ssid then .error .emptySsid
  else if p.security ≠ .wep then .ok ()
  else if WepKeys.count ≤ p.wepTxKeyIndex.toNat then .error (.wepKeyIndexOutOfRange p.wepTxKeyIndex)
  else if p.wepKeys.anyFilled && !p.wepKeys.isFilled p.wepTxKeyIndex.toNat then
    .error (.missingWepTxKey p.wepTxKeyIndex)
  else .ok ()

/-- The part of a profile that survives a backup: credentials only of its own security type, and
nothing that is never backed up. -/
def restored (p : Profile) : Profile :=
  { p with
    preSharedKey := if p.security = .psk then p.preSharedKey else none
    wepKeys := if p.security = .wep then p.wepKeys else {}
    wepTxKeyIndex := if p.security = .wep then p.wepTxKeyIndex else 0
    fqdn := none
    providerName := none
    ephemeral := false }

end Profile

end WirelessArchive
