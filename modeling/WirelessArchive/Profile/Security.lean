import WirelessArchive.Profile.Flag

/-!
# Security types

How a network authenticates and encrypts, and what follows from it: the name on the wire, the
label in identity keys, and the key management schemes of a fresh profile.
-/

namespace WirelessArchive

/-- The security type of a network. -/
inductive Security where
  /-- No encryption. -/
  | unsecured
  /-- Up to four static keys. -/
  | wep
  /-- A pre-shared key. -/
  | psk
  /-- Enterprise authentication. -/
  | eap
  deriving DecidableEq, Repr, Inhabited

namespace Security

/-- The name of a security type on the wire. -/
def wireName : Security → String
  | unsecured => "NONE"
  | wep => "WEP"
  | psk => "PSK"
  | eap => "EAP"

/-- Every security type under its wire name, in declaration order. -/
def table : List (String × Security) :=
  [unsecured, wep, psk, eap].map fun s => (s.wireName, s)

/-- The description shown to users. -/
def description : Security → String
  | unsecured => "Open"
  | wep => "WEP"
  | psk => "WPA/WPA2 Personal"
  | eap => "WPA/WPA2 Enterprise"

/-- Enterprise credentials are managed outside the profile. -/
def isEnterprise : Security → Bool
  | eap => true
  | _ => false

/-- The key management label in identity keys. -/
def label : Security → String
  | unsecured => KeyManagement.none.name
  | wep => "WEP"
  | psk => KeyManagement.wpaPsk.name
  | eap => KeyManagement.wpaEap.name

/-- The key management schemes that a fresh profile allows. -/
def defaultKeyManagement : Security → List KeyManagement
  | unsecured => [.none]
  | wep => [.none]
  | psk => [.wpaPsk]
  | eap => [.wpaEap, .ieee8021x]

end Security

end WirelessArchive
