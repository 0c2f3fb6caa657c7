import WirelessArchive.Json.Schema
import WirelessArchive.Record.Error

/-!
# The addressing part of a record

The wire form of an `IpConfig`.  Only members that are set are written, and reading never fills in
one that is not there.  The members of a mode that is not in use are read and then ignored.
-/

namespace WirelessArchive

/-- How a record says that the address is assigned. -/
inductive AssignmentMode where
  | dhcp
  | static
  deriving DecidableEq, Repr

/-- Which kind of proxy a record names. -/
inductive ProxyMode where
  | direct
  | fixed
  | script
  deriving DecidableEq, Repr

/-- The name of an assignment mode. -/
def AssignmentMode.wireName : AssignmentMode → String
  | dhcp => "DHCP"
  | static => "STATIC"

/-- The name of a proxy mode. -/
def ProxyMode.wireName : ProxyMode → String
  | direct => "NONE"
  | fixed => "STATIC"
  | script => "PAC"

/-- Every assignment mode under its name. -/
def AssignmentMode.table : List (String × AssignmentMode) :=
  [dhcp, static].map fun m => (m.wireName, m)

/-- Every proxy mode under its name. -/
def ProxyMode.table : List (String × ProxyMode) :=
  [direct, fixed, script].map fun m => (m.wireName, m)

/-- The wire form of an addressing and proxy policy. -/
structure AddressingRecord where
  assignment : AssignmentMode := .dhcp
  linkAddress : Option LinkAddress := none
  gateway : Option Address := none
  dnsServers : List Address := []
  proxySettings : ProxyMode := .direct
  proxyHost : Option String := none
  proxyPort : Option UInt16 := none
  proxyExclusionList : Option String := none
  proxyPacUrl : Option String := none
  deriving DecidableEq, Repr

namespace AddressingRecord

/-- The members of the wire form. -/
inductive Member where
  | assignment
  | linkAddress
  | gateway
  | dnsServers
  | proxySettings
  | proxyHost
  | proxyPort
  | proxyExclusionList
  | proxyPacUrl
  deriving DecidableEq, Repr

/-- The key of a member. -/
def Member.key : Member → String
  | assignment => "assignment"
  | linkAddress => "linkAddress"
  | gateway => "gateway"
  | dnsServers => "dnsServers"
  | proxySettings => "proxySettings"
  | proxyHost => "proxyHost"
  | proxyPort => "proxyPort"
  | proxyExclusionList => "proxyExclusionList"
  | proxyPacUrl => "proxyPacUrl"

/-- The members in declared order and in the order of their keys; none is mandatory. -/
def schema : Json.Schema Member where
  name := "struct IpConfigRecord"
  key := Member.key
  declared :=
    [.assignment, .linkAddress, .gateway, .dnsServers, .proxySettings, .proxyHost, .proxyPort,
      .proxyExclusionList, .proxyPacUrl]
  byKey :=
    [.assignment, .dnsServers, .gateway, .linkAddress, .proxyExclusionList, .proxyHost,
      .proxyPacUrl, .proxyPort, .proxySettings]
  mandatory := []

/-! ## Writing -/

/-- The wire form of a policy. -/
def ofIpConfig (c : IpConfig) : AddressingRecord :=
  let base : AddressingRecord :=
    match c.assignment with
    | .dhcp => {}
    | .static s =>
      { assignment := .static
        linkAddress := s.linkAddress
        gateway := s.gateway
        dnsServers := s.dnsServers }
  match c.proxy with
  | .direct => base
  | .fixed host port exclusions =>
    { base with
      proxySettings := .fixed
      proxyHost := some host
      proxyPort := some port
      proxyExclusionList := some exclusions }
  | .script url => { base with proxySettings := .script, proxyPacUrl := some url }

/-- The value of a member, if it is written. -/
def member? (r : AddressingRecord) : Member → Option Json
  | .assignment => some (.string r.assignment.wireName)
  | .linkAddress => r.linkAddress.map fun l => .string l.text
  | .gateway => r.gateway.map fun a => .string a.text
  | .dnsServers => if r.dnsServers = [] then none else some (.strings (r.dnsServers.map Address.text))
  | .proxySettings => some (.string r.proxySettings.wireName)
  | .proxyHost => r.proxyHost.map .string
  | .proxyPort => r.proxyPort.map .word16
  | .proxyExclusionList => r.proxyExclusionList.map .string
  | .proxyPacUrl => r.proxyPacUrl.map .string

/-- The object of the members that are written, in declared order. -/
def toJson (r : AddressingRecord) : Json :=
  .object (schema.declared.filterMap fun m => (r.member? m).map (m.key, ·))

/-! ## Reading -/

/-- Puts a member that is given into the record. -/
def put (r : AddressingRecord) : Member → Json → Json.Read AddressingRecord
  | .assignment, v => (Json.asVariant AssignmentMode.table v).map ({ r with assignment := · })
  | .linkAddress, v => (Json.asOption Json.asLink v).map ({ r with linkAddress := · })
  | .gateway, v => (Json.asOption Json.asAddress v).map ({ r with gateway := · })
  | .dnsServers, v => (Json.asList Json.asAddress v).map ({ r with dnsServers := · })
  | .proxySettings, v => (Json.asVariant ProxyMode.table v).map ({ r with proxySettings := · })
  | .proxyHost, v => (Json.asOption Json.asString v).map ({ r with proxyHost := · })
  | .proxyPort, v => (Json.asOption Json.asWord16 v).map ({ r with proxyPort := · })
  | .proxyExclusionList, v =>
    (Json.asOption Json.asString v).map ({ r with proxyExclusionList := · })
  | .proxyPacUrl, v => (Json.asOption Json.asString v).map ({ r with proxyPacUrl := · })

/-- The wire form that a value gives. -/
def ofJson (v : Json) : Json.Read AddressingRecord := schema.read put {} v

/-- A member that the proxy mode needs. -/
def need {α : Type} (member : Member) : Option α → Except RecordError α
  | some a => .ok a
  | none => .error (.missingField member.key)

/-- The assignment that the record denotes. -/
def toAssignment (r : AddressingRecord) : Assignment :=
  match r.assignment with
  | .dhcp => .dhcp
  | .static => .static ⟨r.linkAddress, r.gateway, r.dnsServers⟩

/-- The proxy that the record denotes, if it gives what its mode needs. -/
def toProxy (r : AddressingRecord) : Except RecordError Proxy :=
  match r.proxySettings with
  | .direct => .ok .direct
  | .fixed => do
    let host ← need .proxyHost r.proxyHost
    let port ← need .proxyPort r.proxyPort
    return .fixed host port (r.proxyExclusionList.getD "")
  | .script => do
    let url ← need .proxyPacUrl r.proxyPacUrl
    return .script url

/-- The policy that the record denotes. -/
def toIpConfig (r : AddressingRecord) : Except RecordError IpConfig :=
  r.toProxy.map fun proxy => ⟨r.toAssignment, proxy⟩

end AddressingRecord

end WirelessArchive
