import WirelessArchive.Proofs.Json.Grammar
import WirelessArchive.Proofs.Record.Members

/-!
# Policies in records

When the members of an object make a policy of addressing and proxy (`IsPolicy`), and which policy
they make.  Every member is of its type or absent, whether or not the modes use it; beyond that only
a proxy mode makes demands.  The policy is told by the modes and by the members that they use
(`DenotesAssignment`, `DenotesProxy`), and nothing is filled in: what an object does not give, a
static configuration does not have.

The modes are given by their names.  An object in place of a name is another notation for a mode,
of which nothing is said here.
-/

namespace WirelessArchive.AddressingRecord

open Json (Denotes IsText IsWord16 IsName IsAddress IsLink IsList OrNull OrAbsent May Must NoObject)

/-- The policy that a value denotes. -/
def decode (v : Json) : Except RecordError IpConfig :=
  match ofJson v with
  | .ok record => record.toIpConfig
  | .error mismatch => .error (.malformed mismatch.message)

theorem decode_eq_ok_iff {v : Json} {c : IpConfig} :
    decode v = .ok c ↔ ∃ r, ofJson v = .ok r ∧ r.toIpConfig = .ok c := by
  unfold decode
  rcases ofJson v with mismatch | r <;> simp

/-! ## The grammar -/

/-- The members of an object make a policy. -/
structure IsPolicy (members : List (String × Json)) : Prop where
  assignment : May (IsName AssignmentMode.wireName) (Json.member? members "assignment")
  linkAddress : May (OrNull IsLink) (Json.member? members "linkAddress")
  gateway : May (OrNull IsAddress) (Json.member? members "gateway")
  dnsServers : May (IsList IsAddress) (Json.member? members "dnsServers")
  proxySettings : May (IsName ProxyMode.wireName) (Json.member? members "proxySettings")
  proxyHost : May (OrNull IsText) (Json.member? members "proxyHost")
  proxyPort : May (OrNull IsWord16) (Json.member? members "proxyPort")
  proxyExclusionList : May (OrNull IsText) (Json.member? members "proxyExclusionList")
  proxyPacUrl : May (OrNull IsText) (Json.member? members "proxyPacUrl")
  /-- A fixed proxy has a host and a port. -/
  fixed : Json.member? members "proxySettings" = some (.string "STATIC") →
    Must IsText (Json.member? members "proxyHost") ∧
      Must IsWord16 (Json.member? members "proxyPort")
  /-- A script has an address. -/
  script : Json.member? members "proxySettings" = some (.string "PAC") →
    Must IsText (Json.member? members "proxyPacUrl")

/-- How the members of an object assign the address. -/
inductive DenotesAssignment (members : List (String × Json)) : Assignment → Prop where
  | dhcp : (∀ v, Json.member? members "assignment" = some v → v = .string "DHCP") →
    DenotesAssignment members .dhcp
  | static {linkAddress : Option LinkAddress} {gateway : Option Address}
    {dnsServers : List Address} :
    Json.member? members "assignment" = some (.string "STATIC") →
    OrAbsent (OrNull IsLink) none (Json.member? members "linkAddress") linkAddress →
    OrAbsent (OrNull IsAddress) none (Json.member? members "gateway") gateway →
    OrAbsent (IsList IsAddress) [] (Json.member? members "dnsServers") dnsServers →
    DenotesAssignment members (.static ⟨linkAddress, gateway, dnsServers⟩)

/-- Which proxy the members of an object set. -/
inductive DenotesProxy (members : List (String × Json)) : Proxy → Prop where
  | direct : (∀ v, Json.member? members "proxySettings" = some v → v = .string "NONE") →
    DenotesProxy members .direct
  | fixed {host : String} {port : UInt16} {exclusions : Option String} {v : Json} :
    Json.member? members "proxySettings" = some (.string "STATIC") →
    Json.member? members "proxyHost" = some (.string host) →
    Json.member? members "proxyPort" = some v → IsWord16 v port →
    OrAbsent (OrNull IsText) none (Json.member? members "proxyExclusionList") exclusions →
    DenotesProxy members (.fixed host port (exclusions.getD ""))
  | script {url : String} : Json.member? members "proxySettings" = some (.string "PAC") →
    Json.member? members "proxyPacUrl" = some (.string url) → DenotesProxy members (.script url)

/-- The keys that the modes of an object use. -/
inductive InUse (members : List (String × Json)) : String → Prop where
  | assignment : InUse members "assignment"
  | proxySettings : InUse members "proxySettings"
  | static {key : String} : Json.member? members "assignment" = some (.string "STATIC") →
    key ∈ ["linkAddress", "gateway", "dnsServers"] → InUse members key
  | fixed {key : String} : Json.member? members "proxySettings" = some (.string "STATIC") →
    key ∈ ["proxyHost", "proxyPort", "proxyExclusionList"] → InUse members key
  | script : Json.member? members "proxySettings" = some (.string "PAC") →
    InUse members "proxyPacUrl"

/-! ## Modes -/

theorem assignmentName_injective (a b : AssignmentMode) (h : a.wireName = b.wireName) : a = b := by
  cases a <;> cases b <;> first | rfl | exact absurd h (by decide)

theorem proxyName_injective (a b : ProxyMode) (h : a.wireName = b.wireName) : a = b := by
  cases a <;> cases b <;> first | rfl | exact absurd h (by decide)

/-! ## What the members spell -/

/-- The record has what the members of an object spell. -/
structure SpelledBy (members : List (String × Json)) (r : AddressingRecord) : Prop where
  assignment : OrAbsent (IsName AssignmentMode.wireName) .dhcp (Json.member? members "assignment")
    r.assignment
  linkAddress : OrAbsent (OrNull IsLink) none (Json.member? members "linkAddress") r.linkAddress
  gateway : OrAbsent (OrNull IsAddress) none (Json.member? members "gateway") r.gateway
  dnsServers : OrAbsent (IsList IsAddress) [] (Json.member? members "dnsServers") r.dnsServers
  proxySettings : OrAbsent (IsName ProxyMode.wireName) .direct
    (Json.member? members "proxySettings") r.proxySettings
  proxyHost : OrAbsent (OrNull IsText) none (Json.member? members "proxyHost") r.proxyHost
  proxyPort : OrAbsent (OrNull IsWord16) none (Json.member? members "proxyPort") r.proxyPort
  proxyExclusionList : OrAbsent (OrNull IsText) none (Json.member? members "proxyExclusionList")
    r.proxyExclusionList
  proxyPacUrl : OrAbsent (OrNull IsText) none (Json.member? members "proxyPacUrl") r.proxyPacUrl

/-- An object is read as the record that has what its members spell. -/
theorem ofJson_object_iff {members : List (String × Json)}
    (hassignment : NoObject (Json.member? members "assignment"))
    (hproxy : NoObject (Json.member? members "proxySettings")) {r : AddressingRecord} :
    ofJson (.object members) = .ok r ↔ SpelledBy members r := by
  have assignment : ∀ a, Denotes (Json.asVariant AssignmentMode.table) .dhcp
      (Json.member? members "assignment") a ↔ OrAbsent (IsName AssignmentMode.wireName) .dhcp
        (Json.member? members "assignment") a := fun a =>
    Json.denotes_name_iff assignmentName_injective (by intro a; cases a <;> decide) hassignment
  have proxySettings : ∀ a, Denotes (Json.asVariant ProxyMode.table) .direct
      (Json.member? members "proxySettings") a ↔ OrAbsent (IsName ProxyMode.wireName) .direct
        (Json.member? members "proxySettings") a := fun a =>
    Json.denotes_name_iff proxyName_injective (by intro a; cases a <;> decide) hproxy
  rw [ofJson, Json.Schema.read_object_iff fields]
  constructor
  · rintro ⟨h, -⟩
    constructor
    · exact (assignment _).1 (h .assignment)
    · exact Json.reads_link?.denotes_iff.1 (h .linkAddress)
    · exact Json.reads_address?.denotes_iff.1 (h .gateway)
    · exact Json.reads_address.list.denotes_iff.1 (h .dnsServers)
    · exact (proxySettings _).1 (h .proxySettings)
    · exact Json.reads_text?.denotes_iff.1 (h .proxyHost)
    · exact Json.reads_word16?.denotes_iff.1 (h .proxyPort)
    · exact Json.reads_text?.denotes_iff.1 (h .proxyExclusionList)
    · exact Json.reads_text?.denotes_iff.1 (h .proxyPacUrl)
  · intro h
    refine ⟨fun m => ?_, nofun⟩
    cases m with
    | assignment => exact (assignment _).2 h.assignment
    | linkAddress => exact Json.reads_link?.denotes_iff.2 h.linkAddress
    | gateway => exact Json.reads_address?.denotes_iff.2 h.gateway
    | dnsServers => exact Json.reads_address.list.denotes_iff.2 h.dnsServers
    | proxySettings => exact (proxySettings _).2 h.proxySettings
    | proxyHost => exact Json.reads_text?.denotes_iff.2 h.proxyHost
    | proxyPort => exact Json.reads_word16?.denotes_iff.2 h.proxyPort
    | proxyExclusionList => exact Json.reads_text?.denotes_iff.2 h.proxyExclusionList
    | proxyPacUrl => exact Json.reads_text?.denotes_iff.2 h.proxyPacUrl

theorem toProxy_eq_ok_iff {r : AddressingRecord} {proxy : Proxy} :
    r.toProxy = .ok proxy ↔
      r.proxySettings = .direct ∧ proxy = .direct ∨
      (r.proxySettings = .fixed ∧ ∃ host port, r.proxyHost = some host ∧
        r.proxyPort = some port ∧ proxy = .fixed host port (r.proxyExclusionList.getD "")) ∨
      (r.proxySettings = .script ∧ ∃ url, r.proxyPacUrl = some url ∧ proxy = .script url) := by
  unfold toProxy
  cases r.proxySettings with
  | direct => simp [eq_comm]
  | fixed =>
    rcases r.proxyHost with _ | host
    · simp [need, bind, Except.bind]
    · rcases r.proxyPort with _ | port
      · simp [need, bind, Except.bind]
      · simp [need, bind, Except.bind, pure, Except.pure, eq_comm]
  | script =>
    rcases r.proxyPacUrl with _ | url
    · simp [need, bind, Except.bind]
    · simp [need, bind, Except.bind, pure, Except.pure, eq_comm]

theorem toIpConfig_eq_ok_iff {r : AddressingRecord} {c : IpConfig} :
    r.toIpConfig = .ok c ↔ r.toAssignment = c.assignment ∧ r.toProxy = .ok c.proxy := by
  obtain ⟨assignment, proxy⟩ := c
  unfold toIpConfig
  generalize r.toProxy = result
  rcases result with e | proxy' <;> simp [Except.map]

/-! ## What the members denote -/

section Spelled

variable {members : List (String × Json)} {r : AddressingRecord}

theorem SpelledBy.static_iff (h : SpelledBy members r) :
    r.assignment = .static ↔ Json.member? members "assignment" = some (.string "STATIC") :=
  h.assignment.eq_iff assignmentName_injective nofun

theorem SpelledBy.fixed_iff (h : SpelledBy members r) :
    r.proxySettings = .fixed ↔ Json.member? members "proxySettings" = some (.string "STATIC") :=
  h.proxySettings.eq_iff proxyName_injective nofun

theorem SpelledBy.script_iff (h : SpelledBy members r) :
    r.proxySettings = .script ↔ Json.member? members "proxySettings" = some (.string "PAC") :=
  h.proxySettings.eq_iff proxyName_injective nofun

theorem SpelledBy.denotesAssignment_iff (h : SpelledBy members r) {assignment : Assignment} :
    DenotesAssignment members assignment ↔ r.toAssignment = assignment := by
  unfold toAssignment
  constructor
  · rintro (hdhcp | ⟨hstatic, hlink, hgateway, hservers⟩)
    · rw [(h.assignment.eq_default_iff assignmentName_injective).2 hdhcp]
    · rw [h.static_iff.2 hstatic, Json.reads_link?.orAbsent_unique hlink h.linkAddress,
        Json.reads_address?.orAbsent_unique hgateway h.gateway,
        Json.reads_address.list.orAbsent_unique hservers h.dnsServers]
  · rintro rfl
    cases hmode : r.assignment with
    | dhcp => exact .dhcp ((h.assignment.eq_default_iff assignmentName_injective).1 hmode)
    | static => exact .static (h.static_iff.1 hmode) h.linkAddress h.gateway h.dnsServers

theorem SpelledBy.denotesProxy_iff (h : SpelledBy members r) {proxy : Proxy} :
    DenotesProxy members proxy ↔ r.toProxy = .ok proxy := by
  rw [toProxy_eq_ok_iff]
  constructor
  · rintro (hdirect | ⟨hfixed, hhost, hport, hword, hexclusions⟩ | ⟨hscript, hurl⟩)
    · exact .inl ⟨(h.proxySettings.eq_default_iff proxyName_injective).2 hdirect, rfl⟩
    · have hhost' := Json.orAbsent_text_iff.2 hhost
      have hport' := Json.orAbsent_some_iff.2 ⟨_, hport, hword⟩
      refine .inr (.inl ⟨h.fixed_iff.2 hfixed, _, _,
        Json.reads_text?.orAbsent_unique h.proxyHost hhost',
        Json.reads_word16?.orAbsent_unique h.proxyPort hport', ?_⟩)
      rw [Json.reads_text?.orAbsent_unique hexclusions h.proxyExclusionList]
    · have hurl' := Json.orAbsent_text_iff.2 hurl
      exact .inr (.inr ⟨h.script_iff.2 hscript, _,
        Json.reads_text?.orAbsent_unique h.proxyPacUrl hurl', rfl⟩)
  · rintro (⟨hmode, rfl⟩ | ⟨hmode, host, port, hhost, hport, rfl⟩ | ⟨hmode, url, hurl, rfl⟩)
    · exact .direct ((h.proxySettings.eq_default_iff proxyName_injective).1 hmode)
    · have hhost' := Json.orAbsent_text_iff.1 (hhost ▸ h.proxyHost)
      obtain ⟨v, hv, hword⟩ := Json.orAbsent_some_iff.1 (hport ▸ h.proxyPort)
      exact .fixed (h.fixed_iff.1 hmode) hhost' hv hword h.proxyExclusionList
    · exact .script (h.script_iff.1 hmode) (Json.orAbsent_text_iff.1 (hurl ▸ h.proxyPacUrl))

/-- Members make a policy exactly if they spell a record that has what its proxy mode needs. -/
theorem isPolicy_iff :
    IsPolicy members ↔ ∃ r, SpelledBy members r ∧ ∃ proxy, r.toProxy = .ok proxy := by
  constructor
  · intro h
    obtain ⟨assignment, hassignment⟩ := Json.exists_orAbsent_iff.2 h.assignment
    obtain ⟨linkAddress, hlink⟩ := Json.exists_orAbsent_iff.2 h.linkAddress
    obtain ⟨gateway, hgateway⟩ := Json.exists_orAbsent_iff.2 h.gateway
    obtain ⟨dnsServers, hservers⟩ := Json.exists_orAbsent_iff.2 h.dnsServers
    obtain ⟨proxySettings, hsettings⟩ := Json.exists_orAbsent_iff.2 h.proxySettings
    obtain ⟨proxyHost, hhost⟩ := Json.exists_orAbsent_iff.2 h.proxyHost
    obtain ⟨proxyPort, hport⟩ := Json.exists_orAbsent_iff.2 h.proxyPort
    obtain ⟨proxyExclusionList, hexclusions⟩ := Json.exists_orAbsent_iff.2 h.proxyExclusionList
    obtain ⟨proxyPacUrl, hurl⟩ := Json.exists_orAbsent_iff.2 h.proxyPacUrl
    have hspelled : SpelledBy members ⟨assignment, linkAddress, gateway, dnsServers,
        proxySettings, proxyHost, proxyPort, proxyExclusionList, proxyPacUrl⟩ :=
      ⟨hassignment, hlink, hgateway, hservers, hsettings, hhost, hport, hexclusions, hurl⟩
    refine ⟨_, hspelled, ?_⟩
    simp only [← hspelled.denotesProxy_iff]
    cases proxySettings with
    | direct =>
      exact ⟨_, .direct ((hsettings.eq_default_iff proxyName_injective).1 rfl)⟩
    | fixed =>
      have hfixed := hspelled.fixed_iff.1 rfl
      obtain ⟨⟨v, hv, host, rfl⟩, w, hw, port, hword⟩ := h.fixed hfixed
      exact ⟨_, .fixed hfixed hv hw hword hexclusions⟩
    | script =>
      have hscript := hspelled.script_iff.1 rfl
      obtain ⟨v, hv, url, rfl⟩ := h.script hscript
      exact ⟨_, .script hscript hv⟩
  · rintro ⟨r, h, proxy, hproxy⟩
    have hdenotes := h.denotesProxy_iff.2 hproxy
    constructor
    case assignment => exact .of_orAbsent h.assignment
    case linkAddress => exact .of_orAbsent h.linkAddress
    case gateway => exact .of_orAbsent h.gateway
    case dnsServers => exact .of_orAbsent h.dnsServers
    case proxySettings => exact .of_orAbsent h.proxySettings
    case proxyHost => exact .of_orAbsent h.proxyHost
    case proxyPort => exact .of_orAbsent h.proxyPort
    case proxyExclusionList => exact .of_orAbsent h.proxyExclusionList
    case proxyPacUrl => exact .of_orAbsent h.proxyPacUrl
    case fixed =>
      intro hfixed
      rcases hdenotes with hdirect | ⟨-, hhost, hport, hword, -⟩ | ⟨hscript, -⟩
      · exact absurd (hdirect _ hfixed) (by simp)
      · exact ⟨⟨_, hhost, _, rfl⟩, _, hport, _, hword⟩
      · exact absurd (hfixed.symm.trans hscript) (by simp)
    case script =>
      intro hscript
      rcases hdenotes with hdirect | ⟨hfixed, -⟩ | ⟨-, hurl⟩
      · exact absurd (hdirect _ hscript) (by simp)
      · exact absurd (hfixed.symm.trans hscript) (by simp)
      · exact ⟨_, hurl, _, rfl⟩

theorem decode_object_iff (hassignment : NoObject (Json.member? members "assignment"))
    (hproxy : NoObject (Json.member? members "proxySettings")) {c : IpConfig} :
    decode (.object members) = .ok c ↔
      ∃ r, SpelledBy members r ∧ r.toAssignment = c.assignment ∧ r.toProxy = .ok c.proxy := by
  simp only [decode_eq_ok_iff, ofJson_object_iff hassignment hproxy, toIpConfig_eq_ok_iff]

end Spelled

/-! ## What is in use -/

section InUse

variable {members members' : List (String × Json)}
  (h : ∀ key, InUse members key → Json.member? members' key = Json.member? members key)

include h

/-- The assignment stays if the members stay that its mode uses. -/
theorem DenotesAssignment.of_inUse {assignment : Assignment}
    (ha : DenotesAssignment members assignment) : DenotesAssignment members' assignment := by
  have hmode := h _ .assignment
  rcases ha with hdhcp | ⟨hstatic, hlink, hgateway, hservers⟩
  · exact .dhcp (hmode ▸ hdhcp)
  · have hkey := fun key hkey => h key (.static hstatic hkey)
    refine .static (hmode.trans hstatic) ?_ ?_ ?_
    · rwa [hkey "linkAddress" (by simp)]
    · rwa [hkey "gateway" (by simp)]
    · rwa [hkey "dnsServers" (by simp)]

/-- The proxy stays if the members stay that its mode uses. -/
theorem DenotesProxy.of_inUse {proxy : Proxy} (hp : DenotesProxy members proxy) :
    DenotesProxy members' proxy := by
  have hmode := h _ .proxySettings
  rcases hp with hdirect | ⟨hfixed, hhost, hport, hword, hexclusions⟩ | ⟨hscript, hurl⟩
  · exact .direct (hmode ▸ hdirect)
  · have hkey := fun key hkey => h key (.fixed hfixed hkey)
    refine .fixed (hmode.trans hfixed) ((hkey "proxyHost" (by simp)).trans hhost)
      ((hkey "proxyPort" (by simp)).trans hport) hword ?_
    rwa [hkey "proxyExclusionList" (by simp)]
  · exact .script (hmode.trans hscript) ((h _ (.script hscript)).trans hurl)

end InUse

/-! ## Reading policies -/

theorem noObject_of_may_name {α : Type} {name : α → String} {x : Option Json}
    (h : May (IsName name) x) : NoObject x := by
  rintro members rfl
  obtain ⟨a, ha⟩ := h _ rfl
  cases ha

/-- The policy of an object: which objects have one, which one it is, and what has no part in it. -/
structure ReadAsPolicy (members : List (String × Json)) : Prop where
  accepted : (∃ c, decode (.object members) = .ok c) ↔ IsPolicy members
  denoted : ∀ c, decode (.object members) = .ok c ↔
    IsPolicy members ∧ DenotesAssignment members c.assignment ∧ DenotesProxy members c.proxy
  unused : ∀ members', IsPolicy members → IsPolicy members' →
    (∀ key, InUse members key → Json.member? members' key = Json.member? members key) →
    decode (.object members') = decode (.object members)

theorem decode_object_denotes {members : List (String × Json)}
    (hassignment : NoObject (Json.member? members "assignment"))
    (hproxy : NoObject (Json.member? members "proxySettings")) {c : IpConfig} :
    decode (.object members) = .ok c ↔
      IsPolicy members ∧ DenotesAssignment members c.assignment ∧ DenotesProxy members c.proxy := by
  rw [decode_object_iff hassignment hproxy]
  constructor
  · rintro ⟨r, h, ha, hp⟩
    exact ⟨isPolicy_iff.2 ⟨r, h, _, hp⟩, h.denotesAssignment_iff.2 ha, h.denotesProxy_iff.2 hp⟩
  · rintro ⟨hpolicy, ha, hp⟩
    obtain ⟨r, h, -⟩ := isPolicy_iff.1 hpolicy
    exact ⟨r, h, h.denotesAssignment_iff.1 ha, h.denotesProxy_iff.1 hp⟩

theorem exists_decode_of_isPolicy {members : List (String × Json)} (h : IsPolicy members) :
    ∃ c, decode (.object members) = .ok c := by
  obtain ⟨r, hr, proxy, hp⟩ := isPolicy_iff.1 h
  exact ⟨⟨r.toAssignment, proxy⟩, (decode_object_iff (noObject_of_may_name h.assignment)
    (noObject_of_may_name h.proxySettings)).2 ⟨r, hr, rfl, hp⟩⟩

/-- An object whose modes are not objects is read by the grammar of policies. -/
theorem policy_readByGrammar (members : List (String × Json))
    (hassignment : NoObject (Json.member? members "assignment"))
    (hproxy : NoObject (Json.member? members "proxySettings")) : ReadAsPolicy members := by
  constructor
  case accepted =>
    constructor
    · rintro ⟨c, hc⟩
      exact ((decode_object_denotes hassignment hproxy).1 hc).1
    · exact exists_decode_of_isPolicy
  case denoted => exact fun c => decode_object_denotes hassignment hproxy
  case unused =>
    intro members' hpolicy hpolicy' hsame
    obtain ⟨c, hc⟩ := exists_decode_of_isPolicy hpolicy
    obtain ⟨-, ha, hp⟩ := (decode_object_denotes hassignment hproxy).1 hc
    rw [hc]
    exact (decode_object_denotes (noObject_of_may_name hpolicy'.assignment)
      (noObject_of_may_name hpolicy'.proxySettings)).2
      ⟨hpolicy', ha.of_inUse hsame, hp.of_inUse hsame⟩

/-- A static address without gateway, a proxy without exclusions, and the address of a script that
the proxy mode does not use. -/
def proxiedMembers : List (String × Json) :=
  [("assignment", .string "STATIC"), ("linkAddress", .string "192.168.48.2/8"),
    ("gateway", .null), ("proxySettings", .string "STATIC"), ("proxyHost", .string "proxy"),
    ("proxyPort", .word16 8080), ("proxyPacUrl", .string "pac")]

theorem policy_readByGrammar_proxied :
    NoObject (Json.member? proxiedMembers "assignment") ∧
      NoObject (Json.member? proxiedMembers "proxySettings") ∧ ReadAsPolicy proxiedMembers ∧
      decode (.object proxiedMembers) =
        .ok ⟨.static { linkAddress := some ⟨.v4 ⟨192, 168, 48, 2⟩, 8, by decide⟩ },
          .fixed "proxy" 8080 ""⟩ := by
  have hassignment : NoObject (Json.member? proxiedMembers "assignment") := fun _ h => by cases h
  have hproxy : NoObject (Json.member? proxiedMembers "proxySettings") := fun _ h => by cases h
  exact ⟨hassignment, hproxy, policy_readByGrammar _ hassignment hproxy, by decide +kernel⟩

end WirelessArchive.AddressingRecord
