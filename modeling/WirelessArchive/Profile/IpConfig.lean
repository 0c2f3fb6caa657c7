import WirelessArchive.Address.Link

/-!
# Addressing and proxy policy

How a device gets its address on a network, and which proxy it uses there.  Every part of a static
configuration is optional on its own.
-/

namespace WirelessArchive

/-- Manually specified addressing. -/
structure StaticConfig where
  linkAddress : Option LinkAddress := none
  gateway : Option Address := none
  dnsServers : List Address := []
  deriving DecidableEq, Repr

/-- How the device gets its address. -/
inductive Assignment where
  | dhcp
  | static (config : StaticConfig)
  deriving DecidableEq, Repr

/-- The proxy policy of a network. -/
inductive Proxy where
  /-- A direct connection. -/
  | direct
  /-- A fixed host and port, and the hosts that bypass it, separated by commas. -/
  | fixed (host : String) (port : UInt16) (exclusions : String)
  /-- A configuration script. -/
  | script (url : String)
  deriving DecidableEq, Repr

/-- Addressing and proxy policy of a profile. -/
structure IpConfig where
  assignment : Assignment := .dhcp
  proxy : Proxy := .direct
  deriving DecidableEq, Repr

/-- The default configuration: addressed by the network, without proxy. -/
def IpConfig.isDefault (c : IpConfig) : Bool := c = {}

end WirelessArchive
