import WirelessArchive.Profile.Basic

/-!
# Which profiles may leave the device

Enterprise, Passpoint and temporary networks are kept out of a backup, and are dropped again when
they show up in one that is being restored.
-/

namespace WirelessArchive

/-- Why a profile is kept out of a backup. -/
inductive Exclusion where
  /-- Its credentials live in external key stores. -/
  | enterprise
  /-- Its credentials are provisioned by the operator. -/
  | passpoint
  /-- It is a temporary network. -/
  | ephemeral
  deriving DecidableEq, Repr

/-- The name of each reason. -/
def Exclusion.text : Exclusion → String
  | enterprise => "enterprise"
  | passpoint => "passpoint"
  | ephemeral => "ephemeral"

namespace Profile

/-- The first rule that excludes a profile. -/
def exclusion? (p : Profile) : Option Exclusion :=
  if p.security.isEnterprise then some .enterprise
  else if p.isPasspoint then some .passpoint
  else if p.ephemeral then some .ephemeral
  else none

/-- A profile is eligible for backup when no rule excludes it. -/
def isEligible (p : Profile) : Bool := p.exclusion?.isNone

end Profile

end WirelessArchive
