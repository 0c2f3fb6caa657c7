import WirelessArchive.Profile.Basic

/-!
# Identity keys

Two profiles with the same key describe the same network, whatever else differs.  An index holds
one entry per key, sorted by key; when keys repeat the last entry wins.
-/

namespace WirelessArchive

/-- The identity of a network. -/
structure ConfigKey where
  text : String
  deriving DecidableEq, Repr

/-- A Passpoint profile is known by its provider domain, any other by its network name; the label of
the security type follows. -/
def Profile.configKey (p : Profile) : ConfigKey :=
  if p.isPasspoint then ⟨p.fqdn.getD "" ++ Security.eap.label⟩
  else ⟨p.ssid ++ p.security.label⟩

/-- Values under distinct keys, in increasing order of the key text. -/
structure KeyIndex (α : Type) where
  entries : List (ConfigKey × α) := []

namespace KeyIndex

variable {α : Type}

/-- Puts a value under a key, in place of the one that is there. -/
def insertEntry (key : ConfigKey) (value : α) : List (ConfigKey × α) → List (ConfigKey × α)
  | [] => [(key, value)]
  | (k, v) :: rest =>
    if key = k then (key, value) :: rest
    else if key.text < k.text then (key, value) :: (k, v) :: rest
    else (k, v) :: insertEntry key value rest

/-- The index with `value` under `key`. -/
def insert (index : KeyIndex α) (key : ConfigKey) (value : α) : KeyIndex α :=
  ⟨insertEntry key value index.entries⟩

/-- The value under a key. -/
def find? (index : KeyIndex α) (key : ConfigKey) : Option α := index.entries.lookup key

/-- The index of a list whose items have keys; of items with one key, the last is kept. -/
def ofList (key : α → ConfigKey) (items : List α) : KeyIndex α :=
  items.foldl (fun index item => index.insert (key item) item) {}

end KeyIndex

/-- The index of a list of profiles by identity key. -/
def indexByKey (profiles : List Profile) : KeyIndex Profile :=
  KeyIndex.ofList Profile.configKey profiles

end WirelessArchive
