/-!
# Flags and flag sets

A profile allows sets of key management schemes, protocols and authentication algorithms.  Each
kind is a small enumeration whose members have a stable name on the wire.  A set is kept as the
sublist of its members in declaration order, so that equal sets are equal values and the order in
which names arrive does not matter (`ofList_congr`).
-/

namespace WirelessArchive

/-- An enumeration whose members have names on the wire. -/
class Flag (α : Type) extends BEq α, LawfulBEq α where
  /-- Every member, in declaration order. -/
  all : List α
  /-- The name of a member on the wire. -/
  name : α → String
  mem_all : ∀ a, a ∈ all
  nodup_all : all.Nodup
  name_injective : ∀ a b, name a = name b → a = b

/-- The member with a name, if there is one. -/
def Flag.parse? {α : Type} [Flag α] (name : String) : Option α :=
  (Flag.all (α := α)).find? fun a => Flag.name a == name

theorem Flag.parse?_name {α : Type} [Flag α] (a : α) : Flag.parse? (Flag.name a) = some a := by
  unfold Flag.parse?
  cases h : (Flag.all (α := α)).find? fun b => Flag.name b == Flag.name a with
  | none =>
    rw [List.find?_eq_none] at h
    exact absurd (beq_self_eq_true (Flag.name a)) (h a (Flag.mem_all a))
  | some b =>
    have hb := List.find?_some h
    exact congrArg some (Flag.name_injective b a (eq_of_beq hb))

/-! ## The three kinds of flags -/

/-- Key management schemes. -/
inductive KeyManagement where
  | none
  | wpaPsk
  | wpaEap
  | ieee8021x
  | wpa2Psk
  | osen
  | ftPsk
  | ftEap
  deriving DecidableEq, Repr

/-- Security protocols. -/
inductive Protocol where
  | wpa
  | rsn
  | osen
  deriving DecidableEq, Repr

/-- Authentication algorithms. -/
inductive AuthAlgorithm where
  | openSystem
  | sharedKey
  | leap
  deriving DecidableEq, Repr

/-- The name of a key management scheme. -/
def KeyManagement.name : KeyManagement → String
  | none => "NONE"
  | wpaPsk => "WPA_PSK"
  | wpaEap => "WPA_EAP"
  | ieee8021x => "IEEE8021X"
  | wpa2Psk => "WPA2_PSK"
  | osen => "OSEN"
  | ftPsk => "FT_PSK"
  | ftEap => "FT_EAP"

/-- The name of a protocol. -/
def Protocol.name : Protocol → String
  | wpa => "WPA"
  | rsn => "RSN"
  | osen => "OSEN"

/-- The name of an authentication algorithm. -/
def AuthAlgorithm.name : AuthAlgorithm → String
  | openSystem => "OPEN"
  | sharedKey => "SHARED"
  | leap => "LEAP"

instance : Flag KeyManagement where
  all := [.none, .wpaPsk, .wpaEap, .ieee8021x, .wpa2Psk, .osen, .ftPsk, .ftEap]
  name := KeyManagement.name
  mem_all a := by cases a <;> decide
  nodup_all := by decide
  name_injective a b := by cases a <;> cases b <;> decide

instance : Flag Protocol where
  all := [.wpa, .rsn, .osen]
  name := Protocol.name
  mem_all a := by cases a <;> decide
  nodup_all := by decide
  name_injective a b := by cases a <;> cases b <;> decide

instance : Flag AuthAlgorithm where
  all := [.openSystem, .sharedKey, .leap]
  name := AuthAlgorithm.name
  mem_all a := by cases a <;> decide
  nodup_all := by decide
  name_injective a b := by cases a <;> cases b <;> decide

/-! ## Sets -/

/-- A set of flags: its members in declaration order, each once. -/
structure FlagSet (α : Type) [Flag α] where
  members : List α
  sublist_all : members.Sublist Flag.all
  deriving Repr

namespace FlagSet

variable {α : Type} [Flag α]

theorem ext_members {s t : FlagSet α} (h : s.members = t.members) : s = t := by
  cases s; cases t; cases h; rfl

instance [DecidableEq α] : DecidableEq (FlagSet α) := fun s t =>
  if h : s.members = t.members then isTrue (ext_members h)
  else isFalse fun e => h (congrArg FlagSet.members e)

/-- The set of the flags in a list. -/
def ofList (flags : List α) : FlagSet α :=
  ⟨Flag.all.filter flags.contains, List.filter_sublist⟩

/-- The set without members. -/
def empty : FlagSet α := ⟨[], List.nil_sublist _⟩

instance : Inhabited (FlagSet α) := ⟨empty⟩

/-- The wire names of the members, in declaration order. -/
def names (s : FlagSet α) : List String := s.members.map Flag.name

@[simp]
theorem mem_ofList {a : α} {flags : List α} : a ∈ (ofList flags).members ↔ a ∈ flags := by
  simp [ofList, Flag.mem_all]

/-- A set is determined by which flags the list holds. -/
theorem ofList_congr {l m : List α} (h : ∀ a, a ∈ l ↔ a ∈ m) : ofList l = ofList m := by
  apply ext_members
  simp only [ofList]
  refine List.filter_congr fun a _ => Bool.eq_iff_iff.2 ?_
  rw [List.contains_iff_mem, List.contains_iff_mem]
  exact h a

end FlagSet

end WirelessArchive
