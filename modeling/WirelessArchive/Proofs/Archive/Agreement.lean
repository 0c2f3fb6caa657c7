import WirelessArchive.Proofs.Archive.Verdict
import WirelessArchive.Proofs.Json.Agreement

/-!
# Documents whose records are related

A restore reads two documents alike if their root objects differ in nothing but the records, and
each record is related to the one in its place: both documents are refused for the same reason, or
opened with the same version (`open_agree`).  What is then told of the records, and what becomes of
them, depends on each record alone.
-/

namespace WirelessArchive

variable {R : Json → Json → Prop}

namespace Envelope

/-- How the value of a member may differ if the records differ as `R` allows. -/
def MemberAlike (R : Json → Json → Prop) : Member → Json → Json → Prop
  | .networks => Json.ItemsAlike R
  | _ => Eq

theorem memberAlike_refl (m : Member) (x : Json) : MemberAlike R m x x := by
  cases m <;> first | rfl | exact .same x

theorem memberAlike_trans (hR : ∀ x y z, R x y → R y z → R x z) (m : Member) (x y z : Json)
    (h : MemberAlike R m x y) (h' : MemberAlike R m y z) : MemberAlike R m x z := by
  cases m with
  | networks => exact Json.ItemsAlike.trans hR h h'
  | _ => exact Eq.trans h h'

/-- The envelopes have the same header, and related records. -/
structure Matches (R : Json → Json → Prop) (e e' : Envelope) : Prop where
  format : e.format = e'.format
  version : e.version = e'.version
  networks : List.Forall₂ R e.networks e'.networks

theorem Matches.refl (hR : ∀ v, R v v) (e : Envelope) : Matches R e e :=
  ⟨rfl, rfl, List.forall₂_same.2 fun v _ => hR v⟩

theorem put_agree (hR : ∀ v, R v v) (t t' : Envelope) (m : Member) (x x' : Json)
    (ht : Matches R t t') (hx : MemberAlike R m x x') :
    Json.Agree (Matches R) (put t m x) (put t' m x') := by
  cases m with
  | networks =>
    refine (Json.asList_agree (S := R) hR (fun v v' hv => .ok hv) hx).map ?_
    exact fun networks networks' hnetworks => ⟨ht.format, ht.version, hnetworks⟩
  | format =>
    obtain rfl := hx
    exact .map_same (fun _ => ⟨rfl, ht.version, ht.networks⟩) _
  | version =>
    obtain rfl := hx
    exact .map_same (fun _ => ⟨ht.format, rfl, ht.networks⟩) _

theorem ofJson_agree (hR : ∀ v, R v v) {root root' : Json}
    (h : schema.Alike (MemberAlike R) root root') :
    Json.Agree (Matches R) (ofJson root) (ofJson root') :=
  Json.Schema.read_agree (.refl hR) (put_agree hR) _ h

theorem Matches.checkHeader_eq {e e' : Envelope} (h : Matches R e e') :
    e.checkHeader = e'.checkHeader := by
  have hheader : e.headerVersion = e'.headerVersion := by
    rw [headerVersion, headerVersion, h.format, h.version]
  rw [checkHeader, checkHeader, hheader]

end Envelope

/-- Both documents are refused for the same reason, or opened with the same version and related
records. -/
inductive OpensAlike (R : Json → Json → Prop) : Except ArchiveError (Version × List Json) →
    Except ArchiveError (Version × List Json) → Prop where
  | error (e : ArchiveError) : OpensAlike R (.error e) (.error e)
  | ok (version : Version) {networks networks' : List Json} : List.Forall₂ R networks networks' →
    OpensAlike R (.ok (version, networks)) (.ok (version, networks'))

theorem OpensAlike.refl (hR : ∀ v, R v v) (x : Except ArchiveError (Version × List Json)) :
    OpensAlike R x x := by
  cases x with
  | error e => exact .error e
  | ok t => exact .ok t.1 (List.forall₂_same.2 fun v _ => hR v)

theorem openEnvelope_agree (hR : ∀ v, R v v) {root root' : Json}
    (h : Envelope.schema.Alike (Envelope.MemberAlike R) root root') :
    OpensAlike R (openEnvelope root) (openEnvelope root') := by
  have hread := Envelope.ofJson_agree hR h
  unfold openEnvelope
  generalize Envelope.ofJson root = r at hread
  generalize Envelope.ofJson root' = r' at hread
  cases hread with
  | error e => exact .error _
  | @ok e e' he =>
    simp only [he.checkHeader_eq]
    cases e'.checkHeader with
    | error fault => exact .error fault
    | ok version => exact .ok version he.networks

variable {settings : Settings} {blob other : List UInt8} {root root' : Json}

theorem readRoot_of_array (hsize : blob.length ≤ settings.maxBlobBytes.toNat) {items : List Json}
    (hread : Json.read blob = .ok (.array items)) :
    readRoot settings blob = .error (.brokenFraming "top level is not an object") := by
  rw [readRoot, if_neg (Nat.not_lt.2 hsize), hread]

/-- Of a text that can be read, the root object depends on the value alone. -/
theorem readRoot_eq (hsize : blob.length ≤ settings.maxBlobBytes.toNat)
    (hsize' : other.length ≤ settings.maxBlobBytes.toNat) (hread : Json.read blob = .ok root)
    (hread' : Json.read other = .ok root) : readRoot settings blob = readRoot settings other := by
  rw [readRoot, readRoot, if_neg (Nat.not_lt.2 hsize), if_neg (Nat.not_lt.2 hsize'), hread, hread']
  cases root <;> rfl

theorem open_agree (hR : ∀ v, R v v) (hsize : blob.length ≤ settings.maxBlobBytes.toNat)
    (hsize' : other.length ≤ settings.maxBlobBytes.toNat) (hread : Json.read blob = .ok root)
    (hread' : Json.read other = .ok root')
    (h : Envelope.schema.Alike (Envelope.MemberAlike R) root root') :
    OpensAlike R (readRoot settings blob >>= openEnvelope)
      (readRoot settings other >>= openEnvelope) := by
  cases h with
  | same =>
    rw [readRoot_eq hsize hsize' hread hread']
    exact .refl hR _
  | object h =>
    rw [readRoot_of_holds ⟨hsize, hread⟩, readRoot_of_holds ⟨hsize', hread'⟩]
    exact openEnvelope_agree hR (.object h)
  | array =>
    rw [readRoot_of_array hsize hread, readRoot_of_array hsize' hread']
    exact .error _

/-! ## What is told of related records, and what becomes of them -/

theorem events_congr (hevents : ∀ v v' index, R v v' → recordEvents index v = recordEvents index v')
    {networks networks' : List Json} (h : List.Forall₂ R networks networks') (start : Nat) :
    ((networks.zipIdx start).flatMap fun (v, index) => recordEvents index v) =
      (networks'.zipIdx start).flatMap fun (v, index) => recordEvents index v := by
  induction h generalizing start with
  | nil => rfl
  | cons hv _ ih =>
    rw [List.zipIdx_cons, List.zipIdx_cons, List.flatMap_cons, List.flatMap_cons, ih]
    exact congrArg (· ++ _) (hevents _ _ start hv)

/-- The records count alike in a report: both are restored to the same profile, or both dropped, or
both excluded. -/
structure Outcome.CountsAlike (o o' : Outcome) : Prop where
  profile? : o.profile? = o'.profile?
  isDropped : o.isDropped = o'.isDropped
  isExcluded : o.isExcluded = o'.isExcluded

theorem Report.ofOutcomes_congr (version : Version)
    (hcounts : ∀ v v', R v v' → (Outcome.ofJson v).CountsAlike (Outcome.ofJson v'))
    {networks networks' : List Json} (h : List.Forall₂ R networks networks') :
    ofOutcomes version (networks.map Outcome.ofJson) =
      ofOutcomes version (networks'.map Outcome.ofJson) := by
  simp only [ofOutcomes, mk.injEq, true_and]
  induction h with
  | nil => exact ⟨rfl, rfl, rfl⟩
  | cons hv _ ih =>
    obtain ⟨hprofile, hdropped, hexcluded⟩ := hcounts _ _ hv
    simp only [List.map_cons, List.filterMap_cons, List.countP_cons, hprofile, hdropped, hexcluded,
      ih, and_self]

/-- If related records count alike, the reports are the same. -/
theorem report_of_opensAlike
    (hcounts : ∀ v v', R v v' → (Outcome.ofJson v).CountsAlike (Outcome.ofJson v'))
    (h : OpensAlike R (readRoot settings blob >>= openEnvelope)
      (readRoot settings other >>= openEnvelope)) :
    (decode settings blob).report = (decode settings other).report := by
  unfold decode
  generalize (readRoot settings blob >>= openEnvelope) = x at h
  generalize (readRoot settings other >>= openEnvelope) = x' at h
  cases h with
  | error e => rfl
  | ok version h => exact congrArg Except.ok (Report.ofOutcomes_congr version hcounts h)

/-- If, besides, the same is told of them, the restores are the same. -/
theorem decode_of_opensAlike
    (hcounts : ∀ v v', R v v' → (Outcome.ofJson v).CountsAlike (Outcome.ofJson v'))
    (hevents : ∀ v v' index, R v v' → recordEvents index v = recordEvents index v')
    (h : OpensAlike R (readRoot settings blob >>= openEnvelope)
      (readRoot settings other >>= openEnvelope)) :
    decode settings blob = decode settings other := by
  unfold decode
  generalize (readRoot settings blob >>= openEnvelope) = x at h
  generalize (readRoot settings other >>= openEnvelope) = x' at h
  cases h with
  | error e => rfl
  | ok version h => simp only [Report.ofOutcomes_congr version hcounts h, events_congr hevents h]

end WirelessArchive
