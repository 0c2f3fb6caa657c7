import WirelessArchive.Json.Reader
import WirelessArchive.Proofs.Json.Text

/-!
# Printed values are read back

`Fits n v` says that the value `v` nests at most `n` containers and that all its numbers are
integers.  Such a value is read back from its text, in either layout (`read_print`), so that no two
of them share a text (`print_injective`).

The reader does not know that a number is over before it sees the next byte.  `Settles s t`
therefore compares two of its states by what they do next: they agree at the end of the text and at
every byte that does not occur in numbers.  Reading the text of a value leads to a state that
settles to the one in which the value is delivered (`Readable`).
-/

namespace WirelessArchive.Json

open Progress

/-- The value nests at most this many containers, and its numbers are integers. -/
inductive Fits : Nat → Json → Prop where
  | null (n : Nat) : Fits n .null
  | bool (n : Nat) (b : Bool) : Fits n (.bool b)
  | integer (n : Nat) (k : Int) (h : -0x8000000000000000 ≤ k ∧ k < 0x10000000000000000) :
    Fits n (.number (.integer k h))
  | string (n : Nat) (s : String) : Fits n (.string s)
  | array {n : Nat} {items : List Json} : (∀ v ∈ items, Fits n v) → Fits (n + 1) (.array items)
  | object {n : Nat} {members : List (String × Json)} :
    (∀ m ∈ members, Fits n m.2) → Fits (n + 1) (.object members)

theorem fits_array_iff {n : Nat} {items : List Json} :
    Fits (n + 1) (.array items) ↔ ∀ v ∈ items, Fits n v :=
  ⟨fun | .array h => h, .array⟩

theorem fits_object_iff {n : Nat} {members : List (String × Json)} :
    Fits (n + 1) (.object members) ↔ ∀ m ∈ members, Fits n m.2 :=
  ⟨fun | .object h => h, .object⟩

theorem Fits.mono {n m : Nat} {v : Json} (h : Fits n v) (hm : n ≤ m) : Fits m v := by
  induction h generalizing m with
  | null => exact .null m
  | bool _ b => exact .bool m b
  | integer _ k hk => exact .integer m k hk
  | string _ s => exact .string m s
  | @array n items _ ih =>
    obtain ⟨m, rfl⟩ : ∃ k, m = k + 1 := ⟨m - 1, by omega⟩
    exact .array fun v hv => ih v hv (by omega)
  | @object n members _ ih =>
    obtain ⟨m, rfl⟩ : ∃ k, m = k + 1 := ⟨m - 1, by omega⟩
    exact .object fun v hv => ih v hv (by omega)

/-! ## Machines that read to the end -/

section Gives

variable {σ α ε φ : Type} {step : σ → UInt8 → Except (Halt ε) σ} {finish : σ → Except φ α}

/-- The machine reads the rest of a text from a state to its end, and the outcome is a value. -/
def Gives (step : σ → UInt8 → Except (Halt ε) σ) (finish : σ → Except φ α) (s : σ)
    (rest : List UInt8) (a : α) : Prop :=
  ∃ t, feed step s rest = .ok t ∧ finish t = .ok a

theorem Gives.unique {s : σ} {rest : List UInt8} {a a' : α} (h : Gives step finish s rest a)
    (h' : Gives step finish s rest a') : a = a' := by
  obtain ⟨t, ht, ha⟩ := h
  obtain ⟨t', ht', ha'⟩ := h'
  cases ht.symm.trans ht'
  exact Except.ok.inj (ha.symm.trans ha')

theorem gives_nil_iff {s : σ} {a : α} : Gives step finish s [] a ↔ finish s = .ok a := by
  constructor
  · rintro ⟨t, ht, ha⟩
    rwa [Except.ok.inj ht]
  · exact fun ha => ⟨s, rfl, ha⟩

theorem gives_cons_iff {s : σ} {b : UInt8} {rest : List UInt8} {a : α} :
    Gives step finish s (b :: rest) a ↔ ∃ t, step s b = .ok t ∧ Gives step finish t rest a := by
  rw [Gives, feed]
  cases step s b with
  | error halt => simp
  | ok t => simp [Gives]

end Gives

namespace Reader

/-! ## States that differ in a number that may go on -/

/-- No scalar and no key is being read. -/
def IsBetween (s : State) : Prop := ∀ b, step s b = between s b

/-- The states agree at the end of the text and at every byte that does not occur in numbers. -/
def Settles (s t : State) : Prop :=
  finish s = finish t ∧ ∀ b, Symbol.ofByte b = .other → step s b = step t b

theorem Settles.refl (s : State) : Settles s s := ⟨rfl, fun _ _ => rfl⟩

theorem isBetween_deliver (v : Json) (stack : List Frame) : IsBetween (deliver v stack) := by
  intro b
  cases stack with
  | nil => rfl
  | cons frame stack => cases frame <;> rfl

theorem settles_of_ends {s : Scalar} {v : Json} (h : s.Ends v) (stack : List Frame) :
    Settles ⟨stack, .scalar s⟩ (deliver v stack) := by
  refine ⟨?_, fun b hb => ?_⟩
  · have hd : finish (deliver v stack) = endBetween (deliver v stack).control := by
      cases stack with
      | nil => rfl
      | cons frame stack => cases frame <;> rfl
    rw [hd]
    simp only [finish, h.1]
  · rw [isBetween_deliver]
    simp only [step, h.2 b hb]

/-! ## Feeding pieces -/

theorem feed_cons {s s' : State} {b : UInt8} (h : step s b = .ok s') (rest : List UInt8) :
    feed step s (b :: rest) = feed step s' rest := by
  rw [feed, h]

/-- The rest of a text is read from a state to its end and gives a value. -/
def Accepts (s : State) (rest : List UInt8) (v : Json) : Prop := Gives step finish s rest v

theorem accepts_nil_iff {s : State} {v : Json} : Accepts s [] v ↔ finish s = .ok v :=
  gives_nil_iff

theorem accepts_cons_iff {s : State} {b : UInt8} {rest : List UInt8} {v : Json} :
    Accepts s (b :: rest) v ↔ ∃ u, step s b = .ok u ∧ Accepts u rest v :=
  gives_cons_iff

theorem read_eq_ok_iff {text : List UInt8} {v : Json} :
    read text = .ok v ↔ Accepts start text v := by
  rw [read, Accepts, Gives]
  cases feed step start text with
  | error stop => simp
  | ok s => cases hs : finish s <;> simp [hs]

theorem feed_scalar (stack : List Frame) {s s' : Scalar} {bytes : List UInt8}
    (h : run? Scalar.step s bytes = some s') :
    feed step ⟨stack, .scalar s⟩ bytes = .ok ⟨stack, .scalar s'⟩ :=
  feed_of_run? (fun s => (⟨stack, .scalar s⟩ : State))
    (fun _ _ _ hs => by simp only [step, hs]) h

theorem feed_key (stack : List Frame) (members : List (String × Json)) {t t' : StringText}
    {bytes : List UInt8} (h : run? StringText.step t bytes = some t') :
    feed step ⟨stack, .key members t⟩ bytes = .ok ⟨stack, .key members t'⟩ :=
  feed_of_run? (fun t => (⟨stack, .key members t⟩ : State))
    (fun _ _ _ hs => by simp only [step, hs]) h

theorem between_space (s : State) {b : UInt8} (hb : isSpace b = true) : between s b = .ok s :=
  if_pos hb

/-- Between values white space changes nothing. -/
theorem feed_space {s : State} (hs : IsBetween s) {blanks : List UInt8}
    (hb : ∀ b ∈ blanks, isSpace b = true) (rest : List UInt8) :
    feed step s (blanks ++ rest) = feed step s rest := by
  induction blanks with
  | nil => rfl
  | cons b blanks ih =>
    have h : step s b = .ok s := by
      rw [hs, between_space s (hb b List.mem_cons_self)]
    rw [List.cons_append, feed_cons h]
    exact ih fun x hx => hb x (List.mem_cons_of_mem b hx)

theorem isSpace_of_mem_lineBreak {layout : Layout} {depth : Nat} {b : UInt8}
    (h : b ∈ Printer.lineBreak layout depth) : isSpace b = true := by
  cases layout with
  | compact => cases h
  | indented =>
    rw [Printer.lineBreak, List.mem_cons, List.mem_replicate] at h
    obtain rfl | ⟨-, rfl⟩ := h <;> rfl

/-- A state and the one it settles to go on alike after a line break, at a byte that does not occur
in numbers. -/
theorem feed_lineBreak {s t : State} (h : Settles s t) (ht : IsBetween t) (layout : Layout)
    (depth : Nat) {b : UInt8} (hb : Symbol.ofByte b = .other) (rest : List UInt8) :
    feed step s (Printer.lineBreak layout depth ++ b :: rest) = feed step t (b :: rest) := by
  cases layout with
  | compact => rw [Printer.lineBreak, List.nil_append, feed, feed, h.2 b hb]
  | indented =>
    have hn : step s 0x0A = .ok t := by
      rw [h.2 0x0A rfl, ht]
      rfl
    have hr : ∀ x ∈ List.replicate (2 * depth) (0x20 : UInt8), isSpace x = true := by
      intro x hx
      rw [(List.mem_replicate.1 hx).2]
      rfl
    rw [Printer.lineBreak, List.cons_append, feed_cons hn, feed_space ht hr]

/-! ## Where a value starts -/

/-- The text starts with a byte that is no white space and closes no array. -/
def StartsValue (text : List UInt8) : Prop :=
  ∃ b rest, text = b :: rest ∧ isSpace b = false ∧ b ≠ 0x5D

/-- A value is expected: as such, after an opening bracket or after a comma in an array. -/
def ExpectsValue (c : Control) : Prop := c = .value ∨ c = .firstItem ∨ c = .nextItem

theorem step_expectsValue {c : Control} (hc : ExpectsValue c) (stack : List Frame) {b : UInt8}
    (hs : isSpace b = false) (hb : b ≠ 0x5D) : step ⟨stack, c⟩ b = begin stack b := by
  have hs' : ¬ isSpace b = true := by rw [hs]; exact Bool.false_ne_true
  obtain rfl | rfl | rfl := hc <;> simp only [step, between, if_neg hs', if_neg hb]

/-- After a line break a value is read in the same way wherever it is expected. -/
theorem feed_expectsValue {c : Control} (hc : ExpectsValue c) (stack : List Frame) (layout : Layout)
    (depth : Nat) {text : List UInt8} (ht : StartsValue text) :
    feed step ⟨stack, c⟩ (Printer.lineBreak layout depth ++ text) =
      feed step ⟨stack, .value⟩ text := by
  have hq : IsBetween ⟨stack, c⟩ := by
    intro b
    obtain rfl | rfl | rfl := hc <;> rfl
  rw [feed_space hq fun b hb => isSpace_of_mem_lineBreak hb]
  obtain ⟨b, rest, rfl, hs, hb⟩ := ht
  rw [feed, feed, step_expectsValue hc stack hs hb, step_expectsValue (Or.inl rfl) stack hs hb]

theorem StartsValue.append {text : List UInt8} (h : StartsValue text) (rest : List UInt8) :
    StartsValue (text ++ rest) := by
  obtain ⟨b, text, rfl, hs, hb⟩ := h
  exact ⟨b, text ++ rest, rfl, hs, hb⟩

/-! ## Reading what is printed -/

/-- Where at most `room` more containers may be opened before the limit of nesting, the text of the
value leads to its delivery. -/
structure Readable (layout : Layout) (room : Nat) (v : Json) : Prop where
  starts : ∀ depth, StartsValue (Printer.value layout depth v)
  reads : ∀ (depth : Nat) (stack : List Frame), stack.length + room ≤ maxDepth →
    ∃ s, feed step ⟨stack, .value⟩ (Printer.value layout depth v) = .ok s ∧
      Settles s (deliver v stack)

/-- After the first item of an array, the others follow. -/
theorem feed_moreItems {layout : Layout} {room : Nat} (depth : Nat) {items : List Json}
    (hi : ∀ v ∈ items, Readable layout room v) {stack : List Frame}
    (hr : stack.length + 1 + room ≤ maxDepth) (before : List Json) {s : State}
    (hs : Settles s ⟨stack, .afterItem before⟩) :
    ∃ t, feed step s (Printer.moreItems layout depth items) = .ok t ∧
      Settles t ⟨stack, .afterItem (items.reverse ++ before)⟩ := by
  induction items generalizing before s with
  | nil => exact ⟨s, rfl, hs⟩
  | cons v items ih =>
    have hv := hi v List.mem_cons_self
    obtain ⟨u, hu, hsu⟩ := hv.reads depth (.item before :: stack) hr
    obtain ⟨t, ht, hst⟩ := ih (fun x hx => hi x (List.mem_cons_of_mem v hx)) (v :: before) hsu
    refine ⟨t, ?_, ?_⟩
    · have hcomma : step s 0x2C = .ok ⟨.item before :: stack, .nextItem⟩ := by
        rw [hs.2 0x2C rfl]
        rfl
      rw [Printer.moreItems, feed_cons hcomma, List.append_assoc,
        feed_expectsValue (Or.inr (Or.inr rfl)) _ layout depth ((hv.starts depth).append _),
        feed_append step _ hu, ht]
    · rwa [List.reverse_cons, List.append_assoc, List.singleton_append]

/-- The mark after a key leads to the value. -/
theorem feed_keyMark (layout : Layout) (stack : List Frame) (members : List (String × Json))
    (key : String) (rest : List UInt8) :
    feed step ⟨stack, .colon members key⟩ (Printer.keyMark layout ++ rest) =
      feed step ⟨.member members key :: stack, .value⟩ rest := by
  cases layout <;> rfl

/-- A quoted key is read from where a key is expected. -/
theorem feed_string {c : Control} {members : List (String × Json)} (stack : List Frame)
    (hc : step ⟨stack, c⟩ 0x22 = .ok ⟨stack, .key members {}⟩) (key : String) (rest : List UInt8) :
    feed step ⟨stack, c⟩ (Printer.string key ++ rest) =
      feed step ⟨stack, .colon members key⟩ rest := by
  have hclose : step ⟨stack, .key members ⟨(Text.Utf8.encode key).reverse ++ [], .plain⟩⟩ 0x22 =
      .ok ⟨stack, .colon members key⟩ := by
    simp only [step, step_closing]
  rw [Printer.string, List.cons_append, feed_cons hc, List.append_assoc,
    feed_append step _ (feed_key stack members (run?_escaped [] _)), List.singleton_append,
    feed_cons hclose]

/-- After the first member of an object, the others follow. -/
theorem feed_moreMembers {layout : Layout} {room : Nat} (depth : Nat)
    {members : List (String × Json)} (hm : ∀ m ∈ members, Readable layout room m.2)
    {stack : List Frame} (hr : stack.length + 1 + room ≤ maxDepth)
    (before : List (String × Json)) {s : State} (hs : Settles s ⟨stack, .afterMember before⟩) :
    ∃ t, feed step s (Printer.moreMembers layout depth members) = .ok t ∧
      Settles t ⟨stack, .afterMember (members.reverse ++ before)⟩ := by
  induction members generalizing before s with
  | nil => exact ⟨s, rfl, hs⟩
  | cons m members ih =>
    obtain ⟨key, v⟩ := m
    obtain ⟨u, hu, hsu⟩ :=
      (hm (key, v) List.mem_cons_self).reads depth (.member before key :: stack) hr
    obtain ⟨t, ht, hst⟩ :=
      ih (fun x hx => hm x (List.mem_cons_of_mem (key, v) hx)) ((key, v) :: before) hsu
    refine ⟨t, ?_, ?_⟩
    · have hcomma : step s 0x2C = .ok ⟨stack, .nextKey before⟩ := by
        rw [hs.2 0x2C rfl]
        rfl
      have hq : IsBetween ⟨stack, .nextKey before⟩ := fun _ => rfl
      rw [Printer.moreMembers, feed_cons hcomma, List.append_assoc, List.append_assoc,
        List.append_assoc, feed_space hq fun b hb => isSpace_of_mem_lineBreak hb,
        feed_string stack rfl, feed_keyMark, feed_append step _ hu, ht]
    · rwa [List.reverse_cons, List.append_assoc, List.singleton_append]

/-- A byte that starts a scalar is neither white space nor a bracket. -/
theorem begin_of_start? {b : UInt8} {s : Scalar} (h : Scalar.start? b = some s) :
    isSpace b = false ∧ b ≠ 0x5D ∧ ∀ stack, begin stack b = .ok ⟨stack, .scalar s⟩ := by
  have hne : ∀ c, Scalar.start? c = none → b ≠ c := by
    rintro c hc rfl
    rw [hc] at h
    cases h
  refine ⟨?_, hne 0x5D rfl, fun stack => ?_⟩
  · simp [isSpace, hne 0x20 rfl, hne 0x0A rfl, hne 0x09 rfl, hne 0x0D rfl]
  · have hb : ¬ (b = 0x5B ∨ b = 0x7B) := not_or.2 ⟨hne 0x5B rfl, hne 0x7B rfl⟩
    rw [begin, if_neg hb, h]

theorem readable_null (layout : Layout) (room : Nat) : Readable layout room .null where
  starts _ := ⟨0x6E, _, rfl, rfl, by decide⟩
  reads _ stack _ := ⟨deliver .null stack, rfl, .refl _⟩

theorem readable_bool (layout : Layout) (room : Nat) (b : Bool) :
    Readable layout room (.bool b) where
  starts _ := by
    cases b
    · exact ⟨0x66, _, rfl, rfl, by decide⟩
    · exact ⟨0x74, _, rfl, rfl, by decide⟩
  reads _ stack _ := by
    cases b
    · exact ⟨deliver (.bool false) stack, rfl, .refl _⟩
    · exact ⟨deliver (.bool true) stack, rfl, .refl _⟩

theorem readable_string (layout : Layout) (room : Nat) (s : String) :
    Readable layout room (.string s) where
  starts _ := ⟨0x22, _, rfl, rfl, by decide⟩
  reads depth stack _ := by
    have hstart : step ⟨stack, .value⟩ 0x22 = .ok ⟨stack, .scalar (.text {})⟩ := rfl
    have hclose : step ⟨stack, .scalar (.text ⟨(Text.Utf8.encode s).reverse ++ [], .plain⟩)⟩ 0x22 =
        .ok (deliver (.string s) stack) := by
      simp only [step, Scalar.step, step_closing, Scalar.lift]
    refine ⟨deliver (.string s) stack, ?_, .refl _⟩
    rw [Printer.value, Printer.string, feed_cons hstart,
      feed_append step _ (feed_scalar stack (Scalar.run?_text (run?_escaped [] _))),
      feed_cons hclose, feed]

theorem readable_integer (layout : Layout) (room : Nat) {k : Int}
    (h : -0x8000000000000000 ≤ k ∧ k < 0x10000000000000000) :
    Readable layout room (.number (.integer k h)) := by
  obtain ⟨b, rest, s, t, htext, hstart, hrun, hends⟩ := Scalar.run?_number h
  obtain ⟨hspace, hbracket, hbegin⟩ := begin_of_start? hstart
  refine ⟨fun depth => ⟨b, rest, ?_, hspace, hbracket⟩, fun depth stack _ => ?_⟩
  · rw [Printer.value, htext]
  · have hstep : step ⟨stack, .value⟩ b = .ok ⟨stack, .scalar s⟩ := by
      rw [step_expectsValue (Or.inl rfl) stack hspace hbracket, hbegin]
    refine ⟨⟨stack, .scalar t⟩, ?_, settles_of_ends hends stack⟩
    rw [Printer.value, htext, feed_cons hstep, feed_scalar stack hrun]

theorem begin_bracket {stack : List Frame} (h : stack.length < maxDepth) :
    begin stack 0x5B = .ok ⟨.item [] :: stack, .firstItem⟩ ∧
      begin stack 0x7B = .ok ⟨stack, .firstKey⟩ := by
  constructor
  · rw [begin, if_pos (Or.inl rfl), if_pos h, if_pos rfl]
  · rw [begin, if_pos (Or.inr rfl), if_pos h, if_neg (by decide)]

theorem readable_array {layout : Layout} {room : Nat} {items : List Json}
    (hi : ∀ v ∈ items, Readable layout room v) : Readable layout (room + 1) (.array items) := by
  refine ⟨fun depth => ?_, fun depth stack hr => ?_⟩
  · cases items with
    | nil => exact ⟨0x5B, _, rfl, rfl, by decide⟩
    | cons v items => exact ⟨0x5B, _, by rw [Printer.value], rfl, by decide⟩
  · have hopen : step ⟨stack, .value⟩ 0x5B = .ok ⟨.item [] :: stack, .firstItem⟩ := by
      rw [step_expectsValue (Or.inl rfl) stack rfl (by decide)]
      exact (begin_bracket (by omega)).1
    refine ⟨deliver (.array items) stack, ?_, .refl _⟩
    cases items with
    | nil =>
      rw [Printer.value, feed_cons hopen]
      rfl
    | cons v items =>
      have hv := hi v List.mem_cons_self
      obtain ⟨s, hs, hss⟩ :=
        hv.reads (depth + 1) (.item [] :: stack) (by rw [List.length_cons]; omega)
      obtain ⟨t, ht, hst⟩ := feed_moreItems (depth + 1)
        (fun x hx => hi x (List.mem_cons_of_mem v hx)) (by omega) [v] hss
      have hclose : step ⟨stack, .afterItem (items.reverse ++ [v])⟩ 0x5D =
          .ok (deliver (.array (v :: items)) stack) := by
        rw [← List.reverse_cons]
        show Except.ok (deliver (.array (v :: items).reverse.reverse) stack) = _
        rw [List.reverse_reverse]
      simp only [Printer.value, List.append_assoc]
      rw [feed_cons hopen,
        feed_expectsValue (Or.inr (Or.inl rfl)) _ layout (depth + 1) ((hv.starts _).append _),
        feed_append step _ hs, feed_append step _ ht,
        feed_lineBreak hst (fun _ => rfl) layout depth rfl, feed_cons hclose, feed]

theorem readable_object {layout : Layout} {room : Nat} {members : List (String × Json)}
    (hm : ∀ m ∈ members, Readable layout room m.2) :
    Readable layout (room + 1) (.object members) := by
  refine ⟨fun depth => ?_, fun depth stack hr => ?_⟩
  · cases members with
    | nil => exact ⟨0x7B, _, rfl, rfl, by decide⟩
    | cons m members => exact ⟨0x7B, _, by rw [Printer.value], rfl, by decide⟩
  · have hopen : step ⟨stack, .value⟩ 0x7B = .ok ⟨stack, .firstKey⟩ := by
      rw [step_expectsValue (Or.inl rfl) stack rfl (by decide)]
      exact (begin_bracket (by omega)).2
    refine ⟨deliver (.object members) stack, ?_, .refl _⟩
    cases members with
    | nil =>
      rw [Printer.value, feed_cons hopen]
      rfl
    | cons m members =>
      obtain ⟨key, v⟩ := m
      have hv := hm (key, v) List.mem_cons_self
      obtain ⟨s, hs, hss⟩ :=
        hv.reads (depth + 1) (.member [] key :: stack) (by rw [List.length_cons]; omega)
      obtain ⟨t, ht, hst⟩ := feed_moreMembers (depth + 1)
        (fun x hx => hm x (List.mem_cons_of_mem (key, v) hx)) (by omega) [(key, v)] hss
      have hclose : step ⟨stack, .afterMember (members.reverse ++ [(key, v)])⟩ 0x7D =
          .ok (deliver (.object ((key, v) :: members)) stack) := by
        rw [← List.reverse_cons]
        show Except.ok (deliver (.object ((key, v) :: members).reverse.reverse) stack) = _
        rw [List.reverse_reverse]
      have hq : IsBetween ⟨stack, .firstKey⟩ := fun _ => rfl
      simp only [Printer.value, List.append_assoc]
      rw [feed_cons hopen, feed_space hq fun b hb => isSpace_of_mem_lineBreak hb,
        feed_string stack rfl, feed_keyMark, feed_append step _ hs, feed_append step _ ht,
        feed_lineBreak hst (fun _ => rfl) layout depth rfl, feed_cons hclose, feed]

theorem readable_of_fits (layout : Layout) {n : Nat} {v : Json} (h : Fits n v) :
    Readable layout n v := by
  induction h with
  | null n => exact readable_null layout n
  | bool n b => exact readable_bool layout n b
  | integer n k hk => exact readable_integer layout n hk
  | string n s => exact readable_string layout n s
  | array _ ih => exact readable_array ih
  | object _ ih => exact readable_object ih

end Reader

/-- A value that the reader has room for is read back from its text. -/
theorem read_print (layout : Layout) {v : Json} (h : Fits maxDepth v) :
    read (print layout v) = .ok v := by
  obtain ⟨s, hs, hss⟩ := (Reader.readable_of_fits layout h).reads 0 [] (by simp)
  have hend : Reader.finish s = .ok v := hss.1
  unfold read print Reader.start
  rw [hs]
  simp only [hend]

/-- Different values have different texts. -/
theorem print_injective (layout : Layout) {v w : Json} (hv : Fits maxDepth v)
    (hw : Fits maxDepth w) (h : print layout v = print layout w) : v = w := by
  have hr := read_print layout hv
  rw [h, read_print layout hw] at hr
  exact (Except.ok.inj hr).symm

end WirelessArchive.Json
