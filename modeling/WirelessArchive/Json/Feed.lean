/-!
# Machines that read one byte at a time

The readers of the library are state machines: a step takes a state and a byte to the next state,
or halts.  `feed` runs the machine over a text and says what was unread when it halted; feeding two
texts one after the other is feeding their concatenation (`feed_append`).
-/

namespace WirelessArchive.Json

/-- The end of a run within a text: its cause, and whether the byte that was looked at counts as
read. -/
structure Halt (ε : Type) where
  cause : ε
  counted : Bool
  deriving DecidableEq, Repr

/-- The end of a run: its cause, and the bytes that were not read. -/
structure Stop (ε : Type) where
  cause : ε
  unread : List UInt8
  deriving DecidableEq, Repr

/-- The progress of a machine that recognises one piece of text and does not know its length. -/
inductive Progress (σ α ε : Type) where
  /-- The piece goes on. -/
  | more (state : σ)
  /-- The byte completes the piece. -/
  | done (value : α)
  /-- The piece was complete before the byte. -/
  | before (value : α)
  | halt (h : Halt ε)

variable {σ ε : Type}

/-- Runs a machine over a text. -/
@[specialize]
def feed (step : σ → UInt8 → Except (Halt ε) σ) : σ → List UInt8 → Except (Stop ε) σ
  | s, [] => .ok s
  | s, b :: rest =>
    match step s b with
    | .ok s' => feed step s' rest
    | .error h => .error ⟨h.cause, if h.counted then rest else b :: rest⟩

theorem feed_append (step : σ → UInt8 → Except (Halt ε) σ) {s s' : σ} {a : List UInt8}
    (b : List UInt8) (h : feed step s a = .ok s') : feed step s (a ++ b) = feed step s' b := by
  induction a generalizing s with
  | nil => cases h; rfl
  | cons x a ih =>
    simp only [List.cons_append, feed] at h ⊢
    split at h
    · exact ih h
    · cases h

end WirelessArchive.Json
