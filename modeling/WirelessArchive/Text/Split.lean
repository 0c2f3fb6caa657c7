/-!
# Splitting text at a separator

The two notations of the library that join two parts by one character, a version `major.minor`
and a link address `address/length`, are read by splitting at the first occurrence of it.
-/

namespace WirelessArchive.Text

/-- The parts before and after the first `sep`, if there is one. -/
def splitFirst? (sep : Char) (cs : List Char) : Option (List Char × List Char) :=
  match cs.dropWhile (· != sep) with
  | [] => none
  | _ :: after => some (cs.takeWhile (· != sep), after)

/-- A text without the separator has no parts. -/
theorem splitFirst?_eq_none_iff {sep : Char} {cs : List Char} :
    splitFirst? sep cs = none ↔ sep ∉ cs := by
  induction cs with
  | nil => simp [splitFirst?]
  | cons c cs ih =>
    by_cases h : c = sep
    · subst h; simp [splitFirst?]
    · have hs : splitFirst? sep (c :: cs) = none ↔ splitFirst? sep cs = none := by
        simp only [splitFirst?, bne_iff_ne, ne_eq, h, not_false_eq_true, List.dropWhile_cons_of_pos]
        split <;> simp
      rw [hs, ih]
      simp [Ne.symm h]

/-- What comes before the separator holds none; the rest is arbitrary. -/
theorem splitFirst?_append {sep : Char} {a b : List Char} (h : sep ∉ a) :
    splitFirst? sep (a ++ sep :: b) = some (a, b) := by
  induction a with
  | nil => simp [splitFirst?]
  | cons c a ih =>
    have hc : c ≠ sep := fun e => h (by simp [e])
    have ha := ih fun e => h (List.mem_cons_of_mem _ e)
    simp only [splitFirst?] at ha ⊢
    simp only [List.cons_append, bne_iff_ne, ne_eq, hc, not_false_eq_true,
      List.dropWhile_cons_of_pos, List.takeWhile_cons_of_pos]
    split at ha <;> simp_all

end WirelessArchive.Text
