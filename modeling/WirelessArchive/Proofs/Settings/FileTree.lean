import Mathlib.Data.List.Infix
import WirelessArchive.Settings.FileTree

/-!
# Where paths lead

A tree is `Sound` if whatever stands in it stands in a directory.  In a sound tree steps lead to a
directory exactly where the way is `Open`: it goes through directories, by names that are not too
long.  The directory is the one at the place of the steps (`walk`).
-/

namespace WirelessArchive

/-! ## Places -/

namespace Place

/-- The place that a step leads to. -/
def step (here : Place) : PathStep → Place
  | .up => here.parent
  | .into name => here.child name

/-- The place that steps lead to. -/
def walk (here : Place) (steps : List PathStep) : Place := steps.foldl step here

theorem walk_cons (here : Place) (s : PathStep) (steps : List PathStep) :
    here.walk (s :: steps) = (here.step s).walk steps := rfl

theorem walk_append (here : Place) (a b : List PathStep) :
    here.walk (a ++ b) = (here.walk a).walk b := List.foldl_append

theorem walk_concat (here : Place) (steps : List PathStep) (name : String) :
    here.walk (steps ++ [.into name]) = (here.walk steps).child name := walk_append ..

theorem names_child_ne_nil (here : Place) (name : String) : (here.child name).names ≠ [] :=
  List.append_ne_nil_of_right_ne_nil _ (by simp)

theorem child_inj {p q : Place} {a b : String} : p.child a = q.child b ↔ p = q ∧ a = b := by
  constructor
  · intro h
    obtain ⟨habove, hnames⟩ := Place.mk.inj h
    obtain ⟨hdirs, hname⟩ := List.append_singleton_inj.1 hnames
    exact ⟨congrArg₂ Place.mk habove hdirs, hname⟩
  · rintro ⟨rfl, rfl⟩
    rfl

/-- The place is one that first steps of a way lead to. -/
def Along (steps : List PathStep) (q : Place) : Prop :=
  ∃ front, front <+: steps ∧ ({} : Place).walk front = q

theorem Along.mono {before steps : List PathStep} {q : Place} (hbefore : before <+: steps)
    (h : Along before q) : Along steps q := by
  obtain ⟨front, hfront, rfl⟩ := h
  exact ⟨front, hfront.trans hbefore, rfl⟩

end Place

/-- The name of a step is not too long for an entry. -/
def PathStep.IsShort : PathStep → Prop
  | .up => True
  | .into name => name.utf8ByteSize ≤ maxNameSize

/-- The place that a path speaks of. -/
def FilePath.place (p : FilePath) : Place := ({} : Place).walk p.steps

/-- The place is one on the way to the directory in which a path ends. -/
def FilePath.IsAncestor (p : FilePath) (q : Place) : Prop := Place.Along p.parent.steps q

theorem FilePath.steps_of_entry? {p : FilePath} {above : List PathStep} {name : String}
    (h : p.entry? = some (above, name)) : p.steps = above ++ [.into name] := by
  have hentry : p.steps.getLast? = some (.into name) ∧ p.steps.dropLast = above := by
    unfold entry? at h
    split at h <;> simp_all
  obtain ⟨hlast, rfl⟩ := hentry
  exact (List.dropLast_append_getLast? _ hlast).symm

theorem FilePath.size_append (a b : List PathStep) (ending ending' : PathEnding) :
    (⟨a, ending⟩ : FilePath).size ≤ (⟨a ++ b, ending'⟩ : FilePath).size := by
  have hgrow (b : List PathStep) (n : Nat) : n ≤ b.foldl (fun bytes s => bytes + s.size) n := by
    induction b generalizing n with
    | nil => exact Nat.le_refl n
    | cons s b ih => exact (Nat.le_add_right n s.size).trans (ih (n + s.size))
  simp only [size, List.foldl_append, List.length_append]
  have := hgrow b (a.foldl (fun bytes s => bytes + s.size) 0)
  omega

/-- A path that operations take has first steps that they take. -/
theorem FilePath.check_of_prefix {a b : List PathStep} {ending ending' : PathEnding}
    (hfront : a <+: b) (h : (⟨b, ending'⟩ : FilePath).check = .ok ()) :
    (⟨a, ending⟩ : FilePath).check = .ok () := by
  obtain ⟨rest, rfl⟩ := hfront
  unfold check at h ⊢
  split_ifs at h with hnul hsize
  have hsize' := size_append a rest ending ending'
  rw [if_neg, if_neg (by omega)]
  simp only [hasNul, List.any_append, Bool.or_eq_true, not_or] at hnul
  exact hnul.1

theorem FilePath.parent_steps_of_entry? {p : FilePath} {above : List PathStep} {name : String}
    (h : p.entry? = some (above, name)) : p.parent.steps = above := by
  rw [parent, steps_of_entry? h, List.dropLast_concat]

namespace FileTree

/-! ## Following paths -/

/-- Whatever stands in the tree stands in a directory. -/
structure Sound (t : FileTree) : Prop where
  top : ∀ p : Place, p.names = [] → t.node? p = some .directory
  inside : ∀ (p : Place) (name : String) (node : FileNode),
    t.node? (p.child name) = some node → t.node? p = some .directory

theorem sound_empty : empty.Sound where
  top p h := if_pos h
  inside p name node h := by
    cases (if_neg (Place.names_child_ne_nil p name)).symm.trans h

theorem Sound.parent {t : FileTree} (ht : t.Sound) {here : Place}
    (h : t.node? here = some .directory) : t.node? here.parent = some .directory := by
  unfold Place.parent
  split_ifs with hnames
  · exact ht.top _ hnames
  · refine ht.inside _ (here.names.getLast hnames) .directory ?_
    rw [Place.child, List.dropLast_append_getLast hnames]
    exact h

/-- Every step of the way can be taken, because it is taken in a directory and its name is not too
long, and the way ends in a directory. -/
structure Open (t : FileTree) (here : Place) (steps : List PathStep) : Prop where
  short : ∀ s ∈ steps, s.IsShort
  directory : ∀ front, front <+: steps → t.node? (here.walk front) = some .directory

theorem open_nil_iff {t : FileTree} {here : Place} :
    t.Open here [] ↔ t.node? here = some .directory := by
  constructor
  · exact fun h => h.directory [] List.nil_prefix
  · refine fun h => ⟨nofun, fun front hfront => ?_⟩
    rw [List.prefix_nil.1 hfront]
    exact h

theorem open_cons_iff {t : FileTree} {here : Place} {s : PathStep} {steps : List PathStep} :
    t.Open here (s :: steps) ↔
      t.node? here = some .directory ∧ s.IsShort ∧ t.Open (here.step s) steps := by
  constructor
  · rintro ⟨hshort, hdirectory⟩
    obtain ⟨hs, hshort⟩ := List.forall_mem_cons.1 hshort
    exact ⟨hdirectory [] List.nil_prefix, hs, hshort, fun front hfront =>
      hdirectory (s :: front) (List.cons_prefix_cons.2 ⟨rfl, hfront⟩)⟩
  · rintro ⟨hhere, hs, hshort, hdirectory⟩
    refine ⟨List.forall_mem_cons.2 ⟨hs, hshort⟩, fun front hfront => ?_⟩
    rcases List.prefix_cons_iff.1 hfront with rfl | ⟨rest, rfl, hrest⟩
    · exact hhere
    · exact hdirectory rest hrest

theorem follow_into {t : FileTree} {here : Place} {name : String} {rest : List PathStep}
    (hname : (PathStep.into name).IsShort) :
    t.follow here (.into name :: rest) =
      match t.node? (here.child name) with
      | none => .error .notFound
      | some .directory => t.follow (here.child name) rest
      | some (.file content) =>
        if rest = [] then .ok (here.child name, .file content) else .error .notADirectory := by
  rw [follow, entry?, if_neg (Nat.not_lt.2 hname)]
  rcases t.node? (here.child name) with _ | _ | content <;> rfl

theorem follow_into_tooLong {t : FileTree} {here : Place} {name : String} {rest : List PathStep}
    (hname : ¬(PathStep.into name).IsShort) :
    t.follow here (.into name :: rest) = .error .nameTooLong := by
  rw [follow, entry?, if_pos (Nat.not_le.1 hname)]

/-- What steps lead to stands at the place of the steps; to a directory the way is open. -/
theorem follow_eq_ok {t : FileTree} (ht : t.Sound) {here place : Place} {node : FileNode}
    {steps : List PathStep} (hhere : t.node? here = some .directory)
    (h : t.follow here steps = .ok (place, node)) :
    place = here.walk steps ∧ t.node? place = some node ∧
      (node = .directory → t.Open here steps) := by
  induction steps generalizing here with
  | nil =>
    obtain ⟨rfl, rfl⟩ := Prod.mk.inj (Except.ok.inj h)
    exact ⟨rfl, hhere, fun _ => open_nil_iff.2 hhere⟩
  | cons s steps ih =>
    cases s with
    | up =>
      obtain ⟨hplace, hnode, hopen⟩ := ih (ht.parent hhere) h
      exact ⟨hplace, hnode, fun hdir => open_cons_iff.2 ⟨hhere, trivial, hopen hdir⟩⟩
    | into name =>
      by_cases hname : (PathStep.into name).IsShort
      · rw [follow_into hname] at h
        rcases hchild : t.node? (here.child name) with _ | _ | content
        · rw [hchild] at h
          cases h
        · rw [hchild] at h
          obtain ⟨hplace, hnode, hopen⟩ := ih hchild h
          exact ⟨hplace, hnode, fun hdir => open_cons_iff.2 ⟨hhere, hname, hopen hdir⟩⟩
        · simp only [hchild] at h
          split_ifs at h with hrest
          obtain ⟨rfl, rfl⟩ := Prod.mk.inj (Except.ok.inj h)
          subst hrest
          exact ⟨rfl, hchild, nofun⟩
      · rw [follow_into_tooLong hname] at h
        cases h

/-- Where the way is open, further steps go on from its end. -/
theorem follow_append {t : FileTree} {here : Place} {steps : List PathStep}
    (h : t.Open here steps) (rest : List PathStep) :
    t.follow here (steps ++ rest) = t.follow (here.walk steps) rest := by
  induction steps generalizing here with
  | nil => rfl
  | cons s steps ih =>
    obtain ⟨-, hs, hopen⟩ := open_cons_iff.1 h
    cases s with
    | up => exact ih hopen
    | into name =>
      have hchild : t.node? (here.child name) = some .directory :=
        hopen.directory [] List.nil_prefix
      rw [List.cons_append, follow_into hs, hchild]
      exact ih hopen

theorem follow_of_open {t : FileTree} {here : Place} {steps : List PathStep}
    (h : t.Open here steps) : t.follow here steps = .ok (here.walk steps, .directory) := by
  have hfollow := follow_append h []
  rwa [List.append_nil] at hfollow

/-- Steps with short names fail because something on the way is missing, or because it is a file. -/
theorem follow_eq_error {t : FileTree} {here : Place} {steps : List PathStep} {e : FileError}
    (hshort : ∀ s ∈ steps, s.IsShort) (h : t.follow here steps = .error e) :
    e = .notFound ∨
      ∃ front content, front <+: steps ∧ t.node? (here.walk front) = some (.file content) := by
  induction steps generalizing here with
  | nil => cases h
  | cons s steps ih =>
    obtain ⟨hs, hshort⟩ := List.forall_mem_cons.1 hshort
    have hstep : t.follow (here.step s) steps = .error e → e = .notFound ∨
        ∃ front content, front <+: s :: steps ∧
          t.node? (here.walk front) = some (.file content) := by
      intro herror
      rcases ih hshort herror with hmissing | ⟨front, content, hfront, hfile⟩
      · exact .inl hmissing
      · exact .inr ⟨s :: front, content, List.cons_prefix_cons.2 ⟨rfl, hfront⟩, hfile⟩
    cases s with
    | up => exact hstep h
    | into name =>
      rw [follow_into hs] at h
      rcases hchild : t.node? (here.child name) with _ | _ | content
      · rw [hchild] at h
        exact .inl (Except.error.inj h).symm
      · rw [hchild] at h
        exact hstep h
      · exact .inr ⟨[.into name], content, List.cons_prefix_cons.2 ⟨rfl, List.nil_prefix⟩, hchild⟩

/-- Steps lead to a directory exactly where the way is open. -/
theorem directoryAt_eq_ok_iff {t : FileTree} (ht : t.Sound) {steps : List PathStep}
    {dir : Place} :
    t.directoryAt steps = .ok dir ↔ t.Open {} steps ∧ ({} : Place).walk steps = dir := by
  constructor
  · intro h
    unfold directoryAt at h
    split at h
    · cases h
    · next place hfollow =>
      obtain rfl := Except.ok.inj h
      obtain ⟨hplace, -, hopen⟩ := follow_eq_ok ht (ht.top _ rfl) hfollow
      exact ⟨hopen rfl, hplace.symm⟩
    · cases h
  · rintro ⟨hopen, rfl⟩
    rw [directoryAt, follow_of_open hopen]

/-- There is no directory where short steps lead to because something is missing, or because
something on the way or at its end is a file. -/
theorem directoryAt_eq_error {t : FileTree} (ht : t.Sound) {steps : List PathStep}
    {e : FileError} (hshort : ∀ s ∈ steps, s.IsShort) (h : t.directoryAt steps = .error e) :
    e = .notFound ∨
      ∃ front content, front <+: steps ∧
        t.node? (({} : Place).walk front) = some (.file content) := by
  unfold directoryAt at h
  split at h
  · next error hfollow =>
    obtain rfl := Except.error.inj h
    exact follow_eq_error hshort hfollow
  · cases h
  · next place content hfollow =>
    obtain ⟨rfl, hnode, -⟩ := follow_eq_ok ht (ht.top _ rfl) hfollow
    exact .inr ⟨steps, content, List.prefix_rfl, hnode⟩

end FileTree

end WirelessArchive
