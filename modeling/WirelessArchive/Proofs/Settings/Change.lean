import WirelessArchive.Proofs.Settings.FileTree

/-!
# What file operations change

Making the directories on a way puts directories where nothing was, at places along the way, and
touches nothing else (`Widened`, `Made`).  Putting a file makes the directories on the way to it
first, and then either an error comes up or the place of the path changes (`Attempt`).  Both keep a
tree sound.

Where no file stands along a way of short names, its directories are made without an error
(`createDirectory_ok`).
-/

namespace WirelessArchive

/-- A sequence of operations succeeds if each of them does. -/
theorem bind_eq_ok {α β : Type} {x : Except FileError α} {f : α → Except FileError β} {b : β} :
    (x >>= f) = .ok b ↔ ∃ a, x = .ok a ∧ f a = .ok b := by
  constructor
  · intro h
    rcases x with e | a
    · cases h
    · exact ⟨a, rfl, h⟩
  · rintro ⟨a, rfl, h⟩
    exact h

namespace FileTree

/-! ## Changing a place -/

@[simp]
theorem node?_put_self {t : FileTree} {place : Place} {node : FileNode} :
    (t.put place node).node? place = some node := if_pos rfl

theorem node?_put_of_ne {t : FileTree} {place q : Place} {node : FileNode} (h : q ≠ place) :
    (t.put place node).node? q = t.node? q := if_neg h

/-- A tree stays sound if something is put into a directory and replaces no directory. -/
theorem Sound.put {t : FileTree} (ht : t.Sound) {dir : Place} {name : String} {node : FileNode}
    (hdir : t.node? dir = some .directory) (hold : t.node? (dir.child name) ≠ some .directory) :
    (t.put (dir.child name) node).Sound where
  top p hp := by
    rw [node?_put_of_ne]
    · exact ht.top p hp
    · rintro rfl
      exact absurd hp (Place.names_child_ne_nil dir name)
  inside p name' node' h := by
    have hdirectory : t.node? p = some .directory := by
      by_cases hchild : p.child name' = dir.child name
      · rw [(Place.child_inj.1 hchild).1]
        exact hdir
      · rw [node?_put_of_ne hchild] at h
        exact ht.inside p name' node' h
    rw [node?_put_of_ne]
    · exact hdirectory
    · rintro rfl
      exact hold hdirectory

/-- Directories were made where nothing was, at places of a given kind, and nothing else changed. -/
def Widened (made : Place → Prop) (t t' : FileTree) : Prop :=
  ∀ q, t'.node? q = t.node? q ∨ made q ∧ t.node? q = none ∧ t'.node? q = some .directory

section

variable {made more : Place → Prop} {t t' t'' : FileTree}

theorem Widened.refl (t : FileTree) : Widened made t t := fun _ => .inl rfl

theorem Widened.mono (hmade : ∀ q, made q → more q) (h : Widened made t t') :
    Widened more t t' := fun q => (h q).imp id (And.imp_left (hmade q))

theorem Widened.trans (h : Widened made t t') (h' : Widened made t' t'') :
    Widened made t t'' := by
  intro q
  rcases h q with hq | ⟨hmade, hnone, hq⟩ <;> rcases h' q with hq' | ⟨hmade', hnone', hq'⟩
  · exact .inl (hq'.trans hq)
  · exact .inr ⟨hmade', hq ▸ hnone', hq'⟩
  · exact .inr ⟨hmade, hnone, hq'.trans hq⟩
  · rw [hq] at hnone'
    cases hnone'

theorem Widened.put {place : Place} (hmade : made place) (hnone : t.node? place = none) :
    Widened made t (t.put place .directory) := by
  intro q
  by_cases hq : q = place
  · subst hq
    exact .inr ⟨hmade, hnone, node?_put_self⟩
  · exact .inl (node?_put_of_ne hq)

theorem Widened.directory (h : Widened made t t') {q : Place}
    (hq : t.node? q = some .directory) : t'.node? q = some .directory := by
  rcases h q with hsame | ⟨-, hnone, -⟩
  · exact hsame.trans hq
  · rw [hq] at hnone
    cases hnone

theorem Widened.file_iff (h : Widened made t t') {q : Place} {content : List UInt8} :
    t'.node? q = some (.file content) ↔ t.node? q = some (.file content) := by
  rcases h q with hsame | ⟨-, hnone, hdirectory⟩
  · rw [hsame]
  · simp [hnone, hdirectory]

end

/-- The way stays open where directories stay. -/
theorem Open.mono {t t' : FileTree} {here : Place} {steps : List PathStep}
    (hstay : ∀ q, t.node? q = some .directory → t'.node? q = some .directory)
    (h : t.Open here steps) : t'.Open here steps :=
  ⟨h.short, fun front hfront => hstay _ (h.directory front hfront)⟩

theorem open_concat_iff {t : FileTree} {here : Place} {steps : List PathStep} {name : String} :
    t.Open here (steps ++ [.into name]) ↔
      t.Open here steps ∧ (PathStep.into name).IsShort ∧
        t.node? ((here.walk steps).child name) = some .directory := by
  constructor
  · rintro ⟨hshort, hdirectory⟩
    obtain ⟨hsteps, hname⟩ := List.forall_mem_append.1 hshort
    refine ⟨⟨hsteps, fun front hfront => ?_⟩, hname _ (List.mem_singleton_self _), ?_⟩
    · exact hdirectory front (hfront.trans (List.prefix_append ..))
    · exact Place.walk_concat .. ▸ hdirectory _ List.prefix_rfl
  · rintro ⟨⟨hshort, hdirectory⟩, hname, hend⟩
    refine ⟨List.forall_mem_append.2 ⟨hshort, by simpa using hname⟩, fun front hfront => ?_⟩
    rcases List.prefix_concat_iff.1 hfront with rfl | hfront
    · rw [Place.walk_concat]
      exact hend
    · exact hdirectory front hfront

/-! ## Making directories -/

/-- A path that operations take speaks of an entry of a directory to which the way is open. -/
structure Reaches (t : FileTree) (p : FilePath) (above : List PathStep) (name : String) :
    Prop where
  taken : p.check = .ok ()
  speaks : p.entry? = some (above, name)
  way : t.Open {} above
  short : (PathStep.into name).IsShort

section

variable {t t' : FileTree} {p : FilePath} {above : List PathStep} {name : String}

theorem Reaches.place (h : t.Reaches p above name) :
    p.place = (({} : Place).walk above).child name := by
  rw [FilePath.place, FilePath.steps_of_entry? h.speaks, Place.walk_concat]

theorem Reaches.mono (hstay : ∀ q, t.node? q = some .directory → t'.node? q = some .directory)
    (h : t.Reaches p above name) : t'.Reaches p above name :=
  ⟨h.taken, h.speaks, h.way.mono hstay, h.short⟩

theorem Reaches.directory (h : t.Reaches p above name) :
    t.node? (({} : Place).walk above) = some .directory := h.way.directory above List.prefix_rfl

theorem reaches_of_entry (ht : t.Sound) {dir : Place} {slot : Option FileNode}
    (htaken : p.check = .ok ()) (hspeaks : p.entry? = some (above, name))
    (hdir : t.directoryAt above = .ok dir) (hslot : t.entry? dir name = .ok slot) :
    t.Reaches p above name ∧ dir.child name = p.place ∧ t.node? p.place = slot := by
  obtain ⟨hway, rfl⟩ := (directoryAt_eq_ok_iff ht).1 hdir
  unfold entry? at hslot
  split_ifs at hslot with hlong
  have hreaches : t.Reaches p above name := ⟨htaken, hspeaks, hway, Nat.not_lt.1 hlong⟩
  exact ⟨hreaches, hreaches.place.symm, hreaches.place ▸ Except.ok.inj hslot⟩

theorem Reaches.ancestor (h : t.Reaches p above name) {q : Place} (hq : p.IsAncestor q) :
    t.node? q = some .directory := by
  obtain ⟨front, hfront, rfl⟩ := hq
  rw [FilePath.parent_steps_of_entry? h.speaks] at hfront
  exact h.way.directory front hfront

theorem Reaches.directoryAt_eq (ht : t.Sound) (h : t.Reaches p above name) :
    t.directoryAt above = .ok (({} : Place).walk above) := (directoryAt_eq_ok_iff ht).2 ⟨h.way, rfl⟩

theorem Reaches.entry?_eq (h : t.Reaches p above name) :
    t.entry? (({} : Place).walk above) name = .ok (t.node? p.place) := by
  unfold entry?
  rw [if_neg (Nat.not_lt.2 h.short), h.place]

/-- The file at the place of a path that reaches is what stands at the path. -/
theorem Reaches.nodeAt_of_file (h : t.Reaches p above name) (hbare : p.ending = .bare)
    {content : List UInt8} (hfile : t.node? p.place = some (.file content)) :
    t.nodeAt p = .ok (.file content) := by
  have hfollow : t.follow {} p.steps = .ok (p.place, .file content) := by
    rw [FilePath.steps_of_entry? h.speaks, follow_append h.way, follow_into h.short, ← h.place,
      hfile]
    rfl
  simp only [nodeAt, h.taken, hfollow, if_pos hbare, bind, Except.bind]

/-- A directory is made where a path reaches and nothing stands. -/
theorem makeDirectory_eq_ok_iff (ht : t.Sound) :
    t.makeDirectory p = .ok t' ↔
      (∃ above name, t.Reaches p above name) ∧ t.node? p.place = none ∧
        t.put p.place .directory = t' := by
  constructor
  · intro h
    obtain ⟨_, htaken, h⟩ := bind_eq_ok.1 h
    split at h
    · obtain ⟨dir, -, h⟩ := bind_eq_ok.1 h
      cases h
    · next above name hspeaks =>
      obtain ⟨dir, hdir, h⟩ := bind_eq_ok.1 h
      obtain ⟨slot, hslot, h⟩ := bind_eq_ok.1 h
      obtain ⟨hreaches, hplace, hnode⟩ := reaches_of_entry ht htaken hspeaks hdir hslot
      rcases slot with _ | node
      · exact ⟨⟨above, name, hreaches⟩, hnode, hplace ▸ Except.ok.inj h⟩
      · cases h
  · rintro ⟨⟨above, name, h⟩, hnone, rfl⟩
    simp only [makeDirectory, h.taken, h.speaks, h.directoryAt_eq ht, h.entry?_eq, hnone,
      ← h.place, bind, Except.bind]

/-- A file is put where a path reaches and no directory stands. -/
theorem writeFile_eq_ok_iff (ht : t.Sound) {content : List UInt8} :
    t.writeFile p content = .ok t' ↔
      (∃ above name, t.Reaches p above name) ∧ p.ending ≠ .slash ∧
        t.node? p.place ≠ some .directory ∧ t.put p.place (.file content) = t' := by
  constructor
  · intro h
    obtain ⟨_, htaken, h⟩ := bind_eq_ok.1 h
    split at h
    · obtain ⟨dir, -, h⟩ := bind_eq_ok.1 h
      cases h
    · next above name hspeaks =>
      obtain ⟨dir, hdir, h⟩ := bind_eq_ok.1 h
      split_ifs at h with hslash
      obtain ⟨slot, hslot, h⟩ := bind_eq_ok.1 h
      obtain ⟨hreaches, hplace, hnode⟩ := reaches_of_entry ht htaken hspeaks hdir hslot
      rw [hnode, ← hplace]
      split at h
      · cases h
      · next hnotdir => exact ⟨⟨above, name, hreaches⟩, hslash, hnotdir, Except.ok.inj h⟩
  · rintro ⟨⟨above, name, h⟩, hslash, hnotdir, rfl⟩
    simp only [writeFile, h.taken, h.speaks, h.directoryAt_eq ht, h.entry?_eq, if_neg hslash,
      ← h.place, bind, Except.bind]

/-- A directory stands at a path that operations take exactly where the way to its end is open. -/
theorem isDirectory_iff (ht : t.Sound) :
    t.isDirectory p = true ↔ p.check = .ok () ∧ t.Open {} p.steps := by
  constructor
  · intro h
    unfold isDirectory at h
    split at h
    · next hnode =>
      obtain ⟨_, htaken, hnode⟩ := bind_eq_ok.1 hnode
      obtain ⟨⟨place, node⟩, hfollow, hnode⟩ := bind_eq_ok.1 hnode
      rcases node with _ | content
      · exact ⟨htaken, (follow_eq_ok ht (ht.top _ rfl) hfollow).2.2 rfl⟩
      · dsimp only at hnode
        split_ifs at hnode
        cases hnode
    · cases h
  · rintro ⟨htaken, hopen⟩
    simp only [isDirectory, nodeAt, htaken, follow_of_open hopen, bind, Except.bind]

/-- A path that reaches leads to a directory in the end, unless a file stands there. -/
theorem Reaches.ensureDirectory (ht : t.Sound) (h : t.Reaches p above name)
    (hfile : ∀ content, t.node? p.place ≠ some (.file content)) :
    ∃ t', t.ensureDirectory p = .ok t' := by
  unfold FileTree.ensureDirectory
  split
  · next t' _ => exact ⟨t', rfl⟩
  · next e hmake =>
    rcases hnode : t.node? p.place with _ | _ | content
    · rw [(makeDirectory_eq_ok_iff ht).2 ⟨⟨above, name, h⟩, hnode, rfl⟩] at hmake
      cases hmake
    · refine ⟨t, if_pos ((isDirectory_iff ht).2 ⟨h.taken, ?_⟩)⟩
      rw [FilePath.steps_of_entry? h.speaks, open_concat_iff, ← h.place]
      exact ⟨h.way, h.short, hnode⟩
    · exact absurd hnode (hfile content)

/-- Where no file is in the way, a directory cannot be made only because one before is missing. -/
theorem ensureDirectory_eq_error (ht : t.Sound) (htaken : p.check = .ok ())
    (hspeaks : p.entry? = some (above, name)) (hshort : ∀ s ∈ p.steps, s.IsShort)
    (hclear : ∀ q content, Place.Along p.steps q → t.node? q ≠ some (.file content))
    {e : FileError} (h : t.ensureDirectory p = .error e) : e = .notFound := by
  have hsteps := FilePath.steps_of_entry? hspeaks
  rw [hsteps] at hshort
  obtain ⟨habove, hname⟩ := List.forall_mem_append.1 hshort
  rcases hdir : t.directoryAt above with e' | dir
  · have hmake : t.makeDirectory p = .error e' := by
      simp only [makeDirectory, htaken, hspeaks, hdir, bind, Except.bind]
    rw [FileTree.ensureDirectory, hmake] at h
    simp only at h
    split_ifs at h with hdirectory
    obtain rfl := Except.error.inj h
    rcases directoryAt_eq_error ht habove hdir with hmissing | ⟨front, content, hfront, hfile⟩
    · exact hmissing
    · refine absurd hfile (hclear _ content ⟨front, hfront.trans ?_, rfl⟩)
      exact hsteps ▸ List.prefix_append ..
  · have hreaches : t.Reaches p above name :=
      ⟨htaken, hspeaks, ((directoryAt_eq_ok_iff ht).1 hdir).1, hname _ (List.mem_singleton_self _)⟩
    obtain ⟨t', ht'⟩ := hreaches.ensureDirectory ht fun content =>
      hclear _ content ⟨p.steps, List.prefix_rfl, rfl⟩
    rw [ht'] at h
    cases h

end

/-- Making directories on a way keeps a tree sound and puts directories along the way.  Without an
error, the way is open in the end. -/
structure Made (t : FileTree) (steps : List PathStep) (c : Change) : Prop where
  sound : c.tree.Sound
  widened : t.Widened (Place.Along steps) c.tree
  opened : c.error? = none → c.tree.Open {} steps

section

variable {t t' : FileTree} {p : FilePath}

theorem made_of_error (ht : t.Sound) (steps : List PathStep) (e : FileError) :
    Made t steps { tree := t, error? := some e } :=
  ⟨ht, .refl t, fun h => by cases h⟩

theorem made_of_ensureDirectory (ht : t.Sound) (h : t.ensureDirectory p = .ok t') :
    Made t p.steps { tree := t' } := by
  unfold ensureDirectory at h
  split at h
  · next made hmake =>
    obtain rfl := Except.ok.inj h
    obtain ⟨⟨above, name, hreaches⟩, hnone, rfl⟩ := (makeDirectory_eq_ok_iff ht).1 hmake
    have hwidened : t.Widened (Place.Along p.steps) (t.put p.place .directory) :=
      .put ⟨p.steps, List.prefix_rfl, rfl⟩ hnone
    refine ⟨?_, hwidened, fun _ => ?_⟩
    · rw [hreaches.place] at hnone ⊢
      exact ht.put hreaches.directory (by simp [hnone])
    · rw [FilePath.steps_of_entry? hreaches.speaks, open_concat_iff, ← hreaches.place]
      exact ⟨hreaches.way.mono fun _ => hwidened.directory, hreaches.short, node?_put_self⟩
  · split_ifs at h with hdirectory
    obtain rfl := Except.ok.inj h
    exact ⟨ht, .refl t, fun _ => ((isDirectory_iff ht).1 hdirectory).2⟩

/-- A directory is made after those on the way to it. -/
theorem Made.andThen {before : List PathStep} {c : Change} (h : Made t before c)
    (hbefore : before <+: p.steps) : Made t p.steps (c.andThen (·.ensureDirectory p)) := by
  have hwidened : t.Widened (Place.Along p.steps) c.tree :=
    h.widened.mono fun q hq => hq.mono hbefore
  unfold Change.andThen
  split
  · next e he => exact ⟨h.sound, hwidened, fun hnone => by rw [he] at hnone; cases hnone⟩
  · split
    · next t' hensure =>
      have hmade := made_of_ensureDirectory h.sound hensure
      exact ⟨hmade.sound, hwidened.trans hmade.widened, hmade.opened⟩
    · exact ⟨h.sound, hwidened, fun hnone => by cases hnone⟩

/-- The induction is on the way from its last step, as the directories are tried. -/
theorem createDirectory_made (ht : t.Sound) (ending : PathEnding) (steps : List PathStep) :
    Made t steps.reverse (t.createDirectory ending steps) := by
  induction steps generalizing ending with
  | nil => exact ⟨ht, .refl t, fun _ => open_nil_iff.2 (ht.top _ rfl)⟩
  | cons last before ih =>
    unfold createDirectory
    dsimp only
    split
    · next t' hensure => exact made_of_ensureDirectory ht hensure
    · refine (ih .bare).andThen (p := ⟨(last :: before).reverse, ending⟩) ?_
      rw [List.reverse_cons]
      exact List.prefix_append ..
    · next e _ _ => exact made_of_error ht _ e

theorem createDirectories_made (ht : t.Sound) (p : FilePath) :
    Made t p.steps (t.createDirectories p) := by
  have h := createDirectory_made ht p.ending p.steps.reverse
  rwa [List.reverse_reverse] at h

/-- Directories are made along every way of short names on which no file stands. -/
theorem createDirectory_ok (ht : t.Sound) {steps : List PathStep}
    (htaken : (⟨steps.reverse, .bare⟩ : FilePath).check = .ok ()) (hplain : ∀ s ∈ steps, s ≠ .up)
    (hshort : ∀ s ∈ steps, s.IsShort)
    (hclear : ∀ q content, Place.Along steps.reverse q → t.node? q ≠ some (.file content)) :
    (t.createDirectory .bare steps).error? = none := by
  induction steps with
  | nil => rfl
  | cons last before ih =>
    obtain ⟨hlast, hbefore⟩ := List.forall_mem_cons.1 hplain
    obtain ⟨hlastShort, hbeforeShort⟩ := List.forall_mem_cons.1 hshort
    cases last with
    | up => exact absurd rfl hlast
    | into name =>
    have hfirst : before.reverse <+: (PathStep.into name :: before).reverse := by
      rw [List.reverse_cons]
      exact List.prefix_append ..
    have hspeaks : FilePath.entry? ⟨(.into name :: before).reverse, .bare⟩ =
        some (before.reverse, name) := by
      unfold FilePath.entry?
      simp
    unfold createDirectory
    dsimp only
    split
    · rfl
    · have hmade := createDirectory_made ht .bare before
      have hnone : (t.createDirectory .bare before).error? = none :=
        ih (FilePath.check_of_prefix hfirst htaken) hbefore hbeforeShort fun q content hq =>
          hclear q content (hq.mono hfirst)
      obtain ⟨t', ht'⟩ := Reaches.ensureDirectory hmade.sound
        ⟨htaken, hspeaks, hmade.opened hnone, hlastShort⟩
        fun content hfile =>
          hclear _ content ⟨_, List.prefix_rfl, rfl⟩ (hmade.widened.file_iff.1 hfile)
      simp only [Change.andThen, hnone, ht']
    · next e hmissing herror =>
      refine absurd (ensureDirectory_eq_error ht htaken hspeaks ?_ hclear herror) hmissing
      exact fun s hs => hshort s (List.mem_reverse.1 hs)

/-! ## Putting files -/

/-- A tree that is left by putting a file: directories have been made on the way to it, and then
either an error has come up or the file has been put. -/
structure Attempt (t wide : FileTree) (p : FilePath) (content : List UInt8) (c : Change) :
    Prop where
  sound : wide.Sound
  widened : t.Widened p.IsAncestor wide
  outcome : (∃ e, c = { tree := wide, error? := some e }) ∨
    (∃ above name, wide.Reaches p above name) ∧ wide.node? p.place ≠ some .directory ∧
      c = { tree := wide.put p.place (.file content) }

theorem save_attempt (ht : t.Sound) (p : FilePath) (content : List UInt8) :
    ∃ wide, Attempt t wide p content (t.save p content) := by
  have hmade := createDirectories_made ht p.parent
  refine ⟨(t.createDirectories p.parent).tree, hmade.sound, hmade.widened, ?_⟩
  unfold FileTree.save Change.andThen
  split
  · next e he => exact .inl ⟨e, congrArg (Change.mk _) he⟩
  · split
    · next t' hwrite =>
      obtain ⟨hreaches, -, hnotdir, rfl⟩ := (writeFile_eq_ok_iff hmade.sound).1 hwrite
      exact .inr ⟨hreaches, hnotdir, rfl⟩
    · next e _ => exact .inl ⟨e, rfl⟩

end

end FileTree

end WirelessArchive
