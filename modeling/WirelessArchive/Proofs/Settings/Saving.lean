import WirelessArchive.Settings.Store
import WirelessArchive.Proofs.Settings.Change
import WirelessArchive.Proofs.Settings.FileText

/-!
# What saving settings changes

Files are changed by putting them, and putting a file makes the directories on the way to it.  So
over any run of file operations directories stay, and a file changes only by a step that is aimed at
it (`Framed`).  Saving settings either succeeds, and then a file with their text stands at the path
and the tree is known at every other place (`Saved`), or it is refused, and then all files are as
before (`Refused`).  It is refused exactly if the path is not a path for files, or a file is in the
way, or the path is a directory.
-/

namespace WirelessArchive

/-! ## Paths of files -/

/-- The path leads down by names, and speaks of an entry that may be a file. -/
structure FilePath.IsPlain (p : FilePath) : Prop where
  bare : p.ending = .bare
  nonempty : p.steps ≠ []
  down : ∀ s ∈ p.steps, s ≠ .up

/-- The path and its names are such as operations take: not too long, and without the NUL
character. -/
structure FilePath.IsAdmissible (p : FilePath) : Prop where
  taken : p.check = .ok ()
  short : ∀ s ∈ p.steps, s.IsShort

theorem FilePath.IsPlain.entry? {p : FilePath} (h : p.IsPlain) :
    ∃ name, p.entry? = some (p.parent.steps, name) := by
  have hlast : p.steps.getLast? = some (p.steps.getLast h.nonempty) :=
    List.getLast?_eq_some_getLast h.nonempty
  rcases hstep : p.steps.getLast h.nonempty with name | _
  · refine ⟨name, ?_⟩
    unfold FilePath.entry?
    rw [hlast, hstep, h.bare]
    rfl
  · exact absurd hstep (h.down _ (List.getLast_mem h.nonempty))

theorem Place.length_names_walk {here : Place} {steps : List PathStep}
    (hdown : ∀ s ∈ steps, s ≠ .up) :
    (here.walk steps).names.length = here.names.length + steps.length := by
  induction steps generalizing here with
  | nil => rfl
  | cons s steps ih =>
    obtain ⟨hs, hrest⟩ := List.forall_mem_cons.1 hdown
    cases s with
    | up => exact absurd rfl hs
    | into name =>
      rw [walk_cons, ih hrest]
      simp only [step, child, List.length_append, List.length_cons, List.length_nil]
      omega

/-- A path that leads down does not pass the place that it speaks of. -/
theorem FilePath.IsPlain.not_isAncestor_place {p : FilePath} (h : p.IsPlain) :
    ¬p.IsAncestor p.place := by
  rintro ⟨front, hfront, hplace⟩
  have hsub : ∀ s ∈ front, s ≠ .up := fun s hs =>
    h.down s (List.dropLast_subset _ (hfront.subset hs))
  have hlength := congrArg (fun q => q.names.length) hplace
  simp only [FilePath.place, Place.length_names_walk hsub, Place.length_names_walk h.down]
    at hlength
  have hle : front.length ≤ p.steps.length - 1 := by
    simpa [FilePath.parent] using hfront.length_le
  have := List.length_pos_iff.2 h.nonempty
  omega

namespace FileTree

variable {t t' t'' wide : FileTree} {own more : Place → Prop}

/-! ## Frames -/

/-- Directories stay, and the files outside `own` are the same. -/
structure Framed (own : Place → Prop) (t t' : FileTree) : Prop where
  directories : ∀ q, t.node? q = some .directory → t'.node? q = some .directory
  files : ∀ q, ¬own q → ∀ content,
    t'.node? q = some (.file content) ↔ t.node? q = some (.file content)

theorem Framed.refl (t : FileTree) : Framed own t t := ⟨fun _ => id, fun _ _ _ => Iff.rfl⟩

theorem Framed.mono (hown : ∀ q, own q → more q) (h : Framed own t t') : Framed more t t' :=
  ⟨h.directories, fun q hq => h.files q (mt (hown q) hq)⟩

theorem Framed.trans (h : Framed own t t') (h' : Framed own t' t'') : Framed own t t'' :=
  ⟨fun q hq => h'.directories q (h.directories q hq),
    fun q hq content => (h'.files q hq content).trans (h.files q hq content)⟩

theorem Framed.of_widened {made : Place → Prop} (h : t.Widened made t') : Framed own t t' :=
  ⟨fun _ => h.directory, fun _ _ _ => h.file_iff⟩

theorem Framed.put {place : Place} {content : List UInt8} (hown : own place)
    (hnotdir : t.node? place ≠ some .directory) : Framed own t (t.put place (.file content)) where
  directories q hq := by
    rw [node?_put_of_ne]
    · exact hq
    · rintro rfl
      exact hnotdir hq
  files q hq content' := by
    rw [node?_put_of_ne]
    rintro rfl
    exact hq hown

theorem Attempt.sound_tree {p : FilePath} {content : List UInt8} {c : Change}
    (h : Attempt t wide p content c) : c.tree.Sound := by
  rcases h.outcome with ⟨e, rfl⟩ | ⟨⟨above, name, hreaches⟩, hnotdir, rfl⟩
  · exact h.sound
  · rw [hreaches.place] at hnotdir ⊢
    exact h.sound.put hreaches.directory hnotdir

theorem Attempt.framed {p : FilePath} {content : List UInt8} {c : Change}
    (h : Attempt t wide p content c) : Framed (· = p.place) t c.tree := by
  rcases h.outcome with ⟨e, rfl⟩ | ⟨-, hnotdir, rfl⟩
  · exact .of_widened h.widened
  · exact (Framed.of_widened h.widened).trans (.put rfl hnotdir)

end FileTree

/-! ## Runs of file operations -/

/-- An operation on a tree of files. -/
inductive FileStep where
  /-- Puts a file, with the directories on the way to it. -/
  | write (path : FilePath) (content : List UInt8)
  /-- Makes a directory, with those on the way to it. -/
  | mkdir (path : FilePath)
  | save (path : FilePath) (settings : Settings)
  | load (path : FilePath)

namespace FileStep

/-- The tree that a step leaves, and its answer. -/
def run (t : FileTree) : FileStep → FileTree × Except ArchiveError (Option Settings)
  | write path content => answer (t.save path content)
  | mkdir path => answer (t.createDirectories path)
  | save path settings => ((settings.save t path).1, (settings.save t path).2.map fun _ => none)
  | load path => (t, (Settings.loadOrDefault t path).map some)
where
  answer (c : FileTree.Change) : FileTree × Except ArchiveError (Option Settings) :=
    (c.tree, match c.error? with
      | none => .ok none
      | some e => .error (.file e.message))

/-- The place of the file that a step is aimed at. -/
def target? : FileStep → Option Place
  | write path _ | save path _ => some path.place
  | mkdir _ | load _ => none

/-- The step loads settings. -/
def isLoad : FileStep → Bool
  | load _ => true
  | _ => false

end FileStep

theorem Settings.save_fst (settings : Settings) (t : FileTree) (p : FilePath) :
    (settings.save t p).1 = (t.save p settings.fileText).tree := by
  unfold save
  dsimp only
  split <;> rfl

namespace FileTree

variable {t : FileTree}

/-- A step keeps a tree sound and changes no file but the one it is aimed at. -/
theorem Sound.run (ht : t.Sound) (s : FileStep) :
    (s.run t).1.Sound ∧ Framed (fun q => s.target? = some q) t (s.run t).1 := by
  have hput (p : FilePath) (content : List UInt8) :
      (t.save p content).tree.Sound ∧
        Framed (fun q => some p.place = some q) t (t.save p content).tree := by
    obtain ⟨wide, hattempt⟩ := save_attempt ht p content
    exact ⟨hattempt.sound_tree, hattempt.framed.mono fun q hq => congrArg some hq.symm⟩
  cases s with
  | write p content => exact hput p content
  | mkdir p =>
    have hmade := createDirectories_made ht p
    exact ⟨hmade.sound, .of_widened hmade.widened⟩
  | save p settings =>
    rw [FileStep.run, Settings.save_fst]
    exact hput p settings.fileText
  | load p => exact ⟨ht, .refl t⟩

/-- The tree after a run of steps. -/
def after (t : FileTree) (steps : List FileStep) : FileTree :=
  steps.foldl (fun t s => (s.run t).1) t

theorem after_append (t : FileTree) (a b : List FileStep) :
    t.after (a ++ b) = (t.after a).after b := List.foldl_append

/-- A run keeps a tree sound and changes no file but those that its steps are aimed at. -/
theorem Sound.after (ht : t.Sound) (steps : List FileStep) :
    (t.after steps).Sound ∧
      Framed (fun q => ∃ s ∈ steps, s.target? = some q) t (t.after steps) := by
  induction steps generalizing t with
  | nil => exact ⟨ht, .refl t⟩
  | cons s steps ih =>
    obtain ⟨hstep, hframe⟩ := ht.run s
    obtain ⟨hsound, hframes⟩ := ih hstep
    refine ⟨hsound, (hframe.mono fun q hq => ?_).trans (hframes.mono fun q hq => ?_)⟩
    · exact ⟨s, List.mem_cons_self, hq⟩
    · obtain ⟨s', hs', hq⟩ := hq
      exact ⟨s', List.mem_cons_of_mem s hs', hq⟩

/-- The tree after a run is the one after the run without its loads. -/
theorem after_filter (t : FileTree) (steps : List FileStep) :
    t.after (steps.filter (!·.isLoad)) = t.after steps := by
  induction steps generalizing t with
  | nil => rfl
  | cons s steps ih => cases s <;> exact ih _

end FileTree

/-! ## Saving settings -/

/-- The tree after settings were saved: a file that holds them stands at the path and lasts until a
step is aimed at it, all ancestors of the path are directories, and all else is as before. -/
structure Saved (settings : Settings) (p : FilePath) (t t' : FileTree) : Prop where
  file : ∃ content, settings.HeldIn content ∧ t'.node? p.place = some (.file content) ∧
    ∀ later : List FileStep, (∀ s ∈ later, s.target? ≠ some p.place) →
      (t'.after later).nodeAt p = .ok (.file content)
  ancestors : ∀ q, p.IsAncestor q →
    (t.node? q = none ∨ t.node? q = some .directory) ∧ t'.node? q = some .directory
  others : ∀ q, q ≠ p.place → ¬p.IsAncestor q → t'.node? q = t.node? q

/-- The tree after settings were refused with an error: the files are as before, and nothing is new
but directories that were missing on the way to the path. -/
structure Refused (p : FilePath) (t t' : FileTree) (e : ArchiveError) : Prop where
  reason : ∃ reason : FileError, e = .file reason.message
  files : ∀ q content, t'.node? q = some (.file content) ↔ t.node? q = some (.file content)
  widened : t.Widened p.IsAncestor t'

/-- A path has no place for a file: it is not one that operations take, or an ancestor of it is a
file, or it is a directory. -/
def FileTree.Bars (t : FileTree) (p : FilePath) : Prop :=
  ¬p.IsAdmissible ∨ (∃ q content, p.IsAncestor q ∧ t.node? q = some (.file content)) ∨
    t.node? p.place = some .directory

section

variable {t t' : FileTree} {p : FilePath} {settings : Settings}

theorem Settings.save_of_error {e : FileError}
    (h : t.save p settings.fileText = { tree := t', error? := some e }) :
    settings.save t p = (t', .error (.file e.message)) := by
  rw [save, h]

theorem Settings.save_of_ok (h : t.save p settings.fileText = { tree := t' }) :
    settings.save t p = (t', .ok ()) := by
  rw [save, h]

theorem saved_of_save (ht : t.Sound) (hp : p.IsPlain) (h : (settings.save t p).2 = .ok ()) :
    Saved settings p t (settings.save t p).1 := by
  obtain ⟨wide, hattempt⟩ := FileTree.save_attempt ht p settings.fileText
  rcases hattempt.outcome with ⟨e, he⟩ | ⟨⟨above, name, hreaches⟩, hnotdir, hok⟩
  · rw [Settings.save_of_error he] at h
    simp at h
  rw [Settings.save_of_ok hok]
  have hsound : (wide.put p.place (.file settings.fileText)).Sound := by
    simpa only [hok] using hattempt.sound_tree
  have hput : FileTree.Framed (· = p.place) wide (wide.put p.place (.file settings.fileText)) :=
    .put rfl hnotdir
  constructor
  case file =>
    refine ⟨_, settings.heldIn_fileText, FileTree.node?_put_self, fun later hlater => ?_⟩
    have hframed := (hsound.after later).2
    have hreaches := (hreaches.mono hput.directories).mono hframed.directories
    refine hreaches.nodeAt_of_file hp.bare ((hframed.files _ ?_ _).2 FileTree.node?_put_self)
    rintro ⟨s, hs, htarget⟩
    exact hlater s hs htarget
  case ancestors =>
    intro q hq
    have hdir := hreaches.ancestor hq
    refine ⟨?_, hput.directories q hdir⟩
    rcases hattempt.widened q with hsame | ⟨-, hnone, -⟩
    · exact .inr (hsame ▸ hdir)
    · exact .inl hnone
  case others =>
    intro q hne hq
    rw [FileTree.node?_put_of_ne hne]
    rcases hattempt.widened q with hsame | ⟨hancestor, -⟩
    · exact hsame
    · exact absurd hancestor hq

theorem refused_of_save (ht : t.Sound) {e : ArchiveError}
    (h : (settings.save t p).2 = .error e) : Refused p t (settings.save t p).1 e := by
  obtain ⟨wide, hattempt⟩ := FileTree.save_attempt ht p settings.fileText
  rcases hattempt.outcome with ⟨reason, he⟩ | ⟨-, -, hok⟩
  · rw [Settings.save_of_error he] at h ⊢
    exact ⟨⟨reason, (Except.error.inj h).symm⟩, fun _ _ => hattempt.widened.file_iff,
      hattempt.widened⟩
  · rw [Settings.save_of_ok hok] at h
    simp at h

/-- Where nothing bars it, a file is put. -/
theorem FileTree.save_ok (ht : t.Sound) (hp : p.IsPlain) (hbars : ¬t.Bars p)
    (content : List UInt8) : ∃ t', t.save p content = { tree := t' } := by
  simp only [Bars, not_or, not_not] at hbars
  obtain ⟨hadmissible, hclear, hnotdir⟩ := hbars
  obtain ⟨name, hspeaks⟩ := hp.entry?
  have hsteps := FilePath.steps_of_entry? hspeaks
  have hfirst : p.parent.steps <+: p.steps := List.dropLast_prefix _
  have hmade := createDirectories_made ht p.parent
  have hnone : (t.createDirectories p.parent).error? = none := by
    refine createDirectory_ok ht ?_ (fun s hs => ?_) (fun s hs => ?_) fun q content hq hfile => ?_
    · rw [List.reverse_reverse]
      exact FilePath.check_of_prefix hfirst hadmissible.taken
    · exact hp.down s (hfirst.subset (List.mem_reverse.1 hs))
    · exact hadmissible.short s (hfirst.subset (List.mem_reverse.1 hs))
    · rw [List.reverse_reverse] at hq
      exact hclear ⟨q, content, hq, hfile⟩
  have hreaches : (t.createDirectories p.parent).tree.Reaches p p.parent.steps name :=
    ⟨hadmissible.taken, hspeaks, hmade.opened hnone, hadmissible.short _ (by simp [hsteps])⟩
  have hplace : (t.createDirectories p.parent).tree.node? p.place ≠ some .directory := by
    rcases hmade.widened p.place with hsame | ⟨hancestor, -⟩
    · rw [hsame]
      exact hnotdir
    · exact absurd hancestor hp.not_isAncestor_place
  have hwrite : (t.createDirectories p.parent).tree.writeFile p content =
      .ok ((t.createDirectories p.parent).tree.put p.place (.file content)) :=
    (writeFile_eq_ok_iff hmade.sound).2 ⟨⟨_, name, hreaches⟩, by simp [hp.bare], hplace, rfl⟩
  refine ⟨(t.createDirectories p.parent).tree.put p.place (.file content), ?_⟩
  simp only [FileTree.save, Change.andThen, hnone, hwrite]

/-- Settings are refused exactly where the tree bars the path. -/
theorem save_refused_iff (ht : t.Sound) (hp : p.IsPlain) :
    (∃ e, (settings.save t p).2 = .error e) ↔ t.Bars p := by
  constructor
  · rintro ⟨e, h⟩
    by_contra hbars
    obtain ⟨t', hok⟩ := FileTree.save_ok ht hp hbars settings.fileText
    rw [Settings.save_of_ok hok] at h
    simp at h
  · intro hbars
    obtain ⟨wide, hattempt⟩ := FileTree.save_attempt ht p settings.fileText
    rcases hattempt.outcome with ⟨reason, he⟩ | ⟨⟨above, name, hreaches⟩, hnotdir, -⟩
    · exact ⟨_, congrArg Prod.snd (Settings.save_of_error he)⟩
    rcases hbars with hinadmissible | ⟨q, content, hq, hfile⟩ | hdir
    · refine absurd ⟨hreaches.taken, ?_⟩ hinadmissible
      rw [FilePath.steps_of_entry? hreaches.speaks]
      exact List.forall_mem_append.2 ⟨hreaches.way.short, by simpa using hreaches.short⟩
    · have hdir := hreaches.ancestor hq
      rw [hattempt.widened.file_iff.2 hfile] at hdir
      simp at hdir
    · exact absurd (hattempt.widened.directory hdir) hnotdir

/-- What settings do to the files that a run has left. -/
structure SettingsFramed (t : FileTree) (p : FilePath) (settings : Settings) : Prop where
  saved : (settings.save t p).2 = .ok () → Saved settings p t (settings.save t p).1
  refused : ∀ e, (settings.save t p).2 = .error e → Refused p t (settings.save t p).1 e
  refused_iff : (∃ e, (settings.save t p).2 = .error e) ↔ t.Bars p

end

/-- Over a run of file operations that starts with nothing, loads leave no trace, and each part of
the run changes no file but those that its steps are aimed at.  Settings that are saved after the
run change no file but their own, and settings that are refused change none. -/
theorem settings_framed (steps : List FileStep) {p : FilePath} (hp : p.IsPlain)
    (settings : Settings) :
    FileTree.empty.after (steps.filter (!·.isLoad)) = FileTree.empty.after steps ∧
    (∀ before later, steps = before ++ later →
      FileTree.Framed (fun q => ∃ s ∈ later, s.target? = some q) (FileTree.empty.after before)
        (FileTree.empty.after steps)) ∧
    SettingsFramed (FileTree.empty.after steps) p settings := by
  have hsound : (FileTree.empty.after steps).Sound := (FileTree.sound_empty.after steps).1
  refine ⟨FileTree.after_filter _ steps, ?_, ?_⟩
  · rintro before later rfl
    rw [FileTree.after_append]
    exact ((FileTree.sound_empty.after before).1.after later).2
  · exact ⟨saved_of_save hsound hp, fun e => refused_of_save hsound, save_refused_iff hsound hp⟩

/-- Operations that leave a file `f`, and a directory `d` with settings in it. -/
def collidingSteps : List FileStep :=
  [.write (FilePath.ofText "f") [0x78], .mkdir (FilePath.ofText "d/e"),
    .save (FilePath.ofText "d/s.json") {}, .load (FilePath.ofText "f")]

/-- Settings are saved in a new directory beside those of the run, and refused below its file. -/
theorem settings_framed_collidingSteps :
    let t := FileTree.empty.after collidingSteps
    let free : FilePath := ⟨[.into "d", .into "g", .into "s.json"], .bare⟩
    let barred : FilePath := ⟨[.into "f", .into "g", .into "s.json"], .bare⟩
    (Settings.save {} t free).2 = .ok () ∧ Saved {} free t (Settings.save {} t free).1 ∧
    (Settings.save {} t barred).2 = .error (.file "Not a directory (os error 20)") ∧
    Refused barred t (Settings.save {} t barred).1 (.file "Not a directory (os error 20)") := by
  intro t free barred
  have hfree : SettingsFramed t free {} :=
    (settings_framed collidingSteps ⟨rfl, by simp [free], by simp [free]⟩ {}).2.2
  have hbarred : SettingsFramed t barred {} :=
    (settings_framed collidingSteps ⟨rfl, by simp [barred], by simp [barred]⟩ {}).2.2
  have hsaved : (Settings.save {} t free).2 = .ok () := by decide +kernel
  have hrefused : (Settings.save {} t barred).2 =
      .error (.file "Not a directory (os error 20)") := by decide +kernel
  exact ⟨hsaved, hfree.saved hsaved, hrefused, hbarred.refused _ hrefused⟩

end WirelessArchive
