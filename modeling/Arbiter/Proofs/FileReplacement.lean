import Arbiter.Proofs.DiskPaths

/-!
# Replacing a file by way of a draft

Once a draft has taken the place of a file, the new bytes are read under the path of that file, and
whatever stands neither there nor where the draft was written is as it was before.
-/

namespace Arbiter.Disk

variable {d d' d'' : Disk} {path draft : Path} {place place' : Place} {id : FileId}

/-! ## Tidy disks -/

/-- Every file that stands somewhere is on the disk, and it stands nowhere else. -/
structure Tidy (d : Disk) : Prop where
  sound : d.Sound
  distinct : ∀ {place place' : Place} {id : FileId}, d.inode? place = some (.file id) →
    d.inode? place' = some (.file id) → place = place'

/-- No file stands anywhere. -/
def NoFiles (d : Disk) : Prop :=
  ∀ place id, d.inode? place ≠ some (.file id)

theorem NoFiles.tidy (h : d.NoFiles) : d.Tidy where
  sound place id hinode := absurd hinode (h place id)
  distinct hinode := absurd hinode (h _ _)

theorem noFiles_empty : ({} : Disk).NoFiles := by
  intro place id
  cases place with
  | nil => simp [inode?]
  | cons => simp [inode?, OrderedMap.get?_empty]

/-- Without files nothing can be read. -/
theorem NoFiles.read_ne_ok (h : d.NoFiles) (path : Path) (bytes : Bytes) :
    d.read path ≠ .ok bytes := by
  intro hread
  obtain ⟨⟨place, inode⟩, hfind, hread⟩ := bind_eq_ok_iff.1 hread
  cases inode with
  | directory => simp at hread
  | file id => exact h place id (inode_of_find hfind)

theorem Tidy.congr (h : d.Tidy) (hinodes : d'.inodes = d.inodes)
    (hlength : d'.contents.length = d.contents.length) : d'.Tidy where
  sound place id hinode := by
    rw [inode?_congr hinodes] at hinode
    exact hlength ▸ h.sound place id hinode
  distinct hinode hinode' := by
    rw [inode?_congr hinodes] at hinode hinode'
    exact h.distinct hinode hinode'

theorem Tidy.touched (h : d.Tidy) (htouched : Touched id d d') : d'.Tidy :=
  h.congr htouched.inodes htouched.length

theorem Tidy.withNewFile (h : d.Tidy) (hplace : place ≠ []) : (d.withNewFile place).Tidy := by
  have hlength : (d.withNewFile place).contents.length = d.contents.length + 1 := by
    simp [Disk.withNewFile]
  have hcases : ∀ {other : Place} {id : FileId},
      (d.withNewFile place).inode? other = some (.file id) →
        other = place ∧ id = d.contents.length ∨
          other ≠ place ∧ d.inode? other = some (.file id) ∧ id < d.contents.length := by
    intro other id hinode
    rw [inode?_withNewFile hplace] at hinode
    split at hinode
    · exact .inl ⟨‹_›, by simpa using hinode.symm⟩
    · exact .inr ⟨‹_›, hinode, h.sound other id hinode⟩
  constructor
  · intro other id hinode
    rw [hlength]
    rcases hcases hinode with ⟨-, rfl⟩ | ⟨-, -, hid⟩
    · exact Nat.lt_succ_self _
    · exact Nat.lt_succ_of_lt hid
  · intro other other' id hinode hinode'
    rcases hcases hinode with ⟨rfl, hid⟩ | ⟨-, hold, hid⟩ <;>
      rcases hcases hinode' with ⟨rfl, hid'⟩ | ⟨-, hold', hid'⟩
    · rfl
    · exact absurd hid (Nat.ne_of_lt hid')
    · exact absurd hid' (Nat.ne_of_lt hid)
    · exact h.distinct hold hold'

/-- The disk is tidy and has the same directories as before, and the files that stood at some
places are as they were. -/
structure Spares (places : Place → Prop) (d d' : Disk) : Prop where
  tidy : d'.Tidy
  directories : SameDirectories d d'
  files : ∀ {place : Place} {id : FileId}, places place → d.inode? place = some (.file id) →
    d'.inode? place = some (.file id) ∧ d'.content id = d.content id

namespace Spares

variable {places places' : Place → Prop}

theorem trans (h : Spares places d d') (h' : Spares places d' d'') : Spares places d d'' where
  tidy := h'.tidy
  directories := h.directories.trans h'.directories
  files hplace hinode := by
    obtain ⟨hinode', hcontent'⟩ := h.files hplace hinode
    obtain ⟨hinode'', hcontent''⟩ := h'.files hplace hinode'
    exact ⟨hinode'', hcontent''.trans hcontent'⟩

theorem mono (h : Spares places d d') (hplaces : ∀ place, places' place → places place) :
    Spares places' d d' where
  tidy := h.tidy
  directories := h.directories
  files hplace := h.files (hplaces _ hplace)

theorem spend (htidy : d.Tidy) : Spares places d d.spend where
  tidy := htidy.congr rfl rfl
  directories := .of_inodes rfl
  files _ hinode := ⟨hinode, rfl⟩

/-- Changing the contents of a file spares whatever stands elsewhere. -/
theorem of_touched (htidy : d.Tidy) (hinode : d.inode? place = some (.file id))
    (htouched : Touched id d d') : Spares (· ≠ place) d d' where
  tidy := htidy.touched htouched
  directories := .of_inodes htouched.inodes
  files hplace hother := by
    refine ⟨(inode?_congr htouched.inodes _).trans hother, htouched.others ?_⟩
    rintro rfl
    exact hplace (htidy.distinct hother hinode)

end Spares

theorem FileAt.spared {places : Place → Prop} (h : d.FileAt path place id)
    (hspares : Spares places d d') (hplace : places place) :
    d'.FileAt path place id ∧ d'.content id = d.content id := by
  obtain ⟨hinode, hcontent⟩ := hspares.files hplace h.inode
  exact ⟨⟨h.leads.congr hspares.directories, hinode, h.noSlash,
    hspares.tidy.sound place id hinode⟩, hcontent⟩

/-! ## Moving a file -/

/-- A disk whose file at one place was moved to another one. -/
def withMoved (d : Disk) (start goal : Place) (id : FileId) : Disk :=
  { d with inodes := (d.inodes.erase start).insert goal (.file id) }

theorem inode?_withMoved {start goal : Place} (hstart : start ≠ []) (hgoal : goal ≠ [])
    (other : Place) :
    (d.withMoved start goal id).inode? other =
      if other = goal then some (.file id) else if other = start then none
      else d.inode? other := by
  rw [inode?_insert hgoal (d := { d with inodes := d.inodes.erase start }) rfl]
  by_cases hnil : other = []
  · subst hnil
    rw [if_neg (Ne.symm hgoal), if_neg (Ne.symm hgoal), if_neg (Ne.symm hstart)]
    rfl
  · rw [inode?_of_ne_nil hnil, inode?_of_ne_nil hnil, OrderedMap.get?_erase]

/-- Moving a file takes it from where one path leads to where the other one does. -/
theorem perform_move_eq_ok {source target : Path}
    (h : d.perform (move source target) = (.ok (), d')) :
    ∃ start goal id, d.Leads source start ∧ d.Leads target goal ∧ target.endsInSlash = false ∧
      d.inode? start = some (.file id) ∧ d.inode? goal ≠ some .directory ∧
      d' = d.spend.withMoved start goal id := by
  have hchange := perform_attempt_eq_ok h
  obtain ⟨start, hstart, hchange⟩ := bind_eq_ok_iff.1 hchange
  obtain ⟨goal, hgoal, hchange⟩ := bind_eq_ok_iff.1 hchange
  obtain ⟨hnamed, hchange⟩ := ite_else_error_eq_ok.1 hchange
  obtain ⟨hstartNamed, hgoalNamed⟩ : start.named = true ∧ goal.named = true := by
    simpa using hnamed
  obtain ⟨hstartLeads, hstartSpot⟩ := leads_of_locate hstart hstartNamed
  obtain ⟨hgoalLeads, hgoalSpot⟩ := leads_of_locate hgoal hgoalNamed
  have hsame : SameDirectories d.spend d := .of_inodes rfl
  cases hinode : start.inode? with
  | none => simp [hinode] at hchange
  | some inode =>
      rw [hinode] at hchange
      cases inode with
      | directory => simp at hchange
      | file id =>
          obtain ⟨hslash, hchange⟩ := ite_error_eq_ok.1 hchange
          obtain ⟨hdirectory, hchange⟩ := ite_error_eq_ok.1 hchange
          refine ⟨start.place, goal.place, id, hstartLeads.congr hsame, hgoalLeads.congr hsame,
            ?_, ?_, ?_, ?_⟩
          · have hgoalSlash := (not_or.1 (mt Bool.or_eq_true_iff.2 hslash)).2
            rw [hgoalSpot] at hgoalSlash
            exact Bool.eq_false_iff.2 hgoalSlash
          · rw [← inode?_spend, ← hinode, hstartSpot]
          · rw [hgoalSpot] at hdirectory
            exact hdirectory
          · simp only [pure, Except.pure, Except.ok.injEq, Prod.mk.injEq, true_and] at hchange
            exact hchange.symm

theorem SameDirectories.withMoved {start goal : Place} (hstart : start ≠ []) (hgoal : goal ≠ [])
    (hinode : d.inode? start = some (.file id)) (hdirectory : d.inode? goal ≠ some .directory) :
    SameDirectories d (d.withMoved start goal id) := by
  intro other
  rw [inode?_withMoved hstart hgoal]
  by_cases hother : other = goal
  · rw [if_pos hother, hother]
    exact ⟨by simp, fun h => absurd h hdirectory⟩
  · rw [if_neg hother]
    by_cases hother' : other = start
    · rw [if_pos hother', hother', hinode]
      simp
    · rw [if_neg hother']

theorem Tidy.withMoved (h : d.Tidy) {start goal : Place} (hstart : start ≠ []) (hgoal : goal ≠ [])
    (hinode : d.inode? start = some (.file id)) : (d.withMoved start goal id).Tidy := by
  have hcases : ∀ {other : Place} {id' : FileId},
      (d.withMoved start goal id).inode? other = some (.file id') →
        other = goal ∧ id' = id ∨ other ≠ start ∧ d.inode? other = some (.file id') := by
    intro other id' hinode'
    rw [inode?_withMoved hstart hgoal] at hinode'
    split at hinode'
    · exact .inl ⟨‹_›, by simpa using hinode'.symm⟩
    · split at hinode'
      · simp at hinode'
      · exact .inr ⟨‹_›, hinode'⟩
  constructor
  · intro other id' hinode'
    rcases hcases hinode' with ⟨-, rfl⟩ | ⟨-, hold⟩
    · exact h.sound start _ hinode
    · exact h.sound other id' hold
  · intro other other' id' hinode' hinode''
    rcases hcases hinode' with ⟨rfl, hid⟩ | ⟨hne, hold⟩ <;>
      rcases hcases hinode'' with ⟨rfl, hid'⟩ | ⟨hne', hold'⟩
    · rfl
    · exact absurd (h.distinct (hid ▸ hold') hinode) hne'
    · exact absurd (h.distinct (hid' ▸ hold) hinode) hne
    · exact h.distinct hold hold'

/-- Moving a file spares whatever stands at neither end. -/
theorem spares_withMoved (htidy : d.Tidy) {start goal : Place} (hstart : start ≠ [])
    (hgoal : goal ≠ []) (hinode : d.inode? start = some (.file id))
    (hdirectory : d.inode? goal ≠ some .directory) :
    Spares (fun place => place ≠ start ∧ place ≠ goal) d (d.withMoved start goal id) where
  tidy := htidy.withMoved hstart hgoal hinode
  directories := .withMoved hstart hgoal hinode hdirectory
  files := by
    rintro other other' ⟨hother, hother'⟩ hinode'
    rw [inode?_withMoved hstart hgoal, if_neg hother', if_neg hother]
    exact ⟨hinode', rfl⟩

/-! ## Making a file -/

theorem perform_make (d : Disk) (path : Path) :
    d.perform (make path) =
      match d.perform (openOrMake path) with
      | (.error fault, d') => (.error fault, d')
      | (.ok id, d') => (.ok id, d'.withContent id []) := by
  unfold make
  rw [perform_bind]
  rcases d.perform (openOrMake path) with ⟨_ | _, _⟩ <;> rfl

/-- Opening a file spares all files. -/
theorem spares_of_openOrMake (htidy : d.Tidy) (h : d.perform (openOrMake path) = (.ok id, d')) :
    Spares (fun _ => True) d d' := by
  obtain ⟨-, place, hleads, ⟨-, rfl⟩ | ⟨hinode, rfl, rfl⟩⟩ := perform_openOrMake_eq_ok h
  · exact ⟨htidy.congr rfl rfl, .of_inodes rfl, fun _ hother => ⟨hother, rfl⟩⟩
  · refine ⟨Tidy.withNewFile (d := d.spend) (htidy.congr rfl rfl) hleads.ne_nil,
      .withNewFile (d := d.spend) hleads.ne_nil ((inode?_spend d place).trans hinode), ?_⟩
    intro other id' _ hother
    have hne : other ≠ place := by
      rintro rfl
      simp [hinode] at hother
    rw [inode?_withNewFile hleads.ne_nil, if_neg hne]
    exact ⟨hother, content_withNewFile _ _ _⟩

/-- Making a file spares whatever stands elsewhere. -/
theorem perform_make_eq_ok (htidy : d.Tidy) (h : d.perform (make path) = (.ok id, d')) :
    ∃ place, d'.FileAt path place id ∧ d'.content id = [] ∧ Spares (· ≠ place) d d' := by
  rw [perform_make] at h
  cases hopen : d.perform (openOrMake path) with
  | mk result d₁ =>
      rw [hopen] at h
      cases result with
      | error => simp at h
      | ok id₁ =>
          simp only [Prod.mk.injEq, Except.ok.injEq] at h
          obtain ⟨rfl, rfl⟩ := h
          obtain ⟨place, hfile, -⟩ := fileAt_of_openOrMake htidy.sound hopen
          have hopened := spares_of_openOrMake htidy hopen
          have htouched := Touched.withContent id₁ d₁ []
          refine ⟨place, hfile.touched htouched, content_withContent_self hfile.onDisk, ?_⟩
          exact (hopened.mono fun _ _ => trivial).trans
            (.of_touched hopened.tidy hfile.inode htouched)

/-! ## Replacing a file -/

/-- After a replacement the new bytes are read, and everything is spared that stands neither where
the draft was nor where the file is. -/
theorem perform_replace_eq_ok {bytes : Bytes} (htidy : d.Tidy)
    (h : d.perform (replace path draft bytes) = (.ok (), d')) :
    ∃ start goal id, d.Leads draft start ∧ d'.FileAt path goal id ∧ d'.content id = bytes ∧
      Spares (fun place => place ≠ start ∧ place ≠ goal) d d' := by
  obtain ⟨id, d₁, hmake, h⟩ := perform_bind_eq_ok_iff.1 h
  obtain ⟨_, d₂, happend, h⟩ := perform_bind_eq_ok_iff.1 h
  obtain ⟨_, d₃, hsync, hmove⟩ := perform_bind_eq_ok_iff.1 h
  obtain ⟨start, hfile, hempty, hmade⟩ := perform_make_eq_ok htidy hmake
  obtain ⟨htouched, hbytes⟩ := perform_append_eq_ok hfile.onDisk happend
  obtain ⟨result, hsynced⟩ := perform_sync d₂ id
  rw [hsync, Prod.mk.injEq] at hsynced
  obtain ⟨-, rfl⟩ := hsynced
  have hstored : Touched id d₁ d₂.spend := htouched.trans (.spend id d₂)
  have hspared : Spares (· ≠ start) d d₂.spend :=
    hmade.trans (.of_touched hmade.tidy hfile.inode hstored)
  have hfile' := hfile.touched hstored
  obtain ⟨start', goal, id', hstart, hgoal, hslash, hinode, hdirectory, rfl⟩ :=
    perform_move_eq_ok hmove
  obtain rfl := hfile'.leads.unique hstart
  obtain rfl : id' = id := by simpa [hfile'.inode] using hinode.symm
  have hspent : Spares (fun place => place ≠ start ∧ place ≠ goal) d₂.spend d₂.spend.spend :=
    .spend hspared.tidy
  have hmoved := hspent.trans
    (spares_withMoved hspent.tidy hstart.ne_nil hgoal.ne_nil hinode hdirectory)
  refine ⟨start, goal, id', hstart.congr hspared.directories.symm,
    ⟨hgoal.congr hmoved.directories, ?_, hslash, hfile'.onDisk⟩, ?_,
    (hspared.mono fun _ hplace => hplace.1).trans hmoved⟩
  · rw [inode?_withMoved hstart.ne_nil hgoal.ne_nil, if_pos rfl]
  · have hcontent : d₂.content id' = bytes := by rw [hbytes, hempty, List.nil_append]
    exact hcontent

/-! ## Files are not taken from a disk -/

section

variable {ε α β : Type}

/-- Work that takes no file from a disk, even if a name is taken from it. -/
def Grows (work : OnDisk ε α) : Prop :=
  ∀ d : Disk, d.contents.length ≤ (d.perform work).2.contents.length

namespace Grows

theorem le {work : OnDisk ε α} (h : Grows work) {result : Except ε α}
    (hwork : d.perform work = (result, d')) : d.contents.length ≤ d'.contents.length := by
  have hle := h d
  rwa [hwork] at hle

theorem bind {work : OnDisk ε α} {next : α → OnDisk ε β} (h : Grows work)
    (hnext : ∀ a, Grows (next a)) : Grows (work >>= next) := by
  intro d
  rw [perform_bind]
  rcases hwork : d.perform work with ⟨_ | a, d₁⟩
  · exact h.le hwork
  · exact Nat.le_trans (h.le hwork) (hnext a d₁)

theorem of_touched {work : OnDisk ε α} (id : FileId)
    (h : ∀ d : Disk, Touched id d (d.perform work).2) : Grows work :=
  fun d => Nat.le_of_eq (h d).length.symm

/-- A change that is not made takes nothing away. -/
theorem attempt {change : Disk → Except DiskFault (α × Disk)}
    (h : ∀ {d d' : Disk} {a : α}, d.perform (Disk.attempt change) = (.ok a, d') →
      d.contents.length ≤ d'.contents.length) :
    Grows (Disk.attempt change) := by
  intro d
  rcases hresult : d.perform (Disk.attempt change) with ⟨_ | a, d'⟩
  · rw [perform_attempt_eq_error hresult]
    exact Nat.le_refl _
  · exact h hresult

theorem append (id : FileId) (bytes : Bytes) : Grows (Disk.append id bytes) := by
  refine .of_touched id fun d => ?_
  obtain ⟨count, result, happend, -⟩ := perform_append d id bytes
  rw [happend]
  exact (Touched.spend id d).trans (.withContent id _ _)

theorem sync (id : FileId) : Grows (Disk.sync id) := by
  refine .of_touched id fun d => ?_
  obtain ⟨result, hsync⟩ := perform_sync d id
  rw [hsync]
  exact .spend id d

theorem setLength (id : FileId) (length : Nat) : Grows (Disk.setLength id length) := by
  refine .of_touched id fun d => ?_
  rcases perform_setLength d id length with hcut | ⟨fault, hcut⟩ <;> rw [hcut]
  · exact (Touched.spend id d).trans (.withContent id _ _)
  · exact .spend id d

theorem openOrMake (path : Path) : Grows (Disk.openOrMake path) := by
  refine .attempt fun {d d' id} hopen => ?_
  obtain ⟨-, place, -, ⟨-, rfl⟩ | ⟨-, -, rfl⟩⟩ := perform_openOrMake_eq_ok hopen
  · exact Nat.le_refl _
  · simp [withNewFile, spend]

theorem make (path : Path) : Grows (Disk.make path) := by
  intro d
  rw [perform_make]
  rcases hopen : d.perform (Disk.openOrMake path) with ⟨_ | id, d'⟩
  · exact (openOrMake path).le hopen
  · exact Nat.le_trans ((openOrMake path).le hopen)
      (Nat.le_of_eq (Touched.withContent id d' []).length.symm)

theorem move (source target : Path) : Grows (Disk.move source target) := by
  refine .attempt fun {d d' _} hmove => ?_
  obtain ⟨start, goal, id, -, -, -, -, -, rfl⟩ := perform_move_eq_ok hmove
  exact Nat.le_refl _

theorem replace (path draft : Path) (bytes : Bytes) : Grows (Disk.replace path draft bytes) :=
  (make draft).bind fun id => (append id bytes).bind fun _ => (sync id).bind fun _ =>
    move draft path

end Grows

end

end Arbiter.Disk
