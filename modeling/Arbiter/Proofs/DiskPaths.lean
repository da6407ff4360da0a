import Arbiter.OrderedMap.Lookup
import Arbiter.Proofs.DiskWork
import Arbiter.Proofs.Guards

/-!
# Where paths lead while a disk changes

A path is looked up along directories.  Making, writing and moving files leaves the directories as
they are, so a path that ends in a name goes on leading to the same place, and only what stands
there can change.
-/

namespace Arbiter.Disk

variable {d d' d'' : Disk} {path : Path} {place place' : Place} {id : FileId}

/-! ## What stands where -/

theorem inode?_congr (h : d'.inodes = d.inodes) (place : Place) :
    d'.inode? place = d.inode? place := by
  cases place with
  | nil => rfl
  | cons => simp only [inode?, h]

theorem inode?_of_ne_nil (hne : place ≠ []) : d.inode? place = d.inodes.get? place := by
  cases place with
  | nil => exact absurd rfl hne
  | cons => rfl

theorem inode?_insert (hplace : place ≠ []) {inode : Inode}
    (hinodes : d'.inodes = d.inodes.insert place inode) (other : Place) :
    d'.inode? other = if other = place then some inode else d.inode? other := by
  by_cases hnil : other = []
  · subst hnil
    rw [if_neg (Ne.symm hplace)]
    rfl
  · rw [inode?_of_ne_nil hnil, inode?_of_ne_nil hnil, hinodes, OrderedMap.get?_insert]

@[simp]
theorem inode?_spend (d : Disk) (place : Place) : d.spend.inode? place = d.inode? place :=
  inode?_congr rfl place

/-- The same places are directories. -/
def SameDirectories (d d' : Disk) : Prop :=
  ∀ place, d'.inode? place = some .directory ↔ d.inode? place = some .directory

namespace SameDirectories

theorem trans (h : SameDirectories d d') (h' : SameDirectories d' d'') : SameDirectories d d'' :=
  fun place => (h' place).trans (h place)

theorem symm (h : SameDirectories d d') : SameDirectories d' d :=
  fun place => (h place).symm

theorem of_inodes (h : d'.inodes = d.inodes) : SameDirectories d d' := by
  intro place
  rw [inode?_congr h]

theorem insert_file (hplace : place ≠ []) (hinode : d.inode? place ≠ some .directory)
    (hinodes : d'.inodes = d.inodes.insert place (.file id)) :
    SameDirectories d d' := by
  intro other
  rw [inode?_insert hplace hinodes]
  by_cases heq : other = place
  · rw [if_pos heq, heq]
    exact ⟨by simp, fun h => absurd h hinode⟩
  · rw [if_neg heq]

theorem enter (h : SameDirectories d d') {name : String}
    (henter : d.enter place name = .ok place') : d'.enter place name = .ok place' := by
  unfold Disk.enter at henter ⊢
  split
  · simpa [*] using henter
  · split
    · simpa [*] using henter
    · rw [if_neg ‹_›, if_neg ‹_›, ite_error_eq_ok] at henter
      rw [ite_error_eq_ok]
      refine ⟨henter.1, ?_⟩
      have hdirectory : d.inode? (place ++ [name]) = some .directory := by
        have hmatch := henter.2
        split at hmatch <;> simp_all
      simpa [hdirectory, (h _).2 hdirectory] using henter.2

theorem enter_all (h : SameDirectories d d') {names : List String}
    (henter : names.foldlM d.enter place = .ok place') :
    names.foldlM d'.enter place = .ok place' := by
  induction names generalizing place with
  | nil => exact henter
  | cons name names ih =>
      rw [List.foldlM_cons] at henter ⊢
      obtain ⟨next, hname, hnames⟩ := bind_eq_ok_iff.1 henter
      exact bind_eq_ok_iff.2 ⟨next, h.enter hname, ih hnames⟩

theorem approach (h : SameDirectories d d') {goal : Place × Option String}
    (happroach : d.approach path = .ok goal) : d'.approach path = .ok goal := by
  unfold Disk.approach at happroach ⊢
  rw [ite_error_eq_ok, ite_error_eq_ok, ite_error_eq_ok] at happroach ⊢
  obtain ⟨hzero, hempty, hlong, hnames⟩ := happroach
  refine ⟨hzero, hempty, hlong, ?_⟩
  split at hnames
  · exact hnames
  · obtain ⟨next, hbefore, hgoal⟩ := bind_eq_ok_iff.1 hnames
    exact bind_eq_ok_iff.2 ⟨next, h.enter_all hbefore, hgoal⟩

end SameDirectories

/-! ## Paths that end in a name -/

/-- A path ends in a name, and that name belongs to a place. -/
def Leads (d : Disk) (path : Path) (place : Place) : Prop :=
  ∃ before name, d.approach path = .ok (before, some name) ∧ name ≠ "." ∧ name ≠ ".." ∧
    ¬ longestName < name.utf8ByteSize ∧ place = before ++ [name]

theorem Leads.locate (h : d.Leads path place) :
    d.locate path = .ok ⟨place, d.inode? place, true, path.endsInSlash⟩ := by
  obtain ⟨before, name, happroach, hdot, hdots, hlong, rfl⟩ := h
  simp [Disk.locate, happroach, arrive, hdot, hdots, hlong, bind, Except.bind]

theorem Leads.approach (h : d.Leads path place) : ∃ goal, d.approach path = .ok goal := by
  obtain ⟨before, name, happroach, -⟩ := h
  exact ⟨_, happroach⟩

theorem leads_of_locate {spot : Spot} (h : d.locate path = .ok spot) (hnamed : spot.named = true) :
    d.Leads path spot.place ∧ spot = ⟨spot.place, d.inode? spot.place, true, path.endsInSlash⟩ := by
  obtain ⟨⟨before, name⟩, happroach, harrive⟩ := bind_eq_ok_iff.1 h
  cases name with
  | none =>
      obtain rfl : _ = spot := by simpa [pure, Except.pure] using harrive
      simp at hnamed
  | some name =>
      simp only [arrive] at harrive
      split at harrive
      · obtain rfl : _ = spot := by simpa using harrive
        simp at hnamed
      · split at harrive
        · obtain rfl : _ = spot := by simpa using harrive
          simp at hnamed
        · split at harrive
          · simp at harrive
          · obtain rfl : _ = spot := by simpa using harrive
            exact ⟨⟨before, name, happroach, ‹_›, ‹_›, ‹_›, rfl⟩, rfl⟩

theorem Leads.unique (h : d.Leads path place) (h' : d.Leads path place') : place = place' := by
  have heq := h.locate.symm.trans h'.locate
  exact congrArg (fun spot : Except DiskFault Spot => spot.toOption.elim [] Spot.place) heq

theorem Leads.read_of_none (h : d.Leads path place) (hinode : d.inode? place = none) :
    d.read path = .error .notFound := by
  simp [Disk.read, Disk.find, h.locate, hinode, bind, Except.bind, throw, throwThe,
    MonadExceptOf.throw]

theorem Leads.ne_nil (h : d.Leads path place) : place ≠ [] := by
  obtain ⟨before, name, -, -, -, -, rfl⟩ := h
  simp

theorem Leads.congr (hsame : SameDirectories d d') (h : d.Leads path place) :
    d'.Leads path place := by
  obtain ⟨before, name, happroach, hrest⟩ := h
  exact ⟨before, name, hsame.approach happroach, hrest⟩

/-- A path that does not end in a name leads to a directory. -/
theorem directory_of_unnamed {spot : Spot} (h : d.locate path = .ok spot)
    (hnamed : spot.named = false) : spot.inode? = some .directory := by
  obtain ⟨⟨before, name⟩, happroach, harrive⟩ := bind_eq_ok_iff.1 h
  cases name with
  | none =>
      obtain rfl : _ = spot := by simpa [pure, Except.pure] using harrive
      rfl
  | some name =>
      simp only [arrive] at harrive
      split at harrive
      · obtain rfl : _ = spot := by simpa using harrive
        rfl
      · split at harrive
        · obtain rfl : _ = spot := by simpa using harrive
          rfl
        · obtain rfl := Except.ok.inj (ite_error_eq_ok.1 harrive).2
          simp at hnamed

theorem SameDirectories.locate_unnamed (h : SameDirectories d d') {spot : Spot}
    (hlocate : d.locate path = .ok spot) (hnamed : spot.named = false) :
    d'.locate path = .ok spot := by
  obtain ⟨⟨before, name⟩, happroach, harrive⟩ := bind_eq_ok_iff.1 hlocate
  refine bind_eq_ok_iff.2 ⟨_, h.approach happroach, ?_⟩
  cases name with
  | none => exact harrive
  | some name =>
      simp only [arrive] at harrive ⊢
      split
      · simpa [*] using harrive
      · split
        · simpa [*] using harrive
        · rw [if_neg ‹_›, if_neg ‹_›, ite_error_eq_ok] at harrive
          obtain rfl := Except.ok.inj harrive.2
          simp at hnamed

/-- A file that is found stands where it was found. -/
theorem inode_of_find (h : d.find path = .ok (place, .file id)) :
    d.inode? place = some (.file id) := by
  obtain ⟨spot, hlocate, hspot⟩ := bind_eq_ok_iff.1 h
  have hinode : spot.inode? = some (.file id) ∧ spot.place = place := by
    revert hspot
    cases spot.inode? with
    | none => simp
    | some inode =>
        cases inode with
        | directory => simp [pure, Except.pure]
        | file id' =>
            intro hspot
            obtain ⟨-, hspot⟩ := ite_error_eq_ok.1 hspot
            simpa [pure, Except.pure, and_comm] using hspot
  cases hnamed : spot.named with
  | false =>
      rw [directory_of_unnamed hlocate hnamed] at hinode
      simp at hinode
  | true =>
      rw [← hinode.2, ← hinode.1, (leads_of_locate hlocate hnamed).2]

/-- A path under which there is something leads to where something was before, unless something was
put there. -/
theorem holds_of_holds (h : SameDirectories d d')
    (hinode : ∀ place, d.Leads path place → d'.inode? place = d.inode? place)
    (hholds : d'.holds path = true) : d.holds path = true := by
  have hfind : ∃ goal, d'.find path = .ok goal := by
    unfold holds at hholds
    cases hgoal : d'.find path with
    | error => simp [hgoal, Except.isOk, Except.toBool] at hholds
    | ok goal => exact ⟨goal, rfl⟩
  obtain ⟨goal, hgoal⟩ := hfind
  obtain ⟨spot, hlocate, hspot⟩ := bind_eq_ok_iff.1 hgoal
  have hback : d.locate path = .ok spot := by
    cases hnamed : spot.named with
    | false => exact h.symm.locate_unnamed hlocate hnamed
    | true =>
        obtain ⟨hleads, heq⟩ := leads_of_locate hlocate hnamed
        have hleads' := hleads.congr h.symm
        rw [hleads'.locate, ← hinode _ hleads', ← heq]
  have hfound : d.find path = .ok goal := bind_eq_ok_iff.2 ⟨spot, hback, hspot⟩
  simp [holds, hfound, Except.isOk, Except.toBool]

/-! ## Files under a path -/

/-- Every file that stands somewhere is on the disk. -/
def Sound (d : Disk) : Prop :=
  ∀ place id, d.inode? place = some (.file id) → id < d.contents.length

/-- A file stands under a path. -/
structure FileAt (d : Disk) (path : Path) (place : Place) (id : FileId) : Prop where
  leads : d.Leads path place
  inode : d.inode? place = some (.file id)
  noSlash : path.endsInSlash = false
  onDisk : id < d.contents.length

namespace FileAt

theorem find (h : d.FileAt path place id) : d.find path = .ok (place, .file id) := by
  simp [Disk.find, h.leads.locate, h.inode, h.noSlash, bind, Except.bind, pure, Except.pure]

theorem read (h : d.FileAt path place id) : d.read path = .ok (d.content id) := by
  simp [Disk.read, h.find, bind, Except.bind, pure, Except.pure]

theorem length (h : d.FileAt path place id) : d.length path = .ok (d.content id).length := by
  simp [Disk.length, h.find, lengthAt, bind, Except.bind, pure, Except.pure]

theorem touched {other : FileId} (h : d.FileAt path place id) (htouched : Touched other d d') :
    d'.FileAt path place id where
  leads := h.leads.congr (.of_inodes htouched.inodes)
  inode := (inode?_congr htouched.inodes place).trans h.inode
  noSlash := h.noSlash
  onDisk := htouched.length ▸ h.onDisk

end FileAt

theorem fileAt_of_find (hsound : d.Sound) (h : d.find path = .ok (place, .file id)) :
    d.FileAt path place id := by
  have hinode := inode_of_find h
  obtain ⟨spot, hlocate, hspot⟩ := bind_eq_ok_iff.1 h
  cases hthere : spot.inode? with
  | none => simp [hthere] at hspot
  | some inode =>
      cases inode with
      | directory => simp [hthere, pure, Except.pure] at hspot
      | file id' =>
          rw [hthere] at hspot
          obtain ⟨hslash, hspot⟩ := ite_error_eq_ok.1 hspot
          obtain ⟨rfl, -⟩ := Prod.mk.inj (Except.ok.inj hspot)
          have hnamed : spot.named = true := by
            by_contra hunnamed
            rw [directory_of_unnamed hlocate (by simpa using hunnamed)] at hthere
            simp at hthere
          obtain ⟨hleads, heq⟩ := leads_of_locate hlocate hnamed
          rw [heq] at hslash
          exact ⟨hleads, hinode, by simpa using hslash, hsound _ _ hinode⟩

/-- What is read is in a file. -/
theorem fileAt_of_read (hsound : d.Sound) {bytes : Bytes} (h : d.read path = .ok bytes) :
    ∃ place id, d.FileAt path place id ∧ d.content id = bytes := by
  obtain ⟨⟨place, inode⟩, hfind, hread⟩ := bind_eq_ok_iff.1 h
  cases inode with
  | directory => simp at hread
  | file id => exact ⟨place, id, fileAt_of_find hsound hfind, Except.ok.inj hread⟩

/-! ## Opening and making files -/

/-- A disk with a new and empty file at a place. -/
def withNewFile (d : Disk) (place : Place) : Disk :=
  { d with
    inodes := d.inodes.insert place (.file d.contents.length)
    contents := d.contents ++ [[]] }

theorem content_withNewFile (d : Disk) (place : Place) (id : FileId) :
    (d.withNewFile place).content id = d.content id := by
  simp only [content, withNewFile, List.getElem?_append]
  split
  · rfl
  · rename_i hlength
    rw [List.getElem?_eq_none (Nat.not_lt.1 hlength)]
    cases id - d.contents.length <;> rfl

theorem inode?_withNewFile (hplace : place ≠ []) (other : Place) :
    (d.withNewFile place).inode? other =
      if other = place then some (.file d.contents.length) else d.inode? other :=
  inode?_insert hplace rfl other

theorem SameDirectories.withNewFile (hplace : place ≠ []) (hinode : d.inode? place = none) :
    SameDirectories d (d.withNewFile place) :=
  .insert_file hplace (by simp [hinode]) rfl

/-- Opening a file that is there gives it, unless the disk fails. -/
theorem FileAt.perform_openOrMake (h : d.FileAt path place id) :
    d.perform (openOrMake path) = (.ok id, d.spend) ∨
      d.perform (openOrMake path) = (.error .broken, d.spend) ∧ ¬ d.Calm := by
  have hleads : d.spend.Leads path place := h.leads.congr (.of_inodes rfl)
  obtain ⟨goal, happroach⟩ := hleads.approach
  apply perform_attempt_cases
  simp [happroach, hleads.locate, h.noSlash, h.inode, bind, Except.bind, pure, Except.pure]

theorem FileAt.perform_openFile (h : d.FileAt path place id) :
    d.perform (openFile path) = (.ok id, d.spend) ∨
      d.perform (openFile path) = (.error .broken, d.spend) ∧ ¬ d.Calm := by
  have hfind := (h.touched (.spend id d)).find
  apply perform_attempt_cases
  simp [hfind, bind, Except.bind, pure, Except.pure]

/-- Opening a file gives the one under the path, or a new one if there is none. -/
theorem perform_openOrMake_eq_ok (h : d.perform (openOrMake path) = (.ok id, d')) :
    path.endsInSlash = false ∧ ∃ place, d.Leads path place ∧
      (d.inode? place = some (.file id) ∧ d' = d.spend ∨
        d.inode? place = none ∧ id = d.contents.length ∧ d' = d.spend.withNewFile place) := by
  have hchange := perform_attempt_eq_ok h
  obtain ⟨goal, -, hchange⟩ := bind_eq_ok_iff.1 hchange
  obtain ⟨hslash, hchange⟩ := ite_error_eq_ok.1 hchange
  obtain ⟨spot, hlocate, hchange⟩ := bind_eq_ok_iff.1 hchange
  obtain ⟨hnamed, hchange⟩ := ite_error_eq_ok.1 hchange
  obtain ⟨hleads, hspot⟩ := leads_of_locate hlocate (by simpa using hnamed)
  refine ⟨by simpa using hslash, spot.place, hleads.congr (.of_inodes rfl), ?_⟩
  have hinode : spot.inode? = d.inode? spot.place := by
    rw [hspot]
    exact inode?_congr rfl _
  rw [← hinode]
  split at hchange
  · simp at hchange
  · obtain ⟨rfl, rfl⟩ : _ = id ∧ d.spend = d' := by simpa [pure, Except.pure] using hchange
    exact .inl ⟨‹_›, rfl⟩
  · simp only [pure, Except.pure, Except.ok.injEq, Prod.mk.injEq] at hchange
    obtain ⟨rfl, rfl⟩ := hchange
    exact .inr ⟨‹_›, rfl, rfl⟩

theorem content_of_le (hid : d.contents.length ≤ id) : d.content id = [] := by
  simp [content, List.getElem?_eq_none hid]

/-- What was opened is the file that stood there, or else an empty one. -/
theorem fileAt_of_openOrMake (hsound : d.Sound)
    (h : d.perform (openOrMake path) = (.ok id, d')) :
    ∃ place, d'.FileAt path place id ∧ d'.content id = d.content id ∧
      (d.FileAt path place id ∨ d.content id = []) := by
  obtain ⟨hslash, place, hleads, ⟨hinode, rfl⟩ | ⟨hinode, rfl, rfl⟩⟩ :=
    perform_openOrMake_eq_ok h
  · have hfile : d.FileAt path place id := ⟨hleads, hinode, hslash, hsound place id hinode⟩
    exact ⟨place, hfile.touched (.spend id d), rfl, .inl hfile⟩
  · have hsame : SameDirectories d (d.spend.withNewFile place) :=
      .withNewFile (d := d.spend) hleads.ne_nil ((inode?_spend d place).trans hinode)
    refine ⟨place, ⟨hleads.congr hsame, ?_, hslash, ?_⟩, content_withNewFile _ _ _,
      .inr (content_of_le Nat.le.refl)⟩
    · rw [inode?_withNewFile hleads.ne_nil, if_pos rfl]
      rfl
    · simp [withNewFile, spend]

end Arbiter.Disk
