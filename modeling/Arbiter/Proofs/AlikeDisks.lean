import Arbiter.Proofs.FileReplacement

/-!
# Disks that are alike

Work on a disk that leaves the files at some places as they are neither takes anything away there
nor puts anything there.  So the same is found under every path that leads to such a place, be it a
file, a directory or nothing.
-/

namespace Arbiter.Disk

variable {d d' d'' : Disk} {path : Path} {place : Place} {id : FileId}
  {places : Place → Prop}

theorem Touched.symm (h : Touched id d d') : Touched id d' d where
  inodes := h.inodes.symm
  length := h.length.symm
  others hne := (h.others hne).symm

/-- The same directories are on both disks, and at some places the same files. -/
structure Alike (places : Place → Prop) (d d' : Disk) : Prop where
  forth : Spares places d d'
  back : Spares places d' d

/-- The same is found under a path, and if it is a file, it has the same contents. -/
structure SameUnder (path : Path) (d d' : Disk) : Prop where
  holds : d'.holds path = d.holds path
  read : ∀ bytes, d'.read path = .ok bytes ↔ d.read path = .ok bytes

theorem SameUnder.refl (path : Path) (d : Disk) : SameUnder path d d :=
  ⟨rfl, fun _ => Iff.rfl⟩

/-- Where nothing is found on either disk, the same is found. -/
theorem SameUnder.of_not_holds (htidy : d.Tidy) (htidy' : d'.Tidy) (hfree : d.holds path = false)
    (hfree' : d'.holds path = false) : SameUnder path d d' := by
  have hread : ∀ {d : Disk}, d.Tidy → d.holds path = false → ∀ bytes, d.read path ≠ .ok bytes := by
    intro d htidy hfree bytes hbytes
    obtain ⟨place, id, hfile, -⟩ := fileAt_of_read htidy.sound hbytes
    simp [Disk.holds, hfile.find, Except.isOk, Except.toBool] at hfree
  refine ⟨hfree'.trans hfree.symm, fun bytes => ⟨fun hbytes => ?_, fun hbytes => ?_⟩⟩
  · exact absurd hbytes (hread htidy' hfree' bytes)
  · exact absurd hbytes (hread htidy hfree bytes)

/-- As long as no names change, nothing is found where nothing was found. -/
theorem sameUnder_of_inodes (htidy : d.Tidy) (htouched : Touched id d d')
    (hfree : d.holds path = false) : SameUnder path d d' := by
  refine .of_not_holds htidy (htidy.touched htouched) hfree ?_
  by_contra hholds
  have hback := holds_of_holds (.of_inodes htouched.inodes)
    (fun place _ => inode?_congr htouched.inodes place) (by simpa using hholds)
  rw [hback] at hfree
  cases hfree

/-- A path that ends in a slash does not lead to a file. -/
theorem holds_of_slash (hleads : d.Leads path place) (hslash : path.endsInSlash = true)
    (hinode : d.inode? place ≠ some .directory) : d.holds path = false := by
  cases hthere : d.inode? place with
  | none =>
      simp [holds, Disk.find, hleads.locate, hthere, bind, Except.bind, throw, throwThe,
        MonadExceptOf.throw, Except.isOk, Except.toBool]
  | some inode =>
      cases inode with
      | directory => exact absurd hthere hinode
      | file id =>
          simp [holds, Disk.find, hleads.locate, hthere, hslash, bind, Except.bind, throw,
            throwThe, MonadExceptOf.throw, Except.isOk, Except.toBool]

namespace Alike

theorem trans (h : Alike places d d') (h' : Alike places d' d'') : Alike places d d'' :=
  ⟨h.forth.trans h'.forth, h'.back.trans h.back⟩

theorem inode?_eq (h : Alike places d d') (hplace : places place) :
    d'.inode? place = d.inode? place := by
  cases hinode : d.inode? place with
  | none =>
      cases hinode' : d'.inode? place with
      | none => rfl
      | some inode =>
          cases inode with
          | directory => rw [(h.forth.directories place).1 hinode'] at hinode; cases hinode
          | file id => rw [(h.back.files hplace hinode').1] at hinode; cases hinode
  | some inode =>
      cases inode with
      | directory => exact (h.forth.directories place).2 hinode
      | file id => exact (h.forth.files hplace hinode).1

/-! ## Changes of one file -/

/-- Changing the contents of a file leaves the others as they are. -/
theorem of_touched (htidy : d.Tidy) (hinode : d.inode? place = some (.file id))
    (htouched : Touched id d d') : Alike (· ≠ place) d d' where
  forth := .of_touched htidy hinode htouched
  back := by
    have hinode' : d'.inode? place = some (.file id) :=
      (inode?_congr htouched.inodes place).trans hinode
    exact .of_touched (htidy.touched htouched) hinode' htouched.symm

theorem of_content (htidy : d.Tidy) (htouched : Touched id d d')
    (hcontent : d'.content id = d.content id) : Alike places d d' := by
  have hall : ∀ other, d'.content other = d.content other := by
    intro other
    by_cases heq : other = id
    · rw [heq, hcontent]
    · exact htouched.others heq
  constructor
  · refine ⟨htidy.touched htouched, .of_inodes htouched.inodes, fun _ hinode => ⟨?_, hall _⟩⟩
    exact (inode?_congr htouched.inodes _).trans hinode
  · refine ⟨htidy, .of_inodes htouched.inodes.symm, fun _ hinode => ⟨?_, (hall _).symm⟩⟩
    exact (inode?_congr htouched.inodes.symm _).trans hinode

theorem spend (htidy : d.Tidy) : Alike places d d.spend :=
  of_content htidy (.spend 0 d) rfl

theorem withNewFile (htidy : d.Tidy) (hplace : place ≠ []) (hinode : d.inode? place = none) :
    Alike (· ≠ place) d (d.withNewFile place) := by
  have hsame := SameDirectories.withNewFile hplace hinode
  have hother : ∀ {other}, other ≠ place →
      (d.withNewFile place).inode? other = d.inode? other := by
    intro other hne
    rw [inode?_withNewFile hplace, if_neg hne]
  constructor
  · refine ⟨htidy.withNewFile hplace, hsame, fun hne hinode => ?_⟩
    exact ⟨(hother hne).trans hinode, content_withNewFile _ _ _⟩
  · refine ⟨htidy, hsame.symm, fun hne hinode => ?_⟩
    exact ⟨(hother hne).symm.trans hinode, (content_withNewFile _ _ _).symm⟩

/-- Opening a file leaves all others as they are; it is the one that stood there or an empty one. -/
theorem of_openOrMake (htidy : d.Tidy) (h : d.perform (openOrMake path) = (.ok id, d')) :
    ∃ place, d'.FileAt path place id ∧ Alike (· ≠ place) d d' ∧ d'.content id = d.content id ∧
      (d.FileAt path place id ∨ d.content id = []) := by
  obtain ⟨place, hfile, hcontent, hbefore⟩ := fileAt_of_openOrMake htidy.sound h
  refine ⟨place, hfile, ?_, hcontent, hbefore⟩
  obtain ⟨-, place', hleads, ⟨-, rfl⟩ | ⟨hinode, -, rfl⟩⟩ := perform_openOrMake_eq_ok h
  · exact spend htidy
  · have hinode' : d.spend.inode? place' = none := (inode?_spend d place').trans hinode
    have hnew : Alike (· ≠ place') d (d.spend.withNewFile place') :=
      (spend htidy).trans (withNewFile (htidy.congr rfl rfl) hleads.ne_nil hinode')
    obtain rfl : place' = place :=
      (hleads.congr hnew.forth.directories).unique hfile.leads
    exact hnew

/-- Making a file leaves all others as they are. -/
theorem of_make (htidy : d.Tidy) (h : d.perform (make path) = (.ok id, d')) :
    ∃ place, d'.FileAt path place id ∧ d'.content id = [] ∧ Alike (· ≠ place) d d' := by
  rw [perform_make] at h
  rcases hopen : d.perform (openOrMake path) with ⟨_ | id₁, d₁⟩ <;> rw [hopen] at h
  · cases h
  · obtain ⟨hid, rfl⟩ := Prod.mk.inj h
    obtain rfl := Except.ok.inj hid
    obtain ⟨place, hfile, halike, -⟩ := of_openOrMake htidy hopen
    have htouched := Touched.withContent id₁ d₁ []
    exact ⟨place, hfile.touched htouched, content_withContent_self hfile.onDisk,
      halike.trans (of_touched halike.forth.tidy hfile.inode htouched)⟩

/-! ## What is found -/

theorem leads_iff (h : Alike places d d') : d'.Leads path place ↔ d.Leads path place :=
  ⟨fun hleads => hleads.congr h.back.directories, fun hleads => hleads.congr h.forth.directories⟩

/-- What stands at the places that a path leads to is found unchanged. -/
theorem sameUnder (h : Alike places d d') (hpath : ∀ place, d.Leads path place → places place) :
    SameUnder path d d' := by
  have hread : ∀ {d₁ d₂ : Disk}, Spares places d₁ d₂ → d₁.Sound →
      (∀ place, d₁.Leads path place → places place) → ∀ {bytes}, d₁.read path = .ok bytes →
        d₂.read path = .ok bytes := by
    intro d₁ d₂ hspares hsound hpath bytes hbytes
    obtain ⟨place, id, hfile, rfl⟩ := fileAt_of_read hsound hbytes
    obtain ⟨hfile', hcontent⟩ := hfile.spared hspares (hpath place hfile.leads)
    rw [hfile'.read, hcontent]
  have hpath' : ∀ place, d'.Leads path place → places place :=
    fun place hleads => hpath place (h.leads_iff.1 hleads)
  constructor
  · rw [Bool.eq_iff_iff]
    constructor
    · exact holds_of_holds h.forth.directories fun place hleads => h.inode?_eq (hpath place hleads)
    · exact holds_of_holds h.back.directories fun place hleads =>
        (h.inode?_eq (hpath' place hleads)).symm
  · intro bytes
    exact ⟨hread h.back h.forth.tidy.sound hpath', hread h.forth h.back.tidy.sound hpath⟩

end Alike

end Arbiter.Disk
