import Arbiter.Proofs.PastStates
import Arbiter.Proofs.SavedState
import Arbiter.Proofs.SparedJournal

/-!
# What a failed save leaves behind

A snapshot is written to a draft, and only a complete draft takes the place of what is under the
path of the snapshot.  So a save that fails leaves under the path what was there.

The draft has the name of the snapshot with another extension.  A snapshot that has this extension
already is its own draft, so it is emptied before it is written, and a save that fails leaves some
first part of the new snapshot in place of the old one.
-/

namespace Arbiter

open Disk

/-! ## Drafts -/

namespace Path

variable {p : Path} {front : List (List Char)} {last : List Char}

theorem exists_parts_of_noSlash (h : p.endsInSlash = false) :
    ∃ front last, p.parts = front ++ [last] ∧ last ≠ [] := by
  rcases List.eq_nil_or_concat p.parts with hnil | ⟨front, last, hparts⟩
  · exact absurd hnil (Text.split_ne_nil _ _)
  · rw [List.concat_eq_append] at hparts
    refine ⟨front, last, hparts, ?_⟩
    rintro rfl
    simp [endsInSlash, hparts] at h

theorem getLast?_names (hparts : p.parts = front ++ [last]) (hne : last ≠ []) :
    p.names.getLast? = some (String.ofList last) := by
  simp [names, hparts, hne]

theorem mem_of_mem_stem {name : List Char} {c : Char} (h : c ∈ stem name) : c ∈ name := by
  unfold stem at h
  split at h
  · exact h
  · next before hdrop =>
      split at h
      · exact h
      · have hmem : c ∈ name.reverse.dropWhile (· != '.') := by
          rw [hdrop]
          exact List.mem_cons_of_mem _ (List.mem_reverse.1 h)
        exact List.mem_reverse.1 ((List.dropWhile_sublist _).mem hmem)

/-- What the last name of a path becomes when it gets an extension. -/
def extended (extension : String) (name : List Char) : List Char :=
  if stem name = ['.'] then ['.', '.'] else stem name ++ '.' :: extension.toList

theorem extended_ne_nil (extension : String) (name : List Char) : extended extension name ≠ [] := by
  unfold extended
  split <;> simp

theorem parts_withExtension {extension : String} (hslash : '/' ∉ extension.toList)
    (hparts : p.parts = front ++ [last]) (hne : last ≠ []) (hdot : last ≠ ['.'])
    (hdots : last ≠ ['.', '.']) :
    (p.withExtension extension).parts = front ++ [extended extension last] := by
  have hlast : p.lastName? = some (front, last) := by
    simp [lastName?, hparts, isIdle, hne, hdot, hdots]
  have hwithin : ∀ part ∈ front ++ [last], '/' ∉ part := by
    intro part hpart
    exact Text.notMem_of_mem_split (hparts ▸ hpart)
  have hextended : '/' ∉ extended extension last := by
    unfold extended
    split
    · decide
    · rw [List.mem_append, List.mem_cons, not_or, not_or]
      exact ⟨fun h => hwithin last (by simp) (mem_of_mem_stem h), by decide, hslash⟩
  have htext : p.withExtension extension =
      ⟨String.ofList (Text.join '/' (front ++ [extended extension last]))⟩ := by
    simp [withExtension, hlast, hparts, extended]
  rw [htext, parts, String.toList_ofList]
  refine Text.split_join (by simp) fun part hpart => ?_
  rcases List.mem_append.1 hpart with hfront | hthis
  · exact hwithin part (List.mem_append_left _ hfront)
  · rwa [List.mem_singleton.1 hthis]

theorem ext_parts {p' : Path} (h : p.parts = p'.parts) : p = p' := by
  have htext := congrArg (Text.join '/') h
  rw [parts, parts, Text.join_split, Text.join_split] at htext
  exact congrArg Path.mk (String.toList_inj.1 htext)

end Path

/-- A path leads to a place of its last name, and that neither stays nor goes up. -/
theorem Disk.Leads.getLast?_names {d : Disk} {path : Path} {place : Place}
    (h : d.Leads path place) :
    ∃ name, path.names.getLast? = some name ∧ place.getLast? = some name ∧ name ≠ "." ∧
      name ≠ ".." := by
  obtain ⟨before, name, happroach, hdot, hdots, -, rfl⟩ := h
  refine ⟨name, ?_, by simp, hdot, hdots⟩
  rw [Disk.approach, ite_error_eq_ok, ite_error_eq_ok, ite_error_eq_ok] at happroach
  obtain ⟨-, -, -, hnames⟩ := happroach
  split at hnames
  · simp at hnames
  · next name' rest hreverse =>
      obtain ⟨next, -, hgoal⟩ := bind_eq_ok_iff.1 hnames
      obtain ⟨-, hname⟩ := Prod.mk.inj (Except.ok.inj hgoal)
      rw [← List.head?_reverse, hreverse, List.head?_cons, hname]

namespace Host

variable {d : Disk} {path : Path} {place : Place}

/-- A draft that is written where the snapshot stands is the snapshot itself. -/
theorem draftOf_eq_of_leads (hslash : path.endsInSlash = false) (hpath : d.Leads path place)
    (hdraft : d.Leads (draftOf path) place) : draftOf path = path := by
  obtain ⟨front, last, hparts, hne⟩ := Path.exists_parts_of_noSlash hslash
  obtain ⟨name, hname, hplace, hdot, hdots⟩ := hpath.getLast?_names
  obtain ⟨name', hname', hplace', -⟩ := hdraft.getLast?_names
  obtain rfl : name' = name := by simpa [hplace] using hplace'.symm
  rw [Path.getLast?_names hparts hne] at hname
  obtain rfl := Option.some.inj hname
  -- Both paths end in the name of the place, and apart from the last part they agree anyway.
  have hdraftParts : (draftOf path).parts = front ++ [Path.extended "tmp" last] :=
    Path.parts_withExtension (by decide) hparts hne (fun h => hdot (by rw [h]))
      fun h => hdots (by rw [h])
  rw [Path.getLast?_names hdraftParts (Path.extended_ne_nil _ _)] at hname'
  have hlast : Path.extended "tmp" last = last := String.ofList_injective (Option.some.inj hname')
  refine Path.ext_parts ?_
  rw [hdraftParts, hlast, hparts]

end Host

/-! ## Replacements that fail -/

namespace Disk.Replacement

variable {d d' : Disk} {path draft : Path} {bytes : Bytes} {fault : DiskFault}

/-- What was to be replaced is as it was, or it was the draft and holds some first part of what was
to be written. -/
theorem sameUnder_or_part (h : Replacement d path draft bytes (.error fault) d') (htidy : d.Tidy) :
    SameUnder path d d' ∨ path.endsInSlash = false ∧
      (∃ place, d.Leads path place ∧ d.Leads draft place) ∧
      ∃ count, d'.read path = .ok (bytes.take count) := by
  cases h with
  | unopened failed =>
      have halike : Alike (fun _ => True) d d.spend := .spend htidy
      exact .inl (halike.sameUnder fun _ _ => trivial)
  | @unfinished _ start id _ drafted =>
      by_cases hleads : d.Leads path start
      · have hdraft := drafted.fileAt.leads.congr drafted.alike.back.directories
        have hfile : d'.inode? start ≠ some .directory := by simp [drafted.fileAt.inode]
        have hleads' := drafted.alike.leads_iff.2 hleads
        by_cases hslash : path.endsInSlash = true
        · -- Then nothing is found under the path, neither before nor afterwards.
          have hbefore := mt (drafted.spares.directories start).2 hfile
          exact .inl (.of_not_holds htidy drafted.spares.tidy (holds_of_slash hleads hslash hbefore)
            (holds_of_slash hleads' hslash hfile))
        · rw [Bool.not_eq_true] at hslash
          obtain ⟨count, hstored⟩ := drafted.stored
          have hread : d'.FileAt path start id :=
            ⟨hleads', drafted.fileAt.inode, hslash, drafted.fileAt.onDisk⟩
          refine .inr ⟨hslash, ⟨start, hleads, hdraft⟩, count, ?_⟩
          rw [hread.read, hstored]
      · refine .inl (drafted.alike.sameUnder ?_)
        rintro place hplace rfl
        exact hleads hplace

end Disk.Replacement

/-! ## Hosts -/

/-- Commands that are submitted to a host run some of them: those that are neither refused nor lost
to the journal. -/
theorem HostRun.exists_run_of_submits (r : HostRun) (commands : List (Address × Command)) :
    ∃ taken, taken.Sublist commands ∧
      (r.submits commands).host.state = r.host.state.run taken := by
  induction commands generalizing r with
  | nil => exact ⟨[], List.Sublist.slnil, rfl⟩
  | cons c commands ih =>
      obtain ⟨taken, hpart, hstate⟩ := ih (r.submit c)
      have hcons : (r.submits (c :: commands)).host.state = (r.submit c).host.state.run taken :=
        hstate
      rcases hsubmit : (r.host.submit c.1 c.2).run r.disk with ⟨⟨h', result⟩, d'⟩
      have hnext : (r.submit c).host = h' := by rw [HostRun.submit, hsubmit]
      rw [hcons, hnext]
      rcases Host.submit_cases hsubmit with ⟨_, -, hsame, -⟩ | ⟨outcome, -, haccepted, -⟩
      · exact ⟨taken, hpart.cons c, by rw [hsame]⟩
      · have hstep : r.host.state.step c = h'.state := by
          rw [State.step, State.apply_eq_ok_iff.2 haccepted]
        refine ⟨c :: taken, hpart.cons_cons c, ?_⟩
        rw [← hstep]
        rfl

namespace Host

variable {h h' : Host} {d d' : Disk} {wanted : Option Path} {result : Except HostFault Path}

/-- A save has no path to write to, or it fails with the disk, or what it wrote has taken the place
of what was under the path. -/
theorem save_cases (hsave : (h.save wanted).run d = ((h', result), d')) :
    (wanted.or h.snapshotPath = none ∧ result = .error (.request .noSnapshotPath) ∧ h' = h ∧
      d' = d) ∨
    ∃ path, wanted.or h.snapshotPath = some path ∧
      ((∃ cause, result = .error (.disk cause) ∧ h' = h ∧
        d.perform (replace path (draftOf path) (Snapshot.encode h.state)) = (.error cause, d')) ∨
      result = .ok path ∧
        h' = { h with snapshotHash := some (Blake3.digest (Snapshot.encode h.state)) } ∧
        d.perform (replace path (draftOf path) (Snapshot.encode h.state)) = (.ok (), d')) := by
  cases hpath : wanted.or h.snapshotPath with
  | none =>
      rw [run_save_of_none hpath] at hsave
      obtain ⟨hpair, rfl⟩ := Prod.mk.inj hsave
      obtain ⟨rfl, rfl⟩ := Prod.mk.inj hpair
      exact .inl ⟨rfl, rfl, rfl, rfl⟩
  | some path =>
      rw [run_save_of_some hpath] at hsave
      refine .inr ⟨path, rfl, ?_⟩
      rcases hreplace : d.perform (replace path (draftOf path) (Snapshot.encode h.state)) with
        ⟨cause | _, d₁⟩ <;> rw [hreplace] at hsave <;> obtain ⟨hpair, rfl⟩ := Prod.mk.inj hsave <;>
        obtain ⟨rfl, rfl⟩ := Prod.mk.inj hpair
      · exact .inl ⟨cause, rfl, rfl, rfl⟩
      · exact .inr ⟨rfl, rfl, rfl⟩

/-- Commands are submitted to a host without a journal, and then a snapshot is saved on a disk that
may fail at any point.

If that fails, the host is as it was, and so is what is under the path of the snapshot, be it a file
or nothing.  Only where the path is its own draft, some first part of the new snapshot may be there
instead.  If it succeeds, what is under the path is read back as the state of the host, and the host
has the hash of just these bytes and is otherwise as it was. -/
theorem failed_save_keeps_snapshot {settings : Settings} {d₀ : Disk}
    {commands : List (Address × Command)} (hpolicy : settings.policy.InRange)
    (hcommands : ∀ c ∈ commands, c.2.InRange)
    (hrun : h = (HostRun.submits ⟨.fresh settings, d₀, []⟩ commands).host)
    (hversion : h.state.version < capacity 8)
    (hshort : (Snapshot.encode h.state).length < capacity 8) (htidy : d.Tidy)
    (hsave : (h.save wanted).run d = ((h', result), d')) :
    (∀ fault, result = .error fault → h' = h ∧
      ∀ path, wanted.or h.snapshotPath = some path → SameUnder path d d' ∨
        draftOf path = path ∧
          ∃ count, d'.read path = .ok ((Snapshot.encode h.state).take count)) ∧
    ∀ path, result = .ok path → wanted.or h.snapshotPath = some path ∧
      ∃ bytes, d'.read path = .ok bytes ∧ Snapshot.decode bytes = .ok h.state ∧
        h' = { h with snapshotHash := some (Blake3.digest bytes) } := by
  constructor
  · rintro fault rfl
    rcases save_cases hsave with
      ⟨hnone, -, rfl, -⟩ | ⟨path, hpath, ⟨cause, -, rfl, hreplace⟩ | ⟨hok, -⟩⟩
    · refine ⟨rfl, fun path hpath => ?_⟩
      rw [hnone] at hpath
      cases hpath
    · refine ⟨rfl, fun path' hpath' => ?_⟩
      obtain rfl := Option.some.inj (hpath.symm.trans hpath')
      rcases (perform_replace htidy hreplace).sameUnder_or_part htidy with
        hsame | ⟨hslash, ⟨place, hleads, hdraft⟩, hpart⟩
      · exact .inl hsame
      · exact .inr ⟨draftOf_eq_of_leads hslash hleads hdraft, hpart⟩
    · cases hok
  · rintro path rfl
    rcases save_cases hsave with
      ⟨-, hfailed, -⟩ | ⟨path', hpath, ⟨cause, hfailed, -⟩ | ⟨hok, hhost, hreplace⟩⟩
    · cases hfailed
    · cases hfailed
    · obtain rfl := Except.ok.inj hok
      obtain ⟨start, goal, id, -, hfile, hcontent, -⟩ := perform_replace_eq_ok htidy hreplace
      refine ⟨hpath, _, hfile.read, ?_, by rw [hcontent, hhost]⟩
      obtain ⟨taken, hpart, hstate⟩ :=
        HostRun.exists_run_of_submits ⟨.fresh settings, d₀, []⟩ commands
      have htaken : ∀ c ∈ taken, c.2.InRange := fun c hc => hcommands c (hpart.subset hc)
      obtain ⟨hsound, hnumbered, hpolicy'⟩ :=
        (State.Sound.initial settings.policy).run (.initial settings.policy) htaken
      have hreached : h.state = (State.initial settings.policy).run taken := hrun ▸ hstate
      rw [← hreached] at hsound hnumbered hpolicy'
      rw [hcontent]
      exact hsound.decode_snapshot hnumbered (hpolicy' ▸ hpolicy) hversion hshort

/-- A host with so many nodes. -/
def withNodes (count : Nat) : Host :=
  (HostRun.submits ⟨.fresh {}, {}, []⟩ (electedEvent.take count)).host

/-- The snapshot of a host with one node, on a disk that has room for forty bytes now. -/
def crampedDisk (path : Path) : Disk :=
  { ({} : Disk).withNewFile path.names with
      contents := [Snapshot.encode (withNodes 1).state], limit := some 40 }

/-- There is no room for the snapshot of a host with two nodes. -/
def crampedSave (path : Path) : (Host × Except HostFault Path) × Disk :=
  ((withNodes 2).save (some path)).run (crampedDisk path)

/-- A snapshot that is its own draft is lost when the next one cannot be saved. -/
theorem snapshot_lost_to_its_draft :
    (crampedDisk ⟨"/state.tmp"⟩).read ⟨"/state.tmp"⟩ =
        .ok (Snapshot.encode (withNodes 1).state) ∧
      (crampedSave ⟨"/state.tmp"⟩).1 = (withNodes 2, .error (.disk .tooLarge)) ∧
      (crampedSave ⟨"/state.tmp"⟩).2.read ⟨"/state.tmp"⟩ =
        .ok ((Snapshot.encode (withNodes 2).state).take 40) ∧
      (crampedSave ⟨"/state.tmp"⟩).2.read ⟨"/state.tmp"⟩ ≠
        .ok (Snapshot.encode (withNodes 1).state) := by
  have hfile : (crampedDisk ⟨"/state.tmp"⟩).FileAt ⟨"/state.tmp"⟩ ["state.tmp"] 0 :=
    ⟨⟨[], "state.tmp", rfl, by decide, by decide, by decide, rfl⟩, rfl, by decide, Nat.one_pos⟩
  refine ⟨hfile.read, ?_, ?_, ?_⟩
  · decide +kernel
  · decide +kernel
  · decide +kernel

theorem failed_save_keeps_snapshot_of_crampedSave :
    (crampedSave ⟨"/snapshot"⟩).1 = (withNodes 2, .error (.disk .tooLarge)) ∧
      SameUnder ⟨"/snapshot"⟩ (crampedDisk ⟨"/snapshot"⟩) (crampedSave ⟨"/snapshot"⟩).2 := by
  have hresult : (crampedSave ⟨"/snapshot"⟩).1 = (withNodes 2, .error (.disk .tooLarge)) := by
    decide +kernel
  have hsave : ((withNodes 2).save (some ⟨"/snapshot"⟩)).run (crampedDisk ⟨"/snapshot"⟩) =
      ((withNodes 2, .error (.disk .tooLarge)), (crampedSave ⟨"/snapshot"⟩).2) := by
    rw [← hresult]
    exact Prod.mk.eta.symm
  have hcommands : ∀ c ∈ electedEvent.take 2, c.2.InRange := by decide
  have htidy : (crampedDisk ⟨"/snapshot"⟩).Tidy :=
    (noFiles_empty.tidy.withNewFile (by decide)).congr rfl rfl
  have hshort : (Snapshot.encode (withNodes 2).state).length < capacity 8 := by
    rw [Snapshot.length_encode]
    decide +kernel
  obtain ⟨hfailed, -⟩ := failed_save_keeps_snapshot Policy.inRange_default hcommands rfl
    (by decide +kernel) hshort htidy hsave
  obtain ⟨-, hkept⟩ := hfailed _ rfl
  rcases hkept ⟨"/snapshot"⟩ rfl with hsame | ⟨hdraft, -⟩
  · exact ⟨hresult, hsame⟩
  · exact absurd hdraft (by decide)

end Host

end Arbiter
