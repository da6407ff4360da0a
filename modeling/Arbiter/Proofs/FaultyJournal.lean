import Arbiter.Journal.Writer
import Arbiter.Proofs.DiskPaths
import Arbiter.Proofs.JournalImage

/-!
# Journals on a failing disk

Any change of the disk may fail, and adding bytes may fail half-way.  A writer keeps its file to the
entries that it acknowledged as long as it can cut off what a failed append left behind, and gives
up when it cannot.  The file is readable at any time: at worst it holds one entry more, the one
whose append failed last.

`Keeps` is the invariant that ties a writer, the disk and the acknowledged entries together.  It is
kept by every append, whatever the disk does.
-/

namespace Arbiter

open Disk

namespace JournalWriter

variable {w w' : JournalWriter} {d d' : Disk} {path : Path} {place : Place} {e : Entry}

/-! ## The steps of an append -/

/-- Cutting the file of a writer back, with the cut synced. -/
def cutBack (w : JournalWriter) : OnDisk DiskFault Unit := do
  Disk.setLength w.file w.validLength
  Disk.sync w.file

theorem run_rollback (w : JournalWriter) (d : Disk) :
    w.rollback.run d =
      match d.perform w.cutBack with
      | (.ok _, d') => (w, d')
      | (.error _, d') => ({ w with poisoned := true }, d') := by
  change (w.cutBack.run >>= _ : StateM Disk JournalWriter).run d = _
  rw [run_bind_run]
  rcases d.perform w.cutBack with ⟨_ | _, d'⟩ <;> rfl

theorem run_append (w : JournalWriter) (e : Entry) (d : Disk) :
    (w.append e).run d =
      if w.poisoned then ((w, .error (.unusable w.path)), d)
      else if e.sequence ≠ w.lastSequence + 1 then
        ((w, .error (.scan (.frame 0 (.appended e.sequence (w.lastSequence + 1))))), d)
      else
        match d.perform (w.store e.frame) with
        | (.ok _, d') =>
          (({ w with
              lastSequence := e.sequence
              validLength := w.validLength + e.frame.length }, .ok ()), d')
        | (.error fault, d') =>
          (((w.rollback.run d').1, .error (.disk fault)), (w.rollback.run d').2) := by
  unfold append
  split
  · rfl
  · split
    · rfl
    · rw [run_bind_run]
      rcases d.perform (w.store e.frame) with ⟨_ | _, d'⟩ <;> rfl

/-- A frame is stored in part, and as a whole if storing it succeeds. -/
theorem perform_store (w : JournalWriter) (frame : Bytes) (hfile : w.file < d.contents.length) :
    ∃ count result d', d.perform (w.store frame) = (result, d') ∧ Touched w.file d d' ∧
      d'.content w.file = d.content w.file ++ frame.take count ∧
      (result = .ok () → frame.take count = frame) := by
  obtain ⟨count, result, happend, hwhole⟩ := perform_append d w.file frame
  have hcontent : (d.spend.withContent w.file (d.content w.file ++ frame.take count)).content
      w.file = d.content w.file ++ frame.take count :=
    content_withContent_self hfile
  have htouched : Touched w.file d
      (d.spend.withContent w.file (d.content w.file ++ frame.take count)) :=
    (Touched.spend _ d).trans (.withContent _ _ _)
  unfold store
  rw [perform_bind, happend]
  cases result with
  | error fault => exact ⟨count, _, _, rfl, htouched, hcontent, nofun⟩
  | ok _ =>
      obtain ⟨result, hsync⟩ := perform_sync
        (d.spend.withContent w.file (d.content w.file ++ frame.take count)) w.file
      exact ⟨count, result, _, hsync, htouched.trans (.spend _ _), hcontent, fun _ => hwhole rfl⟩

/-- Cutting back leaves what is valid, or gives up with the tail cut off or still there. -/
theorem exists_run_rollback (w : JournalWriter) {valid tail : Bytes}
    (hfile : w.file < d.contents.length) (hcontent : d.content w.file = valid ++ tail)
    (hvalid : valid.length = w.validLength) :
    ∃ w' d', w.rollback.run d = (w', d') ∧ Touched w.file d d' ∧
      (w' = w ∧ d'.content w.file = valid ∨
        w' = { w with poisoned := true } ∧
          (d'.content w.file = valid ∨ d'.content w.file = valid ++ tail)) := by
  have hlength : w.validLength ≤ (d.content w.file).length := by
    rw [hcontent, List.length_append, hvalid]
    exact Nat.le_add_right _ _
  have hkept : (d.content w.file).take w.validLength = valid := by
    rw [hcontent, ← hvalid, List.take_left]
  obtain ⟨result, d', hcut, htouched, hleft⟩ := d.perform_cut hfile hlength
  rw [hkept, hcontent] at hleft
  rw [run_rollback, cutBack, hcut]
  cases result with
  | error _ => exact ⟨_, _, rfl, htouched, .inr ⟨rfl, hleft.imp_right And.left⟩⟩
  | ok _ =>
      have hvalid' : d'.content w.file = valid := hleft.resolve_right (by simp)
      exact ⟨_, _, rfl, htouched, .inl ⟨rfl, hvalid'⟩⟩

/-! ## What a writer keeps -/

/-- A writer, its file and the entries it acknowledged belong together.  A writer that gave up did
so over a pending entry, some beginning of whose frame may be left at the end of the file. -/
structure Keeps (path : Path) (place : Place) (w : JournalWriter) (d : Disk) (acked : List Entry)
    (pending : Entry → Prop) : Prop where
  path_eq : w.path = path
  fileAt : d.FileAt path place w.file
  storable : ∀ e ∈ acked, e.Storable
  numbers : acked.map (·.sequence) = List.range' 1 acked.length
  lastSequence : w.lastSequence = acked.length
  validLength : w.validLength = (journalFile acked).length
  clean : w.poisoned = false → d.content w.file = journalFile acked
  torn : w.poisoned = true → ∃ e tail, pending e ∧ e.Storable ∧ e.sequence = acked.length + 1 ∧
    tail <+: e.frame ∧ d.content w.file = journalFile acked ++ tail

namespace Keeps

variable {acked : List Entry} {pending pending' : Entry → Prop}

theorem imp (h : Keeps path place w d acked pending) (himp : ∀ e, pending e → pending' e) :
    Keeps path place w d acked pending' where
  __ := h
  torn hpoisoned := by
    obtain ⟨e, tail, hpending, hrest⟩ := h.torn hpoisoned
    exact ⟨e, tail, himp e hpending, hrest⟩

/-- A writer that cannot have given up over an entry has not given up. -/
theorem unpoisoned (h : Keeps path place w d acked fun _ => False) : w.poisoned = false := by
  by_contra hpoisoned
  obtain ⟨_, _, hnone, -⟩ := h.torn (by simpa using hpoisoned)
  exact hnone

/-- What is pending matters only once a writer gave up. -/
theorem of_unpoisoned (h : Keeps path place w d acked pending) (hgood : w.poisoned = false)
    (pending' : Entry → Prop) : Keeps path place w d acked pending' where
  __ := h
  torn hpoisoned := by simp [hgood] at hpoisoned

theorem forall_storable_concat (h : Keeps path place w d acked pending) (he : e.Storable) :
    ∀ e' ∈ acked ++ [e], e'.Storable := by
  intro e' he'
  rcases List.mem_append.1 he' with he' | he'
  · exact h.storable e' he'
  · rwa [List.mem_singleton.1 he']

/-- The file of a writer is always readable. -/
theorem exists_scan (h : Keeps path place w d acked pending) :
    ∃ bytes contents, d.read path = .ok bytes ∧ scan bytes = .ok contents ∧
      (contents.entries = acked ∨ ∃ e, pending e ∧ contents.entries = acked ++ [e]) := by
  refine ⟨d.content w.file, ?_⟩
  rw [h.fileAt.read]
  cases hpoisoned : w.poisoned with
  | false =>
      rw [h.clean hpoisoned]
      exact ⟨_, rfl, scan_journalFile h.storable h.numbers, .inl rfl⟩
  | true =>
      obtain ⟨e, tail, hpending, hstorable, hsequence, hpart, hcontent⟩ := h.torn hpoisoned
      rw [hcontent]
      rcases Nat.lt_or_ge tail.length e.frame.length with hshort | hlong
      · have htorn := hstorable.readFrame_torn hpart hshort (acked.length + 1)
        exact ⟨_, rfl, scan_journalFile_append h.storable h.numbers htorn, .inl rfl⟩
      · -- The whole frame was stored: the file holds the entry whose append failed.
        obtain rfl : tail = e.frame := hpart.eq_of_length_le hlong
        rw [← journalFile_concat]
        have hscan := scan_journalFile (h.forall_storable_concat hstorable)
          (map_sequence_concat h.numbers hsequence)
        exact ⟨_, rfl, hscan, .inr ⟨e, hpending, rfl⟩⟩

/-- What is kept stays kept while the file is spared. -/
theorem spared (h : Keeps path place w d acked pending) (hfile : d'.FileAt path place w.file)
    (hcontent : d'.content w.file = d.content w.file) :
    Keeps path place w d' acked pending where
  __ := h
  fileAt := hfile
  clean hgood := hcontent.trans (h.clean hgood)
  torn hpoisoned := by
    rw [hcontent]
    exact h.torn hpoisoned

/-- Once its whole frame is stored, an entry may be acknowledged. -/
theorem acknowledge (h : Keeps path place w d acked pending) (hgood : w.poisoned = false)
    (he : e.Storable) (hsequence : e.sequence = acked.length + 1) (htouched : Touched w.file d d')
    (hcontent : d'.content w.file = journalFile (acked ++ [e])) (pending' : Entry → Prop) :
    Keeps path place
      { w with lastSequence := e.sequence, validLength := w.validLength + e.frame.length }
      d' (acked ++ [e]) pending' where
  path_eq := h.path_eq
  fileAt := h.fileAt.touched htouched
  storable := h.forall_storable_concat he
  numbers := map_sequence_concat h.numbers hsequence
  lastSequence := by simp [hsequence]
  validLength := by simp [journalFile_concat, h.validLength]
  clean _ := hcontent
  torn hpoisoned := by simp [hgood] at hpoisoned

/-- When nothing is left behind, the disk may have been touched. -/
theorem cutOff (h : Keeps path place w d acked pending) (hgood : w.poisoned = false)
    (htouched : Touched w.file d d') (hcontent : d'.content w.file = journalFile acked) :
    Keeps path place w d' acked pending where
  __ := h
  fileAt := h.fileAt.touched htouched
  clean _ := hcontent
  torn hpoisoned := by simp [hgood] at hpoisoned

/-- When some beginning of a frame may be left behind, the writer gives up. -/
theorem giveUp (h : Keeps path place w d acked pending) (he : e.Storable)
    (hsequence : e.sequence = acked.length + 1) (htouched : Touched w.file d d') {tail : Bytes}
    (hpart : tail <+: e.frame) (hcontent : d'.content w.file = journalFile acked ++ tail) :
    Keeps path place { w with poisoned := true } d' acked (· = e) where
  __ := h
  fileAt := h.fileAt.touched htouched
  clean hgood := by simp at hgood
  torn _ := ⟨e, tail, rfl, he, hsequence, hpart, hcontent⟩

/-- What an append answers and does. -/
theorem append (h : Keeps path place w d acked pending) (he : e.Storable) :
    ∃ w' result d', (w.append e).run d = ((w', result), d') ∧ Touched w.file d d' ∧
      (w.poisoned = true ∧ result = .error (.unusable path) ∧ w' = w ∧ d' = d ∨
        w.poisoned = false ∧
          ((result = .ok () ∧ Keeps path place w' d' (acked ++ [e]) fun _ => False) ∨
            (∃ fault, result = .error (.disk fault) ∧ Keeps path place w' d' acked (· = e)) ∨
            e.sequence ≠ acked.length + 1 ∧ (∃ fault, result = .error (.scan fault)) ∧
              w' = w ∧ d' = d)) := by
  rw [run_append]
  by_cases hpoisoned : w.poisoned = true
  · rw [if_pos hpoisoned, h.path_eq]
    exact ⟨_, _, _, rfl, .refl _ d, .inl ⟨hpoisoned, rfl, rfl, rfl⟩⟩
  · have hgood : w.poisoned = false := by simpa using hpoisoned
    rw [if_neg hpoisoned, h.lastSequence]
    by_cases hsequence : e.sequence = acked.length + 1
    · rw [if_neg (not_not_intro hsequence)]
      obtain ⟨count, result, d₁, hstore, htouched, hcontent, hwhole⟩ :=
        w.perform_store e.frame h.fileAt.onDisk
      rw [h.clean hgood] at hcontent
      rw [hstore]
      cases result with
      | ok _ =>
          rw [hwhole rfl, ← journalFile_concat] at hcontent
          exact ⟨_, _, _, rfl, htouched, .inr ⟨hgood, .inl ⟨rfl,
            h.acknowledge hgood he hsequence htouched hcontent _⟩⟩⟩
      | error fault =>
          obtain ⟨w', d', hrollback, htouched', hcases⟩ := w.exists_run_rollback
            (htouched.length ▸ h.fileAt.onDisk) hcontent h.validLength.symm
          have hboth := htouched.trans htouched'
          simp only [hrollback]
          refine ⟨_, _, _, rfl, hboth, .inr ⟨hgood, .inr (.inl ⟨fault, rfl, ?_⟩)⟩⟩
          rcases hcases with ⟨rfl, hcut⟩ | ⟨rfl, hcut | hleft⟩
          · exact (h.cutOff hgood hboth hcut).of_unpoisoned hgood _
          · exact h.giveUp he hsequence hboth List.nil_prefix (by simpa using hcut)
          · exact h.giveUp he hsequence hboth (List.take_prefix count _) hleft
    · rw [if_pos hsequence]
      exact ⟨_, _, _, rfl, .refl _ d,
        .inr ⟨hgood, .inr (.inr ⟨hsequence, ⟨_, rfl⟩, rfl, rfl⟩)⟩⟩

end Keeps

/-! ## Opening a new journal -/

theorem Keeps.of_header (hfile : d.FileAt path place w.file)
    (hcontent : d.content w.file = journalHeader)
    (hw : w = ⟨path, w.file, 0, journalHeaderLength, false⟩) :
    Keeps path place w d [] fun _ => False where
  path_eq := by rw [hw]
  fileAt := hfile
  storable := nofun
  numbers := rfl
  lastSequence := by rw [hw]; rfl
  validLength := by
    rw [hw]
    simp [journalFile, length_journalHeader]
  clean _ := by rw [hcontent]; simp [journalFile]
  torn hpoisoned := by rw [hw] at hpoisoned; simp at hpoisoned

/-- A journal that was just started holds nothing; only its file was made and written to. -/
theorem openAt_new_eq_ok (hsound : d.Sound) (hnew : hasContents d path = false)
    {contents : JournalContents} (h : d.perform (openAt path) = (.ok (w, contents), d')) :
    contents.entries = [] ∧ (∃ place, Keeps path place w d' [] fun _ => False) ∧
      ∃ d₁, d.perform (openOrMake path) = (.ok w.file, d₁) ∧ Touched w.file d₁ d' := by
  rw [openAt, perform_bind, perform_get] at h
  simp only [hnew] at h
  obtain ⟨_, _, hstart, h⟩ := perform_bind_eq_ok_iff.1 h
  rw [perform_pure] at h
  simp only [Prod.mk.injEq, Except.ok.injEq] at h
  obtain ⟨⟨rfl, rfl⟩, rfl⟩ := h
  obtain ⟨id, d₁, hopen, h⟩ := perform_bind_eq_ok_iff.1 (perform_adapt_eq_ok_iff.1 hstart)
  obtain ⟨_, d₂, happend, h⟩ := perform_bind_eq_ok_iff.1 h
  obtain ⟨_, d₃, hsync, h⟩ := perform_bind_eq_ok_iff.1 h
  rw [perform_pure] at h
  simp only [Prod.mk.injEq, Except.ok.injEq] at h
  obtain ⟨rfl, rfl⟩ := h
  obtain ⟨place, hfile, hcontent, hempty⟩ := fileAt_of_openOrMake hsound hopen
  have hnil : d₁.content id = [] := by
    rw [hcontent]
    rcases hempty with hold | hempty
    · simpa [hasContents, hold.length] using hnew
    · exact hempty
  obtain ⟨htouched, hheader⟩ := perform_append_eq_ok hfile.onDisk happend
  obtain ⟨result, hsynced⟩ := perform_sync d₂ id
  rw [hsync, Prod.mk.injEq] at hsynced
  obtain ⟨-, rfl⟩ := hsynced
  have hstarted : Touched id d₁ d₂.spend := htouched.trans (.spend id d₂)
  refine ⟨rfl, ⟨place, .of_header (hfile.touched hstarted) ?_ rfl⟩, d₁, hopen, hstarted⟩
  exact hheader.trans (by rw [hnil, List.nil_append])

end JournalWriter

end Arbiter
