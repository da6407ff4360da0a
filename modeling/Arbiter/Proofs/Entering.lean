import Arbiter.Proofs.OpenedJournal
import Arbiter.Proofs.Restart

/-!
# Entering commands

A host enters a command by way of its writer and is otherwise left as it was.  Whatever comes of it,
the writer goes on writing to the file it was opened for, and that file stays on the disk.
-/

namespace Arbiter

open Disk

/-! ## Writers -/

namespace JournalWriter

variable {w w' : JournalWriter} {e : Entry} {d d' : Disk} {result : Except JournalFault Unit}

theorem grows_store (w : JournalWriter) (frame : Bytes) : Grows (w.store frame) :=
  (Grows.append w.file frame).bind fun _ => .sync w.file

theorem rollback_keeps_file (w : JournalWriter) (d : Disk) :
    (w.rollback.run d).1.file = w.file ∧
      d.contents.length ≤ (w.rollback.run d).2.contents.length := by
  have hgrows : Grows w.cutBack := (Grows.setLength w.file w.validLength).bind fun _ => .sync w.file
  rw [run_rollback]
  rcases hcut : d.perform w.cutBack with ⟨_ | _, d'⟩
  · exact ⟨rfl, hgrows.le hcut⟩
  · exact ⟨rfl, hgrows.le hcut⟩

/-- Whatever comes of an append, the writer goes on writing to the same file. -/
theorem append_keeps_file (happend : (w.append e).run d = ((w', result), d')) :
    w'.file = w.file ∧ d.contents.length ≤ d'.contents.length := by
  rw [run_append] at happend
  split at happend
  · obtain ⟨hpair, rfl⟩ := Prod.mk.inj happend
    obtain ⟨rfl, -⟩ := Prod.mk.inj hpair
    exact ⟨rfl, Nat.le_refl _⟩
  · split at happend
    · obtain ⟨hpair, rfl⟩ := Prod.mk.inj happend
      obtain ⟨rfl, -⟩ := Prod.mk.inj hpair
      exact ⟨rfl, Nat.le_refl _⟩
    · rcases hstore : d.perform (w.store e.frame) with ⟨fault | _, d₁⟩ <;>
        simp only [hstore] at happend <;> obtain ⟨hpair, rfl⟩ := Prod.mk.inj happend <;>
        obtain ⟨rfl, -⟩ := Prod.mk.inj hpair
      · obtain ⟨hfile, hgrown⟩ := w.rollback_keeps_file d₁
        exact ⟨hfile, Nat.le_trans ((w.grows_store e.frame).le hstore) hgrown⟩
      · exact ⟨rfl, (w.grows_store e.frame).le hstore⟩

/-- An append that succeeds adds exactly the frame to the file. -/
theorem content_of_append (hfile : w.file < d.contents.length)
    (happend : (w.append e).run d = ((w', .ok ()), d')) :
    d'.content w.file = d.content w.file ++ e.frame ∧ Touched w.file d d' := by
  obtain ⟨count, stored, d₁, hstore, htouched, hcontent, hwhole⟩ := w.perform_store e.frame hfile
  rw [run_append] at happend
  split at happend
  · cases happend
  · split at happend
    · cases happend
    · rw [hstore] at happend
      cases stored with
      | error _ => cases happend
      | ok _ =>
          obtain ⟨-, rfl⟩ := Prod.mk.inj happend
          rw [hwhole rfl] at hcontent
          exact ⟨hcontent, htouched⟩

end JournalWriter

/-! ## Hosts -/

namespace Host

variable {h h' : Host} {w : JournalWriter} {e : Entry} {d d' : Disk}
  {result : Except JournalFault Unit}

theorem run_enter_of_none (hwriter : h.writer = none) (e : Entry) (d : Disk) :
    (h.enter e).run d = ((h, .ok ()), d) := by
  rw [enter, hwriter]
  rfl

/-- A host with a journal enters a command by way of its writer. -/
theorem exists_append_of_enter (hwriter : h.writer = some w)
    (henter : (h.enter e).run d = ((h', result), d')) :
    ∃ w', (w.append e).run d = ((w', result), d') ∧ h' = { h with writer := some w' } := by
  rw [run_enter hwriter] at henter
  rcases happend : (w.append e).run d with ⟨⟨w', result'⟩, d₁⟩
  rw [happend] at henter
  obtain ⟨hpair, rfl⟩ := Prod.mk.inj henter
  obtain ⟨rfl, rfl⟩ := Prod.mk.inj hpair
  exact ⟨w', rfl, rfl⟩

/-- Entering a command changes nothing about a host but its writer. -/
theorem eq_of_enter (henter : (h.enter e).run d = ((h', result), d')) :
    h' = { h with writer := h'.writer } := by
  cases hwriter : h.writer with
  | none =>
      rw [run_enter_of_none hwriter] at henter
      obtain ⟨hpair, -⟩ := Prod.mk.inj henter
      obtain ⟨rfl, -⟩ := Prod.mk.inj hpair
      rfl
  | some w =>
      obtain ⟨w', -, rfl⟩ := exists_append_of_enter hwriter henter
      rfl

/-- The file of the writer is on the disk. -/
def OnDisk (h : Host) (d : Disk) : Prop :=
  ∀ w, h.writer = some w → w.file < d.contents.length

theorem OnDisk.mono (hfile : h.OnDisk d) (hgrown : d.contents.length ≤ d'.contents.length) :
    h.OnDisk d' :=
  fun w hw => Nat.lt_of_lt_of_le (hfile w hw) hgrown

theorem OnDisk.enter (hfile : h.OnDisk d) (henter : (h.enter e).run d = ((h', result), d')) :
    h'.OnDisk d' := by
  cases hwriter : h.writer with
  | none =>
      rw [run_enter_of_none hwriter] at henter
      obtain ⟨hpair, rfl⟩ := Prod.mk.inj henter
      obtain ⟨rfl, -⟩ := Prod.mk.inj hpair
      exact hfile
  | some w =>
      obtain ⟨w', happend, rfl⟩ := exists_append_of_enter hwriter henter
      obtain ⟨hsame, hgrown⟩ := JournalWriter.append_keeps_file happend
      rintro _ ⟨rfl⟩
      rw [hsame]
      exact Nat.lt_of_lt_of_le (hfile w hwriter) hgrown

/-- The journal of a host that came back is on the disk. -/
theorem onDisk_of_recover {settings : Settings} (hsound : d.Sound)
    (hrecover : d.perform (recover settings) = (.ok h, d')) : h.OnDisk d' := by
  cases hjournal : settings.journalPath with
  | none =>
      obtain ⟨base, d₀, -, hrecover⟩ := perform_bind_eq_ok_iff.1 hrecover
      rw [hjournal] at hrecover
      obtain rfl := Except.ok.inj (congrArg Prod.fst hrecover)
      intro w hw
      simp at hw
  | some path =>
      obtain ⟨base, w, contents, s, -, hopen, -, rfl⟩ := exists_of_recover hjournal hrecover
      rintro _ ⟨rfl⟩
      exact JournalWriter.onDisk_of_openAt hsound hopen

end Host

end Arbiter
