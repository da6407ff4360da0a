import Arbiter.Proofs.HostStep

/-!
# Acknowledged entries

A run keeps a log of the entries it was given and of the answers to them.  The entries that were
answered without a fault are acknowledged, and whatever fails on the disk, the journal file holds
them and at most one entry more.
-/

namespace Arbiter

open Disk

/-! ## Logs -/

section

variable {ε α : Type} {log : List (Entry × Except ε α)}

/-- The entries that were answered without a fault. -/
def acknowledged (log : List (Entry × Except ε α)) : List Entry :=
  log.filterMap fun call =>
    match call.2 with
    | .ok _ => some call.1
    | .error _ => none

theorem acknowledged_concat_ok (e : Entry) (a : α) :
    acknowledged (log ++ [(e, .ok a)]) = acknowledged log ++ [e] := by
  simp [acknowledged]

theorem acknowledged_concat_error (e : Entry) (fault : ε) :
    acknowledged (log ++ [(e, .error fault)]) = acknowledged log := by
  simp [acknowledged]

end

/-- The disk failed while an entry was appended, and since then no append was tried any more. -/
def FailedLast (path : Path) (log : List (Entry × Except JournalFault Unit)) (e : Entry) : Prop :=
  ∃ before fault after, log = before ++ (e, .error (.disk fault)) :: after ∧
    ∀ call ∈ after, call.2 = .error (.unusable path)

theorem failedLast_concat (path : Path) (log : List (Entry × Except JournalFault Unit)) (e : Entry)
    (fault : DiskFault) : FailedLast path (log ++ [(e, .error (.disk fault))]) e :=
  ⟨log, fault, [], rfl, fun _ hcall => absurd hcall List.not_mem_nil⟩

theorem FailedLast.concat_unusable {path : Path} {log : List (Entry × Except JournalFault Unit)}
    {e : Entry} (h : FailedLast path log e) (e' : Entry) :
    FailedLast path (log ++ [(e', .error (.unusable path))]) e := by
  obtain ⟨before, fault, after, rfl, hafter⟩ := h
  refine ⟨before, fault, after ++ [(e', .error (.unusable path))], by simp, ?_⟩
  intro call hcall
  rcases List.mem_append.1 hcall with hcall | hcall
  · exact hafter call hcall
  · rw [List.mem_singleton.1 hcall]

/-! ## Runs of a writer -/

/-- A writer at work on a disk, with the entries it was given so far and its answers. -/
structure WriterRun where
  writer : JournalWriter
  disk : Disk
  log : List (Entry × Except JournalFault Unit) := []

namespace WriterRun

variable {r : WriterRun} {path : Path} {place : Place} {e : Entry}

/-- Gives the writer one more entry. -/
def call (r : WriterRun) (e : Entry) : WriterRun :=
  match (r.writer.append e).run r.disk with
  | ((writer, result), disk) => ⟨writer, disk, r.log ++ [(e, result)]⟩

/-- Gives the writer more entries, one after the other. -/
def calls (r : WriterRun) (entries : List Entry) : WriterRun :=
  entries.foldl call r

/-- The writer keeps what it acknowledged. -/
def Intact (path : Path) (place : Place) (r : WriterRun) : Prop :=
  r.writer.Keeps path place r.disk (acknowledged r.log) (FailedLast path r.log)

theorem Intact.call (h : r.Intact path place) (he : e.Storable) :
    (r.call e).Intact path place := by
  obtain ⟨w', result, d', happend, -, hcases⟩ := JournalWriter.Keeps.append h he
  simp only [WriterRun.call, happend, Intact]
  rcases hcases with ⟨-, rfl, rfl, rfl⟩ |
    ⟨hgood, ⟨rfl, hkept⟩ | ⟨fault, rfl, hkept⟩ | ⟨-, ⟨fault, rfl⟩, rfl, rfl⟩⟩
  · rw [acknowledged_concat_error]
    exact h.imp fun _ hfailed => hfailed.concat_unusable e
  · rw [acknowledged_concat_ok]
    exact hkept.imp fun _ => False.elim
  · rw [acknowledged_concat_error]
    refine hkept.imp fun _ heq => ?_
    rw [heq]
    exact failedLast_concat path r.log e fault
  · rw [acknowledged_concat_error]
    exact h.of_unpoisoned hgood _

theorem Intact.calls (h : r.Intact path place) {entries : List Entry}
    (hstorable : ∀ e ∈ entries, e.Storable) : (r.calls entries).Intact path place := by
  induction entries generalizing r with
  | nil => exact h
  | cons e entries ih =>
      rw [List.forall_mem_cons] at hstorable
      exact ih (h.call hstorable.1) hstorable.2

/-- A writer that gave up answers so to everything and does nothing. -/
theorem calls_of_poisoned (hpoisoned : r.writer.poisoned = true) (entries : List Entry) :
    r.calls entries = ⟨r.writer, r.disk,
      r.log ++ entries.map fun e => (e, .error (.unusable r.writer.path))⟩ := by
  induction entries generalizing r with
  | nil => simp [calls]
  | cons e entries ih =>
      have hcall : r.call e =
          ⟨r.writer, r.disk, r.log ++ [(e, .error (.unusable r.writer.path))]⟩ := by
        simp [call, JournalWriter.run_append, hpoisoned]
      have hcons : r.calls (e :: entries) = (r.call e).calls entries := rfl
      have hpoisoned' : (r.call e).writer.poisoned = true := by rwa [hcall]
      rw [hcons, ih hpoisoned', hcall]
      simp

/-- No acknowledged entry is lost, and nothing but them is in the file, unless the writer gave up
over an entry, which then may stand behind them. -/
structure Safe (path : Path) (r : WriterRun) : Prop where
  clean : r.writer.poisoned = false →
    r.disk.read path = .ok (journalFile (acknowledged r.log))
  closed : r.writer.poisoned = true → ∀ more, r.calls more = ⟨r.writer, r.disk,
    r.log ++ more.map fun e => (e, .error (.unusable path))⟩
  readable : ∃ bytes contents, r.disk.read path = .ok bytes ∧ scan bytes = .ok contents ∧
    (contents.entries = acknowledged r.log ∨
      ∃ e, FailedLast path r.log e ∧ contents.entries = acknowledged r.log ++ [e])

theorem Intact.safe (h : r.Intact path place) : r.Safe path where
  clean hgood := by rw [h.fileAt.read, h.clean hgood]
  closed hpoisoned more := by rw [calls_of_poisoned hpoisoned, h.path_eq]
  readable := h.exists_scan

end WriterRun

/-! ## Runs of a host -/

/-- A host at work on a disk, with the entries that its commands became or would have become, and
its answers. -/
structure HostRun where
  host : Host
  disk : Disk
  log : List (Entry × Except HostFault Outcome) := []

namespace HostRun

variable {r : HostRun} {policy : Policy} {path : Path} {place : Place} {pending : Entry → Prop}

/-- Submits one more command. -/
def submit (r : HostRun) (c : Address × Command) : HostRun :=
  match (r.host.submit c.1 c.2).run r.disk with
  | ((host, result), disk) => ⟨host, disk, r.log ++ [(r.host.nextEntry c.1 c.2, result)]⟩

/-- Submits more commands, one after the other. -/
def submits (r : HostRun) (commands : List (Address × Command)) : HostRun :=
  commands.foldl submit r

/-- The host holds what the acknowledged entries lead to. -/
def Intact (policy : Policy) (path : Path) (place : Place) (r : HostRun) : Prop :=
  r.host.Holds policy path place r.disk (acknowledged r.log) fun _ => True

theorem Intact.submit (h : r.Intact policy path place) {c : Address × Command}
    (hstorable : r.host.state.check c.1 c.2 = .ok () → (r.host.nextEntry c.1 c.2).Storable) :
    (r.submit c).Intact policy path place := by
  obtain ⟨h', result, d', hsubmit, -, -, hcases⟩ := Host.Holds.submit h hstorable
  simp only [HostRun.submit, hsubmit, Intact]
  rcases hcases with ⟨refusal, rfl, rfl, rfl⟩ | ⟨outcome, rfl, hholds⟩ | ⟨fault, rfl, hholds⟩ |
    ⟨rfl, rfl, rfl⟩
  · rwa [acknowledged_concat_error]
  · rw [acknowledged_concat_ok]
    exact hholds.imp fun _ _ => trivial
  · rw [acknowledged_concat_error]
    exact hholds.imp fun _ _ => trivial
  · rwa [acknowledged_concat_error]

theorem log_submit (r : HostRun) (c : Address × Command) :
    (r.submit c).log = r.log ++
      [(r.host.nextEntry c.1 c.2, ((r.host.submit c.1 c.2).run r.disk).1.2)] := rfl

theorem log_prefix_submits (r : HostRun) (commands : List (Address × Command)) :
    r.log <+: (r.submits commands).log := by
  induction commands generalizing r with
  | nil => exact List.prefix_refl _
  | cons c commands ih =>
      refine List.IsPrefix.trans ?_ (ih (r.submit c))
      rw [log_submit]
      exact List.prefix_append _ _

/-- The entries that are put into the journal can be framed. -/
def Framed (r : HostRun) : Prop :=
  ∀ call ∈ r.log, (∀ refusal, call.2 ≠ .error (.refused refusal)) → call.1.Storable

theorem Intact.submits (h : r.Intact policy path place) {commands : List (Address × Command)}
    (hframed : (r.submits commands).Framed) : (r.submits commands).Intact policy path place := by
  induction commands generalizing r with
  | nil => exact h
  | cons c commands ih =>
      have hcons : r.submits (c :: commands) = (r.submit c).submits commands := rfl
      rw [hcons] at hframed ⊢
      refine ih (h.submit fun hcheck => ?_) hframed
      have hcall : (r.host.nextEntry c.1 c.2, ((r.host.submit c.1 c.2).run r.disk).1.2) ∈
          (r.submit c).log := by
        rw [log_submit]
        exact List.mem_append_right _ (List.mem_singleton.2 rfl)
      exact hframed _ (((r.submit c).log_prefix_submits commands).subset hcall)
        (Host.run_submit_ne_refused hcheck r.disk)

/-- The state and the hash of the journal are those of the acknowledged entries, and so is the
journal file unless its writer gave up. -/
structure Safe (policy : Policy) (path : Path) (r : HostRun) : Prop where
  state : rebuild policy (acknowledged r.log) = .ok r.host.state
  hash : r.host.hasher.finish Blake3.digest = journalHash Blake3.digest (acknowledged r.log)
  clean : ∀ w, r.host.writer = some w → w.poisoned = false →
    r.disk.read path = .ok (journalFile (acknowledged r.log))
  readable : ∃ bytes contents, r.disk.read path = .ok bytes ∧ scan bytes = .ok contents ∧
    (contents.entries = acknowledged r.log ∨
      ∃ e, contents.entries = acknowledged r.log ++ [e])

theorem Intact.safe (h : r.Intact policy path place) : r.Safe policy path := by
  obtain ⟨w, hwriter, hkeeps⟩ := h.keeps
  refine ⟨h.trail.rebuild, ?_, ?_, ?_⟩
  · rw [h.hasher]
    rfl
  · intro w' hwriter' hgood
    obtain rfl : w = w' := by simpa [hwriter] using hwriter'
    rw [hkeeps.fileAt.read, hkeeps.clean hgood]
  · obtain ⟨bytes, contents, hread, hscan, hentries⟩ := hkeeps.exists_scan
    refine ⟨bytes, contents, hread, hscan, hentries.imp_right ?_⟩
    rintro ⟨e, -, he⟩
    exact ⟨e, he⟩

end HostRun

/-! ## What is acknowledged stays -/

/-- Whatever fails on the disk after a journal was started: its writer loses no entry that it
acknowledged, and a host over it holds exactly what its acknowledged entries lead to. -/
theorem acknowledged_entries_stay
    {path : Path} {d₀ d : Disk} {w : JournalWriter} {contents : JournalContents}
    (hsound : d₀.Sound) (hnew : JournalWriter.hasContents d₀ path = false)
    (hopen : d₀.perform (JournalWriter.openAt path) = (.ok (w, contents), d)) :
    (∀ entries : List Entry, (∀ e ∈ entries, e.Storable) →
      (WriterRun.calls ⟨w, d, []⟩ entries).Safe path) ∧
    ∀ (policy : Policy) (commands : List (Address × Command)) (r : HostRun),
      r = HostRun.submits ⟨{ state := .initial policy, writer := some w }, d, []⟩ commands →
      r.Framed → r.Safe policy path := by
  obtain ⟨-, ⟨place, hkeeps⟩, -⟩ := JournalWriter.openAt_new_eq_ok hsound hnew hopen
  constructor
  · intro entries hstorable
    have hstart : WriterRun.Intact path place ⟨w, d, []⟩ := hkeeps.imp fun _ => False.elim
    exact (hstart.calls hstorable).safe
  · intro policy commands r hr hframed
    have hstart : HostRun.Intact policy path place
        ⟨{ state := .initial policy, writer := some w }, d, []⟩ :=
      ⟨.start, rfl, w, rfl, hkeeps.imp fun _ => False.elim⟩
    rw [hr] at hframed ⊢
    exact (hstart.submits hframed).safe

/-- A journal can be started on this disk and takes an entry.  Then five bytes of a frame are stored
and cut off again, and then a whole frame is stored that can neither be acknowledged nor cut off. -/
def failingDisk : Disk :=
  { mishaps := [none, none, none, none, none, some 5, none, none, some 1000, some 0] }

/-- The writer of the journal that was started on it. -/
def startedWriter : JournalWriter :=
  ⟨⟨"/journal"⟩, 0, 0, journalHeaderLength, false⟩

/-- The disk with the journal that was started on it. -/
def startedDisk : Disk :=
  (failingDisk.perform (JournalWriter.openAt ⟨"/journal"⟩)).2

/-- Three nodes register. -/
def threeNodes : List (Address × Command) :=
  [(.ofLow 1, .registerNode "s"), (.ofLow 2, .registerNode "s"), (.ofLow 3, .registerNode "s")]

/-- The host over the journal after the three registrations. -/
def threeSubmitted : HostRun :=
  HostRun.submits ⟨{ state := .initial {}, writer := some startedWriter }, startedDisk, []⟩
    threeNodes

/-- What the registrations become when only the first one is acknowledged. -/
def threeAttempts : List Entry :=
  [⟨1, .ofLow 1, .registerNode "s"⟩, ⟨2, .ofLow 2, .registerNode "s"⟩,
    ⟨2, .ofLow 3, .registerNode "s"⟩]

theorem acknowledged_entries_stay_on_failingDisk :
    (WriterRun.calls ⟨startedWriter, startedDisk, []⟩ threeAttempts).writer.poisoned = true ∧
      (WriterRun.calls ⟨startedWriter, startedDisk, []⟩ threeAttempts).Safe ⟨"/journal"⟩ ∧
      threeSubmitted.Safe {} ⟨"/journal"⟩ := by
  have hsound : failingDisk.Sound := by
    intro place id hinode
    cases place <;> simp [inode?, failingDisk, OrderedMap.get?_empty] at hinode
  have hopen : failingDisk.perform (JournalWriter.openAt ⟨"/journal"⟩) =
      (.ok (startedWriter, ⟨[], journalHeaderLength, 0⟩), startedDisk) := by
    decide +kernel
  have hstorable : ∀ e ∈ threeAttempts, e.Storable := by
    have hshort : ∀ e ∈ threeAttempts, e.sequence < capacity 8 ∧ e.encode.length < capacity 4 := by
      decide +kernel
    intro e he
    refine ⟨(hshort e he).1, ?_, (hshort e he).2⟩
    simp only [threeAttempts, List.mem_cons, List.not_mem_nil, or_false] at he
    rcases he with rfl | rfl | rfl <;> trivial
  have hlog : threeSubmitted.log.map (·.1) = threeAttempts := by decide +kernel
  have hall := acknowledged_entries_stay hsound (by decide +kernel) hopen
  refine ⟨by decide +kernel, hall.1 _ hstorable, hall.2 _ _ _ rfl fun call hcall _ => ?_⟩
  have hattempt : call.1 ∈ threeSubmitted.log.map (·.1) := List.mem_map_of_mem hcall
  rw [hlog] at hattempt
  exact hstorable _ hattempt

end Arbiter
