import Arbiter.Disk.Change
import Mathlib.Data.List.Basic

/-!
# What a change leaves on the disk

Every change of a disk is described by its result and by the disk it leaves behind.  Changes of the
contents of one file leave all names and all other files as they are.
-/

namespace Arbiter

namespace Disk

variable {ε ε' α β : Type} {d d' : Disk}

/-- What work gives, and the disk it leaves behind. -/
def perform (d : Disk) (work : OnDisk ε α) : Except ε α × Disk :=
  (ExceptT.run work).run d

/-! ## Putting work together -/

theorem perform_pure (a : α) : d.perform (pure a : OnDisk ε α) = (.ok a, d) := rfl

theorem perform_bind (work : OnDisk ε α) (next : α → OnDisk ε β) :
    d.perform (work >>= next) =
      match d.perform work with
      | (.error fault, d') => (.error fault, d')
      | (.ok a, d') => d'.perform (next a) := by
  change (ExceptT.bindCont next (d.perform work).1).run (d.perform work).2 = _
  rcases d.perform work with ⟨_ | _, _⟩ <;> rfl

theorem perform_adapt (work : OnDisk ε α) (f : ε → ε') :
    d.perform (work.adapt f : OnDisk ε' α) =
      ((d.perform work).1.mapError f, (d.perform work).2) := rfl

/-- Work that goes on whether or not its first part fails. -/
theorem run_bind_run (work : OnDisk ε α) (next : Except ε α → StateM Disk β) :
    (work.run >>= next).run d = (next (d.perform work).1).run (d.perform work).2 := rfl

theorem perform_get : d.perform (get : OnDisk ε Disk) = (.ok d, d) := rfl

theorem perform_look (f : Disk → Except ε α) : d.perform (look f) = (f d, d) := rfl

theorem perform_settled (result : Except ε α) : d.perform (settled result) = (result, d) := rfl

theorem perform_bind_eq_ok_iff {work : OnDisk ε α} {next : α → OnDisk ε β} {b : β} :
    d.perform (work >>= next) = (.ok b, d') ↔
      ∃ a d₁, d.perform work = (.ok a, d₁) ∧ d₁.perform (next a) = (.ok b, d') := by
  rw [perform_bind]
  constructor
  · intro h
    rcases hwork : d.perform work with ⟨result, d₁⟩
    rw [hwork] at h
    cases result with
    | error _ => simp at h
    | ok a => exact ⟨a, d₁, rfl, h⟩
  · rintro ⟨a, d₁, hwork, hnext⟩
    rw [hwork]
    exact hnext

/-- Work fails in its first part or in its second one. -/
theorem perform_bind_eq_error_iff {work : OnDisk ε α} {next : α → OnDisk ε β} {fault : ε} :
    d.perform (work >>= next) = (.error fault, d') ↔
      d.perform work = (.error fault, d') ∨
        ∃ a d₁, d.perform work = (.ok a, d₁) ∧ d₁.perform (next a) = (.error fault, d') := by
  rw [perform_bind]
  rcases d.perform work with ⟨_ | a, d₁⟩ <;> simp

theorem perform_adapt_eq_ok_iff {work : OnDisk ε α} {f : ε → ε'} {a : α} :
    d.perform (work.adapt f : OnDisk ε' α) = (.ok a, d') ↔ d.perform work = (.ok a, d') := by
  rw [perform_adapt]
  rcases d.perform work with ⟨_ | _, _⟩ <;> simp [Except.mapError]

/-- How the next change goes is used up, and the disk is otherwise as it was. -/
def spend (d : Disk) : Disk :=
  { d with mishaps := d.mishaps.tail }

/-- The next change goes as it should. -/
def Calm (d : Disk) : Prop :=
  d.mishaps.headD none = none

theorem perform_attempt (change : Disk → Except DiskFault (α × Disk)) :
    d.perform (attempt change) =
      match d.mishaps.headD none with
      | some _ => (.error .broken, d.spend)
      | none =>
        match change d.spend with
        | .error fault => (.error fault, d.spend)
        | .ok (a, d') => (.ok a, d') := by
  unfold attempt
  rw [perform_bind]
  have hnext : d.perform nextMishap = (.ok (d.mishaps.headD none), d.spend) := rfl
  rw [hnext]
  cases d.mishaps.headD none with
  | some _ => rfl
  | none =>
      change (match change d.spend with | .error fault => _ | .ok (a, d') => _) = _
      cases change d.spend <;> rfl

theorem perform_attempt_eq_ok {change : Disk → Except DiskFault (α × Disk)} {a : α}
    (h : d.perform (attempt change) = (.ok a, d')) :
    change d.spend = .ok (a, d') := by
  rw [perform_attempt] at h
  split at h
  · simp at h
  · split at h
    · simp at h
    · rename_i hchange
      rw [hchange]
      simpa using h

theorem perform_attempt_eq_error {change : Disk → Except DiskFault (α × Disk)}
    {fault : DiskFault} (h : d.perform (attempt change) = (.error fault, d')) :
    d' = d.spend := by
  rw [perform_attempt] at h
  split at h
  · exact (congrArg Prod.snd h).symm
  · split at h
    · exact (congrArg Prod.snd h).symm
    · simp at h

theorem Calm.perform_attempt (hcalm : d.Calm) {change : Disk → Except DiskFault (α × Disk)}
    {a : α} (hchange : change d.spend = .ok (a, d')) :
    d.perform (attempt change) = (.ok a, d') := by
  rw [Disk.perform_attempt, hcalm]
  simp [hchange]

/-- A change that was made was not one that the disk failed at. -/
theorem calm_of_perform_attempt {change : Disk → Except DiskFault (α × Disk)} {a : α}
    (h : d.perform (attempt change) = (.ok a, d')) : d.Calm := by
  rw [perform_attempt] at h
  split at h
  · simp at h
  · next hcalm => exact hcalm

/-- A change that is possible is made, unless the disk fails. -/
theorem perform_attempt_cases {change : Disk → Except DiskFault (α × Disk)} {a : α}
    (hchange : change d.spend = .ok (a, d')) :
    d.perform (attempt change) = (.ok a, d') ∨
      d.perform (attempt change) = (.error .broken, d.spend) ∧ ¬ d.Calm := by
  by_cases hcalm : d.Calm
  · exact .inl (hcalm.perform_attempt hchange)
  · refine .inr ⟨?_, hcalm⟩
    rw [perform_attempt]
    cases hmishap : d.mishaps.headD none with
    | none => exact absurd hmishap hcalm
    | some _ => rfl

/-! ## Contents -/

theorem content_withContent_self {id : FileId} {bytes : Bytes} (hid : id < d.contents.length) :
    (d.withContent id bytes).content id = bytes := by
  simp [content, withContent, hid]

theorem content_withContent_of_ne {id id' : FileId} {bytes : Bytes} (hne : id' ≠ id) :
    (d.withContent id bytes).content id' = d.content id' := by
  simp [content, withContent, List.getElem?_set_ne (Ne.symm hne)]

/-- The disks differ at most in the contents of one file and in how the coming changes go. -/
structure Touched (id : FileId) (d d' : Disk) : Prop where
  inodes : d'.inodes = d.inodes
  length : d'.contents.length = d.contents.length
  others : ∀ {id' : FileId}, id' ≠ id → d'.content id' = d.content id'

namespace Touched

variable {id : FileId} {d'' : Disk}

theorem refl (id : FileId) (d : Disk) : Touched id d d where
  inodes := rfl
  length := rfl
  others _ := rfl

theorem trans (h : Touched id d d') (h' : Touched id d' d'') : Touched id d d'' where
  inodes := h'.inodes.trans h.inodes
  length := h'.length.trans h.length
  others hne := (h'.others hne).trans (h.others hne)

theorem spend (id : FileId) (d : Disk) : Touched id d d.spend where
  inodes := rfl
  length := rfl
  others _ := rfl

theorem withContent (id : FileId) (d : Disk) (bytes : Bytes) :
    Touched id d (d.withContent id bytes) where
  inodes := rfl
  length := by simp [Disk.withContent]
  others hne := content_withContent_of_ne hne

end Touched

/-- Adding bytes to a file stores some first part of them, and all of them if it succeeds. -/
theorem perform_append (d : Disk) (id : FileId) (bytes : Bytes) :
    ∃ count result, d.perform (append id bytes) =
        (result, d.spend.withContent id (d.content id ++ bytes.take count)) ∧
      (result = .ok () → bytes.take count = bytes) := by
  unfold append
  rw [perform_bind]
  have hnext : d.perform nextMishap = (.ok (d.mishaps.headD none), d.spend) := rfl
  rw [hnext]
  cases d.mishaps.headD none with
  | some count => exact ⟨_, _, rfl, by simp⟩
  | none =>
      refine ⟨_, _, rfl, fun hok => ?_⟩
      have hroom : ¬ d.spend.room (d.spend.content id).length bytes.length < bytes.length := by
        intro hless
        rw [if_pos hless] at hok
        simp at hok
      exact List.take_of_length_le (Nat.not_lt.1 hroom)

/-- When adding bytes to an existing file succeeds, they are all there. -/
theorem perform_append_eq_ok {id : FileId} {bytes : Bytes} (hid : id < d.contents.length)
    (h : d.perform (append id bytes) = (.ok (), d')) :
    Touched id d d' ∧ d'.content id = d.content id ++ bytes := by
  obtain ⟨count, result, hstored, hwhole⟩ := perform_append d id bytes
  rw [h, Prod.mk.injEq] at hstored
  obtain ⟨rfl, rfl⟩ := hstored
  rw [hwhole rfl]
  exact ⟨(Touched.spend _ d).trans (.withContent _ _ _), content_withContent_self hid⟩

theorem perform_sync (d : Disk) (id : FileId) :
    ∃ result, d.perform (sync id) = (result, d.spend) := by
  unfold sync
  rw [perform_attempt]
  cases d.mishaps.headD none with
  | some _ => exact ⟨_, rfl⟩
  | none => exact ⟨_, rfl⟩

/-- Cutting a file either cuts it or leaves it as it is. -/
theorem perform_setLength (d : Disk) (id : FileId) (length : Nat) :
    d.perform (setLength id length) = (.ok (), d.spend.withContent id
        ((d.content id).take length ++
          List.replicate (length - (d.content id).length) 0)) ∨
      ∃ fault, d.perform (setLength id length) = (.error fault, d.spend) := by
  cases h : d.perform (setLength id length) with
  | mk result d' =>
      cases result with
      | error fault =>
          rw [perform_attempt_eq_error h]
          exact .inr ⟨fault, rfl⟩
      | ok _ =>
          have hchange := perform_attempt_eq_ok h
          simp only at hchange
          split at hchange
          · simp at hchange
          · obtain rfl : _ = d' := by simpa using hchange
            exact .inl rfl

/-- Cutting a file and syncing it leaves the part of it, or the whole file if it fails. -/
theorem perform_cut (d : Disk) {id : FileId} (hid : id < d.contents.length) {length : Nat}
    (hlength : length ≤ (d.content id).length) :
    ∃ result d', d.perform (do setLength id length; sync id) = (result, d') ∧ Touched id d d' ∧
      (d'.content id = (d.content id).take length ∨
        d'.content id = d.content id ∧ ∃ fault, result = .error fault) := by
  rw [perform_bind]
  rcases perform_setLength d id length with hcut | ⟨fault, hcut⟩
  · rw [Nat.sub_eq_zero_of_le hlength, List.replicate_zero, List.append_nil] at hcut
    have htouched : Touched id d (d.spend.withContent id ((d.content id).take length)) :=
      (Touched.spend id d).trans (.withContent id _ _)
    obtain ⟨result, hsync⟩ :=
      perform_sync (d.spend.withContent id ((d.content id).take length)) id
    rw [hcut]
    exact ⟨result, _, hsync, htouched.trans (.spend id _), .inl (content_withContent_self hid)⟩
  · rw [hcut]
    exact ⟨_, _, rfl, .spend id d, .inr ⟨rfl, fault, rfl⟩⟩

/-! ## Disks that do not fail -/

theorem withContent_content (d : Disk) (id : FileId) : d.withContent id (d.content id) = d := by
  have hset : d.contents.set id (d.content id) = d.contents := by
    rcases Nat.lt_or_ge id d.contents.length with hid | hid
    · simp [content, hid]
    · exact List.set_eq_of_length_le hid
  rw [withContent, hset]

theorem withContent_withContent (d : Disk) (id : FileId) (bytes bytes' : Bytes) :
    (d.withContent id bytes).withContent id bytes' = d.withContent id bytes' := by
  simp [withContent]

/-- Every change goes as it should, and there is room for all that is written. -/
structure Reliable (d : Disk) : Prop where
  mishaps : d.mishaps = []
  limit : d.limit = none

namespace Reliable

theorem calm (h : d.Reliable) : d.Calm := by
  rw [Calm, h.mishaps]
  rfl

theorem spend_eq (h : d.Reliable) : d.spend = d := by
  have hmishaps : d.mishaps.tail = d.mishaps := by
    rw [h.mishaps]
    rfl
  rw [spend, hmishaps]

theorem withContent (h : d.Reliable) (id : FileId) (bytes : Bytes) :
    (d.withContent id bytes).Reliable :=
  ⟨h.mishaps, h.limit⟩

theorem perform_append (h : d.Reliable) (id : FileId) (bytes : Bytes) :
    d.perform (append id bytes) = (.ok (), d.withContent id (d.content id ++ bytes)) := by
  have hnext : d.perform nextMishap = (.ok none, d) := by
    change (Except.ok (d.mishaps.headD none), d.spend) = _
    rw [h.calm, h.spend_eq]
  unfold append
  rw [perform_bind, hnext]
  have hroom : d.room (d.content id).length bytes.length = bytes.length := by
    rw [room, h.limit]
  change (if d.room _ _ < bytes.length then _ else _,
    d.withContent id (d.content id ++ bytes.take (d.room _ _))) = _
  rw [hroom, if_neg (Nat.lt_irrefl _), List.take_length]

theorem perform_sync (h : d.Reliable) (id : FileId) : d.perform (sync id) = (.ok (), d) := by
  refine h.calm.perform_attempt ?_
  rw [h.spend_eq]

theorem perform_setLength (h : d.Reliable) {id : FileId} {length : Nat}
    (hlength : length ≤ (d.content id).length) :
    d.perform (setLength id length) = (.ok (), d.withContent id ((d.content id).take length)) := by
  refine h.calm.perform_attempt ?_
  rw [h.spend_eq]
  simp [Nat.not_lt.2 hlength, Nat.sub_eq_zero_of_le hlength]

end Reliable

end Disk

end Arbiter
