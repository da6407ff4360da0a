import Arbiter.Proofs.Delimiting
import Arbiter.Proofs.StateImage
import Arbiter.StateProof

/-!
# Bytes that are hashed

An entry is told from its encoding whatever follows it, so the bytes that are hashed for a journal
determine its entries, although nothing stands between one entry and the next.  The bytes that are
hashed for a state determine the state.  A hash that grows entry by entry has been fed the same
bytes as the hash of all the entries at once.
-/

namespace Arbiter

/-! ## Journals -/

theorem Entry.image_append_inj {e e' : Entry} {rest rest' : Bytes} (he : e.InRange)
    (he' : e'.InRange) (h : e.image ++ rest = e'.image ++ rest') : e = e' ∧ rest = rest' := by
  have hparts : ∀ (e : Entry) (rest : Bytes), e.image ++ rest =
      (leBytes 8 e.sequence ++ leBytes 8 e.encode.length) ++ (Entry.codec.encode e ++ rest) := by
    intro e rest
    simp only [Entry.image, Entry.encode, List.append_assoc]
  rw [hparts, hparts] at h
  -- The two numbers in front take sixteen bytes in either image.
  exact Codec.encode_append_inj he.fits he'.fits (List.append_inj_right h (by simp))

theorem journalImage_inj {entries entries' : List Entry} (hentries : ∀ e ∈ entries, e.InRange)
    (hentries' : ∀ e ∈ entries', e.InRange) (h : journalImage entries = journalImage entries') :
    entries = entries' := by
  -- An image is never empty, so neither journal ends where the other one goes on.
  have hvisible : ∀ (e : Entry) (rest : Bytes), e.image ++ rest ≠ [] := by
    intro e rest hnil
    have hlength := congrArg List.length hnil
    simp [Entry.image] at hlength
  induction entries generalizing entries' with
  | nil =>
      cases entries' with
      | nil => rfl
      | cons e' entries' => exact absurd h.symm (hvisible e' _)
  | cons e entries ih =>
      cases entries' with
      | nil => exact absurd h (hvisible e _)
      | cons e' entries' =>
          rw [List.forall_mem_cons] at hentries hentries'
          obtain ⟨rfl, hrest⟩ := Entry.image_append_inj hentries.1 hentries'.1 h
          rw [ih hentries.2 hentries'.2 hrest]

theorem journalImage_append (front back : List Entry) :
    journalImage (front ++ back) = journalImage front ++ journalImage back :=
  List.flatMap_append

namespace JournalHasher

/-- Entries that are hashed one at a time are hashed in one go. -/
theorem foldl_update (h : JournalHasher) (entries : List Entry) :
    entries.foldl update h = h.updateAll entries := by
  induction entries generalizing h with
  | nil => simp [updateAll, journalImage]
  | cons e entries ih => simp [ih, update, updateAll, journalImage]

theorem updateAll_append (h : JournalHasher) (front back : List Entry) :
    h.updateAll (front ++ back) = (h.updateAll front).updateAll back := by
  simp only [updateAll, journalImage_append, List.append_assoc]

theorem finish_updateAll {δ : Type} (digest : Bytes → δ) (entries : List Entry) :
    (updateAll {} entries).finish digest = journalHash digest entries := rfl

end JournalHasher

/-! ## States -/

theorem Policy.InRange.fits {p : Policy} (h : p.InRange) : Policy.codec.Fits p :=
  ⟨p.solveAuthority.fits, h⟩

namespace State

variable {s s' : State}

theorem encode_eq_of_image (h : s.image = s'.image) : s.encode = s'.encode :=
  List.append_cancel_left h

theorem image_inj (hs : s.InRange) (hs' : s'.InRange) (hlength : s.encode.length < capacity 8)
    (h : s.image = s'.image) : s = s' := by
  have hencode := encode_eq_of_image h
  have hfits : codec.Fits s := covers_codec s hs hlength
  have hfits' : codec.Fits s' := covers_codec s' hs' (by rwa [hencode] at hlength)
  exact (Codec.encode_append_inj hfits hfits' (congrArg (· ++ []) hencode)).1

/-- The hashed bytes of a state of some version determine its policy. -/
theorem policy_eq_of_image (hpolicy : s.policy.InRange) (hpolicy' : s'.policy.InRange)
    (hversion : s.version = s'.version) (h : s.image = s'.image) : s.policy = s'.policy := by
  have hparts : ∀ s : State, s.encode = Codec.number.encode s.version ++
      (Policy.codec.encode s.policy ++ (Roster.codec.encode s.roster ++
        (Catalog.codec.encode s.catalog ++ Docket.codec.encode s.docket))) := fun _ => rfl
  have hencode := encode_eq_of_image h
  rw [hparts, hparts, hversion] at hencode
  exact (Codec.encode_append_inj hpolicy.fits hpolicy'.fits
    (List.append_cancel_left hencode)).1

end State

/-! ## What is told from the hashed bytes -/

/-- Two lists of entries with the same hashed bytes are the same, and so are two states, whether a
controller can be in them or not.  All their numbers, and the lengths of what is hashed, are ones of
sixty-four bits.  Hashing some entries one at a time, and later the others, gives the hash of all of
them. -/
theorem hashed_bytes_tell_what_is_hashed {δ : Type} (digest : Bytes → δ) :
    (∀ entries entries' : List Entry, (∀ e ∈ entries, e.InRange) → (∀ e ∈ entries', e.InRange) →
      journalImage entries = journalImage entries' → entries = entries') ∧
    (∀ front back : List Entry,
      (back.foldl JournalHasher.update (front.foldl JournalHasher.update {})).finish digest =
        journalHash digest (front ++ back)) ∧
    ∀ s s' : State, s.InRange → s'.InRange → s.encode.length < capacity 8 →
      s.image = s'.image → s = s' := by
  refine ⟨?_, ?_, ?_⟩
  · intro entries entries' hentries hentries' himage
    exact journalImage_inj hentries hentries' himage
  · intro front back
    rw [JournalHasher.foldl_update, JournalHasher.foldl_update, ← JournalHasher.updateAll_append,
      JournalHasher.finish_updateAll]
  · intro s s' hs hs' hlength himage
    exact State.image_inj hs hs' hlength himage

theorem hashed_bytes_tell_what_is_hashed_of_wideReply :
    journalImage [Entry.wideReply, Entry.wideReply] ≠ journalImage [Entry.wideReply] ∧
      ([Entry.wideReply].foldl JournalHasher.update
        ([Entry.wideReply].foldl JournalHasher.update {})).finish Blake3.digest =
          journalHash Blake3.digest [Entry.wideReply, Entry.wideReply] ∧
      (State.initial {}).image ≠ (State.initial { minReplies := 2 }).image := by
  have hinitial : ∀ policy : Policy, policy.InRange → (State.initial policy).InRange := by
    intro policy hpolicy
    have hroom : 0 < capacity 8 := by decide
    exact ⟨hroom, hpolicy, nofun, ⟨nofun, hroom⟩, ⟨nofun, hroom⟩⟩
  obtain ⟨hjournals, hsplit, hstates⟩ := hashed_bytes_tell_what_is_hashed Blake3.digest
  refine ⟨?_, hsplit [Entry.wideReply] [Entry.wideReply], ?_⟩
  · intro himage
    exact absurd (hjournals _ _ (by decide +kernel) (by decide +kernel) himage) (by decide)
  · intro himage
    have hother : ({ minReplies := 2 } : Policy).InRange := ⟨by decide, by decide, by decide⟩
    have hsame := hstates _ _ (hinitial _ Policy.inRange_default) (hinitial _ hother)
      (by decide +kernel) himage
    exact absurd hsame (by decide)

end Arbiter
