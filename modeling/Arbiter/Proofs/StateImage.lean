import Arbiter.Proofs.Soundness
import Arbiter.Snapshot

/-!
# Reading snapshots back

A sound state fits the binary format as long as its numbers and the length of its encoding are
numbers of sixty-four bits, and its snapshot is read back as the same state.
-/

namespace Arbiter

/-! ## Records in range -/

/-- The limits of a policy are numbers of sixty-four bits. -/
def Policy.InRange (p : Policy) : Prop :=
  p.minReplies < capacity 8 ∧ p.maxTagLength < capacity 8 ∧ p.maxPayloadLength < capacity 8

theorem Policy.inRange_default : ({} : Policy).InRange :=
  ⟨by decide, by decide, by decide⟩

theorem SolveAuthority.fits (a : SolveAuthority) : SolveAuthority.codec.Fits a := by
  change a.index < capacity 4
  rw [capacity_four]
  cases a <;> simp [index]

theorem SolveAuthority.covers_codec : SolveAuthority.codec.Covers fun _ => True :=
  fun a _ _ => a.fits

theorem Policy.covers_codec : Policy.codec.Covers Policy.InRange :=
  (SolveAuthority.covers_codec.pair (Codec.covers_number.pair
    (Codec.covers_number.pair Codec.covers_number))).of_encode
    (fun p => (p.solveAuthority, p.minReplies, p.maxTagLength, p.maxPayloadLength))
    (fun _ => rfl) (fun _ hfits => hfits) fun _ hp => ⟨trivial, hp⟩

/-- The numbers of a node are in range. -/
def Node.InRange (n : Node) : Prop :=
  InPoints n.reputation ∧ n.registeredAt < capacity 8

theorem Node.covers_codec : Node.codec.Covers Node.InRange :=
  (Address.covers_codec.pair (Codec.covers_text.pair
    (covers_pointsCodec.pair Codec.covers_number))).of_encode
    (fun n => (n.address, n.spec, n.reputation, n.registeredAt))
    (fun _ => rfl) (fun _ hfits => hfits) fun _ hn => ⟨trivial, trivial, hn⟩

theorem Roster.covers_codec : Roster.codec.Covers fun r => ∀ b ∈ r.nodes.toList, b.2.InRange :=
  (Codec.Covers.map Address.covers_codec Node.covers_codec Address.visible_codec).of_encode
    Roster.nodes (fun _ => rfl) (fun _ hfits => hfits) fun _ hr b hb => ⟨trivial, hr b hb⟩

/-- The numbers of an application are in range. -/
def Application.InRange (a : Application) : Prop :=
  a.id < capacity 8 ∧ a.createdAt < capacity 8

theorem Application.covers_codec : Application.codec.Covers Application.InRange :=
  (Codec.covers_number.pair (Codec.covers_text.pair ((Codec.covers_text.list
    Codec.visible_text).pair (Codec.covers_flag.pair (Address.covers_codec.pair
      Codec.covers_number))))).of_encode
    (fun a => (a.id, a.info, a.requiredSpecs, a.multiReplyAllowed, a.owner, a.createdAt))
    (fun _ => rfl) (fun _ hfits => hfits)
    fun _ ha => ⟨ha.1, trivial, fun _ _ => trivial, trivial, trivial, ha.2⟩

theorem Catalog.covers_codec : Catalog.codec.Covers fun c =>
    (∀ b ∈ c.applications.toList, b.1 < capacity 8 ∧ b.2.InRange) ∧ c.lastId < capacity 8 :=
  ((Codec.Covers.map Codec.covers_number Application.covers_codec Codec.visible_number).pair
    Codec.covers_number).of_encode (fun c => (c.applications, c.lastId))
    (fun _ => rfl) (fun _ hfits => hfits) fun _ hc => hc

/-- The numbers of a reply are in range. -/
def Reply.InRange (r : Reply) : Prop :=
  (∀ s ∈ r.scores, InPoints s.value) ∧ r.submittedAt < capacity 8

theorem Reply.covers_codec : Reply.codec.Covers Reply.InRange :=
  (Address.covers_codec.pair ((Score.covers_codec.list Score.visible_codec).pair
    Codec.covers_number)).of_encode (fun r => (r.author, r.scores, r.submittedAt))
    (fun _ => rfl) (fun _ hfits => hfits) fun _ hr => ⟨trivial, hr⟩

/-- The numbers of a standing are in range. -/
def Standing.InRange (s : Standing) : Prop :=
  InPoints s.total ∧ s.contributors < capacity 8

theorem Standing.covers_codec : Standing.codec.Covers Standing.InRange :=
  (Address.covers_codec.pair (covers_pointsCodec.pair Codec.covers_number)).of_encode
    (fun s => (s.address, s.total, s.contributors))
    (fun _ => rfl) (fun _ hfits => hfits) fun _ hs => ⟨trivial, hs⟩

theorem Standing.visible_codec : Standing.codec.Visible :=
  Codec.Visible.of_encode (Address.visible_codec.pair_left (d := pointsCodec.pair Codec.number))
    (fun s => (s.address, s.total, s.contributors)) fun _ => rfl

/-- The numbers of a resolution are in range. -/
def Resolution.InRange (r : Resolution) : Prop :=
  r.solvedAt < capacity 8 ∧ ∀ s ∈ r.standings, s.InRange

theorem Resolution.covers_codec : Resolution.codec.Covers Resolution.InRange :=
  (Address.covers_codec.pair (Address.covers_codec.pair (Codec.covers_number.pair
    (Standing.covers_codec.list Standing.visible_codec)))).of_encode
    (fun r => (r.solver, r.solvedBy, r.solvedAt, r.standings))
    (fun _ => rfl) (fun _ hfits => hfits) fun _ hr => ⟨trivial, trivial, hr⟩

/-- The numbers of an event are in range. -/
structure Event.InRange (e : Event) : Prop where
  id : e.id < capacity 8
  application : e.application < capacity 8
  createdAt : e.createdAt < capacity 8
  replies : ∀ b ∈ e.replies.toList, b.2.InRange
  resolution : ∀ r, e.resolution = some r → r.InRange

theorem Event.covers_codec : Event.codec.Covers Event.InRange :=
  (Codec.covers_number.pair (Codec.covers_number.pair (Codec.covers_text.pair
    (Address.covers_codec.pair (Codec.covers_number.pair
      ((Codec.Covers.map Address.covers_codec Reply.covers_codec Address.visible_codec).pair
        ((Codec.Covers.map Address.covers_codec Address.covers_codec Address.visible_codec).pair
          (Address.covers_codec.optional.pair Resolution.covers_codec.optional)))))))).of_encode
    (fun e => (e.id, e.application, e.payload, e.sender, e.createdAt, e.replies, e.votes,
      e.electedSolver, e.resolution))
    (fun _ => rfl) (fun _ hfits => hfits)
    fun _ he => ⟨he.id, he.application, trivial, trivial, he.createdAt,
      fun b hb => ⟨trivial, he.replies b hb⟩, fun _ _ => ⟨trivial, trivial⟩,
      fun _ _ => trivial, he.resolution⟩

theorem Docket.covers_codec : Docket.codec.Covers fun d =>
    (∀ b ∈ d.events.toList, b.1 < capacity 8 ∧ b.2.InRange) ∧ d.lastId < capacity 8 :=
  ((Codec.Covers.map Codec.covers_number Event.covers_codec Codec.visible_number).pair
    Codec.covers_number).of_encode (fun d => (d.events, d.lastId))
    (fun _ => rfl) (fun _ hfits => hfits) fun _ hd => hd

/-- The numbers of a state are in range. -/
structure State.InRange (s : State) : Prop where
  version : s.version < capacity 8
  policy : s.policy.InRange
  roster : ∀ b ∈ s.roster.nodes.toList, b.2.InRange
  catalog : (∀ b ∈ s.catalog.applications.toList, b.1 < capacity 8 ∧ b.2.InRange) ∧
    s.catalog.lastId < capacity 8
  docket : (∀ b ∈ s.docket.events.toList, b.1 < capacity 8 ∧ b.2.InRange) ∧
    s.docket.lastId < capacity 8

theorem State.covers_codec : State.codec.Covers State.InRange :=
  (Codec.covers_number.pair (Policy.covers_codec.pair (Roster.covers_codec.pair
    (Catalog.covers_codec.pair Docket.covers_codec)))).of_encode
    (fun s => (s.version, s.policy, s.roster, s.catalog, s.docket))
    (fun _ => rfl) (fun _ hfits => hfits)
    fun _ hs => ⟨hs.version, hs.policy, hs.roster, hs.catalog, hs.docket⟩

/-! ## How many scores there are -/

theorem length_flatMap_le_length_flatMap {α β γ : Type} {f : α → List β} {g : α → List γ}
    (h : ∀ a, (f a).length ≤ (g a).length) (values : List α) :
    (values.flatMap f).length ≤ (values.flatMap g).length := by
  induction values with
  | nil => exact Nat.le_refl _
  | cons a values ih =>
      have := h a
      simp only [List.flatMap_cons, List.length_append]
      omega

theorem Reply.length_scores_le (r : Reply) :
    r.scores.length ≤ (Reply.codec.encode r).length := by
  have hscores := length_le_length_flatMap_of_pos Score.visible_codec r.scores
  have hencode : Reply.codec.encode r = Address.codec.encode r.author ++
      ((Codec.number.encode r.scores.length ++ r.scores.flatMap Score.codec.encode) ++
        Codec.number.encode r.submittedAt) := rfl
  rw [hencode]
  simp only [List.length_append]
  omega

/-- An event has no more scores than bytes. -/
theorem Event.length_scores_le (e : Event) :
    e.scores.length ≤ (Event.codec.encode e).length := by
  have hreplies : e.scores.length ≤ (e.replies.toList.flatMap
      (Address.codec.pair Reply.codec).encode).length := by
    have hscores : e.scores = e.replies.toList.flatMap fun b => b.2.scores := by
      simp [scores, replyList, OrderedMap.values, List.flatMap_map]
    rw [hscores]
    refine length_flatMap_le_length_flatMap (fun b => ?_) _
    have := b.2.length_scores_le
    simp only [Codec.pair, List.length_append]
    omega
  have hmap : (Codec.map Address.codec Reply.codec).encode e.replies =
      Codec.number.encode e.replies.toList.length ++
        e.replies.toList.flatMap (Address.codec.pair Reply.codec).encode := rfl
  have hencode : Event.codec.encode e =
      Codec.number.encode e.id ++ (Codec.number.encode e.application ++
        (Codec.text.encode e.payload ++ (Address.codec.encode e.sender ++
          (Codec.number.encode e.createdAt ++
            ((Codec.map Address.codec Reply.codec).encode e.replies ++
              ((Codec.map Address.codec Address.codec).encode e.votes ++
                (Address.codec.optional.encode e.electedSolver ++
                  Resolution.codec.optional.encode e.resolution))))))) := rfl
  rw [hencode, hmap]
  simp only [List.length_append]
  omega

theorem State.length_event_le {s : State} {id : EventId} {e : Event}
    (he : s.docket.get? id = some e) : (Event.codec.encode e).length ≤ s.encode.length := by
  have hmem : (id, e) ∈ s.docket.events.toList := OrderedMap.mem_toList_iff.2 he
  have hpair := length_le_length_flatMap (f := (Codec.number.pair Event.codec).encode) hmem
  have hevent : ((Codec.number.pair Event.codec).encode (id, e)).length =
      (Codec.number.encode id).length + (Event.codec.encode e).length := List.length_append
  have hencode : s.encode =
      Codec.number.encode s.version ++ (Policy.codec.encode s.policy ++
        (Roster.codec.encode s.roster ++ (Catalog.codec.encode s.catalog ++
          ((Codec.number.encode s.docket.events.toList.length ++
            s.docket.events.toList.flatMap (Codec.number.pair Event.codec).encode) ++
              Codec.number.encode s.docket.lastId)))) := rfl
  rw [hencode]
  simp only [List.length_append]
  omega

/-! ## Sound states fit -/

namespace State

variable {s : State}

theorem Sound.event_inRange (h : s.Sound) (hs : s.Numbered) (hversion : s.version < capacity 8)
    (hlength : s.encode.length < capacity 8) {id : EventId} {e : Event}
    (he : s.docket.get? id = some e) : e.InRange := by
  have hsound := h.events he
  have hnow : ∀ {n : Nat}, n ≤ s.version → n < capacity 8 :=
    fun hn => Nat.lt_of_le_of_lt hn hversion
  refine ⟨?_, ?_, hnow hsound.createdAt, ?_, ?_⟩
  · rw [hs.eventId he]
    exact hnow (Nat.le_trans (hs.event_le_lastId he).2 h.lastEvent)
  · obtain ⟨a, ha⟩ := OrderedMap.contains_iff.1 hsound.application
    exact hnow (Nat.le_trans (hs.application_le_lastId ha).2 h.lastApplication)
  · intro b hb
    have hreply : b.2 ∈ e.replyList := List.mem_map_of_mem hb
    exact ⟨hsound.points b.2 hreply, hnow (hsound.submittedAt b.2 hreply)⟩
  · intro r hr
    refine ⟨hnow (hsound.solvedAt hr), fun standing hstanding => ?_⟩
    rw [hsound.standings hr] at hstanding
    obtain ⟨hpoints, hcount⟩ := Event.inPoints_of_mem_ranking hstanding
    have hscores := e.length_scores_le
    have hevent := length_event_le he
    exact ⟨hpoints, by omega⟩

theorem Sound.inRange (h : s.Sound) (hs : s.Numbered) (hpolicy : s.policy.InRange)
    (hversion : s.version < capacity 8) (hlength : s.encode.length < capacity 8) : s.InRange where
  version := hversion
  policy := hpolicy
  roster b hb := by
    obtain ⟨hregistered, hreputation⟩ := h.roster b.1 b.2 (OrderedMap.mem_toList_iff.1 hb)
    exact ⟨hreputation, Nat.lt_of_le_of_lt hregistered hversion⟩
  catalog := by
    refine ⟨fun b hb => ?_, Nat.lt_of_le_of_lt h.lastApplication hversion⟩
    have ha : s.catalog.get? b.1 = some b.2 := OrderedMap.mem_toList_iff.1 hb
    have hid : b.1 < capacity 8 := Nat.lt_of_le_of_lt
      (Nat.le_trans (hs.application_le_lastId ha).2 h.lastApplication) hversion
    exact ⟨hid, (hs.applicationId ha).symm ▸ hid,
      Nat.lt_of_le_of_lt (h.applications ha) hversion⟩
  docket := by
    refine ⟨fun b hb => ?_, Nat.lt_of_le_of_lt h.lastEvent hversion⟩
    have he : s.docket.get? b.1 = some b.2 := OrderedMap.mem_toList_iff.1 hb
    have hid : b.1 < capacity 8 := Nat.lt_of_le_of_lt
      (Nat.le_trans (hs.event_le_lastId he).2 h.lastEvent) hversion
    exact ⟨hid, h.event_inRange hs hversion hlength he⟩

end State

/-! ## Snapshots -/

theorem Crc.crc64_lt (bytes : Bytes) : Crc.crc64 bytes < capacity 8 :=
  UInt64.toNat_lt _

namespace Snapshot

variable {s : State}

/-- The part of a snapshot that its check is over. -/
def framed (s : State) : Bytes :=
  Header.encode ⟨format, s.version, s.encode.length⟩ ++ s.encode

theorem encode_eq (s : State) : encode s = framed s ++ leBytes 8 (Crc.crc64 (framed s)) := rfl

theorem length_header (h : Header) : h.encode.length = headerLength := by
  simp [Header.encode, magic, headerLength]

theorem length_framed (s : State) : (framed s).length = headerLength + s.encode.length := by
  rw [framed, List.length_append, length_header]

theorem length_encode (s : State) :
    (encode s).length = s.encode.length + (headerLength + trailerLength) := by
  rw [encode_eq, List.length_append, length_framed, length_leBytes]
  simp only [trailerLength]
  omega

theorem computedCheck_append {front back : Bytes} (hback : back.length = trailerLength) :
    computedCheck (front ++ back) = Crc.crc64 front := by
  rw [computedCheck, List.length_append, hback, Nat.add_sub_cancel, List.take_left]

theorem storedCheck_append {front back : Bytes} (hback : back.length = trailerLength) :
    storedCheck (front ++ back) = leNat back := by
  rw [storedCheck, List.length_append, hback, Nat.add_sub_cancel, List.drop_left]

theorem computedCheck_encode (s : State) : computedCheck (encode s) = Crc.crc64 (framed s) :=
  computedCheck_append (length_leBytes 8 _)

theorem storedCheck_encode (s : State) : storedCheck (encode s) = Crc.crc64 (framed s) := by
  rw [encode_eq, storedCheck_append (length_leBytes 8 _), leNat_leBytes (Crc.crc64_lt _)]

theorem body_encode (s : State) : body (encode s) = s.encode := by
  have hlength : (encode s).length - trailerLength = (framed s).length := by
    rw [length_encode, length_framed]
    omega
  rw [body, hlength, encode_eq, List.take_left, framed, ← length_header, List.drop_left]

/-- The fields of a snapshot, one after the other. -/
theorem encode_fields (s : State) : encode s = magic ++ (leBytes 4 format ++ (leBytes 8 s.version ++
    (leBytes 8 s.encode.length ++ (s.encode ++ leBytes 8 (Crc.crc64 (framed s)))))) := by
  simp only [encode_eq, framed, Header.encode, List.append_assoc]

/-- A header is read from its four fields, the first two of which have to be right. -/
theorem readHeader_fields {mark form version length rest : Bytes} (hmark : mark.length = 4)
    (hform : form.length = 4) (hversion : version.length = 8) (hlength : length.length = 8)
    (hrest : trailerLength ≤ rest.length) :
    readHeader (mark ++ (form ++ (version ++ (length ++ rest)))) =
      if mark ≠ magic then .error .badMagic
      else if leNat form ≠ format then .error (.unsupportedFormat (leNat form))
      else .ok ⟨leNat form, leNat version, leNat length⟩ := by
  have hlong : ¬ (mark ++ (form ++ (version ++ (length ++ rest)))).length <
      headerLength + trailerLength := by
    simp only [List.length_append, hmark, hform, hversion, hlength, headerLength]
    omega
  have hbehindForm : (mark ++ (form ++ (version ++ (length ++ rest)))).drop (4 + 4) =
      version ++ (length ++ rest) := by
    rw [← List.drop_drop, List.drop_left' hmark, List.drop_left' hform]
  have hbehindVersion : (mark ++ (form ++ (version ++ (length ++ rest)))).drop (4 + 4 + 8) =
      length ++ rest := by
    rw [← List.drop_drop, hbehindForm, List.drop_left' hversion]
  rw [readHeader, if_neg hlong, List.take_left' hmark, List.drop_left' hmark, hbehindForm,
    hbehindVersion, List.take_left' hform, List.take_left' hversion, List.take_left' hlength]

/-- With the right mark and format a header is read, whatever version and length it tells. -/
theorem readHeader_intact {version length rest : Bytes} (hversion : version.length = 8)
    (hlength : length.length = 8) (hrest : trailerLength ≤ rest.length) :
    readHeader (magic ++ (leBytes 4 format ++ (version ++ (length ++ rest)))) =
      .ok ⟨format, leNat version, leNat length⟩ := by
  have hone : leNat (leBytes 4 format) = format := leNat_leBytes (by decide)
  rw [readHeader_fields rfl (length_leBytes 4 _) hversion hlength hrest, if_neg (not_not.2 rfl),
    hone, if_neg (not_not.2 rfl)]

theorem readHeader_encode (hversion : s.version < capacity 8)
    (hlength : s.encode.length < capacity 8) :
    readHeader (encode s) = .ok ⟨format, s.version, s.encode.length⟩ := by
  rw [encode_fields, readHeader_intact (length_leBytes 8 _) (length_leBytes 8 _)
    (by simp [trailerLength]), leNat_leBytes hversion, leNat_leBytes hlength]

/-- A state that fits and passes the audit is read back from its snapshot. -/
theorem decode_encode (hfits : State.codec.Fits s) (haudit : s.audit = .ok ())
    (hversion : s.version < capacity 8) (hlength : (encode s).length < capacity 8) :
    decode (encode s) = .ok s := by
  have hshort : s.encode.length < capacity 8 := by
    rw [length_encode] at hlength
    omega
  have hannounced :
      s.encode.length + (headerLength + trailerLength) < 18446744073709551616 := by
    rwa [length_encode, capacity_eight] at hlength
  have hread : State.codec.decode s.encode = some (s, []) := by
    have hdecode := State.codec.decode_encode [] hfits
    rwa [List.append_nil] at hdecode
  have hcheck : computedCheck (encode s) = storedCheck (encode s) := by
    rw [computedCheck_encode, storedCheck_encode]
  simp [decode, readHeader_encode hversion hshort, hannounced, length_encode, hcheck,
    body_encode, hread, haudit, bind, Except.bind, pure, Except.pure]

end Snapshot

/-- A sound state is read back from its snapshot. -/
theorem State.Sound.decode_snapshot {s : State} (h : s.Sound) (hs : s.Numbered)
    (hpolicy : s.policy.InRange) (hversion : s.version < capacity 8)
    (hlength : (Snapshot.encode s).length < capacity 8) :
    Snapshot.decode (Snapshot.encode s) = .ok s := by
  have hshort : s.encode.length < capacity 8 := by
    rw [Snapshot.length_encode] at hlength
    omega
  have hfits := State.covers_codec s (h.inRange hs hpolicy hversion hshort) hshort
  exact Snapshot.decode_encode hfits (h.audit hs) hversion hlength

end Arbiter
