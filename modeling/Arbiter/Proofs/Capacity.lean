import Arbiter.Codec.Domain
import Mathlib.Data.List.Basic

/-!
# What the binary formats have room for

Lengths are written as numbers of sixty-four bits.  A text or a list whose encoding is shorter than
that is itself short enough, so a value fits as soon as its numbers are in range and its encoding
has a length that can be written down.
-/

namespace Arbiter

theorem length_le_length_flatMap {α : Type} {f : α → Bytes} {a : α} {values : List α}
    (ha : a ∈ values) :
    (f a).length ≤ (values.flatMap f).length := by
  obtain ⟨front, back, rfl⟩ := List.append_of_mem ha
  simp only [List.flatMap_append, List.flatMap_cons, List.length_append]
  omega

theorem length_le_length_flatMap_of_pos {α : Type} {f : α → Bytes}
    (hf : ∀ a, 0 < (f a).length) (values : List α) :
    values.length ≤ (values.flatMap f).length := by
  induction values with
  | nil => simp
  | cons a values ih =>
      have := hf a
      simp only [List.flatMap_cons, List.length_append, List.length_cons]
      omega

namespace Codec

variable {α β : Type} {c : Codec α} {d : Codec β} {P : α → Prop} {Q : β → Prop}

/-- The values with a property fit unless their encoding is longer than any length. -/
def Covers (c : Codec α) (P : α → Prop) : Prop :=
  ∀ a, P a → (c.encode a).length < capacity 8 → c.Fits a

/-- No value is encoded by nothing. -/
def Visible (c : Codec α) : Prop :=
  ∀ a, 0 < (c.encode a).length

/-! ## Visible encodings -/

theorem visible_number : number.Visible := by
  intro n
  change 0 < (writeNumber n).length
  unfold writeNumber
  split
  · simp
  · split
    · simp
    · split <;> simp

theorem Visible.pair_left (h : c.Visible) : (c.pair d).Visible := by
  intro p
  have := h p.1
  simp only [Codec.pair, List.length_append]
  omega

theorem Visible.of_encode {c' : Codec β} (h : c.Visible) (represent : β → α)
    (hencode : ∀ b, c'.encode b = c.encode (represent b)) :
    c'.Visible := by
  intro b
  rw [hencode]
  exact h (represent b)

theorem visible_text : text.Visible := by
  intro s
  have := visible_number (utf8 s).length
  change 0 < (number.encode (utf8 s).length ++ utf8 s).length
  rw [List.length_append]
  omega

/-! ## Covered values -/

theorem covers_number : number.Covers (· < capacity 8) :=
  fun _ hn _ => hn

theorem covers_raw (width : Nat) : (raw width).Covers (·.length = width) :=
  fun _ hbytes _ => hbytes

theorem covers_flag : flag.Covers fun _ => True :=
  fun _ _ _ => trivial

theorem Covers.pair (hc : c.Covers P) (hd : d.Covers Q) :
    (c.pair d).Covers fun p => P p.1 ∧ Q p.2 := by
  intro p hp hlength
  simp only [Codec.pair, List.length_append] at hlength
  exact ⟨hc p.1 hp.1 (by omega), hd p.2 hp.2 (by omega)⟩

/-- A codec that writes its values as those of another one covers as much. -/
theorem Covers.of_encode {c' : Codec β} (h : c.Covers P) (represent : β → α)
    (hencode : ∀ b, c'.encode b = c.encode (represent b))
    (hfits : ∀ b, c.Fits (represent b) → c'.Fits b) (himp : ∀ b, Q b → P (represent b)) :
    c'.Covers Q := by
  intro b hb hlength
  rw [hencode] at hlength
  exact hfits b (h (represent b) (himp b hb) hlength)

theorem covers_text : text.Covers fun _ => True := by
  intro s _ hlength
  change (number.encode (utf8 s).length ++ utf8 s).length < capacity 8 at hlength
  rw [List.length_append] at hlength
  change (utf8 s).length < capacity 8
  omega

theorem Covers.list (h : c.Covers P) (hvisible : c.Visible) :
    c.list.Covers fun values => ∀ a ∈ values, P a := by
  intro values hvalues hlength
  simp only [Codec.list, List.length_append] at hlength
  have hcount := length_le_length_flatMap_of_pos hvisible values
  refine ⟨?_, fun a ha => h a (hvalues a ha) ?_⟩
  · change values.length < capacity 8
    omega
  · have := length_le_length_flatMap (f := c.encode) ha
    omega

theorem Covers.optional (h : c.Covers P) :
    c.optional.Covers fun v => ∀ a, v = some a → P a := by
  intro v hv hlength
  cases v with
  | none => trivial
  | some a =>
      refine h a (hv a rfl) ?_
      simp only [Codec.optional, List.length_cons] at hlength
      omega

theorem Covers.map {κ : Type} [Ord κ] [Std.TransOrd κ] [Std.LawfulEqOrd κ] {c : Codec κ}
    {R : κ → Prop} (hc : c.Covers R) (hd : d.Covers Q) (hvisible : c.Visible) :
    (Codec.map c d).Covers fun m => ∀ b ∈ m.toList, R b.1 ∧ Q b.2 :=
  ((hc.pair hd).list hvisible.pair_left).of_encode OrderedMap.toList (fun _ => rfl)
    (fun _ hfits => hfits) fun _ hm => hm

end Codec

/-! ## Addresses, points and scores -/

theorem Address.visible_codec : Address.codec.Visible := by
  intro a
  change 0 < a.bytes.length
  rw [a.length_bytes]
  decide

theorem Address.covers_codec : Address.codec.Covers fun _ => True :=
  (Codec.covers_raw 20).of_encode Address.bytes (fun _ => rfl) (fun _ hfits => hfits)
    fun a _ => a.length_bytes

/-- A number is one that a score can have. -/
def InPoints (n : Int) : Prop :=
  leastPoints ≤ n ∧ n ≤ mostPoints

instance (n : Int) : Decidable (InPoints n) :=
  inferInstanceAs (Decidable (_ ∧ _))

theorem covers_pointsCodec : pointsCodec.Covers InPoints := by
  refine Codec.covers_number.of_encode foldPoints (fun _ => rfl) (fun _ hfits => hfits) ?_
  rintro n ⟨hleast, hmost⟩
  unfold leastPoints at hleast
  unfold mostPoints at hmost
  rw [capacity_eight]
  unfold foldPoints
  split <;> omega

theorem Score.covers_codec : Score.codec.Covers fun s => InPoints s.value :=
  (Address.covers_codec.pair covers_pointsCodec).of_encode (fun s => (s.target, s.value))
    (fun _ => rfl) (fun _ hfits => hfits) fun _ hs => ⟨trivial, hs⟩

theorem Score.visible_codec : Score.codec.Visible :=
  Codec.Visible.of_encode (Address.visible_codec.pair_left (d := pointsCodec))
    (fun s => (s.target, s.value)) fun _ => rfl

/-! ## Entries -/

/-- The numbers of a command are numbers of sixty-four bits. -/
def Command.InRange : Command → Prop
  | .registerNode _ => True
  | .registerApplication _ _ _ => True
  | .sendEvent _ application => application < capacity 8
  | .sendReply event scores => event < capacity 8 ∧ ∀ s ∈ scores, InPoints s.value
  | .voteSolver event _ => event < capacity 8
  | .solveEvent event => event < capacity 8

instance : (command : Command) → Decidable command.InRange
  | .registerNode _ => .isTrue trivial
  | .registerApplication _ _ _ => .isTrue trivial
  | .sendEvent _ _ => inferInstanceAs (Decidable (_ < _))
  | .sendReply _ _ => inferInstanceAs (Decidable (_ ∧ _))
  | .voteSolver _ _ => inferInstanceAs (Decidable (_ < _))
  | .solveEvent _ => inferInstanceAs (Decidable (_ < _))

theorem Command.covers_codec : Command.codec.Covers Command.InRange := by
  intro command hrange hlength
  have htag : Codec.tag.Fits command.index := by
    change command.index < capacity 4
    rw [capacity_four]
    cases command <;> simp [index]
  refine ⟨htag, ?_⟩
  have hbody : ((body command.index).encode command).length < capacity 8 := by
    simp only [codec, Codec.variants, List.length_append] at hlength
    omega
  cases command with
  | registerNode spec => exact ⟨spec, rfl, Codec.covers_text spec trivial hbody⟩
  | registerApplication info specs multi =>
      refine ⟨(info, specs, multi), rfl, ?_⟩
      exact (Codec.covers_text.pair ((Codec.covers_text.list Codec.visible_text).pair
        Codec.covers_flag)) _ ⟨trivial, fun _ _ => trivial, trivial⟩ hbody
  | sendEvent payload application =>
      refine ⟨(payload, application), rfl, ?_⟩
      exact (Codec.covers_text.pair Codec.covers_number) _ ⟨trivial, hrange⟩ hbody
  | sendReply event scores =>
      refine ⟨(event, scores), rfl, ?_⟩
      exact (Codec.covers_number.pair (Score.covers_codec.list Score.visible_codec)) _ hrange hbody
  | voteSolver event candidate =>
      refine ⟨(event, candidate), rfl, ?_⟩
      exact (Codec.covers_number.pair Address.covers_codec) _ ⟨hrange, trivial⟩ hbody
  | solveEvent event => exact ⟨event, rfl, hrange⟩

/-- An entry can be framed: its numbers are in range and the length of its encoding is a number of
thirty-two bits. -/
structure Entry.Storable (e : Entry) : Prop where
  sequence : e.sequence < capacity 8
  command : e.command.InRange
  short : e.encode.length < capacity 4

instance (e : Entry) : Decidable e.Storable :=
  decidable_of_iff
    (e.sequence < capacity 8 ∧ e.command.InRange ∧ e.encode.length < capacity 4)
    ⟨fun h => ⟨h.1, h.2.1, h.2.2⟩, fun h => ⟨h.sequence, h.command, h.short⟩⟩

theorem Entry.covers_codec :
    Entry.codec.Covers fun e => e.sequence < capacity 8 ∧ e.command.InRange :=
  (Codec.covers_number.pair (Address.covers_codec.pair Command.covers_codec)).of_encode
    (fun e => (e.sequence, e.caller, e.command)) (fun _ => rfl) (fun _ hfits => hfits)
    fun _ he => ⟨he.1, trivial, he.2⟩

/-- The numbers of an entry and the length of its encoding are numbers of sixty-four bits. -/
structure Entry.InRange (e : Entry) : Prop where
  sequence : e.sequence < capacity 8
  command : e.command.InRange
  length : e.encode.length < capacity 8

instance (e : Entry) : Decidable e.InRange :=
  decidable_of_iff
    (e.sequence < capacity 8 ∧ e.command.InRange ∧ e.encode.length < capacity 8)
    ⟨fun h => ⟨h.1, h.2.1, h.2.2⟩, fun h => ⟨h.sequence, h.command, h.length⟩⟩

theorem Entry.InRange.fits {e : Entry} (h : e.InRange) : Entry.codec.Fits e :=
  Entry.covers_codec e ⟨h.sequence, h.command⟩ h.length

theorem Entry.Storable.inRange {e : Entry} (h : e.Storable) : e.InRange :=
  ⟨h.sequence, h.command, Nat.lt_of_lt_of_le h.short (capacity_le (by decide))⟩

theorem Entry.Storable.fits {e : Entry} (h : e.Storable) : Entry.codec.Fits e :=
  h.inRange.fits

/-- What was written is read back. -/
theorem Entry.decode_encode {e : Entry} (h : Entry.codec.Fits e) :
    Entry.decode e.encode = .ok e := by
  have := Entry.codec.decode_encode [] h
  rw [List.append_nil] at this
  simp [decode, encode, this]

end Arbiter
