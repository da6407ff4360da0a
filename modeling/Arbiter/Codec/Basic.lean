import Arbiter.Bytes
import Arbiter.OrderedMap

/-!
# Binary codecs

A codec writes the values of a type as byte strings and reads them back from the front of a longer
byte string.  The two laws it carries are what every format built from it relies on: what was
written is read, whatever follows it, and what follows never changes what is read.  A value fits
when its numbers and lengths are within the range of the format; only such values are read back.
-/

namespace Arbiter

/-- A way to write the values of a type as bytes. -/
structure Codec (α : Type) where
  encode : α → Bytes
  /-- Reads one value and gives the bytes behind it. -/
  decode : Bytes → Option (α × Bytes)
  /-- Whether the format has room for a value. -/
  Fits : α → Prop
  /-- What was written is read, whatever follows it. -/
  decode_encode : ∀ {a : α} (rest : Bytes), Fits a → decode (encode a ++ rest) = some (a, rest)
  /-- What follows a value does not change how it is read. -/
  decode_append : ∀ {bytes : Bytes} {a : α} {rest : Bytes} (more : Bytes),
    decode bytes = some (a, rest) → decode (bytes ++ more) = some (a, rest ++ more)
  /-- What was read fits. -/
  fits_of_decode : ∀ {bytes : Bytes} {a : α} {rest : Bytes},
    decode bytes = some (a, rest) → Fits a

/-- The first `n` bytes, put behind `taken`, and the bytes that follow them. -/
def takeOnto : (n : Nat) → (taken : Bytes) → Bytes → Option (Bytes × Bytes)
  | 0, taken, rest => some (taken.reverse, rest)
  | _ + 1, _, [] => none
  | n + 1, taken, b :: rest => takeOnto n (b :: taken) rest

/-- The first `n` bytes and the bytes that follow them. -/
def takeBytes (n : Nat) (bytes : Bytes) : Option (Bytes × Bytes) :=
  takeOnto n [] bytes

theorem takeOnto_append (front taken rest : Bytes) :
    takeOnto front.length taken (front ++ rest) = some (taken.reverse ++ front, rest) := by
  induction front generalizing taken with
  | nil => simp [takeOnto]
  | cons b front ih => simp [takeOnto, ih]

theorem takeOnto_eq_some {n : Nat} {taken bytes out rest : Bytes}
    (h : takeOnto n taken bytes = some (out, rest)) :
    ∃ front, front.length = n ∧ bytes = front ++ rest ∧ out = taken.reverse ++ front := by
  fun_induction takeOnto n taken bytes with
  | case1 => exact ⟨[], by simp_all⟩
  | case2 => simp at h
  | case3 n taken b bytes ih =>
    obtain ⟨front, hlength, hbytes, hout⟩ := ih h
    exact ⟨b :: front, by simp [hlength], by simp [hbytes], by simp [hout]⟩

/-- The first bytes of a byte string are the first of a longer one. -/
theorem takeBytes_append (front rest : Bytes) :
    takeBytes front.length (front ++ rest) = some (front, rest) := by
  simpa [takeBytes] using takeOnto_append front [] rest

theorem takeBytes_eq_some {n : Nat} {bytes front rest : Bytes} :
    takeBytes n bytes = some (front, rest) ↔ front.length = n ∧ bytes = front ++ rest := by
  constructor
  · intro h
    obtain ⟨_, hlength, hbytes, rfl⟩ := takeOnto_eq_some h
    exact ⟨by simpa using hlength, by simpa using hbytes⟩
  · rintro ⟨rfl, rfl⟩
    exact takeBytes_append _ rest

namespace Codec

variable {α β : Type}

/-- Reads a number of a fixed number of bytes. -/
def readFixed (width : Nat) (bytes : Bytes) : Option (Nat × Bytes) :=
  (takeBytes width bytes).map fun (front, rest) => (leNat front, rest)

theorem readFixed_leBytes (width : Nat) {n : Nat} (rest : Bytes) (h : n < capacity width) :
    readFixed width (leBytes width n ++ rest) = some (n, rest) := by
  have := takeBytes_append (leBytes width n) rest
  rw [length_leBytes] at this
  simp [readFixed, this, leNat_leBytes h]

theorem readFixed_append {width n : Nat} {bytes rest : Bytes} (more : Bytes)
    (h : readFixed width bytes = some (n, rest)) :
    readFixed width (bytes ++ more) = some (n, rest ++ more) := by
  simp only [readFixed, Option.map_eq_some_iff, Prod.mk.injEq, Prod.exists] at h ⊢
  obtain ⟨front, _, htake, rfl, rfl⟩ := h
  obtain ⟨rfl, rfl⟩ := takeBytes_eq_some.1 htake
  exact ⟨front, _, by rw [List.append_assoc, takeBytes_append], rfl, rfl⟩

theorem lt_of_readFixed {width n : Nat} {bytes rest : Bytes}
    (h : readFixed width bytes = some (n, rest)) : n < capacity width := by
  simp only [readFixed, Option.map_eq_some_iff, Prod.mk.injEq, Prod.exists] at h
  obtain ⟨front, _, htake, rfl, _⟩ := h
  obtain ⟨rfl, _⟩ := takeBytes_eq_some.1 htake
  exact leNat_lt front

/-- The bytes of a number in the shortest of four forms: one byte below 251, and else a byte that
tells whether two, four or eight bytes follow. -/
def writeNumber (n : Nat) : Bytes :=
  if n < 251 then [UInt8.ofNat n]
  else if n < capacity 2 then 251 :: leBytes 2 n
  else if n < capacity 4 then 252 :: leBytes 4 n
  else 253 :: leBytes 8 n

/-- Reads a number in any of the forms with at most `widest` bytes. -/
def readNumber (widest : Nat) : Bytes → Option (Nat × Bytes)
  | [] => none
  | b :: rest =>
    if b.toNat < 251 then some (b.toNat, rest)
    else if b = 251 ∧ 2 ≤ widest then readFixed 2 rest
    else if b = 252 ∧ 4 ≤ widest then readFixed 4 rest
    else if b = 253 ∧ 8 ≤ widest then readFixed 8 rest
    else none

theorem readNumber_writeNumber {widest n : Nat} (rest : Bytes) (h : n < capacity widest)
    (hwidest : widest = 4 ∨ widest = 8) :
    readNumber widest (writeNumber n ++ rest) = some (n, rest) := by
  unfold writeNumber
  split
  · next hn =>
    have htoNat : (UInt8.ofNat n).toNat = n := by
      rw [UInt8.toNat_ofNat']
      exact Nat.mod_eq_of_lt (by omega)
    simp [readNumber, htoNat, hn]
  split
  · next hn =>
    have := readFixed_leBytes 2 rest hn
    rcases hwidest with rfl | rfl <;> simpa [readNumber] using this
  split
  · next hn =>
    have := readFixed_leBytes 4 rest hn
    rcases hwidest with rfl | rfl <;> simpa [readNumber] using this
  · next hn =>
    have hwide : widest = 8 := by
      rcases hwidest with rfl | rfl
      · exact absurd h hn
      · rfl
    subst hwide
    simpa [readNumber] using readFixed_leBytes 8 rest h

theorem readNumber_append {widest n : Nat} {bytes rest : Bytes} (more : Bytes)
    (h : readNumber widest bytes = some (n, rest)) :
    readNumber widest (bytes ++ more) = some (n, rest ++ more) := by
  cases bytes with
  | nil => simp [readNumber] at h
  | cons b bytes =>
    simp only [readNumber, List.cons_append] at h ⊢
    grind [readFixed_append]

theorem lt_of_readNumber {widest n : Nat} {bytes rest : Bytes}
    (h : readNumber widest bytes = some (n, rest)) (hwidest : 2 ≤ widest) :
    n < capacity widest := by
  cases bytes with
  | nil => simp [readNumber] at h
  | cons b bytes =>
    have hmono : ∀ width, width ≤ widest → n < capacity width → n < capacity widest :=
      fun width hle hlt => Nat.lt_of_lt_of_le hlt (capacity_le hle)
    simp only [readNumber] at h
    split at h
    · next hb =>
      obtain ⟨rfl, rfl⟩ : b.toNat = n ∧ bytes = rest := by simpa using h
      exact hmono 2 hwidest (by rw [capacity_two]; omega)
    split at h
    · next hb => exact hmono 2 hb.2 (lt_of_readFixed h)
    split at h
    · next hb => exact hmono 4 hb.2 (lt_of_readFixed h)
    split at h
    · next hb => exact hmono 8 hb.2 (lt_of_readFixed h)
    · simp at h

/-- Numbers of sixty-four bits. -/
def number : Codec Nat where
  encode := writeNumber
  decode := readNumber 8
  Fits n := n < capacity 8
  decode_encode rest h := readNumber_writeNumber rest h (.inr rfl)
  decode_append more h := readNumber_append more h
  fits_of_decode h := lt_of_readNumber h (by decide)

/-- Numbers of thirty-two bits, which tell the variants of a type apart. -/
def tag : Codec Nat where
  encode := writeNumber
  decode := readNumber 4
  Fits n := n < capacity 4
  decode_encode rest h := readNumber_writeNumber rest h (.inl rfl)
  decode_append more h := readNumber_append more h
  fits_of_decode h := lt_of_readNumber h (by decide)

/-- Values of another type that stand for the values of this one. -/
def via (c : Codec β) (represent : α → β) (interpret : β → Option α)
    (interpret_represent : ∀ a, interpret (represent a) = some a)
    (fits_of_interpret : ∀ {b a}, c.Fits b → interpret b = some a → c.Fits (represent a)) :
    Codec α where
  encode a := c.encode (represent a)
  decode bytes := do
    let (b, rest) ← c.decode bytes
    let a ← interpret b
    return (a, rest)
  Fits a := c.Fits (represent a)
  decode_encode rest h := by simp [c.decode_encode rest h, interpret_represent]
  decode_append more h := by
    simp only [Option.bind_eq_bind, Option.bind_eq_some_iff, Option.pure_def, Option.some.injEq,
      Prod.mk.injEq, Prod.exists] at h ⊢
    obtain ⟨b, _, hb, a, ha, rfl, rfl⟩ := h
    exact ⟨b, _, c.decode_append more hb, a, ha, rfl, rfl⟩
  fits_of_decode h := by
    simp only [Option.bind_eq_bind, Option.bind_eq_some_iff, Option.pure_def, Option.some.injEq,
      Prod.mk.injEq, Prod.exists] at h
    obtain ⟨b, _, hb, a, ha, rfl, rfl⟩ := h
    exact fits_of_interpret (c.fits_of_decode hb) ha

/-- Values of a type with the same information. -/
def iso (c : Codec β) (represent : α → β) (interpret : β → α)
    (interpret_represent : ∀ a, interpret (represent a) = a)
    (represent_interpret : ∀ b, represent (interpret b) = b) : Codec α :=
  c.via represent (some ∘ interpret) (by simp [interpret_represent]) (by
    rintro b a hb ⟨⟩
    simpa [represent_interpret] using hb)

/-- One value and then another. -/
def pair (c : Codec α) (d : Codec β) : Codec (α × β) where
  encode p := c.encode p.1 ++ d.encode p.2
  decode bytes := do
    let (a, rest) ← c.decode bytes
    let (b, rest) ← d.decode rest
    return ((a, b), rest)
  Fits p := c.Fits p.1 ∧ d.Fits p.2
  decode_encode rest h := by
    simp [List.append_assoc, c.decode_encode _ h.1, d.decode_encode _ h.2]
  decode_append more h := by
    simp only [Option.bind_eq_bind, Option.bind_eq_some_iff, Option.pure_def, Option.some.injEq,
      Prod.mk.injEq, Prod.exists] at h ⊢
    obtain ⟨a, mid, ha, b, _, hb, rfl, rfl⟩ := h
    exact ⟨a, _, c.decode_append more ha, b, _, d.decode_append more hb, rfl, rfl⟩
  fits_of_decode h := by
    simp only [Option.bind_eq_bind, Option.bind_eq_some_iff, Option.pure_def, Option.some.injEq,
      Prod.mk.injEq, Prod.exists] at h
    obtain ⟨a, mid, ha, b, _, hb, rfl, rfl⟩ := h
    exact ⟨c.fits_of_decode ha, d.fits_of_decode hb⟩

/-- A fixed number of bytes. -/
def raw (width : Nat) : Codec Bytes where
  encode bytes := bytes
  decode := takeBytes width
  Fits bytes := bytes.length = width
  decode_encode rest h := by
    subst h
    exact takeBytes_append _ rest
  decode_append more h := by
    obtain ⟨rfl, rfl⟩ := takeBytes_eq_some.1 h
    rw [List.append_assoc, takeBytes_append]
  fits_of_decode h := (takeBytes_eq_some.1 h).1

/-- Reads a fixed number of values, put behind those that were read before. -/
def readMany (c : Codec α) : (count : Nat) → (taken : List α) → Bytes → Option (List α × Bytes)
  | 0, taken, bytes => some (taken.reverse, bytes)
  | count + 1, taken, bytes =>
    match c.decode bytes with
    | none => none
    | some (a, rest) => readMany c count (a :: taken) rest

theorem readMany_flatMap {c : Codec α} {values : List α} (taken : List α) (rest : Bytes)
    (h : ∀ a ∈ values, c.Fits a) :
    c.readMany values.length taken (values.flatMap c.encode ++ rest) =
      some (taken.reverse ++ values, rest) := by
  induction values generalizing taken with
  | nil => simp [readMany]
  | cons a values ih =>
    rw [List.forall_mem_cons] at h
    simp [readMany, List.append_assoc, c.decode_encode _ h.1, ih (a :: taken) h.2]

theorem readMany_append {c : Codec α} {count : Nat} {taken values : List α} {bytes rest : Bytes}
    (more : Bytes) (h : c.readMany count taken bytes = some (values, rest)) :
    c.readMany count taken (bytes ++ more) = some (values, rest ++ more) := by
  fun_induction readMany c count taken bytes with
  | case1 => simp_all [readMany]
  | case2 => simp at h
  | case3 count taken bytes a rest' ha ih =>
    simp only [readMany, c.decode_append more ha]
    exact ih h

theorem fits_of_readMany {c : Codec α} {count : Nat} {taken values : List α}
    {bytes rest : Bytes} (h : c.readMany count taken bytes = some (values, rest)) :
    values.length = taken.length + count ∧
      ((∀ a ∈ taken, c.Fits a) → ∀ a ∈ values, c.Fits a) := by
  fun_induction readMany c count taken bytes with
  | case1 taken bytes =>
    obtain ⟨rfl, rfl⟩ : taken.reverse = values ∧ bytes = rest := by simpa using h
    simp
  | case2 => simp at h
  | case3 count taken bytes a rest' ha ih =>
    obtain ⟨hlength, hfits⟩ := ih h
    refine ⟨by simp at hlength; omega, fun ht => hfits ?_⟩
    exact List.forall_mem_cons.2 ⟨c.fits_of_decode ha, ht⟩

/-- A list: its length and then its members. -/
def list (c : Codec α) : Codec (List α) where
  encode values := number.encode values.length ++ values.flatMap c.encode
  decode bytes := do
    let (count, rest) ← number.decode bytes
    c.readMany count [] rest
  Fits values := number.Fits values.length ∧ ∀ a ∈ values, c.Fits a
  decode_encode rest h := by
    simp [List.append_assoc, number.decode_encode _ h.1, readMany_flatMap [] rest h.2]
  decode_append more h := by
    simp only [Option.bind_eq_bind, Option.bind_eq_some_iff, Prod.exists] at h ⊢
    obtain ⟨count, _, hcount, hmany⟩ := h
    exact ⟨count, _, number.decode_append more hcount, readMany_append more hmany⟩
  fits_of_decode h := by
    simp only [Option.bind_eq_bind, Option.bind_eq_some_iff, Prod.exists] at h
    obtain ⟨count, _, hcount, hmany⟩ := h
    obtain ⟨hlength, hfits⟩ := fits_of_readMany hmany
    exact ⟨by simpa [hlength] using number.fits_of_decode hcount, hfits (by simp)⟩

/-- A byte string: its length and then its bytes. -/
def blob : Codec Bytes where
  encode bytes := number.encode bytes.length ++ bytes
  decode bytes := do
    let (count, rest) ← number.decode bytes
    takeBytes count rest
  Fits bytes := number.Fits bytes.length
  decode_encode rest h := by
    simp [List.append_assoc, number.decode_encode _ h, takeBytes_append]
  decode_append more h := by
    simp only [Option.bind_eq_bind, Option.bind_eq_some_iff, Prod.exists] at h ⊢
    obtain ⟨count, _, hcount, htake⟩ := h
    exact ⟨count, _, number.decode_append more hcount, (raw count).decode_append more htake⟩
  fits_of_decode h := by
    simp only [Option.bind_eq_bind, Option.bind_eq_some_iff, Prod.exists] at h
    obtain ⟨count, _, hcount, htake⟩ := h
    rw [(takeBytes_eq_some.1 htake).1]
    exact number.fits_of_decode hcount

/-- The bytes of a text in UTF-8. -/
def utf8 (text : String) : Bytes :=
  text.toByteArray.data.toList

/-- The text of bytes in UTF-8. -/
def ofUtf8? (bytes : Bytes) : Option String :=
  String.fromUTF8? ⟨bytes.toArray⟩

theorem ofUtf8?_utf8 (text : String) : ofUtf8? (utf8 text) = some text := by
  have : (⟨(utf8 text).toArray⟩ : ByteArray) = text.toByteArray := by simp [utf8]
  simp only [ofUtf8?, this, String.fromUTF8?, text.isValidUTF8, dite_true]
  rfl

theorem utf8_of_ofUtf8? {bytes : Bytes} {text : String} (h : ofUtf8? bytes = some text) :
    utf8 text = bytes := by
  unfold ofUtf8? String.fromUTF8? at h
  split at h
  · obtain rfl : String.fromUTF8 _ _ = text := by simpa using h
    rfl
  · simp at h

/-- A text: its length in bytes and then its bytes. -/
def text : Codec String :=
  blob.via utf8 ofUtf8? ofUtf8?_utf8 (by
    intro bytes s hbytes hs
    rwa [utf8_of_ofUtf8? hs])

/-- A map: the list of its bindings.  When bindings are read their order does not matter, and of
equal keys the last one counts. -/
def map {κ : Type} [Ord κ] [Std.TransOrd κ] [Std.LawfulEqOrd κ] (c : Codec κ) (d : Codec α) :
    Codec (OrderedMap κ α) :=
  (list (c.pair d)).via OrderedMap.toList (some ∘ OrderedMap.ofList) (by simp) (by
    rintro bindings m ⟨hlength, hfits⟩ hm
    obtain rfl : OrderedMap.ofList bindings = m := by simpa using hm
    refine ⟨?_, fun b hb => hfits b (OrderedMap.mem_of_mem_ofList hb)⟩
    exact Nat.lt_of_le_of_lt (OrderedMap.length_ofList_le bindings) hlength)

/-- A truth value: one byte, 0 or 1. -/
def flag : Codec Bool where
  encode b := [if b then 1 else 0]
  decode
    | 0 :: rest => some (false, rest)
    | 1 :: rest => some (true, rest)
    | _ => none
  Fits _ := True
  decode_encode {b} rest _ := by cases b <;> rfl
  decode_append more h := by
    split at h <;> simp_all
  fits_of_decode _ := trivial

/-- A value that may be missing: one byte, 0 or 1, and after a 1 the value. -/
def optional (c : Codec α) : Codec (Option α) where
  encode
    | none => [0]
    | some a => 1 :: c.encode a
  decode
    | 0 :: rest => some (none, rest)
    | 1 :: rest => (c.decode rest).map fun (a, rest) => (some a, rest)
    | _ => none
  Fits
    | none => True
    | some a => c.Fits a
  decode_encode {v} rest h := by
    cases v with
    | none => rfl
    | some a => simp [c.decode_encode rest h]
  decode_append {bytes v rest} more h := by
    split at h
    · simp_all
    · simp only [Option.map_eq_some_iff, Prod.mk.injEq, Prod.exists, List.cons_append] at h ⊢
      obtain ⟨a, _, ha, rfl, rfl⟩ := h
      exact ⟨a, _, c.decode_append more ha, rfl, rfl⟩
    · simp at h
  fits_of_decode {bytes v rest} h := by
    split at h
    · obtain ⟨rfl, rfl⟩ : none = v ∧ _ = rest := by simpa using h
      trivial
    · simp only [Option.map_eq_some_iff, Prod.mk.injEq, Prod.exists] at h
      obtain ⟨a, _, ha, rfl, rfl⟩ := h
      exact c.fits_of_decode ha
    · simp at h

/-- No values at all. -/
def never : Codec α where
  encode _ := []
  decode _ := none
  Fits _ := False
  decode_encode _ h := h.elim
  decode_append _ h := by simp at h
  fits_of_decode h := by simp at h

/-- Some of the values of a type: those that hold a value of another type. -/
def embed (c : Codec β) (inject : β → α) (project : α → Option β)
    (project_inject : ∀ b, project (inject b) = some b)
    (inject_project : ∀ {a b}, project a = some b → inject b = a) : Codec α where
  encode a := ((project a).map c.encode).getD []
  decode bytes := (c.decode bytes).map fun (b, rest) => (inject b, rest)
  Fits a := ∃ b, project a = some b ∧ c.Fits b
  decode_encode rest h := by
    obtain ⟨b, hb, hfits⟩ := h
    simp [hb, c.decode_encode rest hfits, inject_project hb]
  decode_append more h := by
    simp only [Option.map_eq_some_iff, Prod.mk.injEq, Prod.exists] at h ⊢
    obtain ⟨b, _, hb, rfl, rfl⟩ := h
    exact ⟨b, _, c.decode_append more hb, rfl, rfl⟩
  fits_of_decode h := by
    simp only [Option.map_eq_some_iff, Prod.mk.injEq, Prod.exists] at h
    obtain ⟨b, _, hb, rfl, rfl⟩ := h
    exact ⟨b, project_inject b, c.fits_of_decode hb⟩

/-- A type with variants: the number of the variant and then what the variant holds. -/
def variants (index : α → Nat) (body : Nat → Codec α)
    (index_of_fits : ∀ {t a}, (body t).Fits a → index a = t) : Codec α where
  encode a := tag.encode (index a) ++ (body (index a)).encode a
  decode bytes := do
    let (t, rest) ← tag.decode bytes
    (body t).decode rest
  Fits a := tag.Fits (index a) ∧ (body (index a)).Fits a
  decode_encode rest h := by
    simp [List.append_assoc, tag.decode_encode _ h.1, (body _).decode_encode rest h.2]
  decode_append more h := by
    simp only [Option.bind_eq_bind, Option.bind_eq_some_iff, Prod.exists] at h ⊢
    obtain ⟨t, _, ht, ha⟩ := h
    exact ⟨t, _, tag.decode_append more ht, (body t).decode_append more ha⟩
  fits_of_decode h := by
    simp only [Option.bind_eq_bind, Option.bind_eq_some_iff, Prod.exists] at h
    obtain ⟨t, _, ht, ha⟩ := h
    have hfits := (body t).fits_of_decode ha
    obtain rfl := index_of_fits hfits
    exact ⟨tag.fits_of_decode ht, hfits⟩

end Codec

end Arbiter
