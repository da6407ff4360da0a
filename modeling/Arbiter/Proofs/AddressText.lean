import Arbiter.Http.Body
import Arbiter.Proofs.Guards
import Mathlib.Data.String.Basic

/-!
# The text of an address

A text is read as an address exactly when it is the mark `0x` or `0X` and forty hexadecimal digits
of either case, and the address is the one whose bytes they spell.  So all texts of an address agree
in lower case, and that is the text that it is shown as.  The digits keep the order of the numbers
that they stand for, and therefore addresses come in the order of their texts.
-/

namespace Arbiter

namespace Text.Hex

variable {c : Char} {n : Nat} {text : List Char} {bytes : Bytes}

/-! ## Digits -/

/-- A character is the digit of a number, in lower or in upper case. -/
def StandsFor (c : Char) (n : Nat) : Prop :=
  "0123456789abcdef".toList[n]? = some c ∨ "0123456789ABCDEF".toList[n]? = some c

instance (c : Char) (n : Nat) : Decidable (StandsFor c n) :=
  inferInstanceAs (Decidable (_ ∨ _))

theorem StandsFor.lt (h : StandsFor c n) : n < 16 := by
  rcases h with h | h
  · exact (List.getElem?_eq_some_iff.1 h).1
  · exact (List.getElem?_eq_some_iff.1 h).1

/-- What holds of every digit of either case, along with the number that it stands for. -/
theorem StandsFor.forall_digits {P : Char → Nat → Prop} (h : StandsFor c n)
    (hlower : ∀ m : Fin 16, P "0123456789abcdef".toList[m] m)
    (hupper : ∀ m : Fin 16, P "0123456789ABCDEF".toList[m] m) : P c n := by
  rcases h with h | h
  · obtain ⟨hn, rfl⟩ := List.getElem?_eq_some_iff.1 h
    exact hlower ⟨n, hn⟩
  · obtain ⟨hn, rfl⟩ := List.getElem?_eq_some_iff.1 h
    exact hupper ⟨n, hn⟩

theorem StandsFor.toLower (h : StandsFor c n) : c.toLower = digit n :=
  h.forall_digits (P := fun c n => c.toLower = digit n) (by decide) (by decide)

theorem StandsFor.utf8Size (h : StandsFor c n) : c.utf8Size = 1 :=
  h.forall_digits (P := fun c _ => c.utf8Size = 1) (by decide) (by decide)

theorem standsFor_digit (h : n < 16) : StandsFor (digit n) n := by
  have hall : ∀ m : Fin 16, StandsFor (digit m) m := by decide
  exact hall ⟨n, h⟩

/-- A character from `first` on whose place behind it is below `count` is one of `count`
characters. -/
theorem standsFor_of_le {first last : Char} {shift : Nat} (hfirst : first ≤ c) (hlast : c ≤ last)
    (hall : ∀ i, i ≤ last.toNat - first.toNat →
      StandsFor (Char.ofNat (first.toNat + i)) (first.toNat + i - shift)) :
    StandsFor c (c.toNat - shift) := by
  have hfirst' : first.toNat ≤ c.toNat := hfirst
  have hlast' : c.toNat ≤ last.toNat := hlast
  have hcode := hall (c.toNat - first.toNat) (Nat.sub_le_sub_right hlast' _)
  rwa [Nat.add_sub_cancel' hfirst', Char.ofNat_toNat] at hcode

/-- A character is read as the number that it is the digit of. -/
theorem value?_eq_some_iff : value? c = some n ↔ StandsFor c n := by
  constructor
  · intro h
    unfold value? at h
    split at h
    · next hrange =>
        obtain rfl := Option.some.inj h
        exact standsFor_of_le hrange.1 hrange.2 (by decide)
    · split at h
      · next hrange =>
          obtain rfl := Option.some.inj h
          exact standsFor_of_le hrange.1 hrange.2 (by decide)
      · split at h
        · next hrange =>
            obtain rfl := Option.some.inj h
            exact standsFor_of_le hrange.1 hrange.2 (by decide)
        · simp at h
  · intro h
    exact h.forall_digits (P := fun c n => value? c = some n) (by decide) (by decide)

/-! ## Bytes -/

/-- Digits of either case spell bytes, two of them each. -/
inductive Spells : List Char → Bytes → Prop
  | nil : Spells [] []
  | cons {high low : Char} {b : UInt8} {text : List Char} {bytes : Bytes}
      (upper : StandsFor high (b.toNat / 16)) (lower : StandsFor low (b.toNat % 16))
      (rest : Spells text bytes) : Spells (high :: low :: text) (b :: bytes)

theorem spells_encode (bytes : Bytes) : Spells (encode bytes) bytes := by
  induction bytes with
  | nil => exact .nil
  | cons b bytes ih =>
      have hb := b.toNat_lt
      exact .cons (standsFor_digit (by omega)) (standsFor_digit (by omega)) ih

namespace Spells

theorem length (h : Spells text bytes) : text.length = 2 * bytes.length := by
  induction h with
  | nil => rfl
  | cons _ _ _ ih =>
      rw [List.length_cons, List.length_cons, List.length_cons, ih, Nat.mul_succ]

/-- In lower case, the digits are the ones that the bytes are shown with. -/
theorem map_toLower (h : Spells text bytes) : text.map Char.toLower = encode bytes := by
  induction h with
  | nil => rfl
  | cons upper lower _ ih =>
      rw [List.map_cons, List.map_cons, ih, upper.toLower, lower.toLower]
      rfl

theorem exists_standsFor (h : Spells text bytes) : ∀ c ∈ text, ∃ n, StandsFor c n := by
  induction h with
  | nil => exact fun c hc => absurd hc List.not_mem_nil
  | cons upper lower _ ih =>
      rw [List.forall_mem_cons, List.forall_mem_cons]
      exact ⟨⟨_, upper⟩, ⟨_, lower⟩, ih⟩

theorem utf8Len (h : Spells text bytes) : String.utf8Len text = text.length := by
  induction h with
  | nil => rfl
  | cons upper lower _ ih =>
      rw [String.utf8Len_cons, String.utf8Len_cons, upper.utf8Size, lower.utf8Size, ih]
      rfl

end Spells

/-- Exactly the texts that spell bytes are read, and the bytes are the ones they spell. -/
theorem decode?_eq_some_iff : decode? text = some bytes ↔ Spells text bytes := by
  constructor
  · intro h
    fun_induction decode? text generalizing bytes with
    | case1 =>
        obtain rfl := Option.some.inj h
        exact .nil
    | case2 => simp at h
    | case3 high low text ih =>
        simp only [Option.bind_eq_bind, Option.bind_eq_some_iff, value?_eq_some_iff] at h
        obtain ⟨m, hhigh, n, hlow, bytes, hbytes, heq⟩ := h
        obtain rfl := Option.some.inj heq
        have hm := hhigh.lt
        have hn := hlow.lt
        have hword : (UInt8.ofNat (16 * m + n)).toNat = 16 * m + n := by
          rw [UInt8.toNat_ofNat']
          exact Nat.mod_eq_of_lt (by omega)
        refine .cons ?_ ?_ (ih hbytes)
        · rw [hword, show (16 * m + n) / 16 = m by omega]
          exact hhigh
        · rw [hword, show (16 * m + n) % 16 = n by omega]
          exact hlow
  · intro h
    induction h with
    | nil => rfl
    | cons upper lower _ ih =>
        rename_i b text bytes rest
        rw [← value?_eq_some_iff] at upper lower
        simp only [decode?, upper, lower, ih, Option.bind_eq_bind, Option.bind_some]
        rw [Nat.div_add_mod, UInt8.ofNat_toNat]
        rfl

/-! ## Order -/

theorem digit_lt_digit_iff {m : Nat} (hm : m < 16) (hn : n < 16) : digit m < digit n ↔ m < n := by
  have hall : ∀ m n : Fin 16, digit m < digit n ↔ m.val < n.val := by decide
  exact hall ⟨m, hm⟩ ⟨n, hn⟩

theorem digit_inj {m : Nat} (hm : m < 16) (hn : n < 16) : digit m = digit n ↔ m = n := by
  have hall : ∀ m n : Fin 16, digit m = digit n ↔ m.val = n.val := by decide
  exact hall ⟨m, hm⟩ ⟨n, hn⟩

/-- The digits of bytes come in the order of the bytes. -/
theorem encode_lt_encode_iff (bytes bytes' : Bytes) :
    encode bytes < encode bytes' ↔ compare bytes bytes' = .lt := by
  induction bytes generalizing bytes' with
  | nil => cases bytes' <;> simp [encode, pair]
  | cons b bytes ih =>
      cases bytes' with
      | nil => simp [encode, pair]
      | cons b' bytes' =>
          have hb := b.toNat_lt
          have hb' := b'.toNat_lt
          have hcons : ∀ (b : UInt8) (bytes : Bytes), encode (b :: bytes) =
              digit (b.toNat / 16) :: digit (b.toNat % 16) :: encode bytes := fun _ _ => rfl
          -- A byte is below another one if its digits are, the first one before the second.
          have hless : compare b b' = .lt ↔ b.toNat / 16 < b'.toNat / 16 ∨
              b.toNat / 16 = b'.toNat / 16 ∧ b.toNat % 16 < b'.toNat % 16 := by
            rw [Std.compare_eq_lt, UInt8.lt_iff_toNat_lt]
            omega
          have hsame : compare b b' = .eq ↔
              b.toNat / 16 = b'.toNat / 16 ∧ b.toNat % 16 = b'.toNat % 16 := by
            rw [Std.LawfulEqOrd.compare_eq_iff_eq, ← UInt8.toNat_inj]
            omega
          rw [hcons, hcons, List.cons_lt_cons_iff, List.cons_lt_cons_iff, ih,
            digit_lt_digit_iff (by omega) (by omega), digit_lt_digit_iff (by omega) (by omega),
            digit_inj (by omega) (by omega), digit_inj (by omega) (by omega),
            List.compare_cons_cons, Ordering.then_eq_lt, hless, hsame, or_assoc, and_or_left,
            and_assoc]

end Text.Hex

namespace Json

variable {s : String} {text : List Char}

/-! ## Texts in quotes -/

/-- A character that stands for itself between quotes. -/
def Plain (c : Char) : Prop :=
  32 ≤ c.toNat ∧ c ≠ '"' ∧ c ≠ '\\'

instance (c : Char) : Decidable (Plain c) :=
  inferInstanceAs (Decidable (_ ∧ _))

theorem quote_of_plain (hplain : ∀ c ∈ s.toList, Plain c) : quote s = "\"" ++ s ++ "\"" := by
  rw [quote, if_pos]
  rw [List.all_eq_true]
  intro c hc
  obtain ⟨hcode, hquote, hslash⟩ := hplain c hc
  simp [hcode, hquote, hslash]

theorem toList_render_string (hplain : ∀ c ∈ s.toList, Plain c) :
    (Json.string s).render.toList = '"' :: (s.toList ++ ['"']) := by
  rw [render, renderOnto, String.empty_append, quote_of_plain hplain, String.toList_append,
    String.toList_append]
  rfl

/-- Characters that stand for themselves are read up to the closing quote. -/
theorem stringFrom_of_plain (hplain : ∀ c ∈ text, Plain c) (taken rest : List Char) :
    stringFrom none taken (text ++ '"' :: rest) =
      .ok (String.ofList (taken.reverse ++ text), rest) := by
  induction text generalizing taken with
  | nil => simp [stringFrom]
  | cons c text ih =>
      rw [List.forall_mem_cons] at hplain
      obtain ⟨⟨hcode, hquote, hslash⟩, htext⟩ := hplain
      have hstep : stringFrom none taken (c :: (text ++ '"' :: rest)) =
          stringFrom none (c :: taken) (text ++ '"' :: rest) := by
        rw [stringFrom]
        · simp [Nat.not_lt.2 hcode, hslash]
        all_goals simp_all
      rw [List.cons_append, hstep, ih htext, List.reverse_cons, List.append_assoc]
      rfl

theorem stringFrom_closed (hplain : ∀ c ∈ s.toList, Plain c) :
    stringFrom none [] (s.toList ++ ['"']) = .ok (s, []) := by
  rw [stringFrom_of_plain hplain, List.reverse_nil, List.nil_append, String.ofList_toList]

/-- A text that stands for itself is read from its JSON form. -/
theorem parse_render_string (hplain : ∀ c ∈ s.toList, Plain c) :
    parse (Json.string s).render = .ok (.string s) := by
  have hvalue : value mostNested (Json.string s).render.toList = .ok (.string s, []) := by
    rw [toList_render_string hplain, value]
    simp [stepsFor, valueWithin, skipSpace, isSpace, stringFrom_closed hplain, Functor.map,
      Except.map]
  rw [parse, hvalue]
  rfl

theorem whole_parsedShape {α : Type} {read : List Char → Option α} {a : α}
    (hplain : ∀ c ∈ s.toList, Plain c) (hread : read s.toList = some a) :
    whole (parsedShape read) (Json.string s).render = .ok a := by
  have hshape : stringShape (Json.string s).render.toList = .ok (s, []) := by
    rw [toList_render_string hplain, stringShape]
    simp [skipSpace, isSpace, stringFrom_closed hplain]
  simp [whole, parsedShape, hshape, hread, skipSpace, bind, Except.bind, pure, Except.pure]

end Json

namespace Address

variable {s digits : String} {a b : Address}

/-! ## Reading -/

/-- A text is the mark `0x` or `0X` with some characters behind it. -/
def Marked (s digits : String) : Prop :=
  s = "0x" ++ digits ∨ s = "0X" ++ digits

theorem digits?_eq_some_iff {text rest : List Char} :
    digits? text = some rest ↔ text = '0' :: 'x' :: rest ∨ text = '0' :: 'X' :: rest := by
  constructor
  · intro h
    unfold digits? at h
    split at h
    · exact .inl (by rw [Option.some.inj h])
    · exact .inr (by rw [Option.some.inj h])
    · simp at h
  · rintro (rfl | rfl) <;> rfl

theorem marked_iff : Marked s digits ↔ digits? s.toList = some digits.toList := by
  rw [digits?_eq_some_iff, Marked, ← String.toList_inj, ← String.toList_inj, String.toList_append,
    String.toList_append]
  rfl

theorem Marked.unique {digits' : String} (h : Marked s digits) (h' : Marked s digits') :
    digits = digits' := by
  rw [marked_iff] at h h'
  exact String.toList_inj.1 (Option.some.inj (h.symm.trans h'))

theorem byteLength_toList (s : String) : byteLength s.toList = s.utf8ByteSize := by
  have hall : ∀ (text : List Char) (before : Nat),
      text.foldl (fun length c => length + c.utf8Size) before = before + String.utf8Len text := by
    intro text
    induction text with
    | nil => exact fun before => rfl
    | cons c text ih =>
        intro before
        rw [List.foldl_cons, ih, String.utf8Len_cons, Nat.add_assoc, Nat.add_comm c.utf8Size]
  rw [byteLength, hall, Nat.zero_add, ← String.utf8ByteSize_ofList, String.ofList_toList]

/-- What is read from a text with a mark is decided by the digits alone. -/
theorem parse_of_marked (h : Marked s digits) :
    parse s.toList =
      if digits.utf8ByteSize ≠ 40 then .error (.wrongLength digits.utf8ByteSize)
      else
        match (Text.Hex.decode? digits.toList).bind ofBytes? with
        | none => .error .notHexadecimal
        | some address => .ok address := by
  have hlength := byteLength_toList digits
  rw [parse, marked_iff.1 h]
  exact if_congr (by rw [hlength]) (by rw [hlength]) rfl

theorem utf8ByteSize_of_spells {bytes : Bytes} (h : Text.Hex.Spells digits.toList bytes) :
    digits.utf8ByteSize = 2 * bytes.length := by
  rw [← digits.ofList_toList, String.utf8ByteSize_ofList, h.utf8Len, h.length]

/-- The outcomes of reading a text. -/
theorem parse_cases (s : String) :
    (∀ digits, ¬ Marked s digits) ∧ parse s.toList = .error .missingPrefix ∨
    ∃ digits, Marked s digits ∧
      (digits.utf8ByteSize ≠ 40 ∧ parse s.toList = .error (.wrongLength digits.utf8ByteSize) ∨
        digits.utf8ByteSize = 40 ∧
          ((∀ bytes, ¬ Text.Hex.Spells digits.toList bytes) ∧
              parse s.toList = .error .notHexadecimal ∨
            ∃ a : Address, Text.Hex.Spells digits.toList a.bytes ∧ parse s.toList = .ok a)) := by
  by_cases hmarked : ∃ digits, Marked s digits
  · obtain ⟨digits, hmarked⟩ := hmarked
    have hparse := parse_of_marked hmarked
    refine .inr ⟨digits, hmarked, ?_⟩
    by_cases hlength : digits.utf8ByteSize = 40
    · rw [if_neg (not_not_intro hlength)] at hparse
      refine .inr ⟨hlength, ?_⟩
      cases hdecode : Text.Hex.decode? digits.toList with
      | none =>
          rw [hdecode] at hparse
          refine .inl ⟨fun bytes hspells => ?_, hparse⟩
          simp [Text.Hex.decode?_eq_some_iff.2 hspells] at hdecode
      | some bytes =>
          have hspells := Text.Hex.decode?_eq_some_iff.1 hdecode
          have htwenty : bytes.length = 20 := by
            have htotal := utf8ByteSize_of_spells hspells
            omega
          rw [hdecode, Option.bind_some, ofBytes?, dif_pos htwenty] at hparse
          exact .inr ⟨⟨bytes, htwenty⟩, hspells, hparse⟩
    · exact .inl ⟨hlength, by rw [hparse, if_pos hlength]⟩
  · refine .inl ⟨not_exists.1 hmarked, ?_⟩
    cases hdigits : digits? s.toList with
    | none => rw [parse, hdigits]
    | some rest =>
        refine absurd ⟨String.ofList rest, marked_iff.2 ?_⟩ hmarked
        rw [hdigits, String.toList_ofList]

theorem Marked.exists_iff {P : String → Prop} (h : Marked s digits) :
    (∃ digits, Marked s digits ∧ P digits) ↔ P digits := by
  constructor
  · rintro ⟨digits', h', hdigits'⟩
    exact h.unique h' ▸ hdigits'
  · exact fun hdigits => ⟨digits, h, hdigits⟩

/-- Which fault of a text is reported. -/
theorem parse_eq_error_iff (s : String) :
    (parse s.toList = .error .missingPrefix ↔ ∀ digits, ¬ Marked s digits) ∧
    (∀ n, parse s.toList = .error (.wrongLength n) ↔
      ∃ digits, Marked s digits ∧ digits.utf8ByteSize = n ∧ n ≠ 40) ∧
    (parse s.toList = .error .notHexadecimal ↔
      ∃ digits, Marked s digits ∧ digits.utf8ByteSize = 40 ∧
        ∀ bytes, ¬ Text.Hex.Spells digits.toList bytes) := by
  rcases parse_cases s with ⟨hnone, hparse⟩ | ⟨digits, hmarked, hcases⟩
  · simp [hparse, hnone]
  · have hsome : ¬ ∀ digits, ¬ Marked s digits := not_forall_not.2 ⟨digits, hmarked⟩
    simp only [hmarked.exists_iff, hsome, iff_false]
    rcases hcases with ⟨hlength, hparse⟩ | ⟨hlength, ⟨hnone, hparse⟩ | ⟨a, hspells, hparse⟩⟩
    · rw [hparse]
      refine ⟨by simp, fun n => ?_, by simp [hlength]⟩
      rw [Except.error.injEq, AddressFault.wrongLength.injEq]
      exact ⟨fun h => ⟨h, h ▸ hlength⟩, And.left⟩
    · simp [hparse, hlength, hnone, eq_comm]
    · rw [hparse]
      refine ⟨by simp, fun n => ?_, ?_⟩
      · simp [hlength, eq_comm]
      · simp only [reduceCtorEq, false_iff]
        exact fun h => h.2 _ hspells

/-! ## Showing -/

theorem toList_hex (a : Address) : a.hex.toList = '0' :: 'x' :: Text.Hex.encode a.bytes := by
  simp [hex, Text.Hex.text]

theorem marked_hex (a : Address) : Marked a.hex (Text.Hex.text a.bytes) :=
  .inl rfl

theorem spells_text (a : Address) : Text.Hex.Spells (Text.Hex.text a.bytes).toList a.bytes := by
  rw [Text.Hex.text, String.toList_ofList]
  exact Text.Hex.spells_encode a.bytes

/-- A text is read as an address if it is a mark and the forty digits that spell its bytes. -/
theorem parse_eq_ok_iff :
    parse s.toList = .ok a ↔
      ∃ digits, Marked s digits ∧ digits.length = 40 ∧ Text.Hex.Spells digits.toList a.bytes := by
  constructor
  · intro hparse
    rcases parse_cases s with
      ⟨-, hfault⟩ | ⟨digits, hmarked, ⟨-, hfault⟩ | ⟨-, ⟨-, hfault⟩ | ⟨b, hspells, hread⟩⟩⟩
    · simp [hparse] at hfault
    · simp [hparse] at hfault
    · simp [hparse] at hfault
    · obtain rfl := Except.ok.inj (hparse.symm.trans hread)
      refine ⟨digits, hmarked, ?_, hspells⟩
      rw [← String.length_toList, hspells.length, a.length_bytes]
  · rintro ⟨digits, hmarked, -, hspells⟩
    have hlength : digits.utf8ByteSize = 40 := by
      rw [utf8ByteSize_of_spells hspells, a.length_bytes]
    rw [parse_of_marked hmarked, if_neg (not_not_intro hlength),
      Text.Hex.decode?_eq_some_iff.2 hspells, Option.bind_some, ofBytes?, dif_pos a.length_bytes]

theorem parse_hex (a : Address) : parse a.hex.toList = .ok a := by
  refine parse_eq_ok_iff.2 ⟨_, a.marked_hex, ?_, a.spells_text⟩
  rw [← String.length_toList, a.spells_text.length, a.length_bytes]

/-- An address is shown as any of its texts in lower case. -/
theorem hex_eq_toLower (hparse : parse s.toList = .ok a) : a.hex = s.toLower := by
  obtain ⟨digits, hmarked, -, hspells⟩ := parse_eq_ok_iff.1 hparse
  have hlower : s.toLower.toList = s.toList.map Char.toLower := String.toList_map
  rw [← String.toList_inj, toList_hex, hlower, ← hspells.map_toLower]
  rcases hmarked with rfl | rfl
  · rw [String.toList_append, List.map_append]
    rfl
  · rw [String.toList_append, List.map_append]
    rfl

theorem plain_hex (a : Address) : ∀ c ∈ a.hex.toList, Json.Plain c := by
  rw [toList_hex, List.forall_mem_cons, List.forall_mem_cons]
  refine ⟨by decide, by decide, fun c hc => ?_⟩
  obtain ⟨n, hdigit⟩ := (Text.Hex.spells_encode a.bytes).exists_standsFor c hc
  exact hdigit.forall_digits (P := fun c _ => Json.Plain c) (by decide) (by decide)

/-! ## Order -/

/-- Addresses come in the order of their texts. -/
theorem lt_iff_hex_lt : a < b ↔ a.hex < b.hex := by
  rw [String.lt_iff_toList_lt, toList_hex, toList_hex, List.cons_lt_cons_iff,
    List.cons_lt_cons_iff, Text.Hex.encode_lt_encode_iff]
  simp only [lt_irrefl, false_or, true_and]
  rfl

/-- A text is an address exactly when it is the mark `0x` or `0X` and the forty digits that spell
its bytes, and then the address is shown as that text in lower case.  Of all other texts, one
without a mark is refused for that; one with another length behind the mark than forty bytes for its
length; and only the others for their characters.  An address is read back from what it is shown as
and from its JSON form, and addresses come in the order of their texts. -/
theorem one_text_and_one_order :
    (∀ (s : String) (a : Address),
      (parse s.toList = .ok a ↔ ∃ digits, Marked s digits ∧ digits.length = 40 ∧
        Text.Hex.Spells digits.toList a.bytes) ∧
      (parse s.toList = .ok a → toString a = s.toLower)) ∧
    (∀ s : String,
      (parse s.toList = .error .missingPrefix ↔ ∀ digits, ¬ Marked s digits) ∧
      (∀ n, parse s.toList = .error (.wrongLength n) ↔
        ∃ digits, Marked s digits ∧ digits.utf8ByteSize = n ∧ n ≠ 40) ∧
      (parse s.toList = .error .notHexadecimal ↔
        ∃ digits, Marked s digits ∧ digits.utf8ByteSize = 40 ∧
          ∀ bytes, ¬ Text.Hex.Spells digits.toList bytes)) ∧
    (∀ a : Address, parse (toString a).toList = .ok a ∧
      (Json.parse a.toJson.render).map ofJson? = .ok (some a) ∧
      Json.whole Http.addressShape a.toJson.render = .ok a) ∧
    ∀ a b : Address, a < b ↔ toString a < toString b := by
  refine ⟨fun s a => ⟨parse_eq_ok_iff, hex_eq_toLower⟩, fun s => ?_, fun a => ?_,
    fun a b => lt_iff_hex_lt⟩
  · exact parse_eq_error_iff s
  · refine ⟨a.parse_hex, ?_, Json.whole_parsedShape a.plain_hex ?_⟩
    · have hjson : a.toJson = .string a.hex := rfl
      rw [hjson, Json.parse_render_string a.plain_hex]
      simp [Except.map, ofJson?, Json.string?, ofText?, a.parse_hex]
    · rw [a.parse_hex]

end Address

end Arbiter
