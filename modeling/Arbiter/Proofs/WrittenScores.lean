import Arbiter.Http.Body
import Arbiter.Proofs.Numerals

/-!
# Written scores

Points are written as a number or as a text.  A number means itself, and a text means the integer of
sixty-four bits that it spells between blanks, so every score can be written in both ways.  The
scores of a reply are read as a whole or not at all: if the points of some score are none, the first
such text is what the client is told.
-/

namespace Arbiter.Http

namespace WrittenPoints

variable {s : String} {n : Int} {written : WrittenPoints} {fault : RequestFault}

theorem points_text_eq_ok_iff :
    (text s).points = .ok n ↔
      Text.Spells (Text.trim s.toList) n ∧ -2 ^ 63 ≤ n ∧ n ≤ 2 ^ 63 - 1 := by
  rw [← Text.signed64_eq_ok_iff, points]
  cases Text.signed64 (Text.trim s.toList) <;> simp

/-- The texts that mean an integer of the range: what its absolute value is shown as, with zeros and
a sign in front of it and blanks around it. -/
theorem points_text_eq_ok_iff_of_range (hleast : -2 ^ 63 ≤ n) (hmost : n ≤ 2 ^ 63 - 1) :
    (text s).points = .ok n ↔
      ∃ before sign zeros after,
        s.toList = before ++ (sign ++ Text.withZeros zeros n.natAbs) ++ after ∧
        (∀ c ∈ before, Text.isBlank c = true) ∧ (∀ c ∈ after, Text.isBlank c = true) ∧
        Text.SignOf sign n := by
  rw [points_text_eq_ok_iff, Text.spells_trim_iff]
  constructor
  · rintro ⟨⟨core, ⟨before, after, htext, hbefore, hafter⟩, hspells⟩, -⟩
    obtain ⟨sign, zeros, rfl, hsign⟩ := Text.spells_iff.1 hspells
    exact ⟨before, sign, zeros, after, htext, hbefore, hafter, hsign⟩
  · rintro ⟨before, sign, zeros, after, htext, hbefore, hafter, hsign⟩
    have hspells := Text.spells_iff.2 ⟨sign, zeros, rfl, hsign⟩
    exact ⟨⟨_, ⟨before, after, htext, hbefore, hafter⟩, hspells⟩, hleast, hmost⟩

/-- Only texts are ever turned down, and each in its own words. -/
theorem points_eq_error_iff :
    written.points = .error fault ↔
      ∃ s, written = .text s ∧ (∀ n, (text s).points ≠ .ok n) ∧ fault = .score s := by
  cases written with
  | number n => simp [points]
  | text s =>
      cases hread : Text.signed64 (Text.trim s.toList) with
      | ok n => simp [points, hread]
      | error _ => simp [points, hread, eq_comm]

end WrittenPoints

namespace WrittenScores

variable {written : WrittenScores} {scores : List Score} {fault : RequestFault}

theorem scores_eq (written : WrittenScores) :
    written.scores = written.mapM fun line => line.2.points.map (Score.mk line.1) :=
  rfl

/-- The scores of a reply are its lines, one for one, with the points that are meant. -/
theorem scores_eq_ok_iff :
    written.scores = .ok scores ↔
      List.Forall₂ (fun line score => score.target = line.1 ∧ line.2.points = .ok score.value)
        written scores := by
  have hline : ∀ (line : Address × WrittenPoints) (score : Score),
      line.2.points.map (Score.mk line.1) = .ok score ↔
        score.target = line.1 ∧ line.2.points = .ok score.value := by
    intro line score
    rw [map_eq_ok_iff]
    constructor
    · rintro ⟨n, hpoints, rfl⟩
      exact ⟨rfl, hpoints⟩
    · rintro ⟨htarget, hpoints⟩
      refine ⟨score.value, hpoints, ?_⟩
      rw [← htarget]
  simp only [scores_eq, mapM_eq_ok_iff, hline]

/-- The scores of a reply can be read exactly if the points of every line mean something. -/
theorem exists_scores_iff :
    (∃ scores, written.scores = .ok scores) ↔ ∀ line ∈ written, ∃ n, line.2.points = .ok n := by
  simp only [scores_eq, exists_mapM_eq_ok_iff, exists_map_eq_ok_iff]

/-- The fault of a reply is that of its first text that means no points. -/
theorem scores_eq_error_iff :
    written.scores = .error fault ↔
      ∃ before target s after, written = before ++ (target, .text s) :: after ∧
        (∀ line ∈ before, ∃ n, line.2.points = .ok n) ∧
        (∀ n, (WrittenPoints.text s).points ≠ .ok n) ∧ fault = .score s := by
  simp only [scores_eq, mapM_eq_error_iff, map_eq_error_iff, exists_map_eq_ok_iff,
    WrittenPoints.points_eq_error_iff]
  constructor
  · rintro ⟨before, ⟨target, points⟩, after, rfl, hbefore, s, rfl, hnone, rfl⟩
    exact ⟨before, target, s, after, rfl, hbefore, hnone, rfl⟩
  · rintro ⟨before, target, s, after, rfl, hbefore, hnone, rfl⟩
    exact ⟨before, (target, .text s), after, rfl, hbefore, s, rfl, hnone, rfl⟩

theorem message_score (s : String) :
    (HostFault.request (.score s)).message =
      "Invalid input: score '" ++ s ++ "' is not a signed 64-bit integer" := by
  have hmark : "Invalid input: " ++ "score '" = "Invalid input: score '" := by decide
  rw [← hmark, String.append_assoc, String.append_assoc]
  rfl

/-- A score means the same as a number and as a text.  A number means itself, and the texts that
mean an integer of sixty-four bits are what its absolute value is shown as, with any zeros and a
sign of the integer in front of it and any blanks around it.  No text means anything unless it is,
without the blanks at its ends, an optional sign and one or more digits whose value is in the range.
The scores of a reply can be read exactly if the points of every line mean something; then they are
the same targets in the same order, each with the points that are meant, and otherwise the request
is refused with the text of the first line whose points mean nothing. -/
theorem numbers_and_texts_mean_the_same :
    (∀ n : Int, -2 ^ 63 ≤ n → n ≤ 2 ^ 63 - 1 →
      (WrittenPoints.number n).points = .ok n ∧
      ∀ s : String, (WrittenPoints.text s).points = .ok n ↔
        ∃ before sign zeros after,
          s.toList = before ++ (sign ++ Text.withZeros zeros n.natAbs) ++ after ∧
          (∀ c ∈ before, Text.isBlank c = true) ∧ (∀ c ∈ after, Text.isBlank c = true) ∧
          Text.SignOf sign n) ∧
    (∀ (s : String) (n : Int), (WrittenPoints.text s).points = .ok n →
      (∃ sign digits, Text.trim s.toList = sign ++ digits ∧ Text.SignOf sign n ∧
        Text.DigitsOf digits n.natAbs) ∧
      -2 ^ 63 ≤ n ∧ n ≤ 2 ^ 63 - 1) ∧
    ∀ written : WrittenScores,
      ((∃ scores, written.scores = .ok scores) ↔
        ∀ line ∈ written, ∃ n, line.2.points = .ok n) ∧
      (∀ scores, written.scores = .ok scores ↔
        List.Forall₂ (fun line score => score.target = line.1 ∧ line.2.points = .ok score.value)
          written scores) ∧
      ((¬ ∀ line ∈ written, ∃ n, line.2.points = .ok n) →
        ∃ before target s after, written = before ++ (target, .text s) :: after ∧
          (∀ line ∈ before, ∃ n, line.2.points = .ok n) ∧
          (∀ n, (WrittenPoints.text s).points ≠ .ok n) ∧
          written.scores = .error (.score s) ∧
          (HostFault.request (.score s)).message =
            "Invalid input: score '" ++ s ++ "' is not a signed 64-bit integer") := by
  refine ⟨?_, ?_, ?_⟩
  · intro n hleast hmost
    constructor
    · rfl
    · intro s
      exact WrittenPoints.points_text_eq_ok_iff_of_range hleast hmost
  · intro s n hread
    exact WrittenPoints.points_text_eq_ok_iff.1 hread
  · intro written
    refine ⟨exists_scores_iff, fun scores => scores_eq_ok_iff, ?_⟩
    intro hunread
    -- nothing can be read, so there is a fault, and it is that of the first unreadable text
    cases hscores : written.scores with
    | ok scores => exact absurd (exists_scores_iff.1 ⟨scores, hscores⟩) hunread
    | error fault =>
        obtain ⟨before, target, s, after, hwritten, hbefore, hnone, rfl⟩ :=
          scores_eq_error_iff.1 hscores
        exact ⟨before, target, s, after, hwritten, hbefore, hnone, rfl, message_score s⟩

/-- Three lines: a text of the greatest number, one of the next number, and one of no number. -/
def beyondRange : WrittenScores :=
  [(.ofLow 1, .text " +9223372036854775807\t"), (.ofLow 2, .text "9223372036854775808"),
    (.ofLow 3, .text "lots")]

theorem numbers_and_texts_mean_the_same_up_to_the_ends :
    (-2 ^ 63 ≤ leastPoints ∧ leastPoints ≤ 2 ^ 63 - 1) ∧
    (WrittenPoints.number leastPoints).points = .ok leastPoints ∧
    (WrittenPoints.text "\u00a0-009223372036854775808\n").points = .ok leastPoints ∧
    (∃ sign digits, Text.trim "\u00a0-009223372036854775808\n".toList = sign ++ digits ∧
      Text.SignOf sign leastPoints ∧ Text.DigitsOf digits leastPoints.natAbs) ∧
    (¬ ∀ line ∈ beyondRange, ∃ n, line.2.points = .ok n) ∧
    ∃ before target after,
      beyondRange = before ++ (target, .text "9223372036854775808") :: after ∧
      (∀ line ∈ before, ∃ n, line.2.points = .ok n) ∧
      beyondRange.scores = .error (.score "9223372036854775808") := by
  obtain ⟨hpoints, htrimmed, hscores⟩ := numbers_and_texts_mean_the_same
  obtain ⟨hnumber, htext⟩ := hpoints leastPoints (by decide) (by decide)
  have hread : (WrittenPoints.text "\u00a0-009223372036854775808\n").points = .ok leastPoints :=
    (htext _).2 ⟨['\u00a0'], ['-'], 2, ['\n'], by decide, List.forall_mem_singleton.2 rfl,
      List.forall_mem_singleton.2 rfl, .inr ⟨rfl, by decide⟩⟩
  have hunread : ¬ ∀ line ∈ beyondRange, ∃ n, line.2.points = .ok n := by
    intro hall
    obtain ⟨n, hn⟩ := hall (.ofLow 2, .text "9223372036854775808") (by simp [beyondRange])
    have hfault : (WrittenPoints.text "9223372036854775808").points =
        .error (.score "9223372036854775808") := by
      decide
    simp [hfault] at hn
  obtain ⟨before, target, s, after, hlines, hbefore, -, hfault, -⟩ :=
    (hscores beyondRange).2.2 hunread
  have hfirst : beyondRange.scores = .error (.score "9223372036854775808") := by decide
  rw [hfirst, Except.error.injEq, RequestFault.score.injEq] at hfault
  subst hfault
  exact ⟨by decide, hnumber, hread, (htrimmed _ _ hread).1, hunread, before, target, after, hlines,
    hbefore, hfirst⟩

end WrittenScores

end Arbiter.Http
