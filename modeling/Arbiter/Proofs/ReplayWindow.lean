import Arbiter.Proofs.Trail

/-!
# Replaying parts of a journal

Commands are submitted to a new journal, and some of them are refused.  Any stretch of the entries
can be replayed onto any state on the way: what the state covers is skipped and the rest is applied,
unless there is a gap between the two.
-/

namespace Arbiter

open State

/-- A journal, the state it is kept for, and the states on the way to it: one before the first entry
and one after every entry. -/
structure JournalRun where
  journal : Journal
  state : State
  states : List State

namespace JournalRun

variable {policy : Policy} {r : JournalRun}

/-- A new journal. -/
def start (policy : Policy) : JournalRun :=
  ⟨{}, .initial policy, [.initial policy]⟩

/-- Submits a command; a refused one changes nothing. -/
def submit (r : JournalRun) (c : Address × Command) : JournalRun :=
  match r.journal.submit r.state c.1 c.2 with
  | .ok (journal, state, _) => ⟨journal, state, r.states ++ [state]⟩
  | .error _ => r

/-- Submits commands one after the other. -/
def submits (r : JournalRun) (commands : List (Address × Command)) : JournalRun :=
  commands.foldl submit r

theorem take_split {k j : Nat} (hkj : k ≤ j) (entries : List Entry) :
    entries.take j = entries.take k ++ (entries.take j).drop k := by
  have hparts := List.take_append_drop k (entries.take j)
  rw [List.take_take, Nat.min_eq_left hkj] at hparts
  exact hparts.symm

/-- The first entries lead to the states on the way, and all of them to the last state. -/
structure Traced (policy : Policy) (r : JournalRun) : Prop where
  trail : Trail (initial policy) r.journal.entries r.state
  count : r.states.length = r.journal.entries.length + 1
  last : r.states[r.journal.entries.length]? = some r.state
  way : ∀ {k : Nat} {s : State}, r.states[k]? = some s →
    Trail (initial policy) (r.journal.entries.take k) s

namespace Traced

theorem start (policy : Policy) : (start policy).Traced policy where
  trail := .start
  count := rfl
  last := rfl
  way := by
    intro k s hs
    cases k with
    | zero =>
        obtain rfl : initial policy = s := by simpa [JournalRun.start] using hs
        exact .start
    | succ k => simp [JournalRun.start] at hs

/-- An accepted command adds its entry and the state after it. -/
theorem accept (h : r.Traced policy) {c : Address × Command} {s : State} {outcome : Outcome}
    (haccepted : Accepted r.state c.1 c.2 s outcome) :
    Traced policy ⟨{ entries := r.journal.entries ++ [⟨s.version, c.1, c.2⟩] }, s,
      r.states ++ [s]⟩ := by
  have htrail := h.trail.accept haccepted
  rw [← haccepted.version_eq] at htrail
  refine ⟨htrail, by simp [h.count], by simp [h.count], ?_⟩
  intro k s' hs'
  -- A state on the way is one of the old ones, or else the new one behind them.
  rcases Nat.lt_or_ge k r.states.length with hk | hk
  · rw [List.getElem?_append_left hk] at hs'
    rw [h.count] at hk
    rw [List.take_append_of_le_length (Nat.lt_succ_iff.1 hk)]
    exact h.way hs'
  · obtain ⟨hzero, rfl⟩ : k - r.states.length = 0 ∧ s = s' := by
      rw [List.getElem?_append_right hk] at hs'
      simpa [List.getElem?_singleton] using hs'
    rw [h.count] at hk
    rw [List.take_of_length_le (by simpa using hk)]
    exact htrail

theorem submit (h : r.Traced policy) (c : Address × Command) : (r.submit c).Traced policy := by
  unfold JournalRun.submit Journal.submit
  cases happly : r.state.apply c.1 c.2 with
  | error refusal => exact h
  | ok result => exact h.accept (apply_eq_ok_iff.1 happly)

theorem submits (h : r.Traced policy) (commands : List (Address × Command)) :
    (r.submits commands).Traced policy := by
  induction commands generalizing r with
  | nil => exact h
  | cons c commands ih => exact ih (h.submit c)

/-! ## Stretches of the entries -/

variable {i j k : Nat} {s s' : State}

theorem le_length (h : r.Traced policy) (hs : r.states[k]? = some s) :
    k ≤ r.journal.entries.length := by
  have hk := (List.getElem?_eq_some_iff.1 hs).1
  rw [h.count] at hk
  exact Nat.lt_succ_iff.1 hk

theorem version_eq (h : r.Traced policy) (hs : r.states[k]? = some s) : s.version = k := by
  rw [(h.way hs).version_eq, List.length_take_of_le (h.le_length hs)]
  exact Nat.zero_add k

/-- The entries between two states lead from the one to the other. -/
theorem between (h : r.Traced policy) (hs : r.states[k]? = some s) (hs' : r.states[j]? = some s')
    (hkj : k ≤ j) : Trail s ((r.journal.entries.take j).drop k) s' := by
  have hall := h.way hs'
  rw [take_split hkj] at hall
  obtain ⟨s'', hbefore, hafter⟩ := hall.split
  rwa [(h.way hs).unique hbefore]

/-- Entries up to a state are covered by it. -/
theorem covered (h : r.Traced policy) (hs : r.states[k]? = some s) (hjk : j ≤ k) (i : Nat) :
    ∀ e ∈ (r.journal.entries.take j).drop i, e.sequence ≤ s.version := by
  intro e he
  have hfront : r.journal.entries.take j <+: r.journal.entries.take k :=
    List.take_prefix_take_left hjk
  exact ((h.way hs).sequence_mem (hfront.subset (List.mem_of_mem_drop he))).2

/-- A stretch that begins within what a state covers is replayed up to its end. -/
theorem replay_eq (h : r.Traced policy) (hs : r.states[k]? = some s)
    (hs' : r.states[max j k]? = some s') (hik : i ≤ k) :
    s.replay ((r.journal.entries.take j).drop i) = ⟨s', .ok (max j k - k)⟩ := by
  rcases Nat.le_total j k with hjk | hkj
  · obtain rfl : s = s' := by
      rw [Nat.max_eq_right hjk, hs] at hs'
      exact Option.some.inj hs'
    have hskip : s.replayFrom 0 ((r.journal.entries.take j).drop i ++ []) = s.replayFrom 0 [] :=
      replayFrom_append_of_covered 0 (h.covered hs hjk i)
    rw [List.append_nil] at hskip
    rw [replay, hskip, Nat.max_eq_right hjk, Nat.sub_self]
    rfl
  · rw [Nat.max_eq_left hkj] at hs' ⊢
    have hparts : (r.journal.entries.take j).drop i =
        (r.journal.entries.take k).drop i ++ (r.journal.entries.take j).drop k := by
      have hwithin : i ≤ (r.journal.entries.take k).length := by
        rwa [List.length_take_of_le (h.le_length hs)]
      rw [← List.drop_append_of_le_length hwithin, ← take_split hkj]
    have hlength : ((r.journal.entries.take j).drop k).length = j - k := by
      rw [List.length_drop, List.length_take_of_le (h.le_length hs')]
    rw [hparts, replay, replayFrom_append_of_covered 0 (h.covered hs (Nat.le_refl k) i),
      (h.between hs hs' hkj).replayFrom, hlength, Nat.zero_add]

/-- A stretch that begins behind what a state covers is not replayed. -/
theorem replay_gap (h : r.Traced policy) (hs : r.states[k]? = some s) (hki : k < i) (hij : i < j)
    (hj : j ≤ r.journal.entries.length) :
    s.replay ((r.journal.entries.take j).drop i) = ⟨s, .error (.journalJump k (i + 1))⟩ := by
  have hi : i < (r.journal.entries.take j).length := by
    rw [List.length_take_of_le hj]
    exact hij
  have hsequence : (r.journal.entries.take j)[i].sequence = i + 1 := by
    have hget : (r.journal.entries.map (·.sequence))[i]? = some (i + 1) := by
      rw [h.trail.map_sequence, List.getElem?_range' (by omega)]
      simp [initial]
      omega
    rw [List.getElem?_map, Option.map_eq_some_iff] at hget
    obtain ⟨e, he, hsequence⟩ := hget
    rw [List.getElem_take, ← hsequence]
    exact congrArg Entry.sequence (List.getElem?_eq_some_iff.1 he).2
  have hversion := h.version_eq hs
  rw [List.drop_eq_getElem_cons hi, replay, replayFrom,
    if_neg (by rw [hsequence, hversion]; omega), follow,
    if_pos (by rw [hsequence, hversion]; omega), hsequence, hversion]

end Traced

end JournalRun

/-- Commands were submitted to a new journal.  Its entries are numbered from 1 on and lead to its
state.  Any stretch of them that begins within what a state on the way covers is replayed onto that
state up to its end, and again without effect; one that begins behind it is not replayed at all. -/
theorem replay_of_any_stretch (policy : Policy) (commands : List (Address × Command))
    {r : JournalRun} (hr : r = (JournalRun.start policy).submits commands) :
    r.journal.entries.map (·.sequence) = List.range' 1 r.journal.entries.length ∧
      r.states.length = r.journal.entries.length + 1 ∧
      r.states[0]? = some (.initial policy) ∧
      r.states[r.journal.entries.length]? = some r.state ∧
      rebuild policy r.journal.entries = .ok r.state ∧
      ∀ (i j k : Nat) (s : State),
        i ≤ j → j ≤ r.journal.entries.length → r.states[k]? = some s →
          (i ≤ k → ∃ s', r.states[max j k]? = some s' ∧
            s.replay ((r.journal.entries.take j).drop i) = ⟨s', .ok (max j k - k)⟩ ∧
            s'.replay ((r.journal.entries.take j).drop i) = ⟨s', .ok 0⟩) ∧
          (k < i → i < j →
            s.replay ((r.journal.entries.take j).drop i) =
              ⟨s, .error (.journalJump k (i + 1))⟩) := by
  have h : r.Traced policy := hr ▸ (JournalRun.Traced.start policy).submits commands
  have hfirst : r.states[0]? = some (.initial policy) := by
    have hzero : 0 < r.states.length := by
      rw [h.count]
      exact Nat.succ_pos _
    obtain ⟨s, hs⟩ : ∃ s, r.states[0]? = some s := ⟨_, List.getElem?_eq_getElem hzero⟩
    rw [hs, (h.way hs).eq_of_nil]
  refine ⟨h.trail.map_sequence, h.count, hfirst, h.last, h.trail.rebuild, ?_⟩
  intro i j k s hij hj hs
  constructor
  · intro hik
    have hmax : max j k < r.states.length := by
      rw [h.count]
      exact Nat.lt_succ_iff.2 (Nat.max_le.2 ⟨hj, h.le_length hs⟩)
    obtain ⟨s', hs'⟩ : ∃ s', r.states[max j k]? = some s' := ⟨_, List.getElem?_eq_getElem hmax⟩
    have hagain : r.states[max j (max j k)]? = some s' := by
      rwa [Nat.max_eq_right (Nat.le_max_left j k)]
    have hnothing := h.replay_eq hs' hagain (Nat.le_trans hik (Nat.le_max_right j k))
    rw [Nat.max_eq_right (Nat.le_max_left j k), Nat.sub_self] at hnothing
    exact ⟨s', hs', h.replay_eq hs hs' hik, hnothing⟩
  · intro hki hij
    exact h.replay_gap hs hki hij hj

/-- Two nodes register, and in between the first one solves an event that is not there. -/
def mixedRun : JournalRun :=
  (JournalRun.start {}).submits
    [(.ofLow 1, .registerNode "s"), (.ofLow 1, .solveEvent 7), (.ofLow 2, .registerNode "s")]

theorem replay_of_any_stretch_of_mixedRun :
    mixedRun.journal.entries.length = 2 ∧
      (∃ s s', mixedRun.states[1]? = some s ∧ mixedRun.states[2]? = some s' ∧
        s.replay ((mixedRun.journal.entries.take 2).drop 0) = ⟨s', .ok 1⟩) ∧
      (State.initial {}).replay ((mixedRun.journal.entries.take 2).drop 1) =
        ⟨.initial {}, .error (.journalJump 0 2)⟩ := by
  have hlength : mixedRun.journal.entries.length = 2 := by decide +kernel
  obtain ⟨-, hcount, hfirst, -, -, hreplay⟩ := replay_of_any_stretch {}
    [(.ofLow 1, .registerNode "s"), (.ofLow 1, .solveEvent 7), (.ofLow 2, .registerNode "s")]
    (r := mixedRun) rfl
  obtain ⟨s, hs⟩ : ∃ s, mixedRun.states[1]? = some s := by
    refine ⟨_, List.getElem?_eq_getElem ?_⟩
    omega
  have hwhole : 2 ≤ mixedRun.journal.entries.length := Nat.le_of_eq hlength.symm
  obtain ⟨s', hs', hparts, -⟩ := (hreplay 0 2 1 s (by decide) hwhole hs).1 (by decide)
  exact ⟨hlength, ⟨s, s', hs, hs', hparts⟩,
    (hreplay 1 2 0 _ (by decide) hwhole hfirst).2 (by decide) (by decide)⟩

end Arbiter
