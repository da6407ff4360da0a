import Arbiter.Journal.Replay
import Arbiter.Proofs.Accepted

/-!
# The trail of a state

The accepted commands that lead from one state to another are its trail: the entries of a journal
that was kept on the way.  Invariants are proved along trails, once for the start and once for an
accepted command.  A trail determines the state it leads to, every part of it is a trail, and
replaying it gives that state again, whatever entries before it are replayed along with it.
-/

namespace Arbiter.State

/-- The entries lead from the first state to the second one. -/
inductive Trail (s : State) : List Entry → State → Prop
  | start : Trail s [] s
  | accept {entries : List Entry} {s' s'' : State} {caller : Address} {command : Command}
      {outcome : Outcome} (before : Trail s entries s')
      (accepted : Accepted s' caller command s'' outcome) :
      Trail s (entries ++ [⟨s'.version + 1, caller, command⟩]) s''

/-- A state that a controller of some policy can be in. -/
def Reachable (policy : Policy) (s : State) : Prop :=
  ∃ entries, Trail (initial policy) entries s

namespace Trail

variable {s s' s'' : State} {entries more : List Entry}

/-! ## Invariants -/

/-- What holds at the start and is kept by every accepted command holds at the end. -/
theorem invariant {P : State → Prop} (h : Trail s entries s') (hstart : P s)
    (hstep : ∀ {t t' : State} {caller : Address} {command : Command} {outcome : Outcome},
      ⟨t.version + 1, caller, command⟩ ∈ entries →
        Accepted t caller command t' outcome → P t → P t') :
    P s' := by
  induction h with
  | start => exact hstart
  | accept before accepted ih =>
      refine hstep ?_ accepted (ih ?_)
      · simp
      · intro t t' caller command outcome hmem
        exact hstep (by simp [hmem])

theorem version_eq (h : Trail s entries s') : s'.version = s.version + entries.length := by
  induction h with
  | start => rfl
  | accept before accepted ih =>
      rw [accepted.version_eq, ih, List.length_append, List.length_singleton, Nat.add_assoc]

theorem policy_eq (h : Trail s entries s') : s'.policy = s.policy :=
  h.invariant (P := fun t => t.policy = s.policy) rfl
    fun _ accepted heq => accepted.policy_eq.trans heq

/-- The entries of a trail are numbered by the versions they lead to. -/
theorem map_sequence (h : Trail s entries s') :
    entries.map (·.sequence) = List.range' (s.version + 1) entries.length := by
  induction h with
  | start => rfl
  | accept before accepted ih =>
      rw [List.map_append, ih, List.length_append, List.length_singleton, List.range'_concat,
        before.version_eq]
      simp [Nat.add_right_comm]

theorem sequence_mem (h : Trail s entries s') {e : Entry} (he : e ∈ entries) :
    s.version < e.sequence ∧ e.sequence ≤ s'.version := by
  have hmem : e.sequence ∈ entries.map (·.sequence) := List.mem_map_of_mem he
  rw [h.map_sequence, List.mem_range'_1, Nat.add_right_comm] at hmem
  rw [h.version_eq]
  exact ⟨hmem.1, Nat.lt_succ_iff.1 hmem.2⟩

theorem reachable {policy : Policy} (h : Trail (initial policy) entries s) : Reachable policy s :=
  ⟨entries, h⟩

/-! ## Passages -/

/-- One of the entries of a trail, with the state before it and the state after it. -/
structure Passage (s : State) (entries : List Entry) (s' : State) (x : Entry) (t t' : State) :
    Prop where
  there : ∃ front back, entries = front ++ x :: back ∧ Trail s front t ∧ Trail t' back s'
  sequence : x.sequence = t.version + 1
  accepted : ∃ outcome, Accepted t x.caller x.command t' outcome

/-- What does not hold at the start but at the end has come about with one of the entries. -/
theorem exists_passage {P : State → Prop} (h : Trail s entries s') (hstart : ¬ P s)
    (hend : P s') : ∃ x t t', Passage s entries s' x t t' ∧ ¬ P t ∧ P t' := by
  induction h with
  | start => exact absurd hend hstart
  | @accept entries t t' caller command outcome before accepted ih =>
      by_cases hbefore : P t
      · obtain ⟨x, t₀, t₁, hpassage, hchange⟩ := ih hbefore
        obtain ⟨front, back, hentries, hfront, hback⟩ := hpassage.there
        refine ⟨x, t₀, t₁, ⟨⟨front, back ++ [⟨t.version + 1, caller, command⟩], ?_, hfront, ?_⟩,
          hpassage.sequence, hpassage.accepted⟩, hchange⟩
        · rw [hentries, List.append_assoc, List.cons_append]
        · exact hback.accept accepted
      · exact ⟨⟨t.version + 1, caller, command⟩, t, t',
          ⟨⟨entries, [], rfl, before, .start⟩, rfl, outcome, accepted⟩, hbefore, hend⟩

/-! ## Putting trails together -/

theorem append (h : Trail s entries s') (hmore : Trail s' more s'') :
    Trail s (entries ++ more) s'' := by
  induction hmore with
  | start => simpa using h
  | accept before accepted ih =>
      rw [← List.append_assoc]
      exact ih.accept accepted

theorem cons {caller : Address} {command : Command} {outcome : Outcome}
    (accepted : Accepted s caller command s' outcome) (h : Trail s' entries s'') :
    Trail s (⟨s.version + 1, caller, command⟩ :: entries) s'' :=
  (start.accept accepted).append h

theorem split (h : Trail s (entries ++ more) s'') :
    ∃ s', Trail s entries s' ∧ Trail s' more s'' := by
  generalize hall : entries ++ more = all at h
  induction h generalizing more with
  | start =>
      obtain ⟨rfl, rfl⟩ := List.append_eq_nil_iff.1 hall
      exact ⟨s, start, start⟩
  | @accept _ _ s'' _ _ _ before accepted ih =>
      rcases List.eq_nil_or_concat more with rfl | ⟨init, last, rfl⟩
      · rw [List.append_nil] at hall
        subst hall
        exact ⟨s'', before.accept accepted, start⟩
      · rw [List.concat_eq_append, ← List.append_assoc] at hall
        obtain ⟨hinit, hlast⟩ := List.append_inj' hall rfl
        obtain ⟨s₁, hfront, hback⟩ := ih hinit
        refine ⟨s₁, hfront, ?_⟩
        rw [List.concat_eq_append, hlast]
        exact hback.accept accepted

theorem eq_of_nil (h : Trail s [] s') : s = s' := by
  generalize hnil : ([] : List Entry) = entries at h
  cases h with
  | start => rfl
  | accept _ _ => simp at hnil

theorem uncons {e : Entry} (h : Trail s (e :: entries) s'') :
    ∃ s' outcome, e.sequence = s.version + 1 ∧ Accepted s e.caller e.command s' outcome ∧
      Trail s' entries s'' := by
  have hparts : Trail s ([e] ++ entries) s'' := h
  obtain ⟨s', hfirst, hrest⟩ := hparts.split
  generalize hsingle : [e] = single at hfirst
  cases hfirst with
  | start => exact absurd hsingle (by simp)
  | @accept front _ _ _ _ outcome before accepted =>
      have hfront : front = [] := by
        have hlength := congrArg List.length hsingle
        simp only [List.length_singleton, List.length_append] at hlength
        exact List.length_eq_zero_iff.1 (by omega)
      subst hfront
      obtain rfl := eq_of_nil before
      obtain rfl : e = _ := by simpa using hsingle
      exact ⟨s', outcome, rfl, accepted, hrest⟩

/-! ## Replaying -/

theorem replayFrom (h : Trail s entries s') (applied : Nat) :
    s.replayFrom applied entries = ⟨s', .ok (applied + entries.length)⟩ := by
  induction entries generalizing s applied with
  | nil =>
      obtain rfl := h.eq_of_nil
      rfl
  | cons e entries ih =>
      obtain ⟨s₁, outcome, hsequence, haccepted, hrest⟩ := h.uncons
      have hnew : ¬ e.sequence ≤ s.version := by omega
      have hfollow : s.follow e = .ok s₁ := by
        simp [follow, hsequence, apply_eq_ok_iff.2 haccepted]
      simp only [State.replayFrom, if_neg hnew, hfollow, ih hrest, List.length_cons]
      congr 2
      omega

/-- A trail determines where it leads. -/
theorem unique (h : Trail s entries s') (h' : Trail s entries s'') : s' = s'' := by
  have heq := (h.replayFrom 0).symm.trans (h'.replayFrom 0)
  exact congrArg Replay.state heq

end Trail

/-- An entry that is applied continues the state, and its command is accepted. -/
theorem follow_eq_ok {s s' : State} {e : Entry} (h : s.follow e = .ok s') :
    e.sequence = s.version + 1 ∧ ∃ outcome, Accepted s e.caller e.command s' outcome := by
  unfold follow at h
  split at h
  · simp at h
  · next hsequence =>
      cases happly : s.apply e.caller e.command with
      | error _ => simp [happly] at h
      | ok result =>
          obtain rfl : result.1 = s' := by simpa [happly] using h
          exact ⟨not_not.1 hsequence, result.2, apply_eq_ok_iff.1 happly⟩

/-- Entries that a state covers already are skipped. -/
theorem replayFrom_append_of_covered {s : State} {old new : List Entry} (applied : Nat)
    (hold : ∀ e ∈ old, e.sequence ≤ s.version) :
    s.replayFrom applied (old ++ new) = s.replayFrom applied new := by
  induction old with
  | nil => rfl
  | cons e old ih =>
      rw [List.forall_mem_cons] at hold
      rw [List.cons_append, State.replayFrom, if_pos hold.1, ih hold.2]

/-- A whole trail, replayed onto a state on the way, leads to its end. -/
theorem Trail.replay_of_prefix {s₀ s s' : State} {front back : List Entry}
    (hfront : Trail s₀ front s) (hback : Trail s back s') :
    s.replay (front ++ back) = ⟨s', .ok back.length⟩ := by
  rw [replay, replayFrom_append_of_covered 0 fun e he => (hfront.sequence_mem he).2,
    hback.replayFrom, Nat.zero_add]

/-- A replay applies some of the entries, be it stopped or not. -/
theorem exists_trail_replayFrom (s : State) (applied : Nat) (entries : List Entry) :
    ∃ taken, taken.Sublist entries ∧ Trail s taken (s.replayFrom applied entries).state := by
  induction entries generalizing s applied with
  | nil => exact ⟨[], List.Sublist.slnil, .start⟩
  | cons e entries ih =>
      by_cases hcovered : e.sequence ≤ s.version
      · obtain ⟨taken, hpart, htrail⟩ := ih s applied
        rw [State.replayFrom, if_pos hcovered]
        exact ⟨taken, hpart.cons e, htrail⟩
      · rw [State.replayFrom, if_neg hcovered]
        cases hfollow : s.follow e with
        | error _ => exact ⟨[], List.nil_sublist _, .start⟩
        | ok s₁ =>
            obtain ⟨hsequence, outcome, haccepted⟩ := follow_eq_ok hfollow
            obtain ⟨taken, hpart, htrail⟩ := ih s₁ (applied + 1)
            have hentry : e = ⟨s.version + 1, e.caller, e.command⟩ := by rw [← hsequence]
            exact ⟨e :: taken, hpart.cons_cons e, hentry ▸ htrail.cons haccepted⟩

theorem Trail.rebuild {policy : Policy} {s : State} {entries : List Entry}
    (h : Trail (initial policy) entries s) : rebuild policy entries = .ok s := by
  simp [Arbiter.rebuild, replay, h.replayFrom, Replay.finished, Except.map]

theorem exists_trail_of_rebuild {policy : Policy} {s : State} {entries : List Entry}
    (h : rebuild policy entries = .ok s) :
    ∃ taken, taken.Sublist entries ∧ Trail (initial policy) taken s := by
  have hreached : ((initial policy).replay entries).state = s := by
    cases hending : ((initial policy).replay entries).ending with
    | error _ => simp [Arbiter.rebuild, Replay.finished, hending, Except.map] at h
    | ok _ => simpa [Arbiter.rebuild, Replay.finished, hending, Except.map] using h
  exact hreached ▸ exists_trail_replayFrom (initial policy) 0 entries

/-! ## Running any commands -/

/-- The state after a command was run, be it accepted or refused. -/
def step (s : State) (c : Address × Command) : State :=
  match s.apply c.1 c.2 with
  | .ok (s', _) => s'
  | .error _ => s

/-- The state after commands were run one after the other. -/
def run (s : State) (commands : List (Address × Command)) : State :=
  commands.foldl step s

theorem step_cases (s : State) (c : Address × Command) :
    s.step c = s ∨ ∃ outcome, Accepted s c.1 c.2 (s.step c) outcome := by
  cases happly : s.apply c.1 c.2 with
  | error _ => exact .inl (by simp [step, happly])
  | ok result =>
      obtain ⟨s', outcome⟩ := result
      have hstep : s.step c = s' := by simp [step, happly]
      exact .inr ⟨outcome, hstep ▸ apply_eq_ok_iff.1 happly⟩

theorem exists_trail_run (s : State) (commands : List (Address × Command)) :
    ∃ entries, Trail s entries (s.run commands) := by
  induction commands generalizing s with
  | nil => exact ⟨[], .start⟩
  | cons c commands ih =>
      obtain ⟨entries, htrail⟩ := ih (s.step c)
      rcases s.step_cases c with hsame | ⟨outcome, haccepted⟩
      · rw [hsame] at htrail
        exact ⟨entries, by simpa [run, hsame] using htrail⟩
      · exact ⟨_, htrail.cons haccepted⟩

theorem reachable_run (policy : Policy) (commands : List (Address × Command)) :
    Reachable policy ((initial policy).run commands) :=
  exists_trail_run _ _

namespace Reachable

variable {policy : Policy} {s s' : State}

theorem policy_eq (h : Reachable policy s) : s.policy = policy := by
  obtain ⟨entries, htrail⟩ := h
  exact htrail.policy_eq

theorem accepted (h : Reachable policy s) {caller : Address} {command : Command}
    {outcome : Outcome} (haccepted : Accepted s caller command s' outcome) :
    Reachable policy s' := by
  obtain ⟨entries, htrail⟩ := h
  exact ⟨_, htrail.accept haccepted⟩

/-- What holds at first and is kept by every command that is accepted in a reachable state holds of
every reachable state. -/
theorem invariant {P : State → Prop} (h : Reachable policy s) (hstart : P (initial policy))
    (hstep : ∀ {t t' : State} {caller : Address} {command : Command} {outcome : Outcome},
      Reachable policy t → Accepted t caller command t' outcome → P t → P t') : P s := by
  obtain ⟨entries, htrail⟩ := h
  induction htrail with
  | start => exact hstart
  | accept before accepted ih => exact hstep ⟨_, before⟩ accepted ih

theorem step (h : Reachable policy s) (c : Address × Command) : Reachable policy (s.step c) := by
  rcases s.step_cases c with hsame | ⟨outcome, haccepted⟩
  · rwa [hsame]
  · exact h.accepted haccepted

end Reachable

end Arbiter.State
