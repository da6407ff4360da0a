import Arbiter.Proofs.EventStep
import Arbiter.Proofs.ReplayWindow
import Mathlib.Data.List.Sort

/-!
# The state as a projection of the journal

A state holds what the accepted commands say and nothing else.  Each kind of record is read off the
entries by a function of its own: the registrations of an account, the applications, the events, and
the replies, votes and closings of one event.  An accepted command adds its entry to the list and
what is read off it to the state.
-/

namespace Arbiter

/-! ## What an entry says -/

namespace Entry

/-- The spec under which an entry registers an account, and when. -/
def registration? (address : Address) (x : Entry) : Option (String × Version) :=
  match x.command with
  | .registerNode spec => if x.caller = address then some (spec, x.sequence) else none
  | _ => none

/-- The application that an entry registers, once it has a number. -/
def application? (x : Entry) : Option (ApplicationId → Application) :=
  match x.command with
  | .registerApplication info requiredSpecs multiReplyAllowed =>
      some fun id => ⟨id, info, requiredSpecs, multiReplyAllowed, x.caller, x.sequence⟩
  | _ => none

/-- The event that an entry sends, once it has a number. -/
def sending? (x : Entry) : Option (EventId → Event) :=
  match x.command with
  | .sendEvent payload application =>
      some fun id => .fresh id application payload x.caller x.sequence
  | _ => none

/-- The reply of an entry to an event. -/
def replyTo? (id : EventId) (x : Entry) : Option Reply :=
  match x.command with
  | .sendReply event scores => if event = id then some ⟨x.caller, scores, x.sequence⟩ else none
  | _ => none

/-- The voter and the candidate of an entry that votes on an event. -/
def voteOn? (id : EventId) (x : Entry) : Option (Address × Address) :=
  match x.command with
  | .voteSolver event candidate => if event = id then some (x.caller, candidate) else none
  | _ => none

/-- Who closes an event with an entry, and when. -/
def closingOf? (id : EventId) (x : Entry) : Option (Address × Version) :=
  match x.command with
  | .solveEvent event => if event = id then some (x.caller, x.sequence) else none
  | _ => none

variable {id : EventId} {x : Entry}

theorem collects_nothing (helsewhere : x.command.event? ≠ some id) :
    x.replyTo? id = none ∧ x.voteOn? id = none ∧ x.closingOf? id = none := by
  unfold replyTo? voteOn? closingOf?
  cases hcommand : x.command <;> simp_all [Command.event?]

theorem submittedAt_of_replyTo? {r : Reply} (hr : x.replyTo? id = some r) :
    r.submittedAt = x.sequence := by
  unfold replyTo? at hr
  split at hr
  · split at hr
    · obtain rfl := Option.some.inj hr
      rfl
    · simp at hr
  · simp at hr

end Entry

theorem filterMap_concat {α β : Type} (f : α → Option β) (xs : List α) (x : α) :
    (xs ++ [x]).filterMap f = xs.filterMap f ++ (f x).toList := by
  cases hx : f x <;> simp [hx]

/-! ## Nodes -/

/-- The account, the spec and the time of registration of a node. -/
def Node.enrolment (n : Node) : Address × String × Version :=
  (n.address, n.spec, n.registeredAt)

/-- What registrations of an account come to: the spec is that of the last one and the time that of
the first one. -/
def enrolled (address : Address) (registrations : List (String × Version)) :
    Option (Address × String × Version) := do
  let first ← registrations.head?
  let last ← registrations.getLast?
  return (address, last.1, first.2)

/-- One more registration. -/
def enrol (address : Address) (spec : String) (now : Version) :
    Option (Address × String × Version) → Address × String × Version
  | none => (address, spec, now)
  | some (address', _, registeredAt) => (address', spec, registeredAt)

theorem enrolled_concat (address : Address) (registrations : List (String × Version))
    (spec : String) (now : Version) :
    enrolled address (registrations ++ [(spec, now)]) =
      some (enrol address spec now (enrolled address registrations)) := by
  cases registrations with
  | nil => rfl
  | cons first rest =>
      have hlast : (first :: rest).getLast? = some ((first :: rest).getLast (by simp)) :=
        List.getLast?_eq_some_getLast _
      rw [enrolled, List.getLast?_concat]
      simp [enrolled, enrol, hlast]

namespace Roster

variable {r : Roster} {address address' : Address}

theorem enrolment_register_self (r : Roster) (address : Address) (spec : String) (now : Version) :
    ((r.register address spec now).get? address).map Node.enrolment =
      some (enrol address spec now ((r.get? address).map Node.enrolment)) := by
  unfold register
  split
  · next hthere =>
      obtain ⟨n, hn⟩ := OrderedMap.contains_iff.1 hthere
      simp [get?, OrderedMap.get?_modify, hn, Node.enrolment, enrol]
  · next hnew =>
      have hnone : r.nodes.get? address = none :=
        OrderedMap.get?_eq_none_iff.2 (by simpa [contains] using hnew)
      simp [get?, hnone, Node.enrolment, enrol]

theorem get?_register_of_ne (hne : address' ≠ address) (spec : String) (now : Version) :
    (r.register address spec now).get? address' = r.get? address' := by
  unfold register
  split
  · simp [get?, OrderedMap.get?_modify, hne]
  · simp [get?, OrderedMap.get?_insert, hne]

theorem enrolment_creditAll (r : Roster) (scores : List Score) (address : Address) :
    ((r.creditAll scores).get? address).map Node.enrolment =
      (r.get? address).map Node.enrolment := by
  induction scores generalizing r with
  | nil => rfl
  | cons score scores ih =>
      refine (ih (r.credit score)).trans ?_
      simp only [get?, credit, OrderedMap.get?_modify]
      split
      · next heq =>
          subst heq
          cases r.nodes.get? score.target <;> rfl
      · rfl

end Roster

/-! ## Events -/

/-- Sorting by time finds the order in which replies were accepted. -/
theorem Reply.mergeSort_eq {found replies : List Reply} (hperm : found.Perm replies)
    (hsorted : replies.Pairwise fun r r' => r.submittedAt < r'.submittedAt) :
    (found.mergeSort fun r r' => r.submittedAt ≤ r'.submittedAt) = replies := by
  have hsame := (List.mergeSort_perm found fun r r' => r.submittedAt ≤ r'.submittedAt).trans hperm
  have htimes := (hsame.map (·.submittedAt)).nodup_iff.2
    (List.pairwise_map.2 (hsorted.imp Nat.ne_of_lt))
  have htrans : ∀ r r' r'' : Reply, decide (r.submittedAt ≤ r'.submittedAt) = true →
      decide (r'.submittedAt ≤ r''.submittedAt) = true →
        decide (r.submittedAt ≤ r''.submittedAt) = true := by
    intro r r' r'' h h'
    exact decide_eq_true (Nat.le_trans (of_decide_eq_true h) (of_decide_eq_true h'))
  have htotal : ∀ r r' : Reply, (decide (r.submittedAt ≤ r'.submittedAt) ||
      decide (r'.submittedAt ≤ r.submittedAt)) = true := by
    intro r r'
    simpa using Nat.le_total r.submittedAt r'.submittedAt
  have hstrict := (List.pairwise_mergeSort htrans htotal found).imp₂
    (fun _ _ hle hne => Nat.lt_of_le_of_ne (of_decide_eq_true hle) hne)
    (List.pairwise_map.1 htimes)
  exact hsame.eq_of_pairwise (fun _ _ _ _ hlt hgt => absurd hlt (Nat.not_lt_of_gt hgt))
    hstrict hsorted

namespace Event

variable {entries : List Entry} {id : EventId} {e e' : Event}

/-- An event as it was when it was sent. -/
def asSent (e : Event) : Event :=
  .fresh e.id e.application e.payload e.sender e.createdAt

/-- Who closed an event and when, if it is closed. -/
def closings (e : Event) : List (Address × Version) :=
  (e.resolution.map fun r => (r.solvedBy, r.solvedAt)).toList

/-- What an event has collected is what the entries on it say. -/
structure CollectedFrom (entries : List Entry) (id : EventId) (e : Event) : Prop where
  replies : e.replyList.Perm (entries.filterMap (Entry.replyTo? id))
  votes : e.votePairs.Perm (entries.filterMap (Entry.voteOn? id))
  closing : e.closings = entries.filterMap (Entry.closingOf? id)

theorem collectedFrom_fresh (helsewhere : ∀ x ∈ entries, x.command.event? ≠ some id)
    (application : ApplicationId) (payload : String) (sender : Address) (now : Version) :
    (fresh id application payload sender now).CollectedFrom entries id := by
  have hreplies : entries.filterMap (Entry.replyTo? id) = [] :=
    List.filterMap_eq_nil_iff.2 fun x hx => (Entry.collects_nothing (helsewhere x hx)).1
  have hvotes : entries.filterMap (Entry.voteOn? id) = [] :=
    List.filterMap_eq_nil_iff.2 fun x hx => (Entry.collects_nothing (helsewhere x hx)).2.1
  have hclosing : entries.filterMap (Entry.closingOf? id) = [] :=
    List.filterMap_eq_nil_iff.2 fun x hx => (Entry.collects_nothing (helsewhere x hx)).2.2
  exact ⟨hreplies ▸ .refl [], hvotes ▸ .refl [], hclosing.symm⟩

/-- One more entry adds to an event what it says about it. -/
theorem CollectedFrom.concat (h : e.CollectedFrom entries id) {x : Entry}
    (hreplies : e'.replyList.Perm (e.replyList ++ (x.replyTo? id).toList))
    (hvotes : e'.votePairs.Perm (e.votePairs ++ (x.voteOn? id).toList))
    (hclosing : e'.closings = e.closings ++ (x.closingOf? id).toList) :
    e'.CollectedFrom (entries ++ [x]) id := by
  constructor
  · rw [filterMap_concat]
    exact hreplies.trans (h.replies.append_right _)
  · rw [filterMap_concat]
    exact hvotes.trans (h.votes.append_right _)
  · rw [filterMap_concat, hclosing, h.closing]

/-- Replies in the order of their times are those in the order in which they were accepted. -/
theorem repliesInOrder_eq {replies : List Reply} (hperm : e.replyList.Perm replies)
    (hsorted : replies.Pairwise fun r r' => r.submittedAt < r'.submittedAt) :
    e.repliesInOrder = replies :=
  Reply.mergeSort_eq hperm hsorted

end Event

namespace State

open Event

variable {entries : List Entry} {s s' : State} {caller : Address} {command : Command}
  {outcome : Outcome} {id : EventId} {e e' : Event}

/-- What a command does to an event is what its entry says. -/
theorem EventStep.collectedFrom (h : EventStep s caller id command e e')
    (he : e.CollectedFrom entries id) :
    e'.CollectedFrom (entries ++ [⟨s.version + 1, caller, command⟩]) id := by
  have hfresh : ∀ {β : Type} {m : OrderedMap Address β}, m.contains caller = false →
      m.get? caller = none := OrderedMap.get?_eq_none_iff.2
  cases h with
  | other elsewhere =>
      obtain ⟨hreply, hvote, hclosing⟩ :=
        Entry.collects_nothing (x := ⟨s.version + 1, caller, command⟩) elsewhere
      exact he.concat (by simp [hreply]) (by simp [hvote]) (by simp [hclosing])
  | @reply scores _ _ _ accepts =>
      obtain ⟨_, _, hfirst, _⟩ := checkReply_eq_ok_iff.1 accepts
      have hadded := (OrderedMap.perm_values_insert (Reply.mk caller scores (s.version + 1))
        (hfresh hfirst)).trans (List.perm_append_singleton _ _).symm
      rw [reply_of_new hfirst]
      refine he.concat ?_ (by simp [Entry.voteOn?, votePairs])
        (by simp [Entry.closingOf?, closings])
      simpa [Entry.replyTo?, replyList] using hadded
  | @vote candidate _ accepts =>
      obtain ⟨_, _, hfirst, _⟩ := checkVote_eq_ok_iff.1 accepts
      have hadded := (OrderedMap.perm_toList_insert candidate (hfresh hfirst)).trans
        (List.perm_append_singleton _ _).symm
      refine he.concat (by simp [Entry.replyTo?, replyList, Event.vote]) ?_
        (by simp [Entry.closingOf?, closings, Event.vote])
      simpa [Entry.voteOn?, votePairs, Event.vote] using hadded
  | solve accepts =>
      obtain ⟨hopen, _⟩ := checkSolve_eq_ok_iff.1 accepts
      exact he.concat (by simp [Entry.replyTo?, replyList, Event.solve])
        (by simp [Entry.voteOn?, votePairs, Event.solve])
        (by simp [Entry.closingOf?, closings, Event.solve, hopen])

/-! ## States -/

/-- What a state holds is what the entries say. -/
structure HoldsWhat (entries : List Entry) (s : State) : Prop where
  nodes : ∀ address, (s.roster.get? address).map Node.enrolment =
    enrolled address (entries.filterMap (Entry.registration? address))
  applications : s.catalog.toList =
    (entries.filterMap Entry.application?).mapIdx fun i register => register (i + 1)
  events : s.docket.toList.map asSent =
    (entries.filterMap Entry.sending?).mapIdx fun i send => send (i + 1)
  named : ∀ x ∈ entries, ∀ id, x.command.event? = some id → s.docket.contains id = true
  collected : ∀ {id : EventId} {e : Event}, s.docket.get? id = some e → e.CollectedFrom entries id

namespace HoldsWhat

theorem initial (policy : Policy) : (initial policy).HoldsWhat [] where
  nodes _ := rfl
  applications := rfl
  events := rfl
  named := by simp
  collected := by simp [State.initial, Docket.get?]

theorem nodes_accepted (h : s.HoldsWhat entries) (haccepted : Accepted s caller command s' outcome)
    (address : Address) :
    (s'.roster.get? address).map Node.enrolment =
      enrolled address ((entries ++ [Entry.mk (s.version + 1) caller command]).filterMap
        (Entry.registration? address)) := by
  rw [filterMap_concat]
  cases haccepted with
  | @registerNode spec =>
      by_cases haddress : caller = address
      · subst haddress
        simp only [Entry.registration?, if_true, Option.toList_some]
        rw [enrolled_concat, ← h.nodes]
        exact Roster.enrolment_register_self ..
      · rw [Roster.get?_register_of_ne (Ne.symm haddress)]
        simpa [Entry.registration?, haddress] using h.nodes address
  | sendReply =>
      simpa [Entry.registration?, Roster.enrolment_creditAll] using h.nodes address
  | registerApplication => simpa [Entry.registration?] using h.nodes address
  | sendEvent => simpa [Entry.registration?] using h.nodes address
  | voteSolver => simpa [Entry.registration?] using h.nodes address
  | solveEvent => simpa [Entry.registration?] using h.nodes address

theorem lastApplication (h : s.HoldsWhat entries) (hs : s.Numbered) :
    s.catalog.lastId = (entries.filterMap Entry.application?).length := by
  have hlength := congrArg List.length h.applications
  rw [List.length_mapIdx] at hlength
  exact (OrderedMap.length_values_of_keys hs.applications).symm.trans hlength

theorem lastEvent (h : s.HoldsWhat entries) (hs : s.Numbered) :
    s.docket.lastId = (entries.filterMap Entry.sending?).length := by
  have hlength := congrArg List.length h.events
  rw [List.length_mapIdx, List.length_map] at hlength
  exact (OrderedMap.length_values_of_keys hs.events).symm.trans hlength

theorem applications_accepted (h : s.HoldsWhat entries) (hs : s.Numbered)
    (haccepted : Accepted s caller command s' outcome) :
    s'.catalog.toList =
      ((entries ++ [Entry.mk (s.version + 1) caller command]).filterMap Entry.application?).mapIdx
        fun i register => register (i + 1) := by
  rw [filterMap_concat]
  cases haccepted with
  | @registerApplication info requiredSpecs multiReplyAllowed =>
      have hvalues : (s.catalog.register info requiredSpecs multiReplyAllowed caller
          (s.version + 1)).toList = s.catalog.toList ++ [⟨s.catalog.lastId + 1, info,
            requiredSpecs, multiReplyAllowed, caller, s.version + 1⟩] :=
        OrderedMap.values_insert_of_last _ hs.applications
      rw [hvalues, h.lastApplication hs, h.applications]
      simp [Entry.application?, List.mapIdx_append]
  | registerNode => simpa [Entry.application?] using h.applications
  | sendEvent => simpa [Entry.application?] using h.applications
  | sendReply => simpa [Entry.application?] using h.applications
  | voteSolver => simpa [Entry.application?] using h.applications
  | solveEvent => simpa [Entry.application?] using h.applications

theorem asSent_modify {d : Docket} {id : EventId} {f : Event → Event}
    (hf : ∀ e, (f e).asSent = e.asSent) :
    (d.modify id f).toList.map asSent = d.toList.map asSent :=
  OrderedMap.map_values_modify hf

theorem events_accepted (h : s.HoldsWhat entries) (hs : s.Numbered)
    (haccepted : Accepted s caller command s' outcome) :
    s'.docket.toList.map asSent =
      ((entries ++ [Entry.mk (s.version + 1) caller command]).filterMap Entry.sending?).mapIdx
        fun i send => send (i + 1) := by
  rw [filterMap_concat]
  cases haccepted with
  | @sendEvent payload application =>
      have hvalues : (s.docket.enter application payload caller (s.version + 1)).toList =
          s.docket.toList ++ [.fresh (s.docket.lastId + 1) application payload caller
            (s.version + 1)] :=
        OrderedMap.values_insert_of_last _ hs.events
      rw [hvalues, List.map_append, h.events, h.lastEvent hs]
      simp [Entry.sending?, List.mapIdx_append, asSent, fresh]
  | sendReply =>
      refine (asSent_modify fun e => ?_).trans ?_
      · unfold Event.reply
        split <;> rfl
      · simpa [Entry.sending?] using h.events
  | voteSolver =>
      refine (asSent_modify ?_).trans ?_
      · exact fun _ => rfl
      · simpa [Entry.sending?] using h.events
  | solveEvent =>
      refine (asSent_modify ?_).trans ?_
      · exact fun _ => rfl
      · simpa [Entry.sending?] using h.events
  | registerNode => simpa [Entry.sending?] using h.events
  | registerApplication => simpa [Entry.sending?] using h.events

theorem named_accepted (h : s.HoldsWhat entries) (hs : s.Numbered)
    (haccepted : Accepted s caller command s' outcome) :
    ∀ x ∈ entries ++ [Entry.mk (s.version + 1) caller command], ∀ id,
      x.command.event? = some id → s'.docket.contains id = true := by
  have hkept : ∀ {id : EventId}, s.docket.contains id = true → s'.docket.contains id = true := by
    intro id hid
    obtain ⟨e, he⟩ := OrderedMap.contains_iff.1 hid
    obtain ⟨e', he', -⟩ := haccepted.event_step hs he
    exact OrderedMap.contains_iff.2 ⟨e', he'⟩
  intro x hx id hid
  rcases List.mem_append.1 hx with hx | hx
  · exact hkept (h.named x hx id hid)
  · obtain rfl := List.mem_singleton.1 hx
    exact hkept (OrderedMap.contains_iff.2 (haccepted.event_there hid))

theorem collected_accepted (h : s.HoldsWhat entries) (hs : s.Numbered)
    (haccepted : Accepted s caller command s' outcome) (he' : s'.docket.get? id = some e') :
    e'.CollectedFrom (entries ++ [⟨s.version + 1, caller, command⟩]) id := by
  rcases haccepted.event_cases hs.nextId_fresh he' with
    ⟨he, payload, application, rfl, -, rfl⟩ | ⟨e, he, hstep⟩
  · refine collectedFrom_fresh ?_ application payload caller (s.version + 1)
    -- No entry names an event that is not there yet.
    intro x hx hid
    rcases List.mem_append.1 hx with hx | hx
    · have hthere := h.named x hx id hid
      rw [Docket.contains, OrderedMap.get?_eq_none_iff.1 he] at hthere
      simp at hthere
    · obtain rfl := List.mem_singleton.1 hx
      simp [Command.event?] at hid
  · exact hstep.collectedFrom (h.collected he)

theorem accepted (h : s.HoldsWhat entries) (hs : s.Numbered)
    (haccepted : Accepted s caller command s' outcome) :
    s'.HoldsWhat (entries ++ [⟨s.version + 1, caller, command⟩]) where
  nodes := h.nodes_accepted haccepted
  applications := h.applications_accepted hs haccepted
  events := h.events_accepted hs haccepted
  named := h.named_accepted hs haccepted
  collected := h.collected_accepted hs haccepted

end HoldsWhat

theorem Trail.holdsWhat {policy : Policy} (h : Trail (initial policy) entries s) :
    s.HoldsWhat entries := by
  induction h with
  | start => exact .initial policy
  | accept before accepted ih => exact ih.accepted before.reachable.numbered accepted

/-! ## The projection -/

/-- The entries are the accepted commands, and the state holds exactly what they say. -/
structure ProjectionOf (entries : List Entry) (s : State) : Prop where
  sequences : entries.map (·.sequence) = List.range' 1 s.version
  /-- The nodes are the callers of registrations, each with its last spec and its first time. -/
  nodes : ∀ address, (s.roster.get? address).map Node.enrolment =
    enrolled address (entries.filterMap (Entry.registration? address))
  applicationIds : s.catalog.applications.keys =
    List.range' 1 (entries.filterMap Entry.application?).length
  nextApplication : s.catalog.nextId = (entries.filterMap Entry.application?).length + 1
  applications : s.catalog.toList =
    (entries.filterMap Entry.application?).mapIdx fun i register => register (i + 1)
  eventIds : s.docket.events.keys = List.range' 1 (entries.filterMap Entry.sending?).length
  nextEvent : s.docket.nextId = (entries.filterMap Entry.sending?).length + 1
  events : s.docket.toList.map asSent =
    (entries.filterMap Entry.sending?).mapIdx fun i send => send (i + 1)
  replies : ∀ {id : EventId} {e : Event}, s.docket.get? id = some e →
    e.repliesInOrder = entries.filterMap (Entry.replyTo? id)
  votes : ∀ {id : EventId} {e : Event}, s.docket.get? id = some e →
    e.votePairs.Perm (entries.filterMap (Entry.voteOn? id)) ∧ (e.votePairs.map (·.1)).Nodup
  /-- An event is closed by one entry, or else it is open and no entry closes it. -/
  closings : ∀ {id : EventId} {e : Event}, s.docket.get? id = some e →
    e.closings = entries.filterMap (Entry.closingOf? id)
  solved : ∀ {id : EventId} {e : Event}, s.docket.get? id = some e →
    (e.isSolved = true ↔ ∃ x ∈ entries, x.command = .solveEvent id)

theorem Trail.pairwise_sequence (h : Trail s entries s') :
    entries.Pairwise fun x y => x.sequence < y.sequence := by
  have hsequences : (entries.map (·.sequence)).Pairwise (· < ·) := by
    rw [h.map_sequence]
    exact List.pairwise_lt_range' 1
  exact List.pairwise_map.1 hsequences

theorem HoldsWhat.isSolved_iff (h : s.HoldsWhat entries) (he : s.docket.get? id = some e) :
    e.isSolved = true ↔ ∃ x ∈ entries, x.command = .solveEvent id := by
  have hclosings : e.isSolved = true ↔ e.closings ≠ [] := by
    cases hresolution : e.resolution <;> simp [isSolved, closings, hresolution]
  rw [hclosings, (h.collected he).closing, ne_eq, List.filterMap_eq_nil_iff]
  push Not
  refine exists_congr fun x => and_congr_right fun _ => ?_
  unfold Entry.closingOf?
  cases x.command <;> simp

theorem Trail.projectionOf {policy : Policy} (h : Trail (initial policy) entries s) :
    s.ProjectionOf entries := by
  have hholds := h.holdsWhat
  have hnumbered := h.reachable.numbered
  have hlastApplication := hholds.lastApplication hnumbered
  have hlastEvent := hholds.lastEvent hnumbered
  have hversion : s.version = entries.length := by
    rw [h.version_eq]
    exact Nat.zero_add _
  refine ⟨?_, hholds.nodes, ?_, ?_, hholds.applications, ?_, ?_, hholds.events, fun he => ?_,
    fun he => ?_, fun he => (hholds.collected he).closing, fun he => hholds.isSolved_iff he⟩
  · rw [h.map_sequence, hversion]
    rfl
  · rw [hnumbered.applications, hlastApplication]
  · rw [Catalog.nextId, hlastApplication]
  · rw [hnumbered.events, hlastEvent]
  · rw [Docket.nextId, hlastEvent]
  · refine Event.repliesInOrder_eq (hholds.collected he).replies ?_
    refine h.pairwise_sequence.filterMap _ fun x y hlt r hr r' hr' => ?_
    rwa [Entry.submittedAt_of_replyTo? hr, Entry.submittedAt_of_replyTo? hr']
  · exact ⟨(hholds.collected he).votes, OrderedMap.nodup_keys _⟩

/-- Commands were submitted to a new controller.  Its journal numbers the accepted ones from 1 up to
the version, and its state is their projection: it has the nodes, applications and events that they
registered or sent, under the numbers 1, 2 and so on, and every event has the replies in the order
in which they were accepted, the votes and the closing that name it, and nothing else. -/
theorem state_is_projection (policy : Policy) (commands : List (Address × Command)) :
    ((JournalRun.start policy).submits commands).state.ProjectionOf
      ((JournalRun.start policy).submits commands).journal.entries :=
  ((JournalRun.Traced.start policy).submits commands).trail.projectionOf

end State

end Arbiter
