import Arbiter.Codec.Basic
import Arbiter.Journal.Basic

/-!
# The binary form of entries and states

The fields of a record are written in order with nothing between them, and a variant is written as
its number before its fields.  Everything here is put together from the codecs of
`Arbiter.Codec.Basic` and inherits their laws.
-/

namespace Arbiter

/-- Addresses are their twenty bytes. -/
def Address.codec : Codec Address :=
  (Codec.raw 20).via Address.bytes Address.ofBytes?
    (fun a => by simp [Address.ofBytes?, a.length_bytes])
    (fun {bytes a} hbytes ha => by
      unfold Address.ofBytes? at ha
      split at ha
      · obtain rfl := Option.some.inj ha
        exact hbytes
      · simp at ha)

/-- The number that stands for an amount of points: points that are not negative have the even
numbers, the others the odd ones. -/
def foldPoints (n : Int) : Nat :=
  if 0 ≤ n then 2 * n.toNat else 2 * (-n).toNat - 1

/-- The points that a number stands for. -/
def unfoldPoints (n : Nat) : Int :=
  if n % 2 = 0 then (n / 2 : Nat) else -((n / 2 + 1 : Nat) : Int)

/-- Amounts of points. -/
def pointsCodec : Codec Int :=
  Codec.number.iso foldPoints unfoldPoints
    (fun n => by unfold foldPoints unfoldPoints; split <;> split <;> omega)
    (fun n => by unfold foldPoints unfoldPoints; split <;> split <;> omega)

namespace Score

/-- Scores: the target and the points. -/
def codec : Codec Score :=
  (Address.codec.pair pointsCodec).iso (fun s => (s.target, s.value)) (fun p => ⟨p.1, p.2⟩)
    (fun _ => rfl) (fun _ => rfl)

end Score

namespace Command

/-- The number of the variant of a command. -/
def index : Command → Nat
  | .registerNode .. => 0
  | .registerApplication .. => 1
  | .sendEvent .. => 2
  | .sendReply .. => 3
  | .voteSolver .. => 4
  | .solveEvent .. => 5

/-- The arguments of the commands of one variant. -/
def body : Nat → Codec Command
  | 0 => Codec.text.embed (fun spec => .registerNode spec)
    (fun | .registerNode spec => some spec | _ => none)
    (fun _ => rfl) (fun {a b} h => by cases a <;> cases h; rfl)
  | 1 => (Codec.text.pair (Codec.text.list.pair Codec.flag)).embed
    (fun (info, specs, multi) => .registerApplication info specs multi)
    (fun | .registerApplication info specs multi => some (info, specs, multi) | _ => none)
    (fun _ => rfl) (fun {a b} h => by cases a <;> cases h; rfl)
  | 2 => (Codec.text.pair Codec.number).embed
    (fun (payload, application) => .sendEvent payload application)
    (fun | .sendEvent payload application => some (payload, application) | _ => none)
    (fun _ => rfl) (fun {a b} h => by cases a <;> cases h; rfl)
  | 3 => (Codec.number.pair Score.codec.list).embed
    (fun (event, scores) => .sendReply event scores)
    (fun | .sendReply event scores => some (event, scores) | _ => none)
    (fun _ => rfl) (fun {a b} h => by cases a <;> cases h; rfl)
  | 4 => (Codec.number.pair Address.codec).embed
    (fun (event, candidate) => .voteSolver event candidate)
    (fun | .voteSolver event candidate => some (event, candidate) | _ => none)
    (fun _ => rfl) (fun {a b} h => by cases a <;> cases h; rfl)
  | 5 => Codec.number.embed (fun event => .solveEvent event)
    (fun | .solveEvent event => some event | _ => none)
    (fun _ => rfl) (fun {a b} h => by cases a <;> cases h; rfl)
  | _ => Codec.never

theorem index_of_fits {t : Nat} {c : Command} (h : (body t).Fits c) : c.index = t := by
  unfold body at h
  split at h <;> cases c <;> simp_all [Codec.embed, Codec.never, index]

/-- Commands. -/
def codec : Codec Command :=
  Codec.variants index body index_of_fits

end Command

namespace Entry

/-- Journal entries. -/
def codec : Codec Entry :=
  (Codec.number.pair (Address.codec.pair Command.codec)).iso
    (fun e => (e.sequence, e.caller, e.command)) (fun p => ⟨p.1, p.2.1, p.2.2⟩)
    (fun _ => rfl) (fun _ => rfl)

/-- The bytes of an entry. -/
def encode (e : Entry) : Bytes :=
  codec.encode e

/-- Reads an entry that fills all the bytes. -/
def decode (bytes : Bytes) : Except Corruption Entry :=
  match codec.decode bytes with
  | none => .error .undecodable
  | some (e, []) => .ok e
  | some (_, rest) => .error (.trailingBytes rest.length)

end Entry

namespace SolveAuthority

/-- The number of an authority. -/
def index : SolveAuthority → Nat
  | .anyone => 0
  | .registered => 1
  | .elected => 2

/-- The authority of a number. -/
def ofIndex? : Nat → Option SolveAuthority
  | 0 => some .anyone
  | 1 => some .registered
  | 2 => some .elected
  | _ => none

/-- Authorities. -/
def codec : Codec SolveAuthority :=
  Codec.tag.via index ofIndex? (fun a => by cases a <;> rfl) (fun {b a} hb ha => by
    unfold ofIndex? at ha
    split at ha <;> cases ha <;> exact hb)

end SolveAuthority

/-- Policies. -/
def Policy.codec : Codec Policy :=
  (SolveAuthority.codec.pair (Codec.number.pair (Codec.number.pair Codec.number))).iso
    (fun p => (p.solveAuthority, p.minReplies, p.maxTagLength, p.maxPayloadLength))
    (fun p => ⟨p.1, p.2.1, p.2.2.1, p.2.2.2⟩) (fun _ => rfl) (fun _ => rfl)

/-- Nodes. -/
def Node.codec : Codec Node :=
  (Address.codec.pair (Codec.text.pair (pointsCodec.pair Codec.number))).iso
    (fun n => (n.address, n.spec, n.reputation, n.registeredAt))
    (fun p => ⟨p.1, p.2.1, p.2.2.1, p.2.2.2⟩) (fun _ => rfl) (fun _ => rfl)

/-- Rosters. -/
def Roster.codec : Codec Roster :=
  (Codec.map Address.codec Node.codec).iso Roster.nodes Roster.mk (fun _ => rfl) (fun _ => rfl)

/-- Applications. -/
def Application.codec : Codec Application :=
  (Codec.number.pair (Codec.text.pair (Codec.text.list.pair
    (Codec.flag.pair (Address.codec.pair Codec.number))))).iso
    (fun a => (a.id, a.info, a.requiredSpecs, a.multiReplyAllowed, a.owner, a.createdAt))
    (fun p => ⟨p.1, p.2.1, p.2.2.1, p.2.2.2.1, p.2.2.2.2.1, p.2.2.2.2.2⟩)
    (fun _ => rfl) (fun _ => rfl)

/-- Catalogs. -/
def Catalog.codec : Codec Catalog :=
  ((Codec.map Codec.number Application.codec).pair Codec.number).iso
    (fun c => (c.applications, c.lastId)) (fun p => ⟨p.1, p.2⟩) (fun _ => rfl) (fun _ => rfl)

/-- Replies. -/
def Reply.codec : Codec Reply :=
  (Address.codec.pair (Score.codec.list.pair Codec.number)).iso
    (fun r => (r.author, r.scores, r.submittedAt)) (fun p => ⟨p.1, p.2.1, p.2.2⟩)
    (fun _ => rfl) (fun _ => rfl)

/-- Standings. -/
def Standing.codec : Codec Standing :=
  (Address.codec.pair (pointsCodec.pair Codec.number)).iso
    (fun s => (s.address, s.total, s.contributors)) (fun p => ⟨p.1, p.2.1, p.2.2⟩)
    (fun _ => rfl) (fun _ => rfl)

/-- Resolutions. -/
def Resolution.codec : Codec Resolution :=
  (Address.codec.pair (Address.codec.pair (Codec.number.pair Standing.codec.list))).iso
    (fun r => (r.solver, r.solvedBy, r.solvedAt, r.standings))
    (fun p => ⟨p.1, p.2.1, p.2.2.1, p.2.2.2⟩) (fun _ => rfl) (fun _ => rfl)

/-- Events. -/
def Event.codec : Codec Event :=
  (Codec.number.pair (Codec.number.pair (Codec.text.pair (Address.codec.pair (Codec.number.pair
    ((Codec.map Address.codec Reply.codec).pair ((Codec.map Address.codec Address.codec).pair
      (Address.codec.optional.pair Resolution.codec.optional)))))))).iso
    (fun e => (e.id, e.application, e.payload, e.sender, e.createdAt, e.replies, e.votes,
      e.electedSolver, e.resolution))
    (fun p => ⟨p.1, p.2.1, p.2.2.1, p.2.2.2.1, p.2.2.2.2.1, p.2.2.2.2.2.1, p.2.2.2.2.2.2.1,
      p.2.2.2.2.2.2.2.1, p.2.2.2.2.2.2.2.2⟩)
    (fun _ => rfl) (fun _ => rfl)

/-- Dockets. -/
def Docket.codec : Codec Docket :=
  ((Codec.map Codec.number Event.codec).pair Codec.number).iso
    (fun d => (d.events, d.lastId)) (fun p => ⟨p.1, p.2⟩) (fun _ => rfl) (fun _ => rfl)

namespace State

/-- States. -/
def codec : Codec State :=
  (Codec.number.pair (Policy.codec.pair (Roster.codec.pair
    (Catalog.codec.pair Docket.codec)))).iso
    (fun s => (s.version, s.policy, s.roster, s.catalog, s.docket))
    (fun p => ⟨p.1, p.2.1, p.2.2.1, p.2.2.2.1, p.2.2.2.2⟩) (fun _ => rfl) (fun _ => rfl)

/-- The bytes of a state. -/
def encode (s : State) : Bytes :=
  codec.encode s

end State

end Arbiter
