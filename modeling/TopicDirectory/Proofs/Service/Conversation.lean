import TopicDirectory.Proofs.Link.Stream
import TopicDirectory.Proofs.Service.Basic

/-!
# The conversation with one client

Where the requests of a client are, and where the replies to them: a request is on its way to the
host, held by the host, in the queue, or dealt with; a reply is held by the host, on its way to the
client, or the result of a call (`Conversation`).  Nothing is lost or changes places as long as the
client has not failed, and every move that concerns the client keeps it so.
-/

namespace TopicDirectory

open Exchange (Caller Peer)

/-- The request that the host holds back for a peer. -/
def Exchange.Phase.held : Exchange.Phase → List (List UInt8)
  | .holding request => [request]
  | _ => []

/-- The answer that the host has not written to a peer yet. -/
def Exchange.Phase.answer : Exchange.Phase → List (List UInt8)
  | .answering reply => [reply]
  | _ => []

namespace Service

/-- Where the requests and the replies of a client are, given those of its requests that are in the
queue, those it has made, those that were dealt with, and the replies that its calls came to. -/
structure Conversation (p : Peer) (c : Client) (queued asked : List (List UInt8))
    (done : List (List UInt8 × List UInt8)) (given : List (List UInt8)) : Prop where
  requests : ∃ wire rest, done.map (·.1) ++ queued ++ p.phase.held ++ wire ++ rest = asked ∧
    (c.caller.broken = false → rest = []) ∧
    (p.phase ≠ .gone → Frame.Stream wire p.link.toHost.unread)
  inQueue : queued.length = if p.phase = .waiting then 1 else 0
  replies : c.caller.broken = false →
    ∃ back lost, given ++ back ++ p.phase.answer ++ lost = done.map (·.2) ∧
      Frame.Stream back p.link.toGuest.unread ∧
      (p.phase ≠ .gone →
        lost = [] ∧ p.link.toHost.closed = false ∧ p.link.toGuest.closed = false)
  turn : c.caller.broken = false → asked.length = given.length + if c.waiting then 1 else 0
  finished : c.caller.broken = true → c.waiting = false

namespace Conversation

variable {p : Peer} {c : Client} {queued asked given : List (List UInt8)}
  {done : List (List UInt8 × List UInt8)}

/-- A conversation begins with nothing. -/
theorem start (limit : Nat) : Conversation {} { caller := { limit } } [] [] [] [] where
  requests := ⟨[], [], rfl, fun _ => rfl, fun _ => Frame.stream_nil⟩
  inQueue := rfl
  replies _ := ⟨[], [], rfl, Frame.stream_nil, fun _ => ⟨rfl, rfl, rfl⟩⟩
  turn _ := rfl
  finished _ := rfl

/-! ## What the client does -/

/-- A client that has failed. -/
theorem fail (h : Conversation p c queued asked done given) {q : Peer}
    (hphase : q.phase = p.phase) (hunread : q.link.toHost.unread = p.link.toHost.unread)
    (extra : List (List UInt8)) :
    Conversation q ⟨c.caller.fail, false⟩ queued (asked ++ extra) done given where
  requests := by
    obtain ⟨wire, rest, hasked, -, hstream⟩ := h.requests
    refine ⟨wire, rest ++ extra, ?_, nofun, ?_⟩
    · rw [hphase, ← hasked]
      simp
    · rw [hphase, hunread]
      exact hstream
  inQueue := by
    rw [hphase]
    exact h.inQueue
  replies := nofun
  turn := nofun
  finished _ := rfl

/-- A call whose request goes out. -/
theorem issue (h : Conversation p c queued asked done given) {request : List UInt8}
    (hok : c.caller.broken = false) (hidle : c.waiting = false)
    (hopen : p.link.toHost.closed = false) (h32 : request.length < UInt32.size) :
    Conversation
      { p with link.toHost := p.link.toHost.write (Frame.encode request) } ⟨c.caller, true⟩ queued
      (asked ++ [request]) done given where
  requests := by
    obtain ⟨wire, rest, hasked, hrest, hstream⟩ := h.requests
    obtain rfl := hrest hok
    refine ⟨wire ++ [request], [], ?_, fun _ => rfl, ?_⟩
    · rw [← hasked]
      simp
    · intro hphase
      rw [Pipe.unread_write, hopen]
      exact (hstream hphase).concat h32
  inQueue := h.inQueue
  replies _ := by
    obtain ⟨back, lost, hback, hstream, hlost⟩ := h.replies hok
    refine ⟨back, lost, hback, hstream, ?_⟩
    intro hphase
    rw [Pipe.closed_write]
    exact hlost hphase
  turn _ := by
    have hturn := h.turn hok
    rw [hidle] at hturn
    rw [List.length_append, hturn]
    rfl
  finished hbroken := absurd (hok.symm.trans hbroken) Bool.false_ne_true

/-- A call that comes to its end with a reply: it is the reply to its own request. -/
theorem collect (h : Conversation p c queued asked done given) {reply : List UInt8} {rest : Pipe}
    (hwaiting : c.waiting = true)
    (hexpect : Frame.expect c.caller.limit p.link.toGuest = some (.ok reply, rest)) :
    Conversation { p with link.toGuest := rest } ⟨c.caller, false⟩ queued asked done
        (given ++ [reply]) ∧
      given.length + 1 = asked.length ∧ ∃ request, done[given.length]? = some (request, reply) := by
  have hok : c.caller.broken = false := by
    cases hbroken : c.caller.broken with
    | false => rfl
    | true => rw [h.finished hbroken] at hwaiting; cases hwaiting
  obtain ⟨back, lost, hback, hstream, hlost⟩ := h.replies hok
  have hturn := h.turn hok
  rw [hwaiting, if_pos rfl] at hturn
  rcases Frame.expect_stream hstream hexpect with ⟨body, back, rfl, heq, hrest, hclosed⟩ | ⟨_, heq⟩
  · cases heq
    refine ⟨⟨h.requests, h.inQueue, fun _ => ⟨back, lost, ?_, hrest, ?_⟩, ?_, fun _ => rfl⟩,
      hturn.symm, ?_⟩
    · rw [← hback]
      simp
    · intro hphase
      obtain ⟨rfl, htoHost, htoGuest⟩ := hlost hphase
      exact ⟨rfl, htoHost, hclosed.trans htoGuest⟩
    · intro _
      rw [hturn, List.length_append]
      rfl
    · have hget : (done.map (·.2))[given.length]? = some reply := by
        rw [← hback]
        simp
      rw [List.getElem?_map, Option.map_eq_some_iff] at hget
      obtain ⟨⟨request, reply⟩, hdone, rfl⟩ := hget
      exact ⟨request, hdone⟩
  · cases heq

/-! ## What the host does -/

/-- A peer that the host leaves. -/
theorem leave (h : Conversation p c queued asked done given) {q : Peer}
    (hwaiting : p.phase ≠ .waiting) (hq : q.phase = .gone)
    (hunread : q.link.toGuest.unread = p.link.toGuest.unread) :
    Conversation q c queued asked done given where
  requests := by
    obtain ⟨wire, rest, hasked, hrest, -⟩ := h.requests
    refine ⟨p.phase.held ++ wire, rest, ?_, hrest, fun hne => absurd hq hne⟩
    rw [hq, ← hasked]
    simp [Exchange.Phase.held]
  inQueue := by
    rw [h.inQueue, hq, if_neg hwaiting]
    rfl
  replies hok := by
    obtain ⟨back, lost, hback, hstream, -⟩ := h.replies hok
    refine ⟨back, p.phase.answer ++ lost, ?_, ?_, fun hne => absurd hq hne⟩
    · rw [hq, ← hback]
      simp [Exchange.Phase.answer]
    · rw [hunread]
      exact hstream
  turn := h.turn
  finished := h.finished

theorem accept (h : Conversation p c queued asked done given) (hphase : p.phase = .calling) :
    Conversation { p with phase := .reading } c queued asked done given where
  requests := by
    obtain ⟨wire, rest, hasked, hrest, hstream⟩ := h.requests
    rw [hphase] at hasked
    exact ⟨wire, rest, hasked, hrest, fun _ => hstream (by rw [hphase]; nofun)⟩
  inQueue := by
    rw [h.inQueue, hphase]
    rfl
  replies hok := by
    obtain ⟨back, lost, hback, hstream, hlost⟩ := h.replies hok
    rw [hphase] at hback hlost
    exact ⟨back, lost, hback, hstream, fun _ => hlost nofun⟩
  turn := h.turn
  finished := h.finished

/-- A request that is read is the next one that was written. -/
theorem read (h : Conversation p c queued asked done given) {limit : Nat} {request : List UInt8}
    {rest : Pipe} (hphase : p.phase = .reading)
    (hread : Frame.read limit p.link.toHost = some (.ok (some request), rest)) :
    Conversation ⟨{ p.link with toHost := rest }, .holding request⟩ c queued asked done given := by
  obtain ⟨wire, extra, hasked, hextra, hstream⟩ := h.requests
  have hne : p.phase ≠ .gone := by rw [hphase]; nofun
  rcases Frame.read_stream (hstream hne) hread with ⟨body, wire, rfl, heq, -, hrest, hclosed⟩ | hnone
  · cases heq
    refine ⟨⟨wire, extra, ?_, hextra, fun _ => hrest⟩, ?_, ?_, h.turn, h.finished⟩
    · rw [← hasked, hphase]
      simp [Exchange.Phase.held]
    · rw [h.inQueue, hphase]
      rfl
    · intro hok
      obtain ⟨back, lost, hback, hstream, hlost⟩ := h.replies hok
      rw [hphase] at hback
      obtain ⟨rfl, htoHost, htoGuest⟩ := hlost hne
      exact ⟨back, [], hback, hstream, fun _ => ⟨rfl, hclosed.trans htoHost, htoGuest⟩⟩
  · exact absurd rfl (hnone request)

theorem enqueue (h : Conversation p c queued asked done given) {request : List UInt8}
    (hphase : p.phase = .holding request) :
    Conversation { p with phase := .waiting } c (queued ++ [request]) asked done given where
  requests := by
    obtain ⟨wire, rest, hasked, hrest, hstream⟩ := h.requests
    rw [hphase] at hasked
    refine ⟨wire, rest, ?_, hrest, fun _ => hstream (by rw [hphase]; nofun)⟩
    rw [← hasked]
    simp [Exchange.Phase.held]
  inQueue := by
    rw [List.length_append, h.inQueue, hphase]
    rfl
  replies hok := by
    obtain ⟨back, lost, hback, hstream, hlost⟩ := h.replies hok
    rw [hphase] at hback hlost
    exact ⟨back, lost, hback, hstream, fun _ => hlost nofun⟩
  turn := h.turn
  finished := h.finished

/-- A request that is dealt with is the next one that the client made. -/
theorem dispatch {request : List UInt8}
    (h : Conversation p c (request :: queued) asked done given) (reply : List UInt8) :
    p.phase = .waiting ∧ asked[done.length]? = some request ∧
      Conversation { p with phase := .answering reply } c queued asked (done ++ [(request, reply)])
        given := by
  have hphase : p.phase = .waiting := by
    apply Decidable.byContradiction
    intro hne
    have hqueue := h.inQueue
    rw [if_neg hne] at hqueue
    cases hqueue
  have hqueue : queued = [] := by
    have hqueue := h.inQueue
    rw [if_pos hphase, List.length_cons] at hqueue
    exact List.length_eq_zero_iff.1 (Nat.succ.inj hqueue)
  subst hqueue
  obtain ⟨wire, rest, hasked, hrest, hstream⟩ := h.requests
  refine ⟨hphase, ?_, ⟨⟨wire, rest, ?_, hrest, fun _ => hstream ?_⟩, rfl, ?_, h.turn, h.finished⟩⟩
  · rw [← hasked]
    simp
  · rw [← hasked, hphase]
    simp [Exchange.Phase.held]
  · rw [hphase]
    nofun
  · intro hok
    obtain ⟨back, lost, hback, hstream, hlost⟩ := h.replies hok
    rw [hphase] at hback hlost
    obtain ⟨rfl, hopen⟩ := hlost nofun
    refine ⟨back, [], ?_, hstream, fun _ => ⟨rfl, hopen⟩⟩
    rw [List.map_append, ← hback]
    simp [Exchange.Phase.answer]

theorem write (h : Conversation p c queued asked done given) {limit : Nat} {reply : List UInt8}
    (hphase : p.phase = .answering reply) (hlimit : reply.length ≤ limit)
    (hdone : ∀ d ∈ done, Frame.Sound limit d.2) :
    Conversation
      ⟨{ p.link with toGuest := p.link.toGuest.write (Frame.encode reply) }, .reading⟩ c queued asked
      done given where
  requests := by
    obtain ⟨wire, rest, hasked, hrest, hstream⟩ := h.requests
    rw [hphase] at hasked
    exact ⟨wire, rest, hasked, hrest, fun _ => hstream (by rw [hphase]; nofun)⟩
  inQueue := by
    rw [h.inQueue, hphase]
    rfl
  replies hok := by
    obtain ⟨back, lost, hback, hstream, hlost⟩ := h.replies hok
    rw [hphase] at hback hlost
    obtain ⟨rfl, htoHost, htoGuest⟩ := hlost nofun
    -- the reply is one of those that were dealt with, so its frame can be read again
    have h32 : reply.length < UInt32.size := by
      have hmem : reply ∈ done.map (·.2) := by
        rw [← hback]
        simp [Exchange.Phase.answer]
      obtain ⟨d, hd, rfl⟩ := List.mem_map.1 hmem
      exact hdone d hd hlimit
    refine ⟨back ++ [reply], [], ?_, ?_, fun _ => ⟨rfl, htoHost, ?_⟩⟩
    · rw [← hback]
      simp [Exchange.Phase.answer]
    · rw [Pipe.unread_write, htoGuest]
      exact hstream.concat h32
    · rw [Pipe.closed_write]
      exact htoGuest
  turn := h.turn
  finished := h.finished

end Conversation

end Service

end TopicDirectory
