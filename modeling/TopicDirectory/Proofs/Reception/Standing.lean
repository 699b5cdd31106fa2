import TopicDirectory.Proofs.Link.Reading
import TopicDirectory.Proofs.Reception.Visit
import TopicDirectory.Proofs.Service.Conversation

/-!
# How a guest stands with the directory

As long as the host attends to a guest, its requests are dealt with, in the queue, held by the host
or still to be read, and the replies to those that were dealt with are written to it or still to be
written (`Attended`).  The host leaves a guest that keeps its connection open for one of two reasons
only: the guest has written a length over the limit, or the reply to its last request is over the
limit (`Left`).  All that the guest or the host does keeps it so.
-/

namespace TopicDirectory.Reception

open Exchange (Peer Phase)
open TopicDirectory.Frame (Stream Refused Sound)

/-- Where the requests of a guest and the replies to them are, given those requests that are in the
queue and those that were dealt with. -/
structure Attended (limit : Nat) (p : Peer) (g : Guest) (queued : List (List UInt8))
    (done : List Deal) : Prop where
  here : p.phase ≠ .gone
  inQueue : queued.length = if p.phase = .waiting then 1 else 0
  requests : ∃ octets, Stream (done.map (·.request) ++ queued ++ p.phase.held) octets ∧
    octets ++ p.link.toHost.unread = g.sent
  replies : ∃ back, back ++ p.phase.answer = done.map (·.reply) ∧
    Stream back (g.got ++ p.link.toGuest.unread) ∧ ∀ reply ∈ back, reply.length ≤ limit
  toHost : p.link.toHost.closed = false
  toGuest : p.link.toGuest.closed = false

/-- What has come of the requests of a guest that the host has left. -/
structure Left (limit : Nat) (p : Peer) (g : Guest) (queued : List (List UInt8))
    (done : List Deal) : Prop where
  gone : p.phase = .gone
  closed : p.link.toGuest.closed = true
  inQueue : queued = []
  requests : ∃ octets rest, Stream (done.map (·.request)) octets ∧ octets ++ rest = g.sent
  replies : ∃ back, Stream back (g.got ++ p.link.toGuest.unread) ∧
    (∀ reply ∈ back, reply.length ≤ limit) ∧
    (back = done.map (·.reply) ∧ Refused limit g.sent ∨
      ∃ before d, done = before ++ [d] ∧ back = before.map (·.reply) ∧ limit < d.reply.length)

/-- How a guest stands with the directory. -/
inductive Standing (limit : Nat) (p : Peer) (g : Guest) (queued : List (List UInt8))
    (done : List Deal) : Prop
  | attended (h : Attended limit p g queued done)
  | left (h : Left limit p g queued done)

variable {limit : Nat} {p : Peer} {g : Guest} {queued : List (List UInt8)} {done : List Deal}

/-- A guest begins with nothing. -/
theorem standing_new (limit : Nat) : Standing limit {} {} [] [] :=
  .attended
    { here := nofun
      inQueue := rfl
      requests := ⟨[], Frame.stream_nil, rfl⟩
      replies := ⟨[], rfl, Frame.stream_nil, nofun⟩
      toHost := rfl
      toGuest := rfl }

theorem Standing.attended_of_phase {phase : Phase} (h : Standing limit p g queued done)
    (hphase : p.phase = phase) (hne : phase ≠ .gone) : Attended limit p g queued done := by
  cases h with
  | attended h => exact h
  | left h => exact absurd (hphase.symm.trans h.gone) hne

/-! ## What the guest does -/

theorem Standing.send (h : Standing limit p g queued done) (octets : List UInt8) :
    Standing limit { p with link := (g.send octets p.link).2 } (g.send octets p.link).1 queued
      done := by
  cases h with
  | attended h =>
    obtain ⟨before, hbefore, hsent⟩ := h.requests
    refine .attended ⟨h.here, h.inQueue, ⟨before, hbefore, ?_⟩, h.replies, ?_, h.toGuest⟩
    · show before ++ (p.link.toHost.write octets).unread = g.sent ++ octets
      rw [Pipe.unread_write, h.toHost, ← hsent, List.append_assoc]
      rfl
    · show (p.link.toHost.write octets).closed = false
      rw [Pipe.closed_write]
      exact h.toHost
  | left h =>
    obtain ⟨before, rest, hbefore, hsent⟩ := h.requests
    obtain ⟨back, hback, hlimit, hreason⟩ := h.replies
    refine .left ⟨h.gone, h.closed, h.inQueue, ⟨before, rest ++ octets, hbefore, ?_⟩, back, hback,
      hlimit, ?_⟩
    · rw [← List.append_assoc, hsent]
      rfl
    · rcases hreason with ⟨hall, hrefused⟩ | hoverlong
      · exact .inl ⟨hall, hrefused.mono octets⟩
      · exact .inr hoverlong

theorem Standing.take (h : Standing limit p g queued done) (n : Nat) :
    Standing limit { p with link := (g.take n p.link).2 } (g.take n p.link).1 queued done := by
  cases h with
  | attended h =>
    refine .attended ⟨h.here, h.inQueue, h.requests, ?_, h.toHost, h.toGuest⟩
    rw [Guest.got_take]
    exact h.replies
  | left h =>
    refine .left ⟨h.gone, h.closed, h.inQueue, h.requests, ?_⟩
    rw [Guest.got_take]
    exact h.replies

/-! ## What the host does -/

namespace Attended

/-- Where no request is under way in the host, all that were read have been dealt with. -/
theorem settled (h : Attended limit p g queued done) (hheld : p.phase.held = [])
    (hwaiting : p.phase ≠ .waiting) :
    queued = [] ∧ ∃ octets, Stream (done.map (·.request)) octets ∧
      octets ++ p.link.toHost.unread = g.sent := by
  have hlength := h.inQueue
  rw [if_neg hwaiting] at hlength
  obtain rfl := List.length_eq_zero_iff.1 hlength
  have hrequests := h.requests
  rw [hheld, List.append_nil, List.append_nil] at hrequests
  exact ⟨rfl, hrequests⟩

theorem accept (h : Attended limit p g queued done) (hphase : p.phase = .calling) :
    Attended limit { p with phase := .reading } g queued done where
  here := nofun
  inQueue := by
    rw [h.inQueue, hphase]
    rfl
  requests := by
    have hrequests := h.requests
    rw [hphase] at hrequests
    exact hrequests
  replies := by
    have hreplies := h.replies
    rw [hphase] at hreplies
    exact hreplies
  toHost := h.toHost
  toGuest := h.toGuest

/-- A request that is read is the next one that was written. -/
theorem read (h : Attended limit p g queued done) {request : List UInt8} {rest : Pipe}
    (hphase : p.phase = .reading)
    (hread : Frame.read limit p.link.toHost = some (.ok (some request), rest)) :
    Attended limit ⟨{ p.link with toHost := rest }, .holding request⟩ g queued done where
  here := nofun
  inQueue := by
    rw [h.inQueue, hphase]
    rfl
  requests := by
    obtain ⟨octets, hoctets, hsent⟩ := h.requests
    obtain ⟨hunread, -, -, h32⟩ := Frame.read_eq_ok hread
    have hheld : p.phase.held = [] := by rw [hphase]; rfl
    rw [hheld, List.append_nil] at hoctets
    refine ⟨octets ++ Frame.encode request, hoctets.concat h32, ?_⟩
    rw [← hsent, hunread, List.append_assoc]
  replies := by
    have hreplies := h.replies
    rw [hphase] at hreplies
    exact hreplies
  toHost := (Frame.read_eq_ok hread).2.1.trans h.toHost
  toGuest := h.toGuest

/-- As long as its connection is open, a guest whose next request cannot be read has written a
length over the limit. -/
theorem refuse (h : Attended limit p g queued done) {rest : Pipe}
    {result : Except Link.Fault (Option (List UInt8))} (hphase : p.phase = .reading)
    (hread : Frame.read limit p.link.toHost = some (result, rest))
    (hresult : ∀ request, result ≠ .ok (some request)) :
    Left limit (Peer.leave { p with link.toHost := rest }) g queued done where
  gone := rfl
  closed := rfl
  inQueue := (h.settled (by rw [hphase]; rfl) (by rw [hphase]; nofun)).1
  requests := by
    obtain ⟨-, octets, hoctets, hsent⟩ := h.settled (by rw [hphase]; rfl) (by rw [hphase]; nofun)
    exact ⟨octets, _, hoctets, hsent⟩
  replies := by
    obtain ⟨-, octets, hoctets, hsent⟩ := h.settled (by rw [hphase]; rfl) (by rw [hphase]; nofun)
    obtain ⟨back, hback, hstream, hlimit⟩ := h.replies
    have hanswer : p.phase.answer = [] := by rw [hphase]; rfl
    rw [hanswer, List.append_nil] at hback
    refine ⟨back, hstream, hlimit, .inl ⟨hback, ?_⟩⟩
    rw [← hsent]
    exact (Frame.refused_of_read h.toHost hread hresult).of_append hoctets

theorem enqueue (h : Attended limit p g queued done) {request : List UInt8}
    (hphase : p.phase = .holding request) :
    Attended limit { p with phase := .waiting } g (queued ++ [request]) done where
  here := nofun
  inQueue := by
    rw [List.length_append, h.inQueue, hphase]
    rfl
  requests := by
    obtain ⟨octets, hoctets, hsent⟩ := h.requests
    rw [hphase] at hoctets
    refine ⟨octets, ?_, hsent⟩
    have hheld : Phase.waiting.held = [] := rfl
    rw [hheld, List.append_nil, ← List.append_assoc]
    exact hoctets
  replies := by
    have hreplies := h.replies
    rw [hphase] at hreplies
    exact hreplies
  toHost := h.toHost
  toGuest := h.toGuest

/-- A request that is dealt with is the one that is waiting. -/
theorem dispatch {d : Deal} (h : Attended limit p g (d.request :: queued) done) :
    p.phase = .waiting ∧
      Attended limit { p with phase := .answering d.reply } g queued (done ++ [d]) := by
  have hphase : p.phase = .waiting := by
    apply Decidable.byContradiction
    intro hne
    have hlength := h.inQueue
    rw [if_neg hne] at hlength
    cases hlength
  have hqueue : queued = [] := by
    have hlength := h.inQueue
    rw [if_pos hphase, List.length_cons] at hlength
    exact List.length_eq_zero_iff.1 (Nat.succ.inj hlength)
  subst hqueue
  refine ⟨hphase, nofun, rfl, ?_, ?_, h.toHost, h.toGuest⟩
  · have hrequests := h.requests
    rw [hphase] at hrequests
    rw [List.map_append, List.append_nil]
    exact hrequests
  · obtain ⟨back, hback, hstream⟩ := h.replies
    have hanswer : p.phase.answer = [] := by rw [hphase]; rfl
    rw [hanswer, List.append_nil] at hback
    refine ⟨back, ?_, hstream⟩
    rw [hback, List.map_append]
    rfl

/-- A reply within the limit is written. -/
theorem write (h : Attended limit p g queued done) {reply : List UInt8}
    (hphase : p.phase = .answering reply) (hlimit : reply.length ≤ limit)
    (hsound : ∀ d ∈ done, Sound limit d.reply) :
    Attended limit ⟨{ p.link with toGuest := p.link.toGuest.write (Frame.encode reply) }, .reading⟩
      g queued done where
  here := nofun
  inQueue := by
    rw [h.inQueue, hphase]
    rfl
  requests := by
    have hrequests := h.requests
    rw [hphase] at hrequests
    exact hrequests
  replies := by
    obtain ⟨back, hback, hstream, hwithin⟩ := h.replies
    rw [hphase, Phase.answer] at hback
    -- the reply is one of those that were dealt with, so its frame can be read again
    have h32 : reply.length < UInt32.size := by
      have hmem : reply ∈ done.map (·.reply) := by
        rw [← hback]
        exact List.mem_append_right _ List.mem_cons_self
      obtain ⟨d, hd, rfl⟩ := List.mem_map.1 hmem
      exact hsound d hd hlimit
    refine ⟨back ++ [reply], ?_, ?_, fun b hb => ?_⟩
    · rw [← hback]
      exact List.append_nil _
    · rw [Pipe.unread_write, h.toGuest, if_neg Bool.false_ne_true, ← List.append_assoc]
      exact hstream.concat h32
    · rcases List.mem_append.1 hb with hb | hb
      · exact hwithin b hb
      · rw [List.mem_singleton.1 hb]
        exact hlimit
  toHost := h.toHost
  toGuest := by
    rw [Pipe.closed_write]
    exact h.toGuest

/-- A reply over the limit is not written, and the host leaves the guest. -/
theorem giveUp (h : Attended limit p g queued done) {reply : List UInt8}
    (hphase : p.phase = .answering reply) (hlimit : limit < reply.length) :
    Left limit p.leave g queued done where
  gone := rfl
  closed := rfl
  inQueue := (h.settled (by rw [hphase]; rfl) (by rw [hphase]; nofun)).1
  requests := by
    obtain ⟨-, octets, hoctets, hsent⟩ := h.settled (by rw [hphase]; rfl) (by rw [hphase]; nofun)
    exact ⟨octets, _, hoctets, hsent⟩
  replies := by
    obtain ⟨back, hback, hstream, hwithin⟩ := h.replies
    rw [hphase, Phase.answer] at hback
    obtain ⟨before, last, rfl, hbefore, hlast⟩ := List.map_eq_append_iff.1 hback.symm
    obtain ⟨d, tail, rfl, hd, htail⟩ := List.map_eq_cons_iff.1 hlast
    obtain rfl := List.map_eq_nil_iff.1 htail
    exact ⟨back, hstream, hwithin, .inr ⟨before, d, rfl, hbefore.symm, hd ▸ hlimit⟩⟩

end Attended

/-- What is in the queue is of a guest that the host attends to. -/
theorem Standing.attended_of_queued {request : List UInt8}
    (h : Standing limit p g (request :: queued) done) :
    Attended limit p g (request :: queued) done := by
  cases h with
  | attended h => exact h
  | left h => cases h.inQueue

/-! ## All turns -/

/-- Every turn keeps it so, as long as the replies can be read again. -/
theorem Standing.turn {v v' : Visit} (h : Standing limit v.peer v.guest v.queued v.done)
    (hturn : Turn limit v v') (hsteady : v'.guest.steady = true)
    (hsound : ∀ d ∈ v'.done, Sound limit d.reply) :
    Standing limit v'.peer v'.guest v'.queued v'.done := by
  cases hturn with
  | stay => exact h
  | act f hf =>
    rcases hf with ⟨octets, rfl⟩ | ⟨n, rfl⟩ | ⟨l, rfl⟩
    · exact h.send octets
    · exact h.take n
    · cases hsteady
  | accept hphase => exact .attended ((h.attended_of_phase hphase nofun).accept hphase)
  | read hphase hread => exact .attended ((h.attended_of_phase hphase nofun).read hphase hread)
  | refuse hphase hread hresult =>
    exact .left ((h.attended_of_phase hphase nofun).refuse hphase hread hresult)
  | enqueue hphase => exact .attended ((h.attended_of_phase hphase nofun).enqueue hphase)
  | @dispatch d rest hqueued =>
    rw [hqueued] at h
    obtain ⟨hphase, hnext⟩ := h.attended_of_queued.dispatch
    rw [answered, if_pos hphase]
    exact .attended hnext
  | write hphase hlimit =>
    exact .attended ((h.attended_of_phase hphase nofun).write hphase hlimit hsound)
  | giveUp hphase hlimit => exact .left ((h.attended_of_phase hphase nofun).giveUp hphase hlimit)

/-- Whether a guest stands with the directory as it should, if it has kept its connection open and
the replies to it can be read again. -/
def Tracks (limit : Nat) (r : Reception) (i : Nat) : Prop :=
  ∀ p g, r.server.host.peers[i]? = some p → r.guests[i]? = some g → g.steady = true →
    (∀ d ∈ r.deals i, Sound limit d.reply) →
    Standing limit p g (Service.queued r.server.host i) (r.deals i)

theorem tracks_new (limit : Nat) (c : Config.Server) (i : Nat) : Tracks limit (new c) i := nofun

theorem Tracks.run {r : Reception} {i : Nat} (hsane : Sane limit r) (h : Tracks limit r i)
    (ms : List Move) : Tracks limit (r.run ms) i := by
  intro p g hp hg hsteady hsound
  have hv : visit? (r.run ms) i = some ⟨p, g, _, _⟩ := visit?_eq_some.2 ⟨hp, hg, rfl, rfl⟩
  cases hbefore : visit? r i with
  | none =>
    have hturns := visit_run_of_none hsane hbefore ms hv
    exact turns_keep (standing_new limit) hturns hsteady hsound fun _ _ => Standing.turn
  | some v =>
    obtain ⟨hpeer, hguest, hqueued, hdone⟩ := visit?_eq_some.1 hbefore
    obtain ⟨v', hv', hturns⟩ := visit_run hsane hbefore ms
    obtain rfl := Option.some.inj (hv'.symm.trans hv)
    have hstanding : Standing limit v.peer v.guest v.queued v.done := by
      rw [hqueued, hdone]
      refine h _ _ hpeer hguest (turns_steady hturns hsteady) fun d hd => hsound d ?_
      exact (turns_done hturns).subset (hdone ▸ hd)
    exact turns_keep hstanding hturns hsteady hsound fun _ _ => Standing.turn

end TopicDirectory.Reception
