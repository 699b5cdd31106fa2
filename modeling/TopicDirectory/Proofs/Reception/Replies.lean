import TopicDirectory.Proofs.Directory.Lengths
import TopicDirectory.Proofs.Exchange.Load
import TopicDirectory.Proofs.Reception.Standing

/-!
# Every request gets its one reply, or its guest is left

A guest that keeps its connection open and writes frames within the limit gets one reply frame for
each, in order.  There is one exception: a snapshot may be longer than the limit, and the guest that
has asked for it is left without a reply (`Overlong`).  Nothing else that is asked, by whomever, makes
the host leave a guest (`replied_run`).
-/

namespace TopicDirectory.Reception

open Exchange (Desk Host Peer)
open TopicDirectory.Frame (Stream Sound)

/-- Whether what was dealt with is a request for a snapshot, and the snapshot of that moment is over
the limit. -/
def Overlong (limit : Nat) (log : List Deal) (d : Deal) : Prop :=
  d.request.head? = some 0x03 ∧ limit < d.reply.length ∧ ∃ past rest, log = past ++ d :: rest ∧
    d.reply = Wire.encodeSnapshot (Registry.fed {} (past.map (·.request))).snapshot

/-- What has come back to a guest that has written some requests. -/
structure Replied (limit : Nat) (r : Reception) (i : Nat) (p : Peer) (g : Guest)
    (bodies replies : List (List UInt8)) : Prop where
  /-- It is one reply frame after the other. -/
  stream : Stream replies (g.got ++ p.link.toGuest.unread)
  within : ∀ reply ∈ replies, reply.length ≤ limit
  /-- The requests are dealt with in the order in which they were written. -/
  asked : (r.deals i).map (·.request) <+: bodies
  /-- The reply frames carry the replies to them, and one reply at most is still to be written. -/
  answered : replies <+: (r.deals i).map (·.reply)
  next : (r.deals i).length ≤ replies.length + 1
  /-- When the directory has come to rest, every request has its reply. -/
  all : p.phase ≠ .gone → Desk.Quiet Directory.respond r.server →
    (r.deals i).map (·.request) = bodies ∧ replies = (r.deals i).map (·.reply)
  /-- The host leaves the guest only if a snapshot that it has asked for is over the limit. -/
  gone : p.phase = .gone → p.link.toGuest.closed = true ∧ ∃ before d, r.deals i = before ++ [d] ∧
    replies = before.map (·.reply) ∧ Overlong limit r.log d

variable {limit : Nat} {r : Reception} {i : Nat} {p : Peer} {g : Guest}

/-- What was dealt with got the reply of the one run that the log tells of. -/
theorem Sane.reply_eq (h : Sane limit r) {past rest : List Deal} {d : Deal}
    (hlog : r.log = past ++ d :: rest) :
    d.reply
      = (Directory.dispatch (Registry.fed {} (past.map (·.request))) d.request).reply.encode := by
  have hreplies := h.replies
  rw [hlog, List.map_append, List.map_append, Registry.replies_append] at hreplies
  have hlength : (past.map (·.reply)).length
      = (Registry.replies {} (past.map (·.request))).length := by
    rw [Registry.length_replies, List.length_map, List.length_map]
  exact (List.cons.inj (List.append_inj hreplies hlength).2).1

theorem Sane.overlong (h : Sane limit r) (hlimit : 256 ≤ limit) {d : Deal} (hd : d ∈ r.log)
    (hlong : limit < d.reply.length) : Overlong limit r.log d := by
  obtain ⟨past, rest, hlog⟩ := List.append_of_mem hd
  have hreply := h.reply_eq hlog
  rw [hreply] at hlong
  obtain ⟨hhead, hsnapshot⟩ := Directory.overlong_reply hlimit hlong
  exact ⟨hhead, hreply ▸ hlong, past, rest, hlog, hreply.trans hsnapshot⟩

theorem length_answer_le (phase : Exchange.Phase) : phase.answer.length ≤ 1 := by
  cases phase <;> simp [Exchange.Phase.answer]

/-- What has come back to a guest that the host attends to. -/
theorem Attended.replied (hsane : Sane limit r)
    (h : Attended limit p g (Service.queued r.server.host i) (r.deals i))
    (hp : r.server.host.peers[i]? = some p) {bodies : List (List UInt8)}
    (hsent : Stream bodies g.sent) (hwithin : ∀ b ∈ bodies, b.length ≤ limit) :
    ∃ replies, Replied limit r i p g bodies replies := by
  obtain ⟨octets, hoctets, hunread⟩ := h.requests
  obtain ⟨back, hback, hstream, hback'⟩ := h.replies
  rw [← hunread] at hsent
  obtain ⟨unread, rfl, hrest⟩ := hoctets.of_append hsent
  refine ⟨back, hstream, hback', ?_, ?_, ?_, ?_, fun hgone => absurd hgone h.here⟩
  · rw [List.append_assoc, List.append_assoc]
    exact List.prefix_append _ _
  · rw [← hback]
    exact List.prefix_append _ _
  · have hlength := congrArg List.length hback
    have hanswer := length_answer_le p.phase
    rw [List.length_append, List.length_map] at hlength
    omega
  · intro _ hquiet
    obtain ⟨hqueue, hresting⟩ := hquiet.resting hsane.listening
    have hqueued : Service.queued r.server.host i = [] := by
      rw [Service.queued, hqueue]
      rfl
    rcases hresting i p hp with hgone | hwaiting | ⟨hreading, hread⟩
    · exact absurd hgone h.here
    · have hlength := h.inQueue
      rw [hqueued, if_pos hwaiting] at hlength
      cases hlength
    · -- whatever was written has been read
      have hheld : p.phase.held = [] := by rw [hreading]; rfl
      have hanswer : p.phase.answer = [] := by rw [hreading]; rfl
      rw [hsane.limit] at hread
      obtain rfl : unread = [] :=
        hrest.eq_nil_of_read (fun b hb => hwithin b (List.mem_append_right _ hb)) hread
      rw [hanswer, List.append_nil] at hback
      rw [hqueued, hheld, List.append_nil, List.append_nil, List.append_nil]
      exact ⟨rfl, hback⟩

/-- What has come back to a guest that the host has left. -/
theorem Left.replied (hsane : Sane limit r) (hlimit : 256 ≤ limit)
    (h : Left limit p g (Service.queued r.server.host i) (r.deals i)) {bodies : List (List UInt8)}
    (hsent : Stream bodies g.sent) (hwithin : ∀ b ∈ bodies, b.length ≤ limit) :
    ∃ replies, Replied limit r i p g bodies replies := by
  obtain ⟨octets, rest, hoctets, hunread⟩ := h.requests
  obtain ⟨back, hstream, hback, ⟨-, hrefused⟩ | ⟨before, d, hdone, rfl, hlong⟩⟩ := h.replies
  · exact absurd hrefused (hsent.not_refused hwithin)
  · have hmem : d ∈ r.log := by
      have hd : d ∈ r.deals i := hdone ▸ List.mem_append_right _ List.mem_cons_self
      exact (List.mem_filter.1 hd).1
    rw [← hunread] at hsent
    obtain ⟨unread, hbodies, -⟩ := hoctets.of_append hsent
    refine ⟨_, hstream, hback, ?_, ?_, ?_, fun hne => absurd h.gone hne, fun _ =>
      ⟨h.closed, before, d, hdone, rfl, hsane.overlong hlimit hmem hlong⟩⟩
    · rw [hbodies]
      exact List.prefix_append _ _
    · rw [hdone, List.map_append]
      exact List.prefix_append _ _
    · rw [hdone, List.length_append, List.length_map]
      exact Nat.le_refl _

/-- **Every request gets its one reply, unless it asks for a snapshot that is over the limit.**
Under a limit of at least 256 octets, whatever the guests and the directory do and in whatever order:

* the replies are those of one run of the requests that were dealt with;
* a guest that keeps its connection open and writes frames within the limit, whole or in pieces,
  gets one reply frame for each in the order in which it wrote them, and the host leaves it only in
  place of a reply that carries a snapshot over the limit;
* the directory cannot go on without end, and when it has come to rest no reply is missing.

A reply within the limit has to be one that can be read again: the four octets of its length hold
it. -/
theorem replied_run {c : Config.Server} (hlimit : 256 ≤ c.messageSize.toNat) (ms : List Move)
    {i : Nat} {p : Peer} {g : Guest} (hp : ((new c).run ms).server.host.peers[i]? = some p)
    (hg : ((new c).run ms).guests[i]? = some g) (hsteady : g.steady = true)
    {bodies : List (List UInt8)} (hsent : Stream bodies g.sent)
    (hwithin : ∀ b ∈ bodies, b.length ≤ c.messageSize.toNat)
    (hsound : ∀ d ∈ ((new c).run ms).deals i, Sound c.messageSize.toNat d.reply) :
    ((new c).run ms).log.map (·.reply)
        = Registry.replies {} (((new c).run ms).log.map (·.request)) ∧
      (∃ replies, Replied c.messageSize.toNat ((new c).run ms) i p g bodies replies) ∧
      ∀ as, (Desk.steps? Directory.respond ((new c).run ms).server as).isSome →
        as.length ≤ ((new c).run ms).server.host.workload := by
  have hsane := (sane_new c).run ms
  refine ⟨hsane.replies, ?_, fun as has => ?_⟩
  · cases (tracks_new _ c i).run (sane_new c) ms p g hp hg hsteady hsound with
    | attended h => exact h.replied hsane hp hsent hwithin
    | left h => exact h.replied hsane hlimit hsent hwithin
  · obtain ⟨server, hsteps⟩ := Option.isSome_iff_exists.1 has
    exact Desk.length_le_workload hsteps

/-- A publisher comes, the snapshot is asked for, and something is no request. -/
def sampleRequests : List (List UInt8) :=
  [(Wire.Command.register ⟨none, "tcp://h:1", "p", []⟩).encode, Wire.Command.snapshot.encode, [0xff]]

/-- One guest writes three requests in two pieces and takes what comes back; another one leaves. -/
def sampleMoves : List Move :=
  let octets := sampleRequests.flatMap Frame.encode
  [.call, .call, .send 0 (octets.take 7), .serve (.accept 1), .serve (.accept 0), .serve (.read 0),
    .send 1 (Frame.encode [0x07]), .send 0 (octets.drop 7), .serve (.read 1), .serve (.read 0),
    .stray 1 {}, .serve (.enqueue 0), .serve (.enqueue 1), .serve .dispatch, .serve .dispatch,
    .serve (.write 0), .take 0 9, .serve (.read 0), .serve (.enqueue 0), .serve .dispatch,
    .serve (.write 1), .serve (.write 0), .take 0 300, .serve (.read 0), .serve (.enqueue 0),
    .serve .dispatch, .serve (.write 0)]

theorem replied_run_sampleMoves :
    ∃ (p : Peer) (g : Guest), ((new {}).run sampleMoves).server.host.peers[0]? = some p ∧
      ((new {}).run sampleMoves).guests[0]? = some g ∧ g.steady = true ∧
      Stream sampleRequests g.sent ∧
      Stream (Registry.replies {} sampleRequests) (g.got ++ p.link.toGuest.unread) := by
  have hpeer : (((new {}).run sampleMoves).server.host.peers[0]?.map (·.phase)) = some .reading := by
    decide +kernel
  have hguest : (((new {}).run sampleMoves).guests[0]?.map fun g => (g.sent, g.steady))
      = some (sampleRequests.flatMap Frame.encode, true) := by
    decide +kernel
  have hquiet : Desk.Quiet Directory.respond ((new {}).run sampleMoves).server := by decide +kernel
  have hdeals : (((new {}).run sampleMoves).deals 0).map (·.reply)
      = Registry.replies {} sampleRequests := by
    decide +kernel
  obtain ⟨p, hp, hphase⟩ := Option.map_eq_some_iff.1 hpeer
  obtain ⟨g, hg, hsent⟩ := Option.map_eq_some_iff.1 hguest
  obtain ⟨hsent, hsteady⟩ := Prod.mk.inj hsent
  have hstream : Stream sampleRequests g.sent := ⟨hsent, by decide +kernel⟩
  obtain ⟨-, ⟨replies, hreplied⟩, -⟩ := replied_run (c := {}) (by decide) sampleMoves hp hg hsteady
    hstream (by decide +kernel) (by decide +kernel)
  have hall := (hreplied.all (by rw [hphase]; nofun) hquiet).2
  have hback := hreplied.stream
  rw [hall, hdeals] at hback
  exact ⟨p, g, hp, hg, hsteady, hstream, hback⟩

/-- A directory with a limit of 256 octets. -/
def narrowConfig : Config.Server := { messageSize := 256 }

/-- A publisher with a long name comes, and the snapshot is asked for. -/
def narrowRequests : List (List UInt8) :=
  [(Wire.Command.register ⟨none, "tcp://h:1", String.ofList (List.replicate 160 'a'), []⟩).encode,
    Wire.Command.snapshot.encode]

/-- A guest writes both requests, and the directory takes steps until there are none. -/
def narrowMoves : List Move :=
  [.call, .serve (.accept 0), .send 0 (narrowRequests.flatMap Frame.encode), .serve (.read 0),
    .serve (.enqueue 0), .serve .dispatch, .serve (.write 0), .serve (.read 0), .serve (.enqueue 0),
    .serve .dispatch, .serve (.write 0)]

/-- Both requests are within the limit, and only one of them is answered. -/
theorem unanswered_narrowMoves :
    256 ≤ narrowConfig.messageSize.toNat ∧
    (∀ b ∈ narrowRequests, b.length ≤ narrowConfig.messageSize.toNat) ∧
    Desk.Quiet Directory.respond ((new narrowConfig).run narrowMoves).server ∧
    ∃ (p : Peer) (g : Guest),
      ((new narrowConfig).run narrowMoves).server.host.peers[0]? = some p ∧
      ((new narrowConfig).run narrowMoves).guests[0]? = some g ∧ g.steady = true ∧
      Stream narrowRequests g.sent ∧ p.phase = .gone ∧ p.link.toGuest.closed = true ∧
      ¬ ∃ replies, Stream replies (g.got ++ p.link.toGuest.unread) ∧
        replies.length = narrowRequests.length := by
  have hpeer : (((new narrowConfig).run narrowMoves).server.host.peers[0]?.map fun p =>
      (p.phase, p.link.toGuest)) = some (.gone, ⟨Frame.encode (Wire.Value.int 0).encode, true⟩) := by
    decide +kernel
  have hguest : ((new narrowConfig).run narrowMoves).guests[0]?
      = some ⟨narrowRequests.flatMap Frame.encode, [], true⟩ := by
    decide +kernel
  obtain ⟨p, hp, hpeer⟩ := Option.map_eq_some_iff.1 hpeer
  obtain ⟨hphase, hlink⟩ := Prod.mk.inj hpeer
  refine ⟨by decide +kernel, by decide +kernel, by decide +kernel, p, _, hp, hguest, rfl,
    ⟨rfl, by decide +kernel⟩, hphase, by rw [hlink], ?_⟩
  rintro ⟨replies, hstream, hlength⟩
  have hone : Stream [(Wire.Value.int 0).encode] (Frame.encode (Wire.Value.int 0).encode) :=
    Frame.stream_singleton (by decide)
  rw [hlink, List.nil_append] at hstream
  rw [hstream.unique hone] at hlength
  cases hlength

end TopicDirectory.Reception
