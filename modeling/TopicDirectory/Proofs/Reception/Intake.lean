import TopicDirectory.Proofs.Exchange.Load
import TopicDirectory.Proofs.Link.Frames
import TopicDirectory.Proofs.Reception.Replies
import TopicDirectory.Proofs.Reception.Visit

/-!
# Which octets of a guest become requests

A guest may write any octets, in pieces and whenever it likes, and then close its side of the
connection.  As long as the replies to it are within the limit, what the host makes of the octets
depends on them alone: the bodies of the longest run of whole frames within the limit at their front
become requests, one after the other and each after the reply to the one before was written, and
nothing that follows them does (`cut_run`).

As long as the host reads from a guest, the frames of the requests that it has read and what it has
not read are together what the guest has written (`Consuming`).  It stops reading where no further
frame can be read, and then there was none (`Finished`).
-/

namespace TopicDirectory.Reception

open Exchange (Desk Peer Phase)
open Relation (ReflTransGen)
open TopicDirectory.Frame (Longest frames)

/-- Says that no more octets will come, and goes on taking what comes back. -/
def Guest.shut (g : Guest) (l : Link) : Guest × Link := (g, { l with toHost := l.toHost.close })

/-- A guest closes its side of the connection. -/
def shut (r : Reception) (i : Nat) : Reception := r.act i Guest.shut

namespace Visit

/-- The requests that were read from a guest, in the order in which they were read. -/
def taken (v : Visit) : List (List UInt8) := v.done.map (·.request) ++ v.queued ++ v.peer.phase.held

/-- What has been written to a guest. -/
def returned (v : Visit) : List UInt8 := v.guest.got ++ v.peer.link.toGuest.unread

end Visit

/-- How a guest stands that the host reads from. -/
structure Consuming (limit : Nat) (octets : List UInt8) (closed : Bool) (v : Visit) : Prop where
  here : v.peer.phase ≠ .gone
  inQueue : v.queued.length = if v.peer.phase = .waiting then 1 else 0
  fits : ∀ b ∈ v.taken, b.length ≤ limit ∧ b.length < UInt32.size
  consumed : v.taken.flatMap Frame.encode ++ v.peer.link.toHost.unread = octets
  written : ∃ back, back ++ v.peer.phase.answer = v.done.map (·.reply) ∧
    back.flatMap Frame.encode = v.returned
  toHost : v.peer.link.toHost.closed = closed
  toGuest : v.peer.link.toGuest.closed = false

/-- How a guest stands that the host has stopped reading from. -/
structure Finished (limit : Nat) (octets : List UInt8) (closed : Bool) (v : Visit) : Prop where
  gone : v.peer.phase = .gone
  inQueue : v.queued = []
  all : frames limit octets = v.done.map (·.request)
  /-- Nothing that may still come makes a further frame of what was written. -/
  later : closed = false → ∀ more, frames limit (octets ++ more) = v.done.map (·.request)
  written : (v.done.map (·.reply)).flatMap Frame.encode = v.returned

/-- What has become of octets that a guest has written, on a connection that it has closed or not. -/
inductive Intake (limit : Nat) (octets : List UInt8) (closed : Bool) (v : Visit) : Prop
  | consuming (h : Consuming limit octets closed v)
  | finished (h : Finished limit octets closed v)

variable {limit : Nat} {octets : List UInt8} {closed : Bool} {v v' : Visit}

/-- A guest begins with nothing. -/
theorem intake_new (limit : Nat) : Intake limit [] false {} :=
  .consuming
    { here := nofun
      inQueue := rfl
      fits := nofun
      consumed := rfl
      written := ⟨[], rfl, rfl⟩
      toHost := rfl
      toGuest := rfl }

theorem Intake.consuming_of_phase {phase : Phase} (h : Intake limit octets closed v)
    (hphase : v.peer.phase = phase) (hne : phase ≠ .gone) : Consuming limit octets closed v := by
  cases h with
  | consuming h => exact h
  | finished h => exact absurd (hphase.symm.trans h.gone) hne

/-! ## What the guest does -/

/-- Octets that are written add to those before, unless the connection is closed. -/
theorem Intake.send (h : Intake limit octets closed v) (more : List UInt8) :
    Intake limit (if closed then octets else octets ++ more) closed
      { v with
        peer.link := (v.guest.send more v.peer.link).2
        guest := (v.guest.send more v.peer.link).1 } := by
  cases h with
  | consuming h =>
    refine .consuming ⟨h.here, h.inQueue, h.fits, ?_, h.written, ?_, h.toGuest⟩
    · show v.taken.flatMap Frame.encode ++ (v.peer.link.toHost.write more).unread = _
      rw [Pipe.unread_write, h.toHost, ← h.consumed]
      cases closed with
      | true => rfl
      | false => exact (List.append_assoc _ _ _).symm
    · exact (Pipe.closed_write _ _).trans h.toHost
  | finished h =>
    cases closed with
    | true => exact .finished ⟨h.gone, h.inQueue, h.all, h.later, h.written⟩
    | false =>
      refine .finished ⟨h.gone, h.inQueue, h.later rfl more, fun _ further => ?_, h.written⟩
      rw [← h.later rfl (more ++ further), ← List.append_assoc]
      rfl

theorem Intake.take (h : Intake limit octets closed v) (n : Nat) :
    Intake limit octets closed
      { v with
        peer.link := (v.guest.take n v.peer.link).2, guest := (v.guest.take n v.peer.link).1 } := by
  have hreturned := v.guest.got_take n v.peer.link
  cases h with
  | consuming h =>
    obtain ⟨back, hback, hwritten⟩ := h.written
    exact .consuming ⟨h.here, h.inQueue, h.fits, h.consumed,
      ⟨back, hback, hwritten.trans hreturned.symm⟩, h.toHost, h.toGuest⟩
  | finished h =>
    exact .finished ⟨h.gone, h.inQueue, h.all, h.later, h.written.trans hreturned.symm⟩

theorem Intake.shut (h : Intake limit octets false v) :
    Intake limit octets true
      { v with peer.link := (v.guest.shut v.peer.link).2, guest := (v.guest.shut v.peer.link).1 } := by
  cases h with
  | consuming h =>
    exact .consuming ⟨h.here, h.inQueue, h.fits, h.consumed, h.written, rfl, h.toGuest⟩
  | finished h => exact .finished ⟨h.gone, h.inQueue, h.all, nofun, h.written⟩

/-! ## What the host does -/

namespace Consuming

/-- The frames of the requests that were read are the first ones. -/
theorem frames_eq (h : Consuming limit octets closed v) :
    frames limit octets = v.taken ++ frames limit v.peer.link.toHost.unread := by
  rw [← h.consumed]
  exact Frame.frames_flatMap_append h.fits

/-- Where the host is about to read, all requests that were read have got their replies. -/
theorem settled (h : Consuming limit octets closed v) (hphase : v.peer.phase = .reading) :
    v.queued = [] ∧ v.taken = v.done.map (·.request) ∧
      (v.done.map (·.reply)).flatMap Frame.encode = v.returned := by
  obtain ⟨⟨link, phase⟩, guest, queued, done⟩ := v
  obtain rfl : phase = .reading := hphase
  obtain rfl : queued = [] := List.length_eq_zero_iff.1 h.inQueue
  obtain ⟨back, hback, hwritten⟩ := h.written
  obtain rfl : back = done.map (·.reply) := (List.append_nil back).symm.trans hback
  refine ⟨rfl, ?_, hwritten⟩
  show done.map (·.request) ++ [] ++ [] = _
  rw [List.append_nil, List.append_nil]

theorem accept (h : Consuming limit octets closed v) (hphase : v.peer.phase = .calling) :
    Consuming limit octets closed { v with peer.phase := .reading } := by
  obtain ⟨⟨link, phase⟩, guest, queued, done⟩ := v
  obtain rfl : phase = .calling := hphase
  exact ⟨nofun, h.inQueue, h.fits, h.consumed, h.written, h.toHost, h.toGuest⟩

/-- The request that is read is the body of the next frame. -/
theorem read (h : Consuming limit octets closed v) {request : List UInt8} {rest : Pipe}
    (hphase : v.peer.phase = .reading)
    (hread : Frame.read limit v.peer.link.toHost = some (.ok (some request), rest)) :
    Consuming limit octets closed
      { v with peer := ⟨{ v.peer.link with toHost := rest }, .holding request⟩ } := by
  obtain ⟨hunread, hclosed, hlimit, h32⟩ := Frame.read_eq_ok hread
  obtain ⟨hqueued, htaken, hwritten⟩ := h.settled hphase
  have hmore : Visit.taken { v with peer := ⟨{ v.peer.link with toHost := rest }, .holding request⟩ }
      = v.taken ++ [request] := by
    rw [htaken, Visit.taken, hqueued, List.append_nil]
    rfl
  refine ⟨nofun, by rw [hqueued]; rfl, ?_, ?_, ⟨_, List.append_nil _, hwritten⟩,
    hclosed.trans h.toHost, h.toGuest⟩
  · intro b hb
    rw [hmore] at hb
    rcases List.mem_append.1 hb with hb | hb
    · exact h.fits b hb
    · rw [List.mem_singleton.1 hb]
      exact ⟨hlimit, h32⟩
  · rw [hmore, List.flatMap_append, List.flatMap_singleton, List.append_assoc, ← hunread]
    exact h.consumed

/-- Where something else than a frame is read no frame is left. -/
theorem refuse (h : Consuming limit octets closed v) {rest : Pipe}
    {result : Except Link.Fault (Option (List UInt8))} (hphase : v.peer.phase = .reading)
    (hread : Frame.read limit v.peer.link.toHost = some (result, rest))
    (hresult : ∀ request, result ≠ .ok (some request)) :
    Finished limit octets closed { v with peer := Peer.leave { v.peer with link.toHost := rest } } := by
  obtain ⟨hnone, hlater⟩ := Frame.frames_of_read hread hresult
  obtain ⟨hqueued, htaken, hwritten⟩ := h.settled hphase
  refine ⟨rfl, hqueued, ?_, fun hopen more => ?_, hwritten⟩
  · rw [h.frames_eq, htaken, hnone, List.append_nil]
  · rw [← h.consumed, List.append_assoc, Frame.frames_flatMap_append h.fits,
      hlater (h.toHost.trans hopen) more, htaken, List.append_nil]

theorem enqueue (h : Consuming limit octets closed v) {request : List UInt8}
    (hphase : v.peer.phase = .holding request) :
    Consuming limit octets closed
      { v with peer.phase := .waiting, queued := v.queued ++ [request] } := by
  obtain ⟨⟨link, phase⟩, guest, queued, done⟩ := v
  obtain rfl : phase = .holding request := hphase
  have hsame : Visit.taken ⟨⟨link, .waiting⟩, guest, queued ++ [request], done⟩
      = Visit.taken ⟨⟨link, .holding request⟩, guest, queued, done⟩ := by
    simp [Visit.taken, Phase.held]
  refine ⟨by simp, ?_, hsame ▸ h.fits, hsame ▸ h.consumed, h.written, h.toHost, h.toGuest⟩
  rw [List.length_append, h.inQueue]
  rfl

/-- A request that is dealt with is the one that is waiting. -/
theorem dispatch (h : Consuming limit octets closed v) {d : Deal} {rest : List (List UInt8)}
    (hqueued : v.queued = d.request :: rest) :
    Consuming limit octets closed
      { v with peer := answered v.peer d.reply, queued := rest, done := v.done ++ [d] } := by
  obtain ⟨⟨link, phase⟩, guest, queued, done⟩ := v
  obtain rfl : queued = d.request :: rest := hqueued
  have hwaiting : phase = .waiting := by
    apply Decidable.byContradiction
    intro hne
    have hlength := h.inQueue
    rw [if_neg hne] at hlength
    cases hlength
  subst hwaiting
  obtain rfl : rest = [] := List.length_eq_zero_iff.1 (Nat.succ.inj h.inQueue)
  have hsame : Visit.taken ⟨⟨link, .answering d.reply⟩, guest, [], done ++ [d]⟩
      = Visit.taken ⟨⟨link, .waiting⟩, guest, [d.request], done⟩ := by
    simp [Visit.taken, Phase.held]
  obtain ⟨back, hback, hwritten⟩ := h.written
  rw [answered, if_pos rfl]
  refine ⟨by simp, rfl, hsame ▸ h.fits, hsame ▸ h.consumed, ⟨back, ?_, hwritten⟩, h.toHost,
    h.toGuest⟩
  rw [List.map_append, ← hback]
  simp [Phase.answer]

/-- The reply to the last request is written. -/
theorem write (h : Consuming limit octets closed v) {reply : List UInt8}
    (hphase : v.peer.phase = .answering reply) :
    Consuming limit octets closed
      { v with
        peer :=
          ⟨{ v.peer.link with toGuest := v.peer.link.toGuest.write (Frame.encode reply) }, .reading⟩ } := by
  obtain ⟨⟨link, phase⟩, guest, queued, done⟩ := v
  obtain rfl : phase = .answering reply := hphase
  obtain ⟨back, hback, hwritten⟩ := h.written
  refine ⟨nofun, h.inQueue, h.fits, h.consumed, ⟨back ++ [reply], ?_, ?_⟩, h.toHost, ?_⟩
  · rw [← hback]
    exact List.append_nil _
  · rw [List.flatMap_append, List.flatMap_singleton, hwritten, Visit.returned, Visit.returned,
      Pipe.unread_write, if_neg (by rw [h.toGuest]; nofun), List.append_assoc]
  · exact (Pipe.closed_write _ _).trans h.toGuest

/-- A reply that is still to be written is one of those that were dealt with. -/
theorem exists_of_answering (h : Consuming limit octets closed v) {reply : List UInt8}
    (hphase : v.peer.phase = .answering reply) : ∃ d ∈ v.done, d.reply = reply := by
  obtain ⟨back, hback, -⟩ := h.written
  rw [hphase, Phase.answer] at hback
  refine List.mem_map.1 ?_
  rw [← hback]
  exact List.mem_append_right _ List.mem_cons_self

end Consuming

/-! ## All turns -/

/-- What a turn does to the octets that a guest has written and to what has become of them. -/
theorem Intake.turn (h : Intake limit octets closed v) (hturn : Turn limit v v')
    (hsteady : v'.guest.steady = true) (hfit : ∀ d ∈ v'.done, d.reply.length ≤ limit) :
    ∃ more, v'.guest.sent = v.guest.sent ++ more ∧
      Intake limit (if closed then octets else octets ++ more) closed v' := by
  -- all turns but one leave the octets as they are
  have hkeep (h' : Intake limit octets closed v') (hsent : v'.guest.sent = v.guest.sent) :
      ∃ more, v'.guest.sent = v.guest.sent ++ more ∧
        Intake limit (if closed then octets else octets ++ more) closed v' := by
    refine ⟨[], hsent.trans (List.append_nil _).symm, ?_⟩
    rw [List.append_nil, ite_self]
    exact h'
  cases hturn with
  | stay => exact hkeep h rfl
  | act f hf =>
    rcases hf with ⟨more, rfl⟩ | ⟨n, rfl⟩ | ⟨l, rfl⟩
    · exact ⟨more, rfl, h.send more⟩
    · exact hkeep (h.take n) rfl
    · cases hsteady
  | accept hphase =>
    exact hkeep (.consuming ((h.consuming_of_phase hphase nofun).accept hphase)) rfl
  | read hphase hread =>
    exact hkeep (.consuming ((h.consuming_of_phase hphase nofun).read hphase hread)) rfl
  | refuse hphase hread hresult =>
    exact hkeep (.finished ((h.consuming_of_phase hphase nofun).refuse hphase hread hresult)) rfl
  | enqueue hphase =>
    exact hkeep (.consuming ((h.consuming_of_phase hphase nofun).enqueue hphase)) rfl
  | dispatch hqueued =>
    cases h with
    | consuming h => exact hkeep (.consuming (h.dispatch hqueued)) rfl
    | finished h =>
      rw [h.inQueue] at hqueued
      cases hqueued
  | write hphase hlimit =>
    exact hkeep (.consuming ((h.consuming_of_phase hphase nofun).write hphase)) rfl
  | giveUp hphase hlimit =>
    obtain ⟨d, hd, rfl⟩ := (h.consuming_of_phase hphase nofun).exists_of_answering hphase
    exact absurd hlimit (Nat.not_lt.2 (hfit d hd))

theorem Intake.turns (h : Intake limit octets closed v) (hturns : ReflTransGen (Turn limit) v v')
    (hsteady : v'.guest.steady = true) (hfit : ∀ d ∈ v'.done, d.reply.length ≤ limit) :
    ∃ more, v'.guest.sent = v.guest.sent ++ more ∧
      Intake limit (if closed then octets else octets ++ more) closed v' := by
  refine turns_keep (P := fun v' => ∃ more, v'.guest.sent = v.guest.sent ++ more ∧
    Intake limit (if closed then octets else octets ++ more) closed v') ?_ hturns hsteady hfit ?_
  · refine ⟨[], (List.append_nil _).symm, ?_⟩
    rw [List.append_nil, ite_self]
    exact h
  · rintro v₁ v₂ ⟨before, hbefore, hintake⟩ hturn hsteady hfit
    obtain ⟨more, hmore, hintake⟩ := hintake.turn hturn hsteady hfit
    refine ⟨before ++ more, by rw [hmore, hbefore, List.append_assoc], ?_⟩
    cases closed with
    | true => exact hintake
    | false => simpa using hintake

/-! ## What becomes of the octets -/

/-- What a directory has made of the octets that a guest has written, where `bodies` are those of the
frames at their front. -/
structure Cut (limit : Nat) (octets : List UInt8) (r : Reception) (i : Nat) (v : Visit)
    (bodies : List (List UInt8)) : Prop where
  longest : Longest limit octets bodies
  /-- Whatever was read as a request is one of the bodies, and they are read in order. -/
  requests : v.taken <+: bodies
  /-- What was consumed for the requests are their frames. -/
  consumed : v.peer.phase ≠ .gone →
    v.taken.flatMap Frame.encode ++ v.peer.link.toHost.unread = octets
  /-- The replies are written frame by frame and in order, and at most one is missing. -/
  replies : ∃ back, back <+: v.done.map (·.reply) ∧ back.flatMap Frame.encode = v.returned ∧
    v.taken.length ≤ back.length + 1
  /-- The next request is read only when none is missing. -/
  next : (r.server.host.read? i).isSome → v.taken = v.done.map (·.request) ∧
    (v.done.map (·.reply)).flatMap Frame.encode = v.returned
  /-- When the host reads no more from the guest, or can do nothing more at all, each of the bodies
  was dealt with, and its reply written. -/
  all : v.peer.phase = .gone ∨ Desk.Quiet Directory.respond r.server →
    v.done.map (·.request) = bodies ∧ (v.done.map (·.reply)).flatMap Frame.encode = v.returned

variable {r : Reception} {i : Nat}

theorem phase_of_read? (hv : visit? r i = some v) (hread : (r.server.host.read? i).isSome) :
    v.peer.phase = .reading := by
  obtain ⟨hpeer, -⟩ := visit?_eq_some.1 hv
  obtain ⟨h', hstep⟩ := Option.isSome_iff_exists.1 hread
  obtain ⟨p, hp, hphase, -⟩ := Exchange.Host.read?_eq_some hstep
  obtain rfl := Option.some.inj (hp.symm.trans hpeer)
  exact hphase

/-- A guest has at most one request or reply under way in the host. -/
theorem underWay_le (phase : Phase) :
    (if phase = .waiting then 1 else 0) + phase.held.length + phase.answer.length ≤ 1 := by
  cases phase <;> simp [Phase.held, Phase.answer]

namespace Consuming

/-- A directory at rest waits for more octets of a guest that it reads from. -/
theorem waits (h : Consuming limit octets closed v) (hsane : Sane limit r)
    (hv : visit? r i = some v) (hquiet : Desk.Quiet Directory.respond r.server) :
    v.peer.phase = .reading ∧ Frame.read limit v.peer.link.toHost = none := by
  obtain ⟨hpeer, -, hqueued, -⟩ := visit?_eq_some.1 hv
  obtain ⟨hqueue, hresting⟩ := hquiet.resting hsane.listening
  rcases hresting i v.peer hpeer with hgone | hwaiting | ⟨hreading, hread⟩
  · exact absurd hgone h.here
  · have hlength := h.inQueue
    rw [hqueued, Service.queued, hqueue, if_pos hwaiting] at hlength
    cases hlength
  · exact ⟨hreading, hsane.limit ▸ hread⟩

theorem cut (h : Consuming limit octets closed v) (hsane : Sane limit r)
    (hv : visit? r i = some v) : Cut limit octets r i v (frames limit octets) where
  longest := Frame.longest_frames limit octets
  requests := by
    rw [h.frames_eq]
    exact List.prefix_append _ _
  consumed _ := h.consumed
  replies := by
    obtain ⟨back, hback, hwritten⟩ := h.written
    refine ⟨back, ⟨_, hback⟩, hwritten, ?_⟩
    have hlength := congrArg List.length hback
    have hunderWay := underWay_le v.peer.phase
    rw [← h.inQueue] at hunderWay
    rw [List.length_append, List.length_map] at hlength
    rw [Visit.taken, List.length_append, List.length_append, List.length_map]
    omega
  next hread := (h.settled (phase_of_read? hv hread)).2
  all hover := by
    have hquiet := hover.resolve_left h.here
    obtain ⟨hreading, hread⟩ := h.waits hsane hv hquiet
    obtain ⟨-, htaken, hwritten⟩ := h.settled hreading
    refine ⟨?_, hwritten⟩
    rw [h.frames_eq, Frame.frames_of_none hread, List.append_nil, htaken]

end Consuming

theorem Finished.cut (h : Finished limit octets closed v) (hv : visit? r i = some v) :
    Cut limit octets r i v (frames limit octets) := by
  have htaken : v.taken = v.done.map (·.request) := by
    rw [Visit.taken, h.inQueue, h.gone]
    show _ ++ [] ++ [] = _
    rw [List.append_nil, List.append_nil]
  refine ⟨Frame.longest_frames limit octets, ?_, fun hne => absurd h.gone hne,
    ⟨_, List.prefix_rfl, h.written, ?_⟩, fun hread => ?_, fun _ => ⟨h.all.symm, h.written⟩⟩
  · exact htaken.trans h.all.symm ▸ List.prefix_rfl
  · rw [htaken, List.length_map, List.length_map]
    exact Nat.le_succ _
  · exact absurd ((phase_of_read? hv hread).symm.trans h.gone) nofun

theorem Intake.cut (h : Intake limit octets closed v) (hsane : Sane limit r)
    (hv : visit? r i = some v) : Cut limit octets r i v (frames limit octets) := by
  cases h with
  | consuming h => exact h.cut hsane hv
  | finished h => exact h.cut hv

/-- Where a guest has closed its side of the connection the host does not wait for it. -/
theorem Intake.gone (h : Intake limit octets true v) (hsane : Sane limit r)
    (hv : visit? r i = some v) (hquiet : Desk.Quiet Directory.respond r.server) :
    v.peer.phase = .gone := by
  cases h with
  | consuming h =>
    obtain ⟨-, hread⟩ := h.waits hsane hv hquiet
    have hsome := Frame.isSome_read limit h.toHost
    rw [hread] at hsome
    cases hsome
  | finished h => exact h.gone

/-- **The octets of a connection are cut into requests in one way.**  Under any limit, whatever octets
a guest writes before it closes its side of the connection, in pieces of any kind and whatever the
others and the directory do in between: as long as the replies to it are within the limit,

* the requests that are read from it are, in order, the bodies of the longest run of whole frames
  within the limit at the front of the octets, and these frames are what is consumed for them;
* nothing that follows them is dealt with, and the registry is that of the requests that were;
* the replies are written to it frame by frame and in the order of its requests, and the next request
  is read only after the reply to the one before was written;
* the directory cannot go on without end, and when it has come to rest all of these requests were
  dealt with, their replies are written, and the host has left the connection.

All but the last holds before the guest closes its side, too, of what it has written until then. -/
theorem cut_run {c : Config.Server} (ms ms' : List Move) {i : Nat} {v v' : Visit}
    (hv : visit? ((new c).run ms) i = some v)
    (hv' : visit? ((((new c).run ms).shut i).run ms') i = some v')
    (hsteady : v'.guest.steady = true)
    (hfit : ∀ d ∈ v'.done, d.reply.length ≤ c.messageSize.toNat) :
    let r := (((new c).run ms).shut i).run ms'
    (∃ bodies, Cut c.messageSize.toNat v.guest.sent ((new c).run ms) i v bodies ∧
      Cut c.messageSize.toNat v.guest.sent r i v' bodies) ∧
    (Desk.Quiet Directory.respond r.server → v'.peer.phase = .gone) ∧
    r.server.state.registry = Registry.fed {} (r.log.map (·.request)) ∧
    r.log.map (·.reply) = Registry.replies {} (r.log.map (·.request)) ∧
    ∀ as, (Desk.steps? Directory.respond r.server as).isSome →
      as.length ≤ r.server.host.workload := by
  intro r
  have hsane := (sane_new c).run ms
  have hsane' : Sane _ r := (hsane.act Guest.shut).run ms'
  have hturns := visit_run_of_none (sane_new c) (i := i) rfl ms hv
  have hshut := visit_act_self (f := Guest.shut) hv
  obtain ⟨v₁, hv₁, hturns'⟩ := visit_run (hsane.act Guest.shut) hshut ms'
  obtain rfl : v₁ = v' := Option.some.inj (hv₁.symm.trans hv')
  -- what holds of the guest at last has held of it before it closed its side
  have hdone := turns_done hturns'
  have hsteady' := turns_steady hturns' hsteady
  obtain ⟨sent, hsent, hintake⟩ :=
    (intake_new _).turns hturns hsteady' fun d hd => hfit d (hdone.subset hd)
  obtain rfl : v.guest.sent = sent := hsent
  obtain ⟨more, -, hintake'⟩ := hintake.shut.turns hturns' hsteady hfit
  refine ⟨⟨_, hintake.cut hsane hv, hintake'.cut hsane' hv'⟩, hintake'.gone hsane' hv',
    hsane'.registry, hsane'.replies, fun as has => ?_⟩
  obtain ⟨server, hsteps⟩ := Option.isSome_iff_exists.1 has
  exact Desk.length_le_workload hsteps

/-- A publisher comes, nothing is asked for, and then the snapshot is. -/
def wholeRequests : List (List UInt8) :=
  [(Wire.Command.register ⟨none, "tcp://h:1", "p", []⟩).encode, [], Wire.Command.snapshot.encode]

/-- After the frames of the requests, a length that is one over the limit of `narrowConfig`, and what
would be a request again. -/
def tailedOctets : List UInt8 :=
  wholeRequests.flatMap Frame.encode ++ [0, 0, 1, 1]
    ++ Frame.encode (Wire.Command.register ⟨none, "tcp://h:2", "q", []⟩).encode

/-- The octets are written in two pieces, and one request is dealt with; another guest writes, too. -/
def movesBefore : List Move :=
  [.call, .call, .send 0 (tailedOctets.take 7), .serve (.accept 1), .serve (.accept 0),
    .serve (.read 0), .send 1 (Frame.encode [0x07]), .send 0 (tailedOctets.drop 7), .serve (.read 0),
    .serve (.read 1), .serve (.enqueue 0), .serve .dispatch]

/-- The directory goes on until it can do nothing more. -/
def movesAfter : List Move :=
  [.serve (.enqueue 1), .stray 1 {}, .serve .dispatch, .serve (.write 0), .take 0 9,
    .serve (.read 0), .serve (.enqueue 0), .serve .dispatch, .serve (.write 1), .serve (.write 0),
    .serve (.read 0), .serve (.enqueue 0), .serve .dispatch, .serve (.write 0), .serve (.read 0),
    .send 0 [0x00], .serve (.read 0)]

theorem cut_run_tailedOctets : ∃ v v',
    visit? ((new narrowConfig).run movesBefore) 0 = some v ∧ v.guest.sent = tailedOctets ∧
    visit? ((((new narrowConfig).run movesBefore).shut 0).run movesAfter) 0 = some v' ∧
    Longest 256 tailedOctets wholeRequests ∧
    v'.done.map (·.request) = wholeRequests ∧ v'.peer.phase = .gone ∧
    (v'.done.map (·.reply)).flatMap Frame.encode = v'.returned := by
  have hbefore : (visit? ((new narrowConfig).run movesBefore) 0).map (·.guest.sent)
      = some tailedOctets := by
    decide +kernel
  have hafter : (visit? ((((new narrowConfig).run movesBefore).shut 0).run movesAfter) 0).map
      (fun v => (v.done.map (·.request), v.guest.steady,
        decide (∀ d ∈ v.done, d.reply.length ≤ narrowConfig.messageSize.toNat)))
        = some (wholeRequests, true, true) := by
    decide +kernel
  have hquiet : Desk.Quiet Directory.respond
      ((((new narrowConfig).run movesBefore).shut 0).run movesAfter).server := by
    decide +kernel
  obtain ⟨v, hv, hsent⟩ := Option.map_eq_some_iff.1 hbefore
  obtain ⟨v', hv', hv''⟩ := Option.map_eq_some_iff.1 hafter
  obtain ⟨hdone, hfinal⟩ := Prod.mk.inj hv''
  obtain ⟨hsteady, hfit⟩ := Prod.mk.inj hfinal
  obtain ⟨⟨bodies, -, hcut⟩, hgone, -⟩ :=
    cut_run movesBefore movesAfter hv hv' hsteady (of_decide_eq_true hfit)
  obtain ⟨hall, hreturned⟩ := hcut.all (.inr hquiet)
  have hlongest := hcut.longest
  rw [← hall, hdone, hsent] at hlongest
  exact ⟨v, v', hv, hsent, hv', hlongest, hdone, hgone hquiet, hreturned⟩

end TopicDirectory.Reception
