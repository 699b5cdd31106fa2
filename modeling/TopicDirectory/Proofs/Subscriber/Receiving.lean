import TopicDirectory.Client.Subscriber
import TopicDirectory.Proofs.Client.Calls
import TopicDirectory.Proofs.Feed.Messages

/-!
# What a subscriber takes from a stream of messages

A subscriber that has been sent messages, of which some octets have come and more will, takes the
messages one after the other and passes over those that are not on its topics
(`Subscriber.receive_messages`).  What a publisher sends on topics is what a subscriber to them makes
of the messages whose labels begin with one of these topics (`Subscriber.filterMap_accept?`).
-/

namespace TopicDirectory

open Client (Error)

namespace Message

theorem octets_flatMap (ms : List Message) :
    ms.flatMap octets = (ms.flatMap bodies).flatMap Frame.encode := by
  rw [List.flatMap_assoc]
  rfl

theorem octets_length_pos (m : Message) : 0 < m.octets.length := by
  rw [octets_eq, List.length_append, Frame.length_encode]
  omega

/-- Messages whose frames go from one party to another come as a stream. -/
theorem stream_of_passes {sender receiver : Nat} {ms : List Message}
    (h : ∀ m ∈ ms, ∀ b ∈ m.bodies, Frame.Passes sender receiver b) :
    Frame.Stream (ms.flatMap bodies) (ms.flatMap octets) := by
  refine ⟨octets_flatMap ms, fun b hb => ?_⟩
  obtain ⟨m, hm, hb⟩ := List.mem_flatMap.1 hb
  exact (h m hm b hb).2.2

end Message

namespace Subscription

/-- Of messages that come in a stream the first is received, or not enough has come yet. -/
theorem receive_messages {sender limit : Nat} {p : Pipe} {more : List UInt8} {ms : List Message}
    (hopen : p.closed = false) (hstream : p.unread ++ more = ms.flatMap Message.octets)
    (hpasses : ∀ m ∈ ms, ∀ b ∈ m.bodies, Frame.Passes sender limit b) :
    (receive limit p = none ∧ (more = [] → ms = [])) ∨
      ∃ m rest q, ms = m :: rest ∧ receive limit p = some (.ok m, q) ∧ q.closed = false ∧
        q.unread ++ more = rest.flatMap Message.octets := by
  have hframes : Frame.Stream (ms.flatMap Message.bodies) (p.unread ++ more) := by
    rw [hstream]
    exact Message.stream_of_passes hpasses
  cases hreceive : receive limit p with
  | none =>
    refine .inl ⟨rfl, ?_⟩
    rintro rfl
    rw [List.append_nil] at hstream
    cases ms with
    | nil => rfl
    | cons m rest =>
      obtain ⟨unread, closed⟩ := p
      have hunread : unread = m.octets ++ rest.flatMap Message.octets := hstream
      have hlabel := hpasses m List.mem_cons_self (Utf8.encode m.label) (by simp [Message.bodies])
      have hpayload := hpasses m List.mem_cons_self m.payload (by simp [Message.bodies])
      rw [hunread, receive_octets hlabel.2 hpayload.2] at hreceive
      cases hreceive
  | some found =>
    obtain ⟨result, q⟩ := found
    cases result with
    | error fault =>
      rcases receive_eq_error hreceive with ⟨-, hrefused⟩ | ⟨-, hclosed, -⟩
      · refine absurd (hrefused.mono more) (hframes.not_refused fun b hb => ?_)
        obtain ⟨m, hm, hb⟩ := List.mem_flatMap.1 hb
        exact (hpasses m hm b hb).2.1
      · rw [hopen] at hclosed
        cases hclosed
    | ok m =>
      obtain ⟨label, before, hm, hbefore, hunread, hclosed⟩ := receive_eq_ok hreceive
      rw [hunread, List.append_assoc] at hframes
      obtain ⟨bodies, hbodies, hrest⟩ := hbefore.of_append hframes
      cases ms with
      | nil => cases hbodies
      | cons m' rest =>
        have hcons : Utf8.encode m'.label :: m'.payload :: rest.flatMap Message.bodies
            = label :: m.payload :: bodies := hbodies
        obtain ⟨rfl, htwo⟩ := List.cons.inj hcons
        obtain ⟨hpayload, rfl⟩ := List.cons.inj htwo
        rw [Utf8.decodeLossy_encode] at hm
        obtain rfl : m' = m := by
          cases m
          cases m'
          simp_all
        refine .inr ⟨m', rest, q, rfl, rfl, hclosed.trans hopen, ?_⟩
        rw [hrest.1, Message.octets_flatMap]

end Subscription

namespace Client.Subscriber

variable {s : Subscriber}

/-- What a subscriber takes of messages that come in a stream, and what it leaves. -/
structure Takes (s : Subscriber) (ms : List Message) (more : List UInt8)
    (r : Option (Except Error (String × String)) × Pipe) : Prop where
  split : ∃ past rest, ms = past ++ rest ∧ past.filterMap s.accept? = r.1.toList ∧
    r.2.unread ++ more = rest.flatMap Message.octets ∧ (r.1 = none → more = [] → rest = [])
  opened : r.2.closed = false

theorem receiveWithin_messages {sender n : Nat} {p : Pipe} {more : List UInt8} {ms : List Message}
    (hn : p.unread.length < n) (hopen : p.closed = false)
    (hstream : p.unread ++ more = ms.flatMap Message.octets)
    (hpasses : ∀ m ∈ ms, ∀ b ∈ m.bodies, Frame.Passes sender s.limit b) :
    Takes s ms more (s.receiveWithin n p) := by
  induction n generalizing p ms with
  | zero => exact absurd hn (Nat.not_lt_zero _)
  | succ n ih =>
    rw [receiveWithin]
    rcases Subscription.receive_messages hopen hstream hpasses with
      ⟨hnone, hrest⟩ | ⟨m, rest, q, rfl, hsome, hopen', hstream'⟩
    · rw [hnone]
      exact ⟨⟨[], ms, rfl, rfl, hstream, fun _ => hrest⟩, hopen⟩
    · rw [hsome]
      dsimp only
      have hshorter : q.unread.length < n := by
        have hpos := m.octets_length_pos
        have hlength := congrArg List.length hstream
        have hlength' := congrArg List.length hstream'
        rw [List.flatMap_cons, List.length_append, List.length_append] at hlength
        rw [List.length_append] at hlength'
        omega
      cases haccept : s.accept? m with
      | some result =>
        refine ⟨⟨[m], rest, rfl, ?_, hstream', nofun⟩, hopen'⟩
        simp [haccept]
      | none =>
        obtain ⟨⟨past, rest', rfl, hpast, hunread, hend⟩, hopen''⟩ := ih hshorter hopen' hstream'
          fun m' hm' => hpasses m' (List.mem_cons_of_mem _ hm')
        refine ⟨⟨m :: past, rest', rfl, ?_, hunread, hend⟩, hopen''⟩
        rw [List.filterMap_cons, haccept]
        exact hpast

/-- Of messages that come in a stream a subscriber takes the first one that is on one of its topics,
with those before it; if there is none among those that have come, it passes over these. -/
theorem receive_messages {sender : Nat} {p : Pipe} {more : List UInt8} {ms : List Message}
    (hopen : p.closed = false) (hstream : p.unread ++ more = ms.flatMap Message.octets)
    (hpasses : ∀ m ∈ ms, ∀ b ∈ m.bodies, Frame.Passes sender s.limit b) :
    Takes s ms more (s.receive p) :=
  receiveWithin_messages (Nat.lt_succ_self _) hopen hstream hpasses

/-! ## Texts on topics -/

/-- The message that a text on a topic is sent as. -/
def messageOf (sent : String × String) : Message := ⟨sent.1, (Wire.Value.text sent.2).encode⟩

theorem textOf_messageOf (sent : String × String) : textOf (messageOf sent) = .ok sent.2 := by
  simp [textOf, messageOf, Wire.Value.asText, bind, Except.bind]

theorem accept?_messageOf (s : Subscriber) (sent : String × String) :
    s.accept? (messageOf sent) = if s.topics.contains sent.1 then some (.ok sent) else none := by
  rw [accept?, textOf_messageOf]
  rfl

/-- Every topic begins with itself. -/
theorem matchesAny_of_contains {topics : List String} {topic : String}
    (h : topics.contains topic = true) : Feed.matchesAny topics topic = true := by
  rw [Feed.matchesAny, List.any_eq_true]
  exact ⟨topic, List.contains_iff_mem.1 h, List.isPrefixOf_iff_prefix.2 List.prefix_rfl⟩

/-- What a subscriber makes of all messages whose labels begin with one of its topics. -/
theorem filterMap_accept? (s : Subscriber) (sent : List (String × String)) :
    ((sent.map messageOf).filter fun m => Feed.matchesAny s.topics m.label).filterMap s.accept?
      = (sent.filter fun x => s.topics.contains x.1).map .ok := by
  rw [List.filterMap_filter, List.filterMap_map, ← List.filterMap_eq_map, List.filterMap_filter]
  refine congrArg (List.filterMap · sent) (funext fun x => ?_)
  show (if Feed.matchesAny s.topics x.1 = true then s.accept? (messageOf x) else none) = _
  rw [accept?_messageOf]
  cases hcontains : s.topics.contains x.1 with
  | true =>
    rw [if_pos (matchesAny_of_contains hcontains)]
    rfl
  | false => exact ite_self _

end Client.Subscriber

end TopicDirectory
