import TopicDirectory.Proofs.Subscriber.Course

/-!
# What a subscriber receives

The results of receiving are the texts that were sent on the subscriber's topics, in order and each of
them once, up to where the subscriber has come (`received_exactly`).  When nothing is on the way they
are all of them, and what is on the way can always be delivered and received.
-/

namespace TopicDirectory.Channel

open Client (Error Subscriber)

variable {limit capacity : Nat} {t : Channel} {i : Nat} {a : Feed.Attachment}
  {past rest : List Message}

/-- What was sent on the topics of the subscriber since it was taken in. -/
def subscribed (t : Channel) : List (String × String) :=
  t.published.filter fun sent => t.subscriber.topics.contains sent.1

/-- Whether nothing is on the way to the subscriber, and it waits. -/
def Quiet (t : Channel) (i : Nat) : Prop :=
  (∃ a, t.audience.feed.attachments[i]? = some a ∧ a.backlog = [] ∧ a.link.toGuest.unread = []) ∧
    (t.subscriber.receive t.inlet).1 = none

/-- What the subscriber makes of all messages that are written for it. -/
theorem filterMap_due (t : Channel) :
    t.due.filterMap t.subscriber.accept? = t.subscribed.map .ok :=
  Subscriber.filterMap_accept? t.subscriber t.published

theorem Following.results_prefix (h : Following t i a past rest) :
    t.results <+: t.subscribed.map .ok := by
  rw [← filterMap_due, h.due, h.results, List.append_assoc, List.filterMap_append]
  exact List.prefix_append _ _

/-- Where nothing is on the way everything was received. -/
theorem Following.results_eq (h : Following t i a past rest) (hfits : Fits limit t)
    (hquiet : Quiet t i) : t.results = t.subscribed.map .ok := by
  obtain ⟨⟨b, hb, hbacklog, hunread⟩, hnone⟩ := hquiet
  obtain rfl := Option.some.inj (h.attachment.symm.trans hb)
  obtain ⟨more, rest', rfl, -, htaken, hend⟩ := h.receive hfits
  obtain rfl := hend hnone hunread
  rw [hnone] at htaken
  rw [← filterMap_due, h.due, h.results, hbacklog, List.filter_nil, List.append_nil, List.append_nil,
    List.filterMap_append, htaken, Option.toList_none, List.append_nil]

/-! ## Everything can be received -/

/-- A move that delivers something, or lets it come, or receives it. -/
def Move.Delivers (i : Nat) (m : Move) : Prop :=
  m = .others (.serve (.deliver i)) ∨ (∃ n, m = .arrive n) ∨ m = .receive

/-- The feed delivers the oldest message that it keeps, or passes over it. -/
theorem exists_deliver (h : Following t i a past rest) (hfits : Fits limit t)
    (hlimit : t.audience.feed.limit = limit) {m : Message} {ms : List Message}
    (hbacklog : a.backlog = m :: ms) :
    ∃ b, b.backlog = ms ∧ t.audience.feed.deliver? i = some (t.audience.feed.set i b) := by
  cases hlabel : Feed.matchesAny t.subscriber.topics m.label with
  | false =>
    exact ⟨{ a with backlog := ms }, rfl, by
      simp [Feed.deliver?, h.attachment, h.phase, hbacklog, hlabel]⟩
  | true =>
    have hdue : m ∈ t.due := by
      rw [h.due, hbacklog]
      exact List.mem_append_right _ (List.mem_filter.2 ⟨List.mem_cons_self, hlabel⟩)
    have hmlabel := (hfits.messages m hdue (Utf8.encode m.label) (by simp [Message.bodies])).1
    have hmpayload := (hfits.messages m hdue m.payload (by simp [Message.bodies])).1
    rcases Feed.forward_cases limit m with ⟨-, -, hforward⟩ | ⟨-, hover, -⟩ | ⟨hover, -⟩
    · exact ⟨{ a with
          link.toGuest := a.link.toGuest.write
            (Frame.encode (Utf8.encode m.label) ++ Frame.encode m.payload)
          backlog := ms }, rfl, by
        simp [Feed.deliver?, h.attachment, h.phase, hbacklog, hlabel, h.toGuest, hlimit, hforward]⟩
    · exact absurd hmpayload (Nat.not_le.2 hover)
    · exact absurd hmlabel (Nat.not_le.2 hover)

/-- The subscriber and what it has to receive, as they are at two moments. -/
structure Alike (t t' : Channel) : Prop where
  subscriber : t'.subscriber = t.subscriber
  stage : t'.stage = t.stage
  published : t'.published = t.published

theorem Alike.fits {t' : Channel} (h : Alike t t') (hfits : Fits limit t) : Fits limit t' := by
  have hgreeting : t'.greeting = t.greeting := by rw [greeting, h.subscriber, greeting]
  have hdue : t'.due = t.due := by rw [due, h.published, h.subscriber, due]
  constructor
  · rw [hgreeting, h.subscriber]
    exact hfits.greeting
  · rw [h.subscriber]
    exact hfits.admission
  · rw [hdue, h.subscriber]
    exact hfits.messages

theorem Alike.trans {t' t'' : Channel} (h : Alike t t') (h' : Alike t' t'') : Alike t t'' :=
  ⟨h'.subscriber.trans h.subscriber, h'.stage.trans h.stage, h'.published.trans h.published⟩

theorem Alike.subscribed {t' : Channel} (h : Alike t t') : t'.subscribed = t.subscribed := by
  rw [Channel.subscribed, h.published, h.subscriber, Channel.subscribed]

/-- The feed can deliver everything that it keeps. -/
theorem exists_delivered (n : Nat) (h : Sound limit capacity t) (hpos : 0 < capacity)
    (hfits : Fits limit t) (hstage : t.stage = .admitted i)
    (hbacklog : ∀ a, t.audience.feed.attachments[i]? = some a → a.backlog.length = n) :
    ∃ ms : List Move, (∀ m ∈ ms, m.Delivers i) ∧ Sound limit capacity (t.run ms) ∧
      Alike t (t.run ms) ∧
      ∃ a, (t.run ms).audience.feed.attachments[i]? = some a ∧ a.backlog = [] := by
  induction n generalizing t with
  | zero =>
    obtain ⟨a, past, rest, hfollowing⟩ := h.following hfits hstage
    have hnone := hbacklog a hfollowing.attachment
    exact ⟨[], List.forall_mem_nil _, h, ⟨rfl, rfl, rfl⟩, a, hfollowing.attachment,
      List.length_eq_zero_iff.1 hnone⟩
  | succ n ih =>
    obtain ⟨a, past, rest, hfollowing⟩ := h.following hfits hstage
    have hlength := hbacklog a hfollowing.attachment
    obtain ⟨m, kept, hkept⟩ := List.exists_cons_of_length_eq_add_one hlength
    rw [hkept, List.length_cons, Nat.add_right_cancel_iff] at hlength
    obtain ⟨b, hb, hdeliver⟩ := exists_deliver hfollowing hfits h.sane.limit hkept
    have hstep : t.step (.others (.serve (.deliver i))) = { t with
        audience := { t.audience with
          feed := t.audience.feed.set i b
          log := t.audience.log ++ [] } } := by
      show { t with audience := t.audience.serve (.deliver i) } = _
      rw [Audience.serve, Feed.step?, hdeliver]
      rfl
    have hsound := h.step hpos hfits (.others (.serve (.deliver i)))
      fun hpublishes => absurd hpublishes Bool.false_ne_true
    have halike : Alike t (t.step (.others (.serve (.deliver i)))) := by
      rw [hstep]
      exact ⟨rfl, rfl, rfl⟩
    obtain ⟨ms, hms, hsound', halike', hdone⟩ := ih hsound (halike.fits hfits)
      (halike.stage.trans hstage) (by
        intro c hc
        rw [hstep] at hc
        obtain rfl := Option.some.inj
          ((Feed.getElem?_set_self hfollowing.attachment b).symm.trans hc)
        rw [hb, hlength])
    exact ⟨.others (.serve (.deliver i)) :: ms, List.forall_mem_cons.2 ⟨.inl rfl, hms⟩, hsound',
      halike.trans halike', hdone⟩

/-- The subscriber can receive everything that has come to it. -/
theorem exists_received (n : Nat) (h : Following t i a past rest) (hfits : Fits limit t)
    (hn : rest.length < n) (hbacklog : a.backlog = []) (hunread : a.link.toGuest.unread = []) :
    ∃ ms : List Move, (∀ m ∈ ms, m.Delivers i) ∧ (t.run ms).results = t.subscribed.map .ok := by
  induction n generalizing t past rest with
  | zero => exact absurd hn (Nat.not_lt_zero _)
  | succ n ih =>
    cases hresult : (t.subscriber.receive t.inlet).1 with
    | none =>
      exact ⟨[], List.forall_mem_nil _,
        h.results_eq hfits ⟨⟨a, h.attachment, hbacklog, hunread⟩, hresult⟩⟩
    | some result =>
      obtain ⟨more, rest', rfl, hnext, htaken, -⟩ := h.receive hfits
      have halike : Alike t (t.step .receive) := by
        rw [step, receive_of_admitted h.stage]
        exact ⟨rfl, rfl, rfl⟩
      -- a result is made of a message at least
      have hmore : 0 < more.length := by
        apply List.length_pos_of_ne_nil
        rintro rfl
        rw [hresult] at htaken
        cases htaken
      rw [List.length_append] at hn
      obtain ⟨ms, hms, hresults⟩ := ih hnext (halike.fits hfits) (by omega)
      refine ⟨.receive :: ms, List.forall_mem_cons.2 ⟨.inr (.inr rfl), hms⟩, ?_⟩
      rw [← halike.subscribed]
      exact hresults

/-- Everything that was sent can be delivered and received. -/
theorem Sound.exists_all (h : Sound limit capacity t) (hpos : 0 < capacity) (hfits : Fits limit t)
    (hstage : t.stage = .admitted i) :
    ∃ ms : List Move, (∀ m ∈ ms, m.Delivers i) ∧ (t.run ms).results = t.subscribed.map .ok := by
  obtain ⟨a, past, rest, hfollowing⟩ := h.following hfits hstage
  obtain ⟨delivering, hdelivering, hsound, halike, b, hb, hbacklog⟩ :=
    exists_delivered a.backlog.length h hpos hfits hstage fun b hb => by
      rw [Option.some.inj (hfollowing.attachment.symm.trans hb)]
  have hfits' := halike.fits hfits
  have hi : (t.run delivering).stage.number? = some i := by rw [halike.stage, hstage]; rfl
  -- everything that was delivered comes, and then it is received
  have hcome : Alike (t.run delivering)
      ((t.run delivering).arrive b.link.toGuest.unread.length) := by
    rw [Channel.arrive]
    split <;> exact ⟨rfl, rfl, rfl⟩
  have hall := halike.trans hcome
  obtain ⟨g, b', hg, hb', -⟩ := hsound.standing hfits' hi
  obtain rfl := Option.some.inj (hb.symm.trans hb')
  have harrived := attachment_arrive hi hg hb b.link.toGuest.unread.length
  rw [List.drop_length] at harrived
  obtain ⟨c, past', rest', hfollowing'⟩ :=
    (hsound.arrive hpos hfits' b.link.toGuest.unread.length).following (hall.fits hfits)
      (hall.stage.trans hstage)
  obtain rfl := Option.some.inj (harrived.symm.trans hfollowing'.attachment)
  obtain ⟨receiving, hreceiving, hresults⟩ := exists_received (rest'.length + 1) hfollowing'
    (hall.fits hfits) (Nat.lt_succ_self _) hbacklog rfl
  refine ⟨delivering ++ .arrive b.link.toGuest.unread.length :: receiving, ?_, ?_⟩
  · refine List.forall_mem_append.2 ⟨hdelivering, List.forall_mem_cons.2 ⟨?_, hreceiving⟩⟩
    exact .inr (.inl ⟨_, rfl⟩)
  · rw [run_append, ← hall.subscribed]
    exact hresults

/-- **What a subscriber receives.**  A publisher sends texts on topics, if it may, and declares other
topics, whatever these calls come to; a subscriber connects to it on topics that it has declared; and
the feed and the others do what they can, in whatever order.  If all frames are within the limits of
both and there is room for one more message whenever one is sent, then the results of receiving are
the texts that were sent on the subscriber's topics since it was taken in, in the order in which they
were sent and each of them once, up to where the subscriber has come.  They are all of these texts
when nothing is on the way, and this can always be brought about by delivering and receiving. -/
theorem received_exactly (p : Client.Publisher) (limit : Nat) (topics : List String)
    (ms : List Move) {i : Nat}
    (hfits : Fits p.config.messageSize.toNat ((new p limit topics).run ms))
    (hroom : Roomy (new p limit topics) ms)
    (hstage : ((new p limit topics).run ms).stage = .admitted i) :
    ((new p limit topics).run ms).results
        <+: ((new p limit topics).run ms).subscribed.map .ok ∧
      (Quiet ((new p limit topics).run ms) i →
        ((new p limit topics).run ms).results
          = ((new p limit topics).run ms).subscribed.map .ok) ∧
      ∃ more : List Move, (∀ m ∈ more, m.Delivers i) ∧
        ((new p limit topics).run (ms ++ more)).results
          = ((new p limit topics).run ms).subscribed.map .ok := by
  have hpos := Feed.capacity_new_pos p.config.messageSize.toNat p.config.publishCapacity.toNat
  have hsound := (sound_new p limit topics).run hpos hfits hroom
  obtain ⟨a, past, rest, hfollowing⟩ := hsound.following hfits hstage
  refine ⟨hfollowing.results_prefix, hfollowing.results_eq hfits, ?_⟩
  obtain ⟨more, hmore, hresults⟩ := hsound.exists_all hpos hfits hstage
  exact ⟨more, hmore, by rw [run_append, hresults]⟩

/-- A publisher on three topics, two of which begin alike; its feed keeps two messages. -/
def samplePublisher : Client.Publisher where
  config := { publishCapacity := 2 }
  bindHost := "h"
  name := "p"
  topics := ["t", "tt", "u"]
  stage := .registered ⟨0, "tcp://h:1"⟩

/-- A text is sent too early; then a subscriber connects, and some texts are sent: on its topic, on a
longer one, and on one that is no longer declared.  The last one is still on the way. -/
def sampleMoves : List Move :=
  [.publish "t" "early", .call ⟨some 0, "tcp://h:1", "p", ["t", "tt", "u"]⟩,
    .others (.serve (.accept 0)), .greet, .others .call, .others (.serve (.greet 0)), .arrive 3,
    .arrive 10, .enter, .publish "t" "one", .publish "tt" "none", .others (.serve (.deliver 0)),
    .others (.serve (.deliver 0)), .arrive 50, .receive, .declare ["t"] (.ok .done),
    .publish "u" "refused", .publish "t" "two", .others (.serve (.deliver 0)), .arrive 100,
    .receive, .publish "t" "three"]

theorem received_exactly_sampleMoves :
    ((new samplePublisher 100 ["t"]).run sampleMoves).results = [.ok ("t", "one"), .ok ("t", "two")] ∧
      ∃ more, ((new samplePublisher 100 ["t"]).run (sampleMoves ++ more)).results
        = [.ok ("t", "one"), .ok ("t", "two"), .ok ("t", "three")] := by
  have hfits : Fits samplePublisher.config.messageSize.toNat
      ((new samplePublisher 100 ["t"]).run sampleMoves) :=
    ⟨by decide +kernel, by decide +kernel, by decide +kernel⟩
  have hsubscribed : ((new samplePublisher 100 ["t"]).run sampleMoves).subscribed
      = [("t", "one"), ("t", "two"), ("t", "three")] := by decide +kernel
  have hlength : ((new samplePublisher 100 ["t"]).run sampleMoves).results.length = 2 := by
    decide +kernel
  obtain ⟨hpre, -, more, -, hresults⟩ := received_exactly samplePublisher 100 ["t"] sampleMoves
    (i := 0) hfits (by decide +kernel) (by decide +kernel)
  rw [hsubscribed] at hpre hresults
  refine ⟨?_, more, hresults⟩
  rw [List.prefix_iff_eq_take.1 hpre, hlength]
  rfl

end TopicDirectory.Channel
