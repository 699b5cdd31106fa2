import Mathlib.Data.List.Sort
import TopicDirectory.Proofs.Subscriber.Channel

/-!
# How a feed stands with a subscriber

At every moment the feed has written the admission and then the messages that begin with one of the
subscriber's topics, as far as it has come to them, and the subscriber has taken the first of these
(`Channel.Sound`).  As long as no frame is over a limit and nothing is lost, everything else that the
publisher has sent is still on the way (`Channel.Following`).
-/

namespace TopicDirectory

namespace Audience

variable {stems : List String} {since : List Message} {n : Nat} {picks : List Nat}

/-- The messages at the positions of those that satisfy a condition. -/
theorem filterMap_range (p : Message → Bool) (since : List Message) (n : Nat) :
    picked since ((List.range n).filter fun k => since[k]?.any p) = (since.take n).filter p := by
  induction n with
  | zero => rfl
  | succ n ih =>
    rw [List.range_succ, List.filter_append, picked, List.filterMap_append, ← picked, ih,
      List.take_add_one, List.filter_append]
    congr 1
    cases hm : since[n]? with
    | none => simp [hm]
    | some m => cases hp : p m <;> simp [hm, hp]

/-- Where nothing is lost, all messages that begin with one of the stems are picked. -/
theorem Picks.picked_eq (h : Picks stems since (fun _ => False) n picks) :
    picked since picks = (since.take n).filter fun m => Feed.matchesAny stems m.label := by
  rw [← filterMap_range]
  congr 1
  refine List.Pairwise.eq_of_mem_iff h.ascending
    (List.Pairwise.filter _ List.pairwise_lt_range) fun k => ?_
  rw [List.mem_filter, List.mem_range]
  constructor
  · intro hk
    obtain ⟨m, hm, hlabel⟩ := h.matching k hk
    exact ⟨h.reached k hk, by rw [hm]; exact hlabel⟩
  · rintro ⟨hk, hany⟩
    obtain ⟨m, hm, hlabel⟩ := (Option.any_eq_true _ _).1 hany
    exact Decidable.byContradiction fun hpick => h.missing k m hk hm hlabel hpick

variable {r : Audience} {i j : Nat}

theorem log_act (r : Audience) (j : Nat) (f : Reception.Guest → Link → Reception.Guest × Link) :
    (r.act j f).log = r.log := by
  rw [act]
  split <;> rfl

theorem guests_act_ne (h : j ≠ i) (f : Reception.Guest → Link → Reception.Guest × Link) :
    (r.act j f).guests[i]? = r.guests[i]? := by
  rw [act]
  split
  · exact List.getElem?_set_ne h
  · rfl

theorem guests_act_self {g : Reception.Guest} {a : Feed.Attachment} (hg : r.guests[i]? = some g)
    (ha : r.feed.attachments[i]? = some a)
    (f : Reception.Guest → Link → Reception.Guest × Link) :
    (r.act i f).guests[i]? = some (f g a.link).1 := by
  rw [act_eq hg ha]
  exact List.getElem?_set_self (List.getElem?_eq_some_iff.1 hg).1

end Audience

namespace Channel

open Audience (Account Tracks Sane)
open Client (Error Subscriber)
open Reception (Guest)

variable {limit capacity : Nat} {t : Channel} {i : Nat}

/-! ## The state -/

/-- The greeting of the subscriber. -/
def greeting (t : Channel) : List UInt8 := Subscription.greeting t.subscriber.topics

/-- The messages that the feed writes for the subscriber, sooner or later. -/
def due (t : Channel) : List Message :=
  (t.published.map Subscriber.messageOf).filter fun m =>
    Feed.matchesAny t.subscriber.topics m.label

/-- Whether the frames between the feed and the subscriber are within the limits of both. -/
structure Fits (limit : Nat) (t : Channel) : Prop where
  greeting : Frame.Passes t.subscriber.limit limit t.greeting
  admission : Frame.Passes limit t.subscriber.limit Feed.admission
  messages : ∀ m ∈ t.due, ∀ b ∈ m.bodies, Frame.Passes limit t.subscriber.limit b

/-- Whether one more message can be kept for the subscriber. -/
def hasRoom (t : Channel) : Bool :=
  (t.stage.number?.bind fun i => t.audience.feed.attachments[i]?).all fun a =>
    a.backlog.length < t.audience.feed.capacity

/-- What the subscriber has sent and what it has got. -/
inductive Progress (t : Channel) (g : Guest) : Prop
  | called {i : Nat} (hstage : t.stage = .called i) (hsent : g.sent = [])
    (hgot : g.got = t.inlet.unread) (hresults : t.results = [])
  | greeted {i : Nat} (hstage : t.stage = .greeted i) (hsent : g.sent = Frame.encode t.greeting)
    (hgot : g.got = t.inlet.unread) (hresults : t.results = [])
  | admitted {i : Nat} (past : List Message) (hstage : t.stage = .admitted i)
    (hsent : g.sent = Frame.encode t.greeting) (hpast : past <+: t.due)
    (hgot : g.got
      = Frame.encode Feed.admission ++ (past.flatMap Message.octets ++ t.inlet.unread))
    (hresults : t.results = past.filterMap t.subscriber.accept?)

/-- How the feed stands with the subscriber. -/
structure Attends (limit capacity : Nat) (t : Channel) (i : Nat) : Prop where
  tracks : Tracks limit capacity (fun _ => False) t.audience i
  since : Audience.since t.audience.log i = t.published.map Subscriber.messageOf
  guest : ∃ g, t.audience.guests[i]? = some g ∧ g.steady = true ∧ Progress t g
  opened : t.inlet.closed = false

/-- What holds of a publisher and a subscriber at every moment. -/
structure Sound (limit capacity : Nat) (t : Channel) : Prop where
  sane : Sane limit capacity t.audience
  idle : t.stage = .idle → t.inlet = {} ∧ t.results = [] ∧ t.published = []
  attends : ∀ i, t.stage.number? = some i → Attends limit capacity t i

theorem Progress.sent_prefix {g : Guest} (h : Progress t g) : g.sent <+: Frame.encode t.greeting := by
  cases h with
  | called _ hsent =>
    rw [hsent]
    exact List.nil_prefix
  | greeted _ hsent => exact hsent ▸ List.prefix_rfl
  | admitted _ _ hsent => exact hsent ▸ List.prefix_rfl

/-- Nothing changes for the subscriber while it is left alone. -/
theorem Progress.congr {t' : Channel} {g : Guest} (h : Progress t g)
    (hsubscriber : t'.subscriber = t.subscriber) (hstage : t'.stage = t.stage)
    (hinlet : t'.inlet = t.inlet) (hresults : t'.results = t.results) (hdue : t.due <+: t'.due) :
    Progress t' g := by
  have hgreeting : t'.greeting = t.greeting := by rw [greeting, greeting, hsubscriber]
  cases h with
  | called h hsent hgot hnone =>
    exact .called (hstage.trans h) hsent (by rw [hinlet, hgot]) (hresults.trans hnone)
  | greeted h hsent hgot hnone =>
    exact .greeted (hstage.trans h) (by rw [hgreeting, hsent]) (by rw [hinlet, hgot])
      (hresults.trans hnone)
  | admitted past h hsent hpast hgot htaken =>
    exact .admitted past (hstage.trans h) (by rw [hgreeting, hsent]) (hpast.trans hdue)
      (by rw [hinlet, hgot]) (by rw [hsubscriber, hresults, htaken])

/-- A message that is over no limit does not make the feed leave. -/
theorem Fits.not_gone (h : Fits limit t) {a : Feed.Attachment} {octets : List UInt8} {n : Nat}
    {picks : List Nat}
    (hwritten : Audience.Written limit t.greeting t.subscriber.topics
      (t.published.map Subscriber.messageOf) n picks a octets) : a.phase ≠ .gone := by
  intro hgone
  have hdue {m : Message} (hm : (t.published.map Subscriber.messageOf)[n]? = some m)
      (hlabel : Feed.matchesAny t.subscriber.topics m.label = true) : m ∈ t.due :=
    List.mem_filter.2 ⟨List.mem_of_getElem? hm, hlabel⟩
  cases hwritten with
  | waiting hphase => simp [hgone] at hphase
  | attached hphase => simp [hgone] at hphase
  | refused _ _ hover =>
    rcases hover with hover | hover
    · exact absurd h.greeting.2.1 (Nat.not_le.2 hover)
    · exact absurd h.admission.1 (Nat.not_le.2 hover)
  | unlabelled _ hm hlabel hover =>
    exact absurd (h.messages _ (hdue hm hlabel) _ (by simp [Message.bodies])).1
      (Nat.not_le.2 hover)
  | cut _ hm hlabel _ hover =>
    exact absurd (h.messages _ (hdue hm hlabel) _ (by simp [Message.bodies])).1
      (Nat.not_le.2 hover)

/-- The feed stands with the subscriber as it should. -/
theorem Sound.standing (h : Sound limit capacity t) (hfits : Fits limit t)
    (hi : t.stage.number? = some i) :
    ∃ g a, t.audience.guests[i]? = some g ∧ t.audience.feed.attachments[i]? = some a ∧
      g.steady = true ∧ Progress t g ∧ a.phase ≠ .gone ∧ a.link.toGuest.closed = false ∧
      ∃ n picks, Account limit capacity t.greeting t.subscriber.topics
        (t.published.map Subscriber.messageOf) (fun _ => False) a
        (g.got ++ a.link.toGuest.unread) n picks := by
  obtain ⟨htracks, hsince, ⟨g, hg, hsteady, hprogress⟩, -⟩ := h.attends i hi
  obtain ⟨hlt, -⟩ := List.getElem?_eq_some_iff.1 hg
  obtain ⟨a, ha⟩ : ∃ a, t.audience.feed.attachments[i]? = some a :=
    ⟨_, List.getElem?_eq_getElem (h.sane.length ▸ hlt)⟩
  obtain ⟨hwired, n, picks, haccount⟩ := htracks g a t.greeting t.subscriber.topics hg ha hsteady
    hprogress.sent_prefix hfits.greeting.2.2 (Feed.stems?_greeting _)
  rw [hsince] at haccount
  have hphase := hfits.not_gone haccount.written
  refine ⟨g, a, hg, ha, hsteady, hprogress, hphase, ?_, n, picks, haccount⟩
  cases hwired with
  | joining _ _ htoGuest => exact htoGuest
  | attached _ _ _ htoGuest => exact htoGuest
  | gone hgone => exact absurd hgone hphase

/-- What a subscriber that was admitted has taken, what is on the way to it, and what the feed keeps
for it. -/
structure Following (t : Channel) (i : Nat) (a : Feed.Attachment) (past rest : List Message) :
    Prop where
  stage : t.stage = .admitted i
  attachment : t.audience.feed.attachments[i]? = some a
  guest : ∃ g, t.audience.guests[i]? = some g ∧ g.steady = true ∧
    g.sent = Frame.encode t.greeting ∧
    g.got = Frame.encode Feed.admission ++ (past.flatMap Message.octets ++ t.inlet.unread)
  phase : a.phase = .attached t.subscriber.topics
  due : t.due = past ++ rest ++ a.backlog.filter fun m =>
    Feed.matchesAny t.subscriber.topics m.label
  stream : t.inlet.unread ++ a.link.toGuest.unread = rest.flatMap Message.octets
  opened : t.inlet.closed = false
  toGuest : a.link.toGuest.closed = false
  results : t.results = past.filterMap t.subscriber.accept?

theorem eq_nil_of_octets {ms : List Message} (h : ms.flatMap Message.octets = []) : ms = [] := by
  cases ms with
  | nil => rfl
  | cons m ms =>
    rw [List.flatMap_cons, List.append_eq_nil_iff] at h
    have hpos := m.octets_length_pos
    rw [h.1] at hpos
    cases hpos

/-- Of messages that come one after the other, those that were taken are the first ones. -/
theorem exists_rest {all past ms : List Message} {octets : List UInt8} (hpast : past <+: all)
    (hms : ms <+: all) (h : past.flatMap Message.octets ++ octets = ms.flatMap Message.octets) :
    ∃ rest, ms = past ++ rest ∧ octets = rest.flatMap Message.octets := by
  rcases List.prefix_or_prefix_of_prefix hpast hms with ⟨rest, rfl⟩ | ⟨extra, rfl⟩
  · rw [List.flatMap_append] at h
    exact ⟨rest, rfl, List.append_cancel_left h⟩
  · rw [List.flatMap_append, List.append_assoc] at h
    obtain ⟨hextra, rfl⟩ := List.append_eq_nil_iff.1 (List.append_right_eq_self.1 h)
    obtain rfl := eq_nil_of_octets hextra
    exact ⟨[], by simp, rfl⟩

theorem Sound.following (h : Sound limit capacity t) (hfits : Fits limit t)
    (hstage : t.stage = .admitted i) : ∃ a past rest, Following t i a past rest := by
  have hi : t.stage.number? = some i := by rw [hstage]; rfl
  obtain ⟨g, a, hg, ha, hsteady, hprogress, hphase, htoGuest, n, picks, haccount⟩ :=
    h.standing hfits hi
  have hopened := (h.attends i hi).opened
  cases hprogress with
  | called hcalled => rw [hstage] at hcalled; cases hcalled
  | greeted hgreeted => rw [hstage] at hgreeted; cases hgreeted
  | admitted past _ hsent hpast hgot hresults =>
    have hpicked := haccount.accounted.picked_eq
    have hwritten := haccount.written
    rw [hgot, List.append_assoc] at hwritten
    generalize hoctets : Frame.encode Feed.admission ++ (past.flatMap Message.octets ++
      t.inlet.unread ++ a.link.toGuest.unread) = octets at hwritten
    cases hwritten with
    | waiting => cases hoctets
    | refused hgone => exact absurd hgone hphase
    | unlabelled hgone => exact absurd hgone hphase
    | cut hgone => exact absurd hgone hphase
    | attached hattached hbacklog =>
      rw [Audience.broadcast, hpicked, List.append_assoc] at hoctets
      have hsplit : t.due = ((t.published.map Subscriber.messageOf).take n).filter
          (fun m => Feed.matchesAny t.subscriber.topics m.label) ++
          a.backlog.filter fun m => Feed.matchesAny t.subscriber.topics m.label := by
        rw [hbacklog, ← List.filter_append, List.take_append_drop]
        rfl
      obtain ⟨rest, hrest, hstream⟩ := exists_rest hpast ⟨_, hsplit.symm⟩
        (List.append_cancel_left hoctets)
      rw [hrest] at hsplit
      exact ⟨a, past, rest, hstage, ha, ⟨g, hg, hsteady, hsent, hgot⟩, hattached, hsplit, hstream,
        hopened, htoGuest, hresults⟩

end Channel

end TopicDirectory
