import TopicDirectory.Proofs.Observer.Attending
import TopicDirectory.Proofs.Publisher.Moves
import TopicDirectory.Proofs.Subscriber.Standing

/-!
# What becomes of a subscriber

Every move keeps the feed standing with its subscriber as it should (`Sound.step`), as long as there
is room for one more message whenever one is sent.
-/

namespace TopicDirectory.Channel

open Audience (Tracks Sane)
open Client (Error Subscriber)
open Reception (Guest)

variable {limit capacity : Nat} {t : Channel} {i : Nat}

/-! ## The feed and the others -/

/-- Nobody else uses the connection of the subscriber. -/
theorem guests_others {m : Audience.Move} (howns : t.stage.owns m = false)
    (hi : t.stage.number? = some i) {g : Guest} (hg : t.audience.guests[i]? = some g) :
    (t.audience.step m).guests[i]? = some g := by
  have hne {j : Nat} (h : decide (t.stage.number? = some j) = false) : j ≠ i := by
    rintro rfl
    exact of_decide_eq_false h hi
  cases m with
  | call =>
    show (t.audience.guests ++ [({} : Guest)])[i]? = some g
    rw [List.getElem?_append_left (List.getElem?_eq_some_iff.1 hg).1, hg]
  | write j octets => exact (Audience.guests_act_ne (hne howns) _).trans hg
  | take j n => exact (Audience.guests_act_ne (hne howns) _).trans hg
  | stray j l => exact (Audience.guests_act_ne (hne howns) _).trans hg
  | send m => cases howns
  | serve act =>
    rcases Audience.serve_cases t.audience act with heq | ⟨feed, -, heq⟩
    · rw [Audience.step, heq, hg]
    · rw [Audience.step, heq, hg]

/-- Nobody else sends messages. -/
theorem since_others {m : Audience.Move} (hsend : ∀ further, m ≠ .send further) (r : Audience)
    (i : Nat) : Audience.since (r.step m).log i = Audience.since r.log i := by
  cases m with
  | call => rfl
  | write j octets => rw [Audience.step, Audience.log_act]
  | take j n => rw [Audience.step, Audience.log_act]
  | stray j l => rw [Audience.step, Audience.log_act]
  | send m => exact absurd rfl (hsend m)
  | serve act =>
    rcases Audience.serve_cases r act with heq | ⟨feed, -, heq⟩
    · rw [Audience.step, heq]
    · rw [Audience.step, heq]
      exact Audience.since_events r.log act i

/-- A move that sends no message makes nobody lose one. -/
theorem tracks_step {r : Audience} (hpos : 0 < capacity) (hsane : Sane limit capacity r)
    (h : Tracks limit capacity (fun _ => False) r i) {m : Audience.Move}
    (hsend : ∀ further, m ≠ .send further) :
    Tracks limit capacity (fun _ => False) (r.step m) i :=
  h.step hsane hpos m (fun _ => id) fun _ ⟨⟨further, heq⟩, _⟩ => hsend further heq

theorem Sound.others (h : Sound limit capacity t) (hpos : 0 < capacity) {m : Audience.Move}
    (howns : t.stage.owns m = false) :
    Sound limit capacity { t with audience := t.audience.step m } where
  sane := h.sane.step m
  idle := h.idle
  attends i hi := by
    have hsend (further : Message) : m ≠ .send further := by
      rintro rfl
      cases howns
    obtain ⟨htracks, hsince, ⟨g, hg, hsteady, hprogress⟩, hopened⟩ := h.attends i hi
    exact ⟨tracks_step hpos h.sane htracks hsend, (since_others hsend _ i).trans hsince,
      ⟨g, guests_others howns hi hg, hsteady, hprogress.congr rfl rfl rfl rfl List.prefix_rfl⟩,
      hopened⟩

/-! ## The publisher -/

theorem due_append (t : Channel) (sent : List (String × String)) :
    t.due <+: due { t with published := t.published ++ sent } := by
  rw [due, due, List.map_append, List.filter_append]
  exact List.prefix_append _ _

/-- There is a message more only for a subscriber that was taken in. -/
theorem takenIn_eq_true (hi : t.stage.number? = some i) :
    t.takenIn = true ↔ Audience.Event.accepted i ∈ t.audience.log := by
  rw [takenIn, hi]
  exact decide_eq_true_iff

/-- While there is room, a message that is sent pushes out no other one. -/
theorem not_overruns_of_hasRoom (h : t.hasRoom = true) (hsane : Sane limit capacity t.audience)
    (hi : t.stage.number? = some i) {m : Audience.Move} {k : Nat} :
    ¬ Audience.Overruns capacity t.audience m i k := by
  rintro ⟨-, hlength, a, ha, hbacklog⟩
  rw [hasRoom, hi, Option.bind_some, ha, hsane.capacity] at h
  have hlt : a.backlog.length < capacity := of_decide_eq_true h
  rw [hbacklog, List.length_drop, hlength] at hlt
  omega

theorem Sound.publish (h : Sound limit capacity t) (hpos : 0 < capacity)
    (hroom : t.hasRoom = true)
    (topic text : String) : Sound limit capacity (t.publish topic text) := by
  unfold Channel.publish
  split
  · exact h
  · rename_i m hm
    have hm' : m = Subscriber.messageOf (topic, text) := (Client.Publisher.message_eq_ok.1 hm).2
    have hsent : ∃ sent, (if t.takenIn = true then t.published ++ [(topic, text)]
        else t.published) = t.published ++ sent := by
      split
      · exact ⟨_, rfl⟩
      · exact ⟨[], (List.append_nil _).symm⟩
    refine ⟨h.sane.step (.send m), fun hidle => ?_, fun i hi => ?_⟩
    · obtain ⟨hinlet, hresults, hpublished⟩ := h.idle hidle
      refine ⟨hinlet, hresults, ?_⟩
      have hnot : t.takenIn = false := by
        rw [takenIn, hidle]
        rfl
      show (if t.takenIn = true then _ else _) = _
      rw [hnot, if_neg Bool.false_ne_true, hpublished]
    · obtain ⟨htracks, hsince, ⟨g, hg, hsteady, hprogress⟩, hopened⟩ := h.attends i hi
      refine ⟨?_, ?_, ⟨g, hg, hsteady, ?_⟩, hopened⟩
      · exact htracks.step h.sane hpos _ (fun _ => id)
          fun k hk => (not_overruns_of_hasRoom hroom h.sane hi hk).elim
      · show Audience.since (t.audience.log ++ [.sent m]) i = _
        by_cases hmem : .accepted i ∈ t.audience.log
        · rw [if_pos ((takenIn_eq_true (t := t) hi).2 hmem), Audience.since_sent hmem, hsince, hm',
            List.map_append]
          rfl
        · rw [if_neg (mt (takenIn_eq_true (t := t) hi).1 hmem), Audience.since_append_of_not_mem hmem,
            ← hsince, Audience.since_of_not_mem hmem]
          rfl
      · obtain ⟨sent, hsent⟩ := hsent
        rw [hsent]
        exact hprogress.congr rfl rfl rfl rfl (due_append t sent)

/-! ## The subscriber -/

/-- The subscriber calls, and nothing was sent for it before. -/
theorem Sound.call (h : Sound limit capacity t) (hpos : 0 < capacity) (record : Record) :
    Sound limit capacity (t.call record) := by
  unfold Channel.call
  split
  · rename_i hstage _
    split
    · obtain ⟨hinlet, hresults, hpublished⟩ := h.idle hstage
      refine ⟨h.sane.step .call, nofun, fun i hi => ?_⟩
      obtain rfl : t.audience.feed.attachments.length = i := Option.some.inj hi
      have hnone : t.audience.feed.attachments[t.audience.feed.attachments.length]? = none :=
        List.getElem?_eq_none (Nat.le_refl _)
      have hnot : .accepted t.audience.feed.attachments.length ∉ t.audience.log := by
        intro hmem
        obtain ⟨a, ha, -⟩ := (h.sane.known _).1 hmem
        rw [hnone] at ha
        cases ha
      have hnew : Tracks limit capacity (fun _ => False) t.audience
          t.audience.feed.attachments.length := by
        intro g a _ _ _ ha
        rw [hnone] at ha
        cases ha
      refine ⟨tracks_step hpos h.sane hnew nofun, ?_, ⟨{}, ?_, rfl, ?_⟩, ?_⟩
      · show Audience.since t.audience.log _ = t.published.map _
        rw [Audience.since_of_not_mem hnot, hpublished]
        rfl
      · show (t.audience.guests ++ [({} : Guest)])[t.audience.feed.attachments.length]? = some {}
        rw [← h.sane.length, List.getElem?_concat_length]
      · exact .called rfl rfl (by rw [hinlet]) hresults
      · show t.inlet.closed = false
        rw [hinlet]
    · exact h
  · exact h

/-- A subscriber that could not connect has nothing to do with the feed any more. -/
theorem Sound.failed (h : Sound limit capacity t) : Sound limit capacity { t with stage := .failed } :=
  ⟨h.sane, nofun, nofun⟩

/-- What the subscriber does with its connection. -/
theorem Sound.tracks_act (h : Sound limit capacity t) (hpos : 0 < capacity)
    (hi : t.stage.number? = some i) {m : Audience.Move} (hsend : ∀ further, m ≠ .send further) :
    Tracks limit capacity (fun _ => False) (t.audience.step m) i ∧
      Audience.since (t.audience.step m).log i = t.published.map Subscriber.messageOf :=
  ⟨tracks_step hpos h.sane (h.attends i hi).tracks hsend,
    (since_others hsend _ i).trans (h.attends i hi).since⟩

theorem Sound.greet (h : Sound limit capacity t) (hpos : 0 < capacity) (hfits : Fits limit t) :
    Sound limit capacity t.greet := by
  unfold Channel.greet
  split
  · rename_i i hstage
    split
    · have hi : t.stage.number? = some i := by rw [hstage]; rfl
      obtain ⟨g, a, hg, ha, hsteady, hprogress, -⟩ := h.standing hfits hi
      refine ⟨h.sane.step (.write i _), nofun, fun j hj => ?_⟩
      obtain rfl := Option.some.inj hj
      obtain ⟨htracks, hsince⟩ := h.tracks_act hpos hi (m := .write i (Frame.encode t.greeting)) nofun
      refine ⟨htracks, hsince, ⟨_, Audience.guests_act_self hg ha _, hsteady, ?_⟩,
        (h.attends i hi).opened⟩
      cases hprogress with
      | called _ hsent hgot hresults => exact .greeted rfl (by simp [Guest.send, hsent]; rfl) hgot hresults
      | greeted hgreeted => rw [hstage] at hgreeted; cases hgreeted
      | admitted _ hadmitted => rw [hstage] at hadmitted; cases hadmitted
    · exact h.failed
  · exact h

theorem Sound.enter (h : Sound limit capacity t) : Sound limit capacity t.enter := by
  unfold Channel.enter
  split
  · rename_i i hstage
    split
    · rename_i l hadmitted
      have hi : t.stage.number? = some i := by rw [hstage]; rfl
      obtain ⟨rest, hexpect, rfl⟩ := Subscription.admitted_eq_ok hadmitted
      obtain ⟨hunread, hclosed, -⟩ := Frame.read_eq_ok (Frame.read_of_expect hexpect)
      obtain ⟨htracks, hsince, ⟨g, hg, hsteady, hprogress⟩, hopened⟩ := h.attends i hi
      refine ⟨h.sane, nofun, fun j hj => ?_⟩
      obtain rfl := Option.some.inj hj
      refine ⟨htracks, hsince, ⟨g, hg, hsteady, ?_⟩, hclosed.trans hopened⟩
      cases hprogress with
      | called hcalled => rw [hstage] at hcalled; cases hcalled
      | greeted _ hsent hgot hresults =>
        exact .admitted [] rfl hsent List.nil_prefix (hgot.trans hunread) hresults
      | admitted _ hadmitted => rw [hstage] at hadmitted; cases hadmitted
    · exact h.failed
  · exact h

/-- What comes to the subscriber is no longer on its way. -/
theorem attachment_arrive (hi : t.stage.number? = some i) {g : Guest} {a : Feed.Attachment}
    (hg : t.audience.guests[i]? = some g) (ha : t.audience.feed.attachments[i]? = some a) (n : Nat) :
    (t.arrive n).audience.feed.attachments[i]?
      = some { a with link.toGuest.unread := a.link.toGuest.unread.drop n } := by
  have hlink : t.link? = some a.link := by rw [link?, hi, Option.bind_some, ha, Option.map_some]
  rw [Channel.arrive, hi, hlink]
  show (t.audience.act i (Guest.take n)).feed.attachments[i]? = _
  rw [Audience.act_eq hg ha]
  exact Feed.getElem?_set_self ha _

theorem Sound.arrive (h : Sound limit capacity t) (hpos : 0 < capacity) (hfits : Fits limit t)
    (n : Nat) : Sound limit capacity (t.arrive n) := by
  unfold Channel.arrive
  split
  · rename_i i l hi hlink
    obtain ⟨g, a, hg, ha, hsteady, hprogress, -, htoGuest, -⟩ := h.standing hfits hi
    obtain rfl : a.link = l := by
      rw [link?, hi, Option.bind_some, ha] at hlink
      exact Option.some.inj hlink
    refine ⟨h.sane.step (.take i n), fun hidle => ?_, fun j hj => ?_⟩
    · have hidle' : t.stage = .idle := hidle
      rw [hidle'] at hi
      cases hi
    · obtain rfl := Option.some.inj (hi.symm.trans hj)
      obtain ⟨htracks, hsince⟩ := h.tracks_act hpos hi (m := .take i n) nofun
      refine ⟨htracks, hsince, ⟨_, Audience.guests_act_self hg ha _, hsteady, ?_⟩, ?_⟩
      · cases hprogress with
        | called hstage hsent hgot hresults =>
          exact .called hstage hsent (by simp [Guest.take, hgot]) hresults
        | greeted hstage hsent hgot hresults =>
          exact .greeted hstage hsent (by simp [Guest.take, hgot]) hresults
        | admitted past hstage hsent hpast hgot hresults =>
          exact .admitted past hstage hsent hpast (by simp [Guest.take, hgot]) hresults
      · show (a.link.toGuest.closed && _) = false
        rw [htoGuest, Bool.false_and]
  · exact h

theorem receive_of_admitted (hstage : t.stage = .admitted i) :
    t.receive = { t with
      inlet := (t.subscriber.receive t.inlet).2
      results := t.results ++ (t.subscriber.receive t.inlet).1.toList } := by
  rw [Channel.receive, hstage]

/-- The messages that the subscriber takes are the next ones; it has taken all that have come if it has
to wait for more. -/
theorem Following.receive {a : Feed.Attachment} {past rest : List Message}
    (h : Following t i a past rest) (hfits : Fits limit t) :
    ∃ more rest', rest = more ++ rest' ∧ Following t.receive i a (past ++ more) rest' ∧
      more.filterMap t.subscriber.accept? = (t.subscriber.receive t.inlet).1.toList ∧
      ((t.subscriber.receive t.inlet).1 = none → a.link.toGuest.unread = [] → rest' = []) := by
  have hpasses : ∀ m ∈ rest, ∀ b ∈ m.bodies, Frame.Passes limit t.subscriber.limit b := by
    intro m hm
    refine hfits.messages m ?_
    rw [h.due]
    exact List.mem_append_left _ (List.mem_append_right _ hm)
  obtain ⟨⟨more, rest', rfl, htaken, hunread, hend⟩, hopened⟩ :=
    Subscriber.receive_messages h.opened h.stream hpasses
  obtain ⟨g, hg, hsteady, hsent, hgot⟩ := h.guest
  have hinlet : t.inlet.unread
      = more.flatMap Message.octets ++ (t.subscriber.receive t.inlet).2.unread := by
    have hstream := h.stream
    rw [List.flatMap_append, ← hunread, ← List.append_assoc] at hstream
    exact List.append_cancel_right hstream
  refine ⟨more, rest', rfl, ?_, htaken, hend⟩
  rw [receive_of_admitted h.stage]
  refine ⟨h.stage, h.attachment, ⟨g, hg, hsteady, hsent, ?_⟩, h.phase, ?_, hunread, hopened,
    h.toGuest, ?_⟩
  · rw [hgot, hinlet, List.flatMap_append, List.append_assoc]
  · show t.due = _
    rw [h.due, List.append_assoc past more]
  · rw [h.results, ← htaken, List.filterMap_append]

/-- So the subscriber stands with the feed if it has taken the first of the messages. -/
theorem Following.attends {a : Feed.Attachment} {past rest : List Message}
    (h : Following t i a past rest)
    (htracks : Tracks limit capacity (fun _ => False) t.audience i)
    (hsince : Audience.since t.audience.log i = t.published.map Subscriber.messageOf) :
    Attends limit capacity t i := by
  obtain ⟨g, hg, hsteady, hsent, hgot⟩ := h.guest
  refine ⟨htracks, hsince, ⟨g, hg, hsteady, .admitted past h.stage hsent ?_ hgot h.results⟩, h.opened⟩
  rw [h.due, List.append_assoc]
  exact List.prefix_append _ _

theorem Sound.receive (h : Sound limit capacity t) (hfits : Fits limit t) :
    Sound limit capacity t.receive := by
  cases hstage : t.stage with
  | admitted i =>
    obtain ⟨a, past, rest, hfollowing⟩ := h.following hfits hstage
    obtain ⟨more, rest', -, hfollowing', -⟩ := hfollowing.receive hfits
    have hattends := h.attends i (by rw [hstage]; rfl)
    rw [receive_of_admitted hstage] at hfollowing' ⊢
    refine ⟨h.sane, fun hidle => ?_, fun j hj => ?_⟩
    · have hidle' : t.stage = .idle := hidle
      rw [hstage] at hidle'
      cases hidle'
    · have hj' : t.stage.number? = some j := hj
      rw [hstage] at hj'
      obtain rfl := Option.some.inj hj'
      exact hfollowing'.attends hattends.tracks hattends.since
  | _ =>
    rw [Channel.receive, hstage]
    exact h

/-! ## Runs -/

theorem Sound.step (h : Sound limit capacity t) (hpos : 0 < capacity) (hfits : Fits limit t)
    (m : Move) (hroom : m.publishes = true → t.hasRoom = true) :
    Sound limit capacity (t.step m) := by
  cases m with
  | others m =>
    rw [Channel.step]
    split
    · exact h
    · rename_i howns
      exact h.others hpos (eq_false_of_ne_true howns)
  | publish topic text => exact h.publish hpos (hroom rfl) topic text
  | declare topics outcome =>
    refine ⟨h.sane, h.idle, fun i hi => ?_⟩
    obtain ⟨htracks, hsince, ⟨g, hg, hsteady, hprogress⟩, hopened⟩ := h.attends i hi
    exact ⟨htracks, hsince, ⟨g, hg, hsteady, hprogress.congr rfl rfl rfl rfl List.prefix_rfl⟩,
      hopened⟩
  | call record => exact h.call hpos record
  | greet => exact h.greet hpos hfits
  | enter => exact h.enter
  | arrive n => exact h.arrive hpos hfits n
  | receive => exact h.receive hfits

/-- A move changes neither the limit nor the topics of the subscriber, and what was sent stays. -/
theorem step_keeps (t : Channel) (m : Move) :
    (t.step m).subscriber.limit = t.subscriber.limit ∧
      (t.step m).subscriber.topics = t.subscriber.topics ∧ t.published <+: (t.step m).published := by
  cases m with
  | others m =>
    rw [step]
    split <;> exact ⟨rfl, rfl, List.prefix_rfl⟩
  | publish topic text =>
    rw [step, Channel.publish]
    split
    · exact ⟨rfl, rfl, List.prefix_rfl⟩
    · refine ⟨rfl, rfl, ?_⟩
      dsimp only
      split
      · exact List.prefix_append _ _
      · exact List.prefix_rfl
  | declare topics outcome => exact ⟨rfl, rfl, List.prefix_rfl⟩
  | call record =>
    rw [step, Channel.call]
    split
    · split <;> exact ⟨rfl, rfl, List.prefix_rfl⟩
    · exact ⟨rfl, rfl, List.prefix_rfl⟩
  | greet =>
    rw [step, Channel.greet]
    split
    · split <;> exact ⟨rfl, rfl, List.prefix_rfl⟩
    · exact ⟨rfl, rfl, List.prefix_rfl⟩
  | enter =>
    rw [step, Channel.enter]
    split
    · split <;> exact ⟨rfl, rfl, List.prefix_rfl⟩
    · exact ⟨rfl, rfl, List.prefix_rfl⟩
  | arrive n =>
    rw [step, Channel.arrive]
    split <;> exact ⟨rfl, rfl, List.prefix_rfl⟩
  | receive =>
    rw [step, Channel.receive]
    split <;> exact ⟨rfl, rfl, List.prefix_rfl⟩

theorem Fits.of_step {m : Move} (h : Fits limit (t.step m)) : Fits limit t := by
  obtain ⟨hlimit, htopics, ⟨sent, hsent⟩⟩ := step_keeps t m
  obtain ⟨hgreeting, hadmission, hmessages⟩ := h
  rw [hlimit] at hgreeting hadmission hmessages
  refine ⟨?_, hadmission, fun message hmessage => hmessages message ?_⟩
  · rw [Channel.greeting, ← htopics]
    exact hgreeting
  · rw [due, htopics, ← hsent, List.map_append, List.filter_append]
    exact List.mem_append_left _ hmessage

theorem Fits.of_run (ms : List Move) (h : Fits limit (t.run ms)) : Fits limit t := by
  induction ms generalizing t with
  | nil => exact h
  | cons m ms ih => exact Fits.of_step (ih h)

/-- Whether there is room whenever a text is sent in the course of some moves. -/
def Roomy (t : Channel) (ms : List Move) : Prop :=
  ∀ n < ms.length, ms[n]?.any Move.publishes = true → (t.run (ms.take n)).hasRoom = true

instance (t : Channel) (ms : List Move) : Decidable (Roomy t ms) :=
  inferInstanceAs (Decidable (∀ n < ms.length, _ → _))

theorem Sound.run {ms : List Move} (h : Sound limit capacity t) (hpos : 0 < capacity)
    (hfits : Fits limit (t.run ms)) (hroom : Roomy t ms) : Sound limit capacity (t.run ms) := by
  induction ms generalizing t with
  | nil => exact h
  | cons m ms ih =>
    refine ih (h.step hpos (Fits.of_run (m :: ms) hfits) m ?_) hfits ?_
    · exact hroom 0 (Nat.zero_lt_succ _)
    · intro n hn
      exact hroom (n + 1) (Nat.succ_lt_succ hn)

theorem sound_new (p : Client.Publisher) (limit : Nat) (topics : List String) :
    Sound p.config.messageSize.toNat p.config.publishCapacity.toNat.nextPowerOfTwo
      (new p limit topics) where
  sane := Audience.sane_new _ _
  idle _ := ⟨rfl, rfl, rfl⟩
  attends _ h := by cases h

end TopicDirectory.Channel
