import TopicDirectory.Proofs.Feed.Standing

/-!
# What is written for the guests of a feed

Two things hold of a feed and its guests whatever is done next: the log tells which guests were taken
in (`Sane`), and the feed stands as it should with every guest that sends its greeting and nothing
more (`Tracks`).  So what is written for such a guest is the admission, and then the messages that
begin with one of its stems, in the order in which they were sent since the feed took the guest in
(`written_after`).  The feed comes to the messages one after the other; it misses one that has given
way to as many further ones as can be kept, and stops at one that is over its limit.
-/

namespace TopicDirectory.Audience

open Feed (Attachment)
open Reception (Guest)

variable {limit capacity : Nat} {lost lost' : Nat → Prop} {a : Attachment}

/-! ## All guests -/

/-- The guests that were taken in are those in the log. -/
structure Sane (limit capacity : Nat) (r : Audience) : Prop where
  limit : r.feed.limit = limit
  capacity : r.feed.capacity = capacity
  length : r.guests.length = r.feed.attachments.length
  known : ∀ i, .accepted i ∈ r.log ↔ ∃ a, r.feed.attachments[i]? = some a ∧ a.phase ≠ .calling

/-- Whether the feed stands with a guest as it should, if this one has sent no more than a greeting
so far. -/
def Tracks (limit capacity : Nat) (lost : Nat → Prop) (r : Audience) (i : Nat) : Prop :=
  ∀ g a greeting stems, r.guests[i]? = some g → r.feed.attachments[i]? = some a →
    g.steady = true → g.sent <+: Frame.encode greeting → greeting.length < UInt32.size →
    Feed.stems? greeting = some stems →
    Standing limit capacity greeting stems (since r.log i) lost a g

theorem sane_new (limit capacity : Nat) :
    Sane limit capacity.nextPowerOfTwo (new limit capacity) where
  limit := rfl
  capacity := rfl
  length := rfl
  known _ := ⟨nofun, fun ⟨_, ha, _⟩ => nomatch ha⟩

theorem tracks_new (limit capacity : Nat) (lost : Nat → Prop) (i : Nat) :
    Tracks limit capacity.nextPowerOfTwo lost (new limit capacity) i := nofun

variable {r : Audience} {i j : Nat}

theorem Tracks.lost_mono (h : Tracks limit capacity lost r i) (hlost : ∀ k, lost k → lost' k) :
    Tracks limit capacity lost' r i :=
  fun g a greeting stems hg ha hsteady hsent h32 hstems =>
    (h g a greeting stems hg ha hsteady hsent h32 hstems).lost_mono hlost

/-! ### Steps of the feed -/

/-- A step for one guest, in which the log says whether the guest was taken in. -/
theorem Sane.set (h : Sane limit capacity r) {a b : Attachment}
    (ha : r.feed.attachments[j]? = some a) (hb : b.phase ≠ .calling) {es : List Event}
    (hes : es = [] ∧ a.phase ≠ .calling ∨ es = [.accepted j]) :
    Sane limit capacity { r with feed := r.feed.set j b, log := r.log ++ es } where
  limit := h.limit
  capacity := h.capacity
  length := by
    rw [Feed.set, List.length_set]
    exact h.length
  known i := by
    by_cases hij : j = i
    · subst hij
      constructor
      · intro _
        exact ⟨b, Feed.getElem?_set_self ha b, hb⟩
      · intro _
        rcases hes with ⟨rfl, hphase⟩ | rfl
        · exact List.mem_append_left _ ((h.known j).2 ⟨a, ha, hphase⟩)
        · exact List.mem_append_right _ List.mem_cons_self
    · have hmem : .accepted i ∈ r.log ++ es ↔ .accepted i ∈ r.log := by
        rcases hes with ⟨rfl, -⟩ | rfl
        · rw [List.append_nil]
        · simp [Ne.symm hij]
      rw [hmem, Feed.getElem?_set_ne _ hij]
      exact h.known i

/-- What the feed does for one guest is nothing for the others. -/
theorem Tracks.set (h : Tracks limit capacity lost r i) {a b : Attachment}
    (ha : r.feed.attachments[j]? = some a) {log : List Event}
    (hlog : since log i = since r.log i)
    (hown : ∀ g greeting stems, g.sent <+: Frame.encode greeting →
      greeting.length < UInt32.size → Feed.stems? greeting = some stems →
      Standing limit capacity greeting stems (since r.log i) lost a g →
      Standing limit capacity greeting stems (since r.log i) lost b g) :
    Tracks limit capacity lost { r with feed := r.feed.set j b, log } i := by
  intro g a' greeting stems hg ha' hsteady hsent h32 hstems
  show Standing limit capacity greeting stems (since log i) lost a' g
  rw [hlog]
  by_cases hij : j = i
  · subst hij
    obtain rfl := Option.some.inj ((Feed.getElem?_set_self ha b).symm.trans ha')
    exact hown g greeting stems hsent h32 hstems
      (h g a greeting stems hg ha hsteady hsent h32 hstems)
  · exact h g a' greeting stems hg ((Feed.getElem?_set_ne _ hij b).symm.trans ha') hsteady hsent
      h32 hstems

/-- What can become of an audience in a step of its feed. -/
theorem serve_cases (r : Audience) (act : Feed.Action) :
    r.serve act = r ∨
      ∃ feed, r.feed.step? act = some feed ∧
        r.serve act = { r with feed, log := r.log ++ events act } := by
  rw [serve]
  cases r.feed.step? act with
  | none => exact .inl rfl
  | some feed => exact .inr ⟨feed, rfl, rfl⟩

theorem Sane.serve (h : Sane limit capacity r) (act : Feed.Action) :
    Sane limit capacity (r.serve act) := by
  rcases serve_cases r act with heq | ⟨feed, hstep, heq⟩
  · rw [heq]
    exact h
  rw [heq]
  cases act with
  | accept j =>
    obtain ⟨a, ha, -, rfl⟩ := Feed.accept?_eq_some hstep
    refine h.set ha ?_ (.inr rfl)
    nofun
  | greet j =>
    obtain ⟨a, result, rest, ha, hphase, -, ⟨_, _, -, -, rfl⟩ | ⟨-, rfl⟩⟩ :=
      Feed.greet?_eq_some hstep
    · refine h.set ha ?_ (.inl ⟨rfl, by simp [hphase]⟩)
      nofun
    · refine h.set ha ?_ (.inl ⟨rfl, by simp [hphase]⟩)
      nofun
  | hear j =>
    obtain ⟨a, stems, result, rest, ha, hphase, -, ⟨-, rfl⟩ | ⟨-, rfl⟩⟩ := Feed.hear?_eq_some hstep
    · refine h.set ha ?_ (.inl ⟨rfl, by simp [hphase]⟩)
      simp [hphase]
    · refine h.set ha ?_ (.inl ⟨rfl, by simp [hphase]⟩)
      nofun
  | deliver j =>
    obtain ⟨a, stems, m, ms, ha, hphase, -, hcases⟩ := Feed.deliver?_eq_some hstep
    have hne : a.phase ≠ .calling := by simp [hphase]
    rcases hcases with ⟨-, rfl⟩ | ⟨-, -, rfl⟩ | ⟨-, -, rfl⟩
    · refine h.set ha ?_ (.inl ⟨rfl, hne⟩)
      exact hne
    · refine h.set ha ?_ (.inl ⟨rfl, hne⟩)
      nofun
    · refine h.set ha ?_ (.inl ⟨rfl, hne⟩)
      split
      · exact hne
      · nofun

theorem Tracks.serve (hsane : Sane limit capacity r) (h : Tracks limit capacity lost r i)
    (act : Feed.Action) : Tracks limit capacity lost (r.serve act) i := by
  rcases serve_cases r act with heq | ⟨feed, hstep, heq⟩
  · rw [heq]
    exact h
  rw [heq]
  have hlog := since_events r.log act i
  cases act with
  | accept j =>
    obtain ⟨a, ha, hphase, rfl⟩ := Feed.accept?_eq_some hstep
    exact h.set ha hlog fun g greeting stems _ _ _ hs => hs.accept hphase
  | greet j =>
    obtain ⟨a, result, rest, ha, hphase, hexpect, hcases⟩ := Feed.greet?_eq_some hstep
    rw [hsane.limit] at hexpect hcases
    rcases hcases with ⟨greeting, stems, rfl, hstems, rfl⟩ | ⟨hover, rfl⟩
    · refine h.set ha hlog fun g greeting' stems' hsent h32 hstems' hs => ?_
      obtain ⟨-, ⟨hgreeting, -, -⟩ | ⟨⟨fault, hfault⟩, -⟩⟩ := hs.expect hsent h32 hphase hexpect
      · obtain rfl := Except.ok.inj hgreeting
        obtain rfl := Option.some.inj (hstems.symm.trans hstems')
        exact hs.greet hsent h32 hphase hexpect
      · cases hfault
    · refine h.set ha hlog fun g greeting' stems' hsent h32 hstems' hs => ?_
      obtain ⟨-, ⟨rfl, -, -⟩ | ⟨-, hlarge⟩⟩ := hs.expect hsent h32 hphase hexpect
      · exact hs.refuse hphase (.inr (hover _ _ rfl hstems')) rest
      · exact hs.refuse hphase (.inl hlarge) rest
  | hear j =>
    obtain ⟨a, stems, result, rest, ha, hphase, hread, hcases⟩ := Feed.hear?_eq_some hstep
    rw [hsane.limit] at hread
    obtain ⟨b, rfl⟩ : ∃ b, feed = r.feed.set j b := by
      rcases hcases with ⟨-, heq⟩ | ⟨-, heq⟩
      · exact ⟨_, heq⟩
      · exact ⟨_, heq⟩
    -- nothing comes from a guest that has sent its greeting, so it is not this one that is heard
    refine h.set ha hlog fun g greeting' stems' _ _ _ hs => ?_
    exact absurd ((hs.read_eq_none hphase).2.1.symm.trans hread) nofun
  | deliver j =>
    obtain ⟨a, stems, m, ms, ha, hphase, hbacklog, hcases⟩ := Feed.deliver?_eq_some hstep
    rw [hsane.limit] at hcases
    rcases hcases with ⟨hlabel, rfl⟩ | ⟨-, hclosed, rfl⟩ | ⟨hlabel, hopen, rfl⟩
    · refine h.set ha hlog fun g greeting' stems' _ _ _ hs => ?_
      obtain ⟨rfl, -⟩ := hs.read_eq_none hphase
      exact hs.pass hphase hbacklog hlabel
    · refine h.set ha hlog fun g greeting' stems' _ _ _ hs => ?_
      exact absurd ((hs.read_eq_none hphase).2.2.symm.trans hclosed) nofun
    · refine h.set ha hlog fun g greeting' stems' _ _ _ hs => ?_
      obtain ⟨rfl, -⟩ := hs.read_eq_none hphase
      exact hs.deliver hphase hbacklog hlabel hopen

/-! ### The other moves -/

theorem act_eq {f : Guest → Link → Guest × Link} (hg : r.guests[i]? = some g)
    (ha : r.feed.attachments[i]? = some a) :
    r.act i f = { r with
      feed := r.feed.set i { a with link := (f g a.link).2 }
      guests := r.guests.set i (f g a.link).1 } := by
  simp only [act, hg, ha]

theorem act_of_none {f : Guest → Link → Guest × Link}
    (h : r.guests[i]? = none ∨ r.feed.attachments[i]? = none) : r.act i f = r := by
  rw [act]
  split
  · simp_all
  · rfl

theorem Sane.act (h : Sane limit capacity r) (j : Nat) (f : Guest → Link → Guest × Link) :
    Sane limit capacity (r.act j f) := by
  cases hg : r.guests[j]? with
  | none =>
    rw [act_of_none (.inl hg)]
    exact h
  | some g =>
    cases ha : r.feed.attachments[j]? with
    | none =>
      rw [act_of_none (.inr ha)]
      exact h
    | some a =>
      rw [act_eq hg ha]
      refine ⟨h.limit, h.capacity, ?_, fun i => ?_⟩
      · rw [List.length_set, Feed.set, List.length_set]
        exact h.length
      · refine (h.known i).trans ?_
        by_cases hij : j = i
        · subst hij
          rw [ha, Feed.getElem?_set_self ha]
          constructor
          · rintro ⟨a', ha', hphase⟩
            obtain rfl := Option.some.inj ha'
            exact ⟨_, rfl, hphase⟩
          · rintro ⟨a', ha', hphase⟩
            obtain rfl := Option.some.inj ha'
            exact ⟨_, rfl, hphase⟩
        · rw [Feed.getElem?_set_ne _ hij]

/-- What a guest does is a step for this one, and nothing for the others. -/
theorem Tracks.act {f : Guest → Link → Guest × Link} (h : Tracks limit capacity lost r i)
    (j : Nat)
    (hf : ∀ g a greeting stems, (f g a.link).1.steady = true →
      (f g a.link).1.sent <+: Frame.encode greeting → g.steady = true ∧
        g.sent <+: Frame.encode greeting ∧
        (Standing limit capacity greeting stems (since r.log i) lost a g →
          Standing limit capacity greeting stems (since r.log i) lost
            { a with link := (f g a.link).2 } (f g a.link).1)) :
    Tracks limit capacity lost (r.act j f) i := by
  cases hg : r.guests[j]? with
  | none =>
    rw [act_of_none (.inl hg)]
    exact h
  | some g =>
    cases ha : r.feed.attachments[j]? with
    | none =>
      rw [act_of_none (.inr ha)]
      exact h
    | some a =>
      rw [act_eq hg ha]
      intro g' a' greeting stems hg' ha' hsteady hsent h32 hstems
      by_cases hij : j = i
      · subst hij
        obtain ⟨hj, -⟩ := List.getElem?_eq_some_iff.1 hg
        obtain rfl := Option.some.inj ((Feed.getElem?_set_self ha _).symm.trans ha')
        obtain rfl := Option.some.inj ((List.getElem?_set_self hj).symm.trans hg')
        obtain ⟨hsteady', hsent', hnext⟩ := hf g a greeting stems hsteady hsent
        exact hnext (h g a greeting stems hg ha hsteady' hsent' h32 hstems)
      · exact h g' a' greeting stems ((List.getElem?_set_ne hij).symm.trans hg')
          ((Feed.getElem?_set_ne _ hij _).symm.trans ha') hsteady hsent h32 hstems

theorem Sane.call (h : Sane limit capacity r) : Sane limit capacity (r.step .call) where
  limit := h.limit
  capacity := h.capacity
  length := by
    show (r.guests ++ [_]).length = (r.feed.attachments ++ [_]).length
    rw [List.length_append, List.length_append, h.length]
    rfl
  known i := by
    refine (h.known i).trans ?_
    show _ ↔ ∃ a, (r.feed.attachments ++ [({} : Attachment)])[i]? = some a ∧ _
    constructor
    · rintro ⟨a, ha, hphase⟩
      exact ⟨a, getElem?_concat_eq_some.2 (.inl ha), hphase⟩
    · rintro ⟨a, ha, hphase⟩
      rcases getElem?_concat_eq_some.1 ha with ha | ⟨-, rfl⟩
      · exact ⟨a, ha, hphase⟩
      · exact absurd rfl hphase

theorem Tracks.call (hsane : Sane limit capacity r) (h : Tracks limit capacity lost r i) :
    Tracks limit capacity lost (r.step .call) i := by
  intro g a greeting stems hg ha hsteady hsent h32 hstems
  have hattachments : (r.feed.attachments ++ [({} : Attachment)])[i]? = some a := ha
  rcases getElem?_concat_eq_some.1 hattachments with ha' | ⟨hi, rfl⟩
  · obtain ⟨hlt, -⟩ := List.getElem?_eq_some_iff.1 ha'
    have hg' : r.guests[i]? = some g :=
      (List.getElem?_append_left (hsane.length ▸ hlt)).symm.trans hg
    exact h g a greeting stems hg' ha' hsteady hsent h32 hstems
  · have hguests : (r.guests ++ [({} : Guest)])[i]? = some {} := by
      rw [hi, ← hsane.length, List.getElem?_concat_length]
    obtain rfl := Option.some.inj (hguests.symm.trans hg)
    -- the guest was not there before, so it was not taken in
    have hnew : .accepted i ∉ r.log := by
      intro hmem
      obtain ⟨a', ha', -⟩ := (hsane.known i).1 hmem
      obtain ⟨hlt, -⟩ := List.getElem?_eq_some_iff.1 ha'
      omega
    show Standing limit capacity greeting stems (since r.log i) lost {} {}
    rw [since_of_not_mem hnew]
    exact .new limit capacity greeting stems lost

theorem Sane.send (h : Sane limit capacity r) (m : Message) :
    Sane limit capacity (r.step (.send m)) where
  limit := h.limit
  capacity := h.capacity
  length := by
    show r.guests.length = (r.feed.attachments.map _).length
    rw [List.length_map]
    exact h.length
  known i := by
    have hmem : .accepted i ∈ r.log ++ [.sent m] ↔ .accepted i ∈ r.log := by simp
    refine (hmem.trans (h.known i)).trans ?_
    show _ ↔ ∃ a, (r.feed.send m).2.attachments[i]? = some a ∧ _
    cases ha : r.feed.attachments[i]? with
    | none => simp [Feed.send, ha]
    | some a =>
      have hphase (b : List Message) :
          (if a.counts then { a with backlog := b } else a).phase = a.phase := by
        split <;> rfl
      rw [Feed.getElem?_send ha]
      simp only [Option.some.injEq, exists_eq_left', hphase]

theorem Tracks.send (hsane : Sane limit capacity r) (hpos : 0 < capacity)
    (h : Tracks limit capacity lost r i) (m : Message) (hlost : ∀ k, lost k → lost' k)
    (hover : ∀ k, Overruns capacity r (.send m) i k → lost' k) :
    Tracks limit capacity lost' (r.step (.send m)) i := by
  intro g a' greeting stems hg ha' hsteady hsent h32 hstems
  obtain ⟨hlt, -⟩ := List.getElem?_eq_some_iff.1 hg
  obtain ⟨a, ha⟩ : ∃ a, r.feed.attachments[i]? = some a :=
    ⟨_, List.getElem?_eq_getElem (hsane.length ▸ hlt)⟩
  obtain rfl := Option.some.inj ((Feed.getElem?_send ha m).symm.trans ha')
  rw [hsane.capacity]
  have hs := h g a greeting stems hg ha hsteady hsent h32 hstems
  show Standing limit capacity greeting stems (since (r.log ++ [.sent m]) i) lost' _ g
  by_cases hphase : a.phase = .calling
  · have hnew : .accepted i ∉ r.log := by
      intro hmem
      obtain ⟨b, hb, hne⟩ := (hsane.known i).1 hmem
      obtain rfl := Option.some.inj (ha.symm.trans hb)
      exact hne hphase
    have hcounts : a.counts = false := by simp [Attachment.counts, hphase]
    rw [hcounts, if_neg Bool.false_ne_true, since_append_of_not_mem hnew]
    rw [since_of_not_mem hnew] at hs
    exact hs.lost_mono hlost
  · rw [since_sent ((hsane.known i).2 ⟨a, ha, hphase⟩)]
    exact hs.send hpos hphase hlost
      (fun k hfull hbacklog => hover k ⟨⟨m, rfl⟩, hfull, a, ha, hbacklog⟩) m

/-! ### Runs -/

theorem Sane.step (h : Sane limit capacity r) (mv : Move) : Sane limit capacity (r.step mv) := by
  cases mv with
  | call => exact h.call
  | write j octets => exact h.act j _
  | take j n => exact h.act j _
  | stray j l => exact h.act j _
  | send m => exact h.send m
  | serve act => exact h.serve act

/-- Every move keeps the feed standing with a guest as it should; what the move makes the guest lose
counts as lost. -/
theorem Tracks.step (hsane : Sane limit capacity r) (hpos : 0 < capacity)
    (h : Tracks limit capacity lost r i) (mv : Move) (hlost : ∀ k, lost k → lost' k)
    (hover : ∀ k, Overruns capacity r mv i k → lost' k) :
    Tracks limit capacity lost' (r.step mv) i := by
  cases mv with
  | call => exact (h.call hsane).lost_mono hlost
  | write j octets =>
    refine Tracks.lost_mono (h.act j fun g a greeting stems hsteady hsent => ?_) hlost
    exact ⟨hsteady, (List.prefix_append _ _).trans hsent, fun hs => hs.write hsent⟩
  | take j n =>
    refine Tracks.lost_mono (h.act j fun g a greeting stems hsteady hsent => ?_) hlost
    exact ⟨hsteady, hsent, fun hs => hs.take n⟩
  | stray j l =>
    exact Tracks.lost_mono (h.act j fun g a greeting stems hsteady _ => nomatch hsteady) hlost
  | send m => exact h.send hsane hpos m hlost hover
  | serve act => exact (h.serve hsane act).lost_mono hlost

theorem run_concat (r : Audience) (ms : List Move) (mv : Move) :
    r.run (ms ++ [mv]) = (r.run ms).step mv := by
  rw [run, List.foldl_append]
  rfl

theorem Sane.run (h : Sane limit capacity r) (ms : List Move) : Sane limit capacity (r.run ms) := by
  induction ms generalizing r with
  | nil => exact h
  | cons mv ms ih => exact ih (h.step mv)

theorem Lost.append {ms : List Move} {k : Nat} (h : Lost limit capacity ms i k) (more : List Move) :
    Lost limit capacity (ms ++ more) i k := by
  obtain ⟨before, m, after, rfl, hover⟩ := h
  exact ⟨before, m, after ++ more, by simp, hover⟩

/-- However a run goes on, the feed stands with every guest as it should. -/
theorem tracks_run (limit capacity : Nat) (before after : List Move) (i : Nat)
    (h : Tracks limit capacity.nextPowerOfTwo (Lost limit capacity before i)
      ((new limit capacity).run before) i) :
    Tracks limit capacity.nextPowerOfTwo (Lost limit capacity (before ++ after) i)
      ((new limit capacity).run (before ++ after)) i := by
  induction after generalizing before with
  | nil =>
    rw [List.append_nil]
    exact h
  | cons mv after ih =>
    have hsane := (sane_new limit capacity).run before
    have hlost (k : Nat) (hk : Lost limit capacity before i k) :
        Lost limit capacity (before ++ [mv]) i k := hk.append [mv]
    have hnext := h.step hsane (Feed.capacity_new_pos limit capacity) mv hlost
      fun k hk => ⟨before, mv, [], rfl, hk⟩
    rw [← run_concat] at hnext
    have hrun := ih (before ++ [mv]) hnext
    rw [List.append_assoc] at hrun
    exact hrun

/-- **What a feed writes for a guest.**  Whatever its limit and capacity, and whatever the guests and
the feed do and whoever sends messages in whatever order: for a guest that has done nothing but send
a greeting, or a part of it, and take what has come, there is a position `n` among the messages that
were sent since the feed took the guest in, and there are messages picked from those before `n`, such
that

* the picked messages are in the order in which they were sent, no one is picked twice, and their
  labels begin with one of the stems;
* nothing was written before the guest was admitted, and then nothing but the admission and the two
  frames of each picked message in turn;
* a message before `n` that begins with one of the stems and was not picked was the oldest one that
  was kept for the guest when as many further messages had been sent as can be kept;
* the messages from `n` on are still kept for the guest, unless the feed has left it because of a
  frame over the limit: the greeting, its answer, or the label or payload of the message at `n`.  The
  label of a message whose payload is over the limit is written last. -/
theorem written_after (limit capacity : Nat) (ms : List Move) {i : Nat} {g : Guest} {a : Attachment}
    (hg : ((new limit capacity).run ms).guests[i]? = some g)
    (ha : ((new limit capacity).run ms).feed.attachments[i]? = some a) (hsteady : g.steady = true)
    {greeting : List UInt8} {stems : List String} (hsent : g.sent <+: Frame.encode greeting)
    (h32 : greeting.length < UInt32.size) (hstems : Feed.stems? greeting = some stems) :
    ∃ n picks,
      Picks stems (since ((new limit capacity).run ms).log i) (Lost limit capacity ms i) n picks ∧
      Written limit greeting stems (since ((new limit capacity).run ms).log i) n picks a
        (g.got ++ a.link.toGuest.unread) := by
  have htracks := tracks_run limit capacity [] ms i (tracks_new limit capacity _ i)
  obtain ⟨n, picks, haccount⟩ :=
    (htracks g a greeting stems hg ha hsteady hsent h32 hstems).account
  exact ⟨n, picks, haccount.accounted, haccount.written⟩

/-- A guest is taken in and writes its greeting in two pieces; before it is admitted more messages
are sent than can be kept for it, and in the end there is one whose payload is over the limit. -/
def crowdedMoves : List Move :=
  let octets := Frame.encode (Subscription.greeting ["t"])
  [.call, .call, .serve (.accept 0), .write 0 (octets.take 6), .send ⟨"t", [1]⟩, .send ⟨"x", [2]⟩,
    .stray 1 {}, .send ⟨"tt", [3]⟩, .write 0 (octets.drop 6), .serve (.greet 0), .take 0 3,
    .serve (.deliver 0), .serve (.deliver 0), .send ⟨"t", [1, 2, 3, 4, 5, 6, 7, 8, 9]⟩,
    .send ⟨"t", [4]⟩, .serve (.deliver 0)]

theorem written_after_crowdedMoves :
    ∃ (g : Guest) (a : Attachment), ((new 8 2).run crowdedMoves).guests[0]? = some g ∧
      ((new 8 2).run crowdedMoves).feed.attachments[0]? = some a ∧ g.steady = true ∧
      g.sent <+: Frame.encode (Subscription.greeting ["t"]) ∧
      g.got ++ a.link.toGuest.unread
        = Frame.encode Feed.admission ++ Message.octets ⟨"tt", [3]⟩ ++ Frame.encode [0x74] ∧
      ∃ n picks,
        Picks ["t"] (since ((new 8 2).run crowdedMoves).log 0) (Lost 8 2 crowdedMoves 0) n picks ∧
        Written 8 (Subscription.greeting ["t"]) ["t"]
          (since ((new 8 2).run crowdedMoves).log 0) n picks a
          (g.got ++ a.link.toGuest.unread) := by
  have hguest : ((new 8 2).run crowdedMoves).guests[0]?
      = some ⟨Frame.encode (Subscription.greeting ["t"]), [0, 0, 0], true⟩ := by
    decide +kernel
  have hattachment : (((new 8 2).run crowdedMoves).feed.attachments[0]?.map (·.link.toGuest.unread))
      = some ((Frame.encode Feed.admission ++ Message.octets ⟨"tt", [3]⟩
          ++ Frame.encode [0x74]).drop 3) := by
    decide +kernel
  obtain ⟨a, ha, hunread⟩ := Option.map_eq_some_iff.1 hattachment
  have hstems : Feed.stems? (Subscription.greeting ["t"]) = some ["t"] := Feed.stems?_greeting ["t"]
  refine ⟨_, a, hguest, ha, rfl, List.prefix_rfl, ?_,
    written_after 8 2 crowdedMoves hguest ha rfl List.prefix_rfl (by decide +kernel) hstems⟩
  rw [hunread]
  rfl

end TopicDirectory.Audience
