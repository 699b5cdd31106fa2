import TopicDirectory.Proofs.Directory.Airing
import TopicDirectory.Proofs.Observer.Maxima

/-!
# Observers of one directory

Whatever is requested of a directory and whoever is attached to its feed, a generation names one
content, whichever way a snapshot came (`emissions_generation`).  So observers that hold one
generation hold one directory, and lose nothing by passing over what is not newer than their copy.

Observers begin with an answer and hear broadcasts (`Observes`).  Whoever attaches to the feed, asks
for the snapshots and reads the octets that come is one of them (`Airing.Carries.observes`): what is
written for such a guest are frames of what was broadcast (`Audience.Written.frames`), and to nothing
else does a listener attend that reads them, whatever portions they come in (`Follows.portions`).
-/

namespace TopicDirectory

open Client (Audition Heard Listener attended broadcasts heeded)
open Directory (Emission)
open Reception (Guest)

namespace Directory

/-- The listeners of the observers that a directory can have: they begin with a copy that answered a
request, and of the snapshots that are broadcast they hear any, at any time and in any order. -/
inductive Observes (es : List Emission) : Listener → Prop
  | begins {s : Snapshot} (h : .answered s ∈ es) : Observes es { held := s }
  | hears {l : Listener} {heard : Heard} (hl : Observes es l)
    (h : ∀ s, heard = .snapshot s → .broadcast s ∈ es) : Observes es (l.hear heard).1

/-- Whether a message tells a snapshot that is broadcast. -/
def Tells (es : List Emission) (m : Message) : Prop :=
  ∃ x, .broadcast x ∈ es ∧ m = ⟨label, Wire.encodeSnapshot x⟩

end Directory

open Directory (Tells)

/-- Whether a listener is that of an observer: it began with a copy that answered a request, and has
read, in some portions, what its guest has taken after the admission; the guest has done nothing but
ask for snapshots and take what came. -/
def Airing.Listens (t : Airing) (l : Listener) : Prop :=
  ∃ (i : Nat) (g : Guest) (limit : Nat) (held : Snapshot) (portions : List (List UInt8)),
    t.guests[i]? = some g ∧ g.steady = true ∧
      g.sent = Frame.encode (Subscription.greeting [Directory.label]) ∧
      Frame.encode Feed.admission ++ portions.flatten <+: g.got ∧
      .answered held ∈ t.emitted ∧
      l = (portions.foldl (Audition.arrive limit) { listener := { held } }).listener

/-! ## What is written for a guest -/

namespace Audience

variable {es : List Emission} {since : List Message} {picks : List Nat}

/-- Of messages that tell what was broadcast those that are picked are the frames of snapshots. -/
theorem broadcast_eq (h : ∀ m ∈ since, Tells es m) (picks : List Nat) :
    ∃ xs : List Snapshot, (∀ x ∈ xs, .broadcast x ∈ es) ∧
      broadcast since picks
        = Frame.encode Feed.admission ++ (broadcasts xs).flatMap Frame.encode := by
  induction picks with
  | nil => exact ⟨[], nofun, rfl⟩
  | cons k picks ih =>
    obtain ⟨xs, hxs, heq⟩ := ih
    cases hm : since[k]? with
    | none =>
      refine ⟨xs, hxs, ?_⟩
      rw [← heq, broadcast, picked, List.filterMap_cons_none hm]
      rfl
    | some m =>
      obtain ⟨x, hx, rfl⟩ := h m (List.mem_of_getElem? hm)
      refine ⟨x :: xs, fun y hy => ?_, ?_⟩
      · rcases List.mem_cons.1 hy with rfl | hy
        · exact hx
        · exact hxs y hy
      · have hrest := List.append_cancel_left heq
        have hcons : broadcasts (x :: xs)
            = Message.bodies ⟨Directory.label, Wire.encodeSnapshot x⟩ ++ broadcasts xs := rfl
        rw [broadcast, picked, List.filterMap_cons_some hm, List.flatMap_cons, ← picked, hrest,
          hcons, List.flatMap_append]
        rfl

/-- What was written for a guest is the admission and the frames of what was broadcast, where the last
one may be a label without its payload. -/
theorem Written.frames {limit n : Nat} {greeting octets : List UInt8} {stems : List String}
    {a : Feed.Attachment} (h : Written limit greeting stems since n picks a octets)
    (hsince : ∀ m ∈ since, Tells es m) :
    octets = [] ∨ ∃ (xs : List Snapshot) (tail : List (List UInt8)),
      (∀ x ∈ xs, .broadcast x ∈ es) ∧ tail <+: [Utf8.encode Directory.label] ∧
        octets = Frame.encode Feed.admission ++ (broadcasts xs ++ tail).flatMap Frame.encode := by
  obtain ⟨xs, hxs, heq⟩ := broadcast_eq hsince picks
  cases h with
  | waiting => exact .inl rfl
  | refused => exact .inl rfl
  | attached => exact .inr ⟨xs, [], hxs, List.nil_prefix, by rw [List.append_nil, heq]⟩
  | unlabelled => exact .inr ⟨xs, [], hxs, List.nil_prefix, by rw [List.append_nil, heq]⟩
  | cut _ hm =>
    obtain ⟨x, -, rfl⟩ := hsince _ (List.mem_of_getElem? hm)
    refine .inr ⟨xs, [Utf8.encode Directory.label], hxs, List.prefix_refl _, ?_⟩
    rw [heq, List.flatMap_append, List.append_assoc, List.flatMap_singleton]

end Audience

/-! ## Listeners -/

namespace Directory

variable {es : List Emission} {l : Listener}

/-- What is held was emitted. -/
theorem Observes.held (h : Observes es l) : ∃ e ∈ es, e.snapshot = l.held := by
  induction h with
  | begins h => exact ⟨_, h, rfl⟩
  | @hears l heard hl h ih =>
    cases heard with
    | snapshot s =>
      rw [Listener.held_hear_snapshot, Listener.newer]
      split
      · exact ⟨_, h s rfl, rfl⟩
      · exact ih
    | unreadable fault => exact ih
    | foreign label => exact ih
    | lost fault => exact ih

/-- What is held after a broadcast was heard is as new as the broadcast and as the copy before. -/
theorem Observes.leadsTo_hear (hl : Observes es l)
    (h : es.Pairwise fun e e' => e.snapshot.LeadsTo e'.snapshot) {x : Snapshot}
    (hx : .broadcast x ∈ es) :
    x.LeadsTo (l.hear (.snapshot x)).1.held ∧ l.held.LeadsTo (l.hear (.snapshot x)).1.held := by
  obtain ⟨e, he, hheld⟩ := hl.held
  have htotal : x.LeadsTo l.held ∨ l.held.LeadsTo x := by
    rw [← hheld]
    exact leadsTo_total h hx he
  rw [Listener.held_hear_snapshot, Listener.newer]
  split
  · rename_i hnewer
    exact ⟨Snapshot.leadsTo_refl x, Snapshot.leadsTo_of_le htotal.symm (UInt64.le_of_lt hnewer)⟩
  · rename_i hpassed
    exact ⟨Snapshot.leadsTo_of_le htotal (UInt64.not_lt.1 hpassed), Snapshot.leadsTo_refl l.held⟩

/-- Whether a listener is one of an observer, and will attend to nothing but broadcasts in what it
has not read and what is still to come. -/
structure Follows (es : List Emission) (limit : Nat) (a : Audition) (more : List UInt8) : Prop where
  observes : Observes es a.listener
  opened : a.inlet.closed = false
  attends : a.listener.running = true → ∀ b ∈ attended limit (a.inlet.unread ++ more),
    ∃ x, .broadcast x ∈ es ∧ b = Wire.encodeSnapshot x

variable {limit : Nat} {a : Audition} {more : List UInt8}

/-- What a listener keeps when it takes one message, it keeps when it takes many. -/
theorem Follows.run (n : Nat) (h : Follows es limit a more) (handed : List Snapshot) :
    Follows es limit ⟨(Listener.run limit n a.listener a.inlet).1.1,
      (Listener.run limit n a.listener a.inlet).2, handed⟩ more := by
  induction n generalizing a handed with
  | zero => exact ⟨h.observes, h.opened, h.attends⟩
  | succ n ih =>
    obtain ⟨l, p, before⟩ := a
    cases hrunning : l.running with
    | false =>
      rw [Listener.run_of_stopped _ _ hrunning]
      exact ⟨h.observes, h.opened, h.attends⟩
    | true =>
      cases hnext : Heard.next limit p with
      | none =>
        rw [Listener.run_of_none hnext]
        exact ⟨h.observes, h.opened, h.attends⟩
      | some found =>
        obtain ⟨heard, q⟩ := found
        rw [Listener.run_of_some hrunning hnext]
        obtain ⟨hclosed, ⟨payload, rfl, -, hattended⟩ | ⟨hstop, -, -⟩⟩ := Heard.next_eq_some hnext
        · have hattends := h.attends hrunning
          rw [hattended] at hattends
          obtain ⟨x, hx, rfl⟩ := hattends payload List.mem_cons_self
          have hheard : ∀ s, Heard.ofPayload (Wire.encodeSnapshot x) = .snapshot s →
              .broadcast s ∈ es := by
            intro s hs
            rw [Heard.ofPayload_encodeSnapshot] at hs
            cases hs
            exact hx
          exact ih (a := ⟨(l.hear _).1, q, before⟩) ⟨h.observes.hears hheard,
            hclosed.trans h.opened, fun _ b hb => hattends b (List.mem_cons_of_mem _ hb)⟩ handed
        · -- the listener stops as it does when the connection is lost
          have hobserves : Observes es { l with running := false } :=
            @Observes.hears es l (.lost .closed) h.observes nofun
          rw [hstop l]
          exact ih (a := ⟨{ l with running := false }, q, before⟩)
            ⟨hobserves, hclosed.trans h.opened, nofun⟩ handed

theorem Follows.arrive {portion : List UInt8} (h : Follows es limit a (portion ++ more)) :
    Follows es limit (a.arrive limit portion) more := by
  have hcome : Follows es limit { a with inlet := a.inlet.write portion } more := by
    refine ⟨h.observes, ?_, fun hrunning => ?_⟩
    · rw [Pipe.closed_write]
      exact h.opened
    · rw [Pipe.unread_write, h.opened, if_neg Bool.false_ne_true, List.append_assoc]
      exact h.attends hrunning
  exact hcome.run _ _

theorem Follows.portions {portions : List (List UInt8)}
    (h : Follows es limit a (portions.flatten ++ more)) :
    Follows es limit (portions.foldl (Audition.arrive limit) a) more := by
  induction portions generalizing a with
  | nil => exact h
  | cons portion portions ih =>
    rw [List.flatten_cons, List.append_assoc] at h
    exact ih h.arrive

/-- Of octets that are the first ones of broadcasts nothing but broadcasts is attended to. -/
theorem observes_of_prefix {held : Snapshot} (hheld : .answered held ∈ es) {xs : List Snapshot}
    (hxs : ∀ x ∈ xs, .broadcast x ∈ es ∧ (Wire.encodeSnapshot x).length < UInt32.size)
    {tail : List (List UInt8)} (htail : tail <+: [Utf8.encode label])
    {portions : List (List UInt8)}
    (h : portions.flatten <+: (broadcasts xs ++ tail).flatMap Frame.encode) :
    Observes es (portions.foldl (Audition.arrive limit) { listener := { held } }).listener := by
  obtain ⟨more, hmore⟩ := h
  have h32 : ∀ b ∈ broadcasts xs ++ tail, b.length < UInt32.size := by
    have hlabel : (Utf8.encode label).length < UInt32.size := by decide
    intro b hb
    rcases List.mem_append.1 hb with hb | hb
    · obtain ⟨x, hx, hb⟩ := List.mem_flatMap.1 hb
      rcases List.mem_pair.1 hb with rfl | rfl
      · exact hlabel
      · exact (hxs x hx).2
    · rw [List.mem_singleton.1 (htail.subset hb)]
      exact hlabel
  have hfollows : Follows es limit { listener := { held } } (portions.flatten ++ more) := by
    refine ⟨.begins hheld, rfl, fun _ b hb => ?_⟩
    have hb : b ∈ attended limit (portions.flatten ++ more) := hb
    rw [hmore] at hb
    have hheeded := Client.heeded_of_prefix htail (Frame.frames_flatMap_prefix limit h32)
    obtain ⟨x, hx, rfl⟩ := List.mem_map.1 (hheeded.subset hb)
    exact ⟨x, (hxs x hx).1, rfl⟩
  exact hfollows.portions.observes

end Directory

namespace Airing

variable {c : Config.Server} {t : Airing}

/-- What is sent on the feed tells what is broadcast. -/
theorem tells_of_mem {log : List Audience.Event} {m : Message}
    (hlog : log.filterMap Audience.Event.message?
      = (t.emitted.filterMap Emission.broadcast?).map
          fun x => ⟨Directory.label, Wire.encodeSnapshot x⟩)
    (hm : m ∈ log.filterMap Audience.Event.message?) : Tells t.emitted m := by
  rw [hlog] at hm
  obtain ⟨x, hx, rfl⟩ := List.mem_map.1 hm
  obtain ⟨e, he, hbroadcast⟩ := List.mem_filterMap.1 hx
  cases e with
  | broadcast s =>
    cases hbroadcast
    exact ⟨_, he, rfl⟩
  | _ => cases hbroadcast

/-- What was written for a guest that has asked for the snapshots, and has done nothing else, are
frames of what was broadcast. -/
theorem Carries.octets (h : Carries c t) {i : Nat} {g : Guest} (hg : t.guests[i]? = some g)
    (hsteady : g.steady = true)
    (hsent : g.sent = Frame.encode (Subscription.greeting [Directory.label])) :
    ∃ octets, g.got <+: octets ∧
      (octets = [] ∨ ∃ (xs : List Snapshot) (tail : List (List UInt8)),
        (∀ x ∈ xs, .broadcast x ∈ t.emitted) ∧ tail <+: [Utf8.encode Directory.label] ∧
          octets = Frame.encode Feed.admission ++ (broadcasts xs ++ tail).flatMap Frame.encode) := by
  obtain ⟨ms, -, hguests, hlog⟩ := h
  have hsane := (Audience.sane_new c.messageSize.toNat c.broadcastCapacity.toNat).run ms
  have htracks := Audience.tracks_run c.messageSize.toNat c.broadcastCapacity.toNat [] ms i
    (Audience.tracks_new _ _ _ i)
  rw [List.nil_append] at htracks
  rw [← hguests] at hg
  obtain ⟨hlt, -⟩ := List.getElem?_eq_some_iff.1 hg
  obtain ⟨a, ha⟩ : ∃ a, ((Audience.new c.messageSize.toNat c.broadcastCapacity.toNat).run
      ms).feed.attachments[i]? = some a := ⟨_, List.getElem?_eq_getElem (hsane.length ▸ hlt)⟩
  obtain ⟨n, picks, haccount⟩ := (htracks g a _ _ hg ha hsteady (hsent ▸ List.prefix_refl _)
    (by decide +kernel) (Feed.stems?_greeting [Directory.label])).account
  exact ⟨g.got ++ a.link.toGuest.unread, List.prefix_append _ _,
    haccount.written.frames fun m hm => tells_of_mem hlog (Audience.mem_of_mem_since hm)⟩

/-- **Who reads what comes from the feed observes the directory.** -/
theorem Carries.observes (h : Carries c t)
    (h32 : ∀ x, .broadcast x ∈ t.emitted → (Wire.encodeSnapshot x).length < UInt32.size)
    {l : Listener} (hl : t.Listens l) : Directory.Observes t.emitted l := by
  obtain ⟨i, g, limit, held, portions, hg, hsteady, hsent, hgot, hheld, rfl⟩ := hl
  obtain ⟨octets, hoctets, hframes⟩ := h.octets hg hsteady hsent
  have hread := hgot.trans hoctets
  rcases hframes with rfl | ⟨xs, tail, hxs, htail, rfl⟩
  · exact absurd (List.append_eq_nil_iff.1 (List.prefix_nil.1 hread)).1 (by decide)
  · exact Directory.observes_of_prefix hheld (fun x hx => ⟨hxs x hx, h32 x (hxs x hx)⟩) htail
      ((List.prefix_append_right_inj _).1 hread)

end Airing

namespace Directory

/-- **A generation names one content.**  Of a directory that has just been started and makes fewer
than `2 ^ 64` changes, whatever frames it is sent and whatever the guests of its feed do:

* its snapshots leave in the order in which the registry had them, so that the generation never
  becomes smaller, and any two with one generation are equal;
* the broadcasts carry the generations from 1 on, one for each change; the next request puts on the
  feed, whatever it is and whoever is attached, one message for each broadcast and nothing else; what
  those who run the directory see was emitted;
* any two observers that hold one generation hold one directory, and to pass over a broadcast that
  is not newer than the copy loses nothing: what is held after a broadcast was heard is as new as
  the broadcast and as the copy before;
* who reads what comes from the feed is such an observer, unless a snapshot has `2 ^ 32` octets or
  more. -/
theorem emissions_generation (c : Config.Server) (ms : List Airing.Move)
    (h : Registry.changes {} ((Airing.new c).run ms).requests < UInt64.size) :
    let t := (Airing.new c).run ms
    (t.emitted.Pairwise fun e e' => e.snapshot.LeadsTo e'.snapshot) ∧
    (∀ e ∈ t.emitted, ∀ e' ∈ t.emitted, e.snapshot.generation = e'.snapshot.generation →
      e.snapshot = e'.snapshot) ∧
    ((t.emitted.filterMap Emission.broadcast?).map (·.generation.toNat)
      = List.range' 1 (Registry.changes {} t.requests)) ∧
    (∀ f request, (respond (t.state.withFeed f) request).2.broadcaster.feed
      = ((t.state.emits request).filterMap Emission.broadcast?).foldl
          (fun f x => (f.send ⟨"DIR", Wire.encodeSnapshot x⟩).2) f) ∧
    .published t.state.published ∈ t.emitted ∧
    (∀ l l', Observes t.emitted l → Observes t.emitted l' →
      l.held.generation = l'.held.generation → l.held = l'.held) ∧
    (∀ l x, Observes t.emitted l → .broadcast x ∈ t.emitted →
      x.LeadsTo (l.hear (.snapshot x)).1.held ∧ l.held.LeadsTo (l.hear (.snapshot x)).1.held) ∧
    ((∀ x, .broadcast x ∈ t.emitted → (Wire.encodeSnapshot x).length < UInt32.size) →
      ∀ l, t.Listens l → Observes t.emitted l) := by
  intro t
  have htraces := (Airing.traces_new c).run ms
  have hcarries := (Airing.carries_new c).run ms
  have hemitted : t.emitted = (Server.new c).state.emissions t.requests := htraces.emitted
  have hfew : Registry.changes {} t.requests < UInt64.size := h
  have hbound : (Server.new c).state.registry.generation.toNat
      + (Server.new c).state.registry.changes t.requests < UInt64.size := by
    have hstart : (Server.new c).state.registry.generation.toNat = 0 := rfl
    have hempty : (Server.new c).state.registry = {} := rfl
    rw [hstart, hempty]
    omega
  have hordered : t.emitted.Pairwise fun e e' => e.snapshot.LeadsTo e'.snapshot := by
    rw [hemitted]
    exact List.pairwise_cons.2
      ⟨fun e he => leadsTo_of_mem_course rfl hbound he, pairwise_course rfl hbound⟩
  refine ⟨hordered, fun e he e' he' => snapshot_eq_of_generation_eq hordered he he', ?_,
    fun f request => ?_, ?_, fun l l' hl hl' hsame => ?_,
    fun l x hl hx => hl.leadsTo_hear hordered hx, fun h32 l => hcarries.observes h32⟩
  · rw [hemitted]
    exact broadcasts_course hbound
  · rw [broadcasts_emits]
    exact feed_respond t.state f request
  · exact htraces.seen
  · obtain ⟨e, he, hheld⟩ := hl.held
    obtain ⟨e', he', hheld'⟩ := hl'.held
    rw [← hheld, ← hheld'] at hsame ⊢
    exact snapshot_eq_of_generation_eq hordered he he' hsame

/-- A guest asks for snapshots and is admitted; then three requests change something, one is refused,
one is not a command, and two ask for the snapshot.  The guest takes what was written for it before the
last change. -/
def sampleMoves : List Airing.Move :=
  let register := (Wire.Command.register ⟨none, "tcp://h:1", "p", ["t"]⟩).encode
  [.attend .call, .attend (.serve (.accept 0)),
    .attend (.write 0 (Frame.encode (Subscription.greeting [label]))), .attend (.serve (.greet 0)),
    .request register, .request Wire.Command.snapshot.encode, .request register, .request [0xff],
    .request (Wire.Command.setTopics 0 ["u"]).encode, .attend (.serve (.deliver 0)),
    .attend (.serve (.deliver 0)), .attend (.take 0 1000),
    .request (Wire.Command.deregister 0).encode, .request Wire.Command.snapshot.encode]

theorem emissions_generation_sampleMoves :
    let t := (Airing.new {}).run sampleMoves
    Registry.changes {} t.requests = 3 ∧
      (t.emitted.map fun e => e.snapshot.generation) = [0, 1, 1, 1, 1, 1, 1, 2, 2, 3, 3, 3, 3] ∧
      ((t.emitted.filterMap Emission.broadcast?).map (·.generation.toNat)) = [1, 2, 3] ∧
      ∃ l, t.Listens l ∧ l.held.generation = 2 ∧ Observes t.emitted l := by
  intro t
  -- the guest begins with the copy of the first change and reads in two portions
  let octets := (t.guests.flatMap Guest.got).drop (Frame.encode Feed.admission).length
  let portions := [octets.take 9, octets.drop 9]
  let held : Snapshot := ⟨1, .ofList [(0, ⟨some 0, "tcp://h:1", "p", ["t"]⟩)]⟩
  let l := (portions.foldl (Audition.arrive 1000) { listener := { held } }).listener
  have hrun : Registry.changes {} t.requests = 3 ∧
      (t.emitted.map fun e => e.snapshot.generation) = [0, 1, 1, 1, 1, 1, 1, 2, 2, 3, 3, 3, 3] ∧
      (∀ e ∈ t.emitted, (Wire.encodeSnapshot e.snapshot).length < UInt32.size) ∧
      (t.guests[0]?.any fun g => decide (g.steady = true ∧
        g.sent = Frame.encode (Subscription.greeting [label]) ∧
        Frame.encode Feed.admission ++ portions.flatten <+: g.got)) = true ∧
      .answered held ∈ t.emitted ∧ l.held.generation = 2 := by
    decide +kernel
  obtain ⟨hchanges, hgenerations, hshort, hguest, hheld, hnewest⟩ := hrun
  have hfew : Registry.changes {} t.requests < UInt64.size := by
    rw [hchanges]
    decide
  obtain ⟨-, -, hbroadcasts, -, -, -, -, hlistens⟩ := emissions_generation {} sampleMoves hfew
  have hl : t.Listens l := by
    obtain ⟨g, hg, hall⟩ := (Option.any_eq_true _ _).1 hguest
    obtain ⟨hsteady, hsent, hgot⟩ := of_decide_eq_true hall
    exact ⟨0, g, 1000, held, portions, hg, hsteady, hsent, hgot, hheld, rfl⟩
  refine ⟨hchanges, hgenerations, ?_, l, hl, hnewest, ?_⟩
  · rw [hbroadcasts, hchanges]
    rfl
  · exact hlistens (fun x hx => hshort (.broadcast x) hx) l hl

end Directory

end TopicDirectory
