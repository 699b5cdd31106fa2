import TopicDirectory.Proofs.Feed.Steps
import TopicDirectory.Proofs.Observer.Listening
import TopicDirectory.Proofs.Service.History
import TopicDirectory.Proofs.Service.Serving

/-!
# What an attachment of the feed still has to come

The snapshots that were broadcast and not heard are in the stream of the attachment or kept for it
by the feed.  Unless a broadcast is due, the last of them is the current snapshot; and where there are
none, nothing was missed by a copy that was taken after the attachment was admitted (`Follows`).  The
directory, its clients and the feed keep it so.
-/

namespace TopicDirectory

open Client (broadcasts)
open Exchange (Host)

namespace Service

/-- The message in which a snapshot is broadcast. -/
def note (s : Snapshot) : Message := ⟨Directory.label, Wire.encodeSnapshot s⟩

/-- How far an observer has come with its attachment. -/
inductive Progress
  | called
  | greeted
  | admitted

/-- What is on the connection of an attachment, given the snapshots in its stream. -/
inductive Reach (a : Feed.Attachment) : Progress → List Snapshot → Prop
  | called (hphase : a.phase = .calling ∨ a.phase = .greeting)
    (htoHost : a.link.toHost.unread = []) (htoGuest : a.link.toGuest.unread = []) :
    Reach a .called []
  | greeted (hphase : a.phase = .calling ∨ a.phase = .greeting)
    (htoHost : Frame.Stream [Subscription.greeting [Directory.label]] a.link.toHost.unread)
    (htoGuest : a.link.toGuest.unread = []) : Reach a .greeted []
  | answered {stream : List Snapshot} (hphase : a.phase = .attached [Directory.label])
    (htoHost : a.link.toHost.unread = [])
    (htoGuest : Frame.Stream (Feed.admission :: broadcasts stream) a.link.toGuest.unread) :
    Reach a .greeted stream
  | admitted {stream : List Snapshot} (hphase : a.phase = .attached [Directory.label])
    (htoHost : a.link.toHost.unread = [])
    (htoGuest : Frame.Stream (broadcasts stream) a.link.toGuest.unread) : Reach a .admitted stream

/-- The snapshots that were broadcast and not heard, and a copy of the directory that is on its way
to the observer or in its hands: unless a broadcast is due, the last of the snapshots is the current
one, and where there are none the copy is. -/
structure Pends (s : Service) (pending : List Snapshot) (copy? : Option Snapshot) : Prop where
  had : ∀ x ∈ pending, Had s.log x
  copied : ∀ x, copy? = some x → Had s.log x
  last : s.due = false → ∀ x, pending.getLast? = some x → x = s.current
  upToDate : s.due = false → pending = [] → ∀ x, copy? = some x → x = s.current

/-- An attachment with the snapshots in its stream and those that are kept for it. -/
structure Carries (s : Service) (a : Feed.Attachment) (progress : Progress)
    (stream kept : List Snapshot) (copy? : Option Snapshot) : Prop where
  reach : Reach a progress stream
  opened : a.link.toHost.closed = false ∧ a.link.toGuest.closed = false
  backlog : a.backlog = kept.map note
  early : a.phase = .calling → kept = [] ∧ copy? = none
  pends : Pends s (stream ++ kept) copy?

/-- An attachment that the feed has left: what it had written by then is still to be read. -/
structure Left (s : Service) (a : Feed.Attachment) (progress : Progress) : Prop where
  gone : a.phase = .gone
  unread : ∃ stream tail, (∀ x ∈ stream, Had s.log x) ∧ tail <+: [Utf8.encode Directory.label] ∧
    (Frame.Stream (broadcasts stream ++ tail) a.link.toGuest.unread ∨
      progress = .greeted ∧
        Frame.Stream (Feed.admission :: (broadcasts stream ++ tail)) a.link.toGuest.unread)

/-- Whether an observer with such an attachment will come to hold the current snapshot, unless the
feed has left the attachment. -/
def Follows (s : Service) (i : Nat) (progress : Progress) (copy? : Option Snapshot) : Prop :=
  (∀ x, copy? = some x → Had s.log x) ∧
    ∃ a, s.server.feed.attachments[i]? = some a ∧
      ((∃ stream kept, Carries s a progress stream kept copy?) ∨ Left s a progress)

/-! ## What has nothing to do with the feed -/

/-- Whether the snapshots that are pending are still what they have to be. -/
structure Settles (s s' : Service) : Prop where
  log : s.log <+: s'.log
  current : s'.due = false → s.due = false ∧ s'.current = s.current

theorem Pends.settle {s s' : Service} {pending : List Snapshot} {copy? : Option Snapshot}
    (h : Pends s pending copy?) (hs : Settles s s') : Pends s' pending copy? where
  had x hx := (h.had x hx).mono hs.log
  copied x hx := (h.copied x hx).mono hs.log
  last hdue x hx := by
    obtain ⟨hdue', hcurrent⟩ := hs.current hdue
    rw [hcurrent]
    exact h.last hdue' x hx
  upToDate hdue hnone x hx := by
    obtain ⟨hdue', hcurrent⟩ := hs.current hdue
    rw [hcurrent]
    exact h.upToDate hdue' hnone x hx

theorem Carries.settle {s s' : Service} {a : Feed.Attachment} {progress : Progress}
    {stream kept : List Snapshot} {copy? : Option Snapshot}
    (h : Carries s a progress stream kept copy?) (hs : Settles s s') :
    Carries s' a progress stream kept copy? :=
  ⟨h.reach, h.opened, h.backlog, h.early, h.pends.settle hs⟩

theorem Left.settle {s s' : Service} {a : Feed.Attachment} {progress : Progress}
    (h : Left s a progress) (hs : Settles s s') : Left s' a progress := by
  obtain ⟨hgone, stream, tail, hhad, hunread⟩ := h
  exact ⟨hgone, stream, tail, fun x hx => (hhad x hx).mono hs.log, hunread⟩

theorem Follows.settle {s s' : Service} {i : Nat} {progress : Progress} {copy? : Option Snapshot}
    (h : Follows s i progress copy?) (hs : Settles s s')
    (hfeed : s'.server.feed.attachments[i]? = s.server.feed.attachments[i]?) :
    Follows s' i progress copy? := by
  obtain ⟨hcopy, a, ha, hstill⟩ := h
  refine ⟨fun x hx => (hcopy x hx).mono hs.log, a, hfeed.trans ha, ?_⟩
  rcases hstill with ⟨stream, kept, hc⟩ | hleft
  · exact .inl ⟨stream, kept, hc.settle hs⟩
  · exact .inr (hleft.settle hs)

theorem settles_refl (s : Service) : Settles s s :=
  ⟨List.prefix_refl _, fun hdue => ⟨hdue, rfl⟩⟩

theorem settles_act (s : Service) (i : Nat) (f : Client → Link → Client × Link × List Event) :
    Settles s (s.act i f) ∧ (s.act i f).server.feed = s.server.feed := by
  rw [act]
  split
  · exact ⟨⟨List.prefix_append _ _, fun hdue => ⟨hdue, rfl⟩⟩, rfl⟩
  · exact ⟨settles_refl s, rfl⟩

theorem settles_serve (s : Service) (f : Host → Option Host) :
    Settles s (s.serve f) ∧ (s.serve f).server.feed = s.server.feed := by
  rw [serve]
  split
  · exact ⟨⟨List.prefix_refl _, fun hdue => ⟨hdue, rfl⟩⟩, rfl⟩
  · exact ⟨settles_refl s, rfl⟩

/-- A request that is dealt with changes nothing, or a broadcast is due. -/
theorem settles_dispatch (s : Service) :
    Settles s s.dispatch ∧ s.dispatch.server.feed = s.server.feed := by
  rcases s.dispatch_cases with heq | ⟨hdue, i, request, rest, -, heq⟩
  · rw [heq]
    exact ⟨settles_refl s, rfl⟩
  · rw [heq]
    refine ⟨⟨List.prefix_append _ _, fun hdue' => ⟨hdue, ?_⟩⟩, rfl⟩
    have hunchanged : (Directory.dispatch s.server.state.registry request).changed = none := by
      cases hchanged : (Directory.dispatch s.server.state.registry request).changed with
      | none => rfl
      | some r => simp [hchanged] at hdue'
    show ((Directory.dispatch s.server.state.registry request).registry _).snapshot = _
    rw [Directory.Outcome.registry, hunchanged]
    rfl

/-! ## What the feed does -/

theorem Reach.counts {a : Feed.Attachment} {progress : Progress} {stream : List Snapshot}
    (h : Reach a progress stream) : a.phase = .calling ∧ stream = [] ∨ a.counts = true := by
  cases h with
  | called hphase =>
    rcases hphase with hphase | hphase
    · exact .inl ⟨hphase, rfl⟩
    · exact .inr (by simp [Feed.Attachment.counts, hphase])
  | greeted hphase =>
    rcases hphase with hphase | hphase
    · exact .inl ⟨hphase, rfl⟩
    · exact .inr (by simp [Feed.Attachment.counts, hphase])
  | answered hphase => exact .inr (by simp [Feed.Attachment.counts, hphase])
  | admitted hphase => exact .inr (by simp [Feed.Attachment.counts, hphase])

/-- What is on a connection does not depend on what is kept for it. -/
theorem Reach.keep {a : Feed.Attachment} {progress : Progress} {stream : List Snapshot}
    (h : Reach a progress stream) (backlog : List Message) :
    Reach { a with backlog } progress stream := by
  cases h with
  | called hphase htoHost htoGuest => exact .called hphase htoHost htoGuest
  | greeted hphase htoHost htoGuest => exact .greeted hphase htoHost htoGuest
  | answered hphase htoHost htoGuest => exact .answered hphase htoHost htoGuest
  | admitted hphase htoHost htoGuest => exact .admitted hphase htoHost htoGuest

/-- Where nothing is pending and there is no copy, there is nothing to be up to date. -/
theorem pends_nil (s : Service) : Pends s [] none := by
  refine ⟨?_, ?_, ?_, ?_⟩
  · intro x hx
    cases hx
  · intro x hx
    cases hx
  · intro _ x hx
    cases hx
  · intro _ _ x hx
    cases hx

/-- After a broadcast the last of what is pending is the current snapshot. -/
theorem Pends.send {s s' : Service} {pending rest : List Snapshot} {copy? : Option Snapshot}
    (h : Pends s pending copy?) (hrest : rest.Sublist pending) (hcurrent : Had s.log s.current)
    (hlog : s'.log = s.log) (hsame : s'.current = s.current) :
    Pends s' (rest ++ [s.current]) copy? where
  had x hx := by
    rw [hlog]
    rcases List.mem_append.1 hx with hx | hx
    · exact h.had x (hrest.subset hx)
    · rw [List.mem_singleton.1 hx]
      exact hcurrent
  copied x hx := by
    rw [hlog]
    exact h.copied x hx
  last _ x hx := by
    rw [List.getLast?_concat] at hx
    rw [hsame]
    exact (Option.some.inj hx).symm
  upToDate _ hnone := absurd hnone (List.append_ne_nil_of_right_ne_nil _ (List.cons_ne_nil _ _))

/-- A broadcast reaches whoever is attached. -/
theorem Follows.broadcast {s : Service} {i : Nat} {progress : Progress} {copy? : Option Snapshot}
    (hs : Sane s) (hcapacity : 0 < s.server.feed.capacity) (h : Follows s i progress copy?) :
    Follows s.broadcast i progress copy? := by
  rw [Service.broadcast]
  split
  · obtain ⟨hcopy, a, ha, hstill⟩ := h
    refine ⟨hcopy, _, Feed.getElem?_send ha _, ?_⟩
    rcases hstill with ⟨stream, kept, hc⟩ | hleft
    · left
      have hhad : Had s.log s.current := hs.had_current
      cases hcounts : a.counts with
      | false =>
        -- whoever has only called is not attached yet, and has no copy that could be out of date
        rcases hc.reach.counts with ⟨hcalling, rfl⟩ | hcounts'
        · obtain ⟨rfl, rfl⟩ := hc.early hcalling
          exact ⟨[], [], hc.reach, hc.opened, hc.backlog, hc.early, pends_nil _⟩
        · rw [hcounts] at hcounts'
          cases hcounts'
      | true =>
        obtain ⟨rest, hsuffix, hkept⟩ := Feed.keepLast_concat hcapacity kept s.current
        refine ⟨stream, rest ++ [s.current], hc.reach.keep _, hc.opened, ?_, ?_, ?_⟩
        · show Feed.keepLast _ (a.backlog ++ [note s.current]) = _
          rw [hc.backlog, ← List.map_singleton, ← List.map_append, Feed.keepLast_map, hkept]
        · intro hcalling
          simp [Feed.Attachment.counts] at hcounts
          exact absurd hcalling hcounts.1
        · rw [← List.append_assoc]
          exact hc.pends.send (hsuffix.sublist.append_left stream) hhad rfl rfl
    · right
      have hcounts : a.counts = false := by simp [Feed.Attachment.counts, hleft.gone]
      rw [hcounts]
      exact ⟨hleft.gone, hleft.unread⟩
  · exact h

/-- An attachment with the same snapshots still to come. -/
theorem Carries.move {s : Service} {a b : Feed.Attachment} {progress progress' : Progress}
    {stream kept stream' kept' : List Snapshot} {copy? : Option Snapshot}
    (h : Carries s a progress stream kept copy?) (hreach : Reach b progress' stream')
    (hopened : b.link.toHost.closed = false ∧ b.link.toGuest.closed = false)
    (hbacklog : b.backlog = kept'.map note) (hphase : b.phase ≠ .calling)
    (hsame : stream' ++ kept' = stream ++ kept) : Carries s b progress' stream' kept' copy? where
  reach := hreach
  opened := hopened
  backlog := hbacklog
  early hcalling := absurd hcalling hphase
  pends := hsame ▸ h.pends

theorem stream_note {limit : Nat} {x : Snapshot}
    (hsound : Frame.Sound limit (Wire.encodeSnapshot x)) (hfits : (note x).payload.length ≤ limit) :
    Frame.Stream (broadcasts [x])
      (Frame.encode (Utf8.encode (note x).label) ++ Frame.encode (note x).payload) := by
  have hlabel : (Utf8.encode Directory.label).length < UInt32.size := by decide
  have hpayload : (Wire.encodeSnapshot x).length < UInt32.size := hsound hfits
  exact (Frame.stream_singleton hlabel).append (Frame.stream_singleton hpayload)

theorem matches_label : Feed.matchesAny [Directory.label] Directory.label = true := by decide

theorem Reach.stems {a : Feed.Attachment} {progress : Progress} {stream : List Snapshot}
    {stems : List String} (h : Reach a progress stream) (hphase : a.phase = .attached stems) :
    stems = [Directory.label] ∧ a.link.toHost.unread = [] := by
  cases h with
  | called hphase' => simp [hphase] at hphase'
  | greeted hphase' => simp [hphase] at hphase'
  | answered hphase' htoHost =>
    rw [hphase] at hphase'
    exact ⟨Feed.Phase.attached.inj hphase', htoHost⟩
  | admitted hphase' htoHost =>
    rw [hphase] at hphase'
    exact ⟨Feed.Phase.attached.inj hphase', htoHost⟩

/-- A message that is written moves from what is kept to the stream. -/
theorem Reach.deliver {a : Feed.Attachment} {progress : Progress} {stream : List Snapshot}
    {stems : List String} {x : Snapshot} {octets : List UInt8} {ms : List Message}
    (h : Reach a progress stream) (hphase : a.phase = .attached stems)
    (hopened : a.link.toGuest.closed = false) (hx : Frame.Stream (broadcasts [x]) octets) :
    Reach { a with link.toGuest := a.link.toGuest.write octets, backlog := ms } progress
      (stream ++ [x]) := by
  cases h with
  | called hphase' => simp [hphase] at hphase'
  | greeted hphase' => simp [hphase] at hphase'
  | answered hphase' htoHost htoGuest =>
    refine .answered hphase' htoHost ?_
    rw [Client.broadcasts_append, ← List.cons_append, Pipe.unread_write, hopened]
    exact htoGuest.append hx
  | admitted hphase' htoHost htoGuest =>
    refine .admitted hphase' htoHost ?_
    rw [Client.broadcasts_append, Pipe.unread_write, hopened]
    exact htoGuest.append hx

/-- What the feed leaves when it leaves an attachment. -/
theorem Carries.left {s : Service} {a b : Feed.Attachment} {progress : Progress}
    {stream kept : List Snapshot} {copy? : Option Snapshot}
    (h : Carries s a progress stream kept copy?) (hb : b.phase = .gone)
    {tail : List (List UInt8)} {octets : List UInt8} (htail : tail <+: [Utf8.encode Directory.label])
    (hoctets : Frame.Stream tail octets)
    (hunread : b.link.toGuest.unread = a.link.toGuest.unread ++ octets) : Left s b progress := by
  refine ⟨hb, stream, tail, fun x hx => h.pends.had x (List.mem_append_left _ hx), htail, ?_⟩
  rw [hunread]
  cases h.reach with
  | called _ _ hnone =>
    rw [hnone]
    exact .inl hoctets
  | greeted _ _ hnone =>
    rw [hnone]
    exact .inl hoctets
  | answered _ _ htoGuest => exact .inr ⟨rfl, htoGuest.append hoctets⟩
  | admitted _ _ htoGuest => exact .inl (htoGuest.append hoctets)

theorem Reach.accept {a : Feed.Attachment} {progress : Progress} {stream : List Snapshot}
    (h : Reach a progress stream) (hphase : a.phase = .calling) :
    Reach { a with phase := .greeting } progress stream := by
  cases h with
  | called _ htoHost htoGuest => exact .called (.inr rfl) htoHost htoGuest
  | greeted _ htoHost htoGuest => exact .greeted (.inr rfl) htoHost htoGuest
  | answered hphase' => simp [hphase] at hphase'
  | admitted hphase' => simp [hphase] at hphase'

/-- What the feed reads from whoever it has not admitted yet is the greeting. -/
theorem Reach.expect {a : Feed.Attachment} {progress : Progress} {stream : List Snapshot}
    {limit : Nat} {greeting : List UInt8} {rest : Pipe} (h : Reach a progress stream)
    (hphase : a.phase = .greeting) (hopen : a.link.toHost.closed = false)
    (hexpect : Frame.expect limit a.link.toHost = some (.ok greeting, rest)) :
    progress = .greeted ∧ stream = [] ∧ greeting = Subscription.greeting [Directory.label] ∧
      rest.unread = [] ∧ rest.closed = false ∧ a.link.toGuest.unread = [] := by
  cases h with
  | called _ hunread =>
    rw [Frame.expect, Frame.read_of_unread_nil hunread hopen] at hexpect
    cases hexpect
  | greeted _ hunread htoGuest =>
    rcases Frame.expect_stream hunread hexpect with
      ⟨body, bodies, heq, hbody, hrest, hclosed⟩ | ⟨fault, heq⟩
    · obtain ⟨rfl, rfl⟩ := List.cons.inj heq
      exact ⟨rfl, rfl, Except.ok.inj hbody, Frame.stream_nil_iff.1 hrest, hclosed.trans hopen,
        htoGuest⟩
    · cases heq
  | answered hphase' => simp [hphase] at hphase'
  | admitted hphase' => simp [hphase] at hphase'

/-- Whatever the feed does for the attachment, the same snapshots are still to come, or the feed
leaves it. -/
theorem Carries.serve {s : Service} {a b : Feed.Attachment} {progress : Progress}
    {stream kept : List Snapshot} {copy? : Option Snapshot} {limit : Nat}
    (h : Carries s a progress stream kept copy?) (hserves : Feed.Serves limit a b)
    (hsound : ∀ x, Had s.log x → Frame.Sound limit (Wire.encodeSnapshot x)) :
    (∃ stream' kept', Carries s b progress stream' kept' copy?) ∨ Left s b progress := by
  obtain ⟨htoHost, htoGuest⟩ := h.opened
  cases hserves with
  | accept hphase =>
    exact .inl ⟨stream, kept, h.move (h.reach.accept hphase) h.opened h.backlog (by simp) rfl⟩
  | greet hphase hexpect hstems =>
    obtain ⟨rfl, rfl, rfl, hread, hopen, hnone⟩ := h.reach.expect hphase htoHost hexpect
    rw [Feed.stems?_greeting] at hstems
    obtain rfl := Option.some.inj hstems
    refine .inl ⟨[], kept, h.move (.answered rfl hread ?_) ⟨hopen, ?_⟩ h.backlog (by simp) rfl⟩
    · rw [Pipe.unread_write, htoGuest, hnone]
      exact Frame.stream_singleton (by decide)
    · rw [Pipe.closed_write]
      exact htoGuest
  | hear hphase hread =>
    obtain ⟨-, hunread⟩ := h.reach.stems hphase
    rw [Frame.read_of_unread_nil hunread htoHost] at hread
    cases hread
  | @pass stems m ms hphase hbacklog hlabel =>
    obtain ⟨rfl, -⟩ := h.reach.stems hphase
    rw [h.backlog, List.map_eq_cons_iff] at hbacklog
    obtain ⟨x, rest, -, rfl, -⟩ := hbacklog
    rw [note, matches_label] at hlabel
    cases hlabel
  | @deliver stems m ms hphase hbacklog _ _ hfits =>
    rw [h.backlog, List.map_eq_cons_iff] at hbacklog
    obtain ⟨x, rest, rfl, rfl, rfl⟩ := hbacklog
    have hx : Had s.log x := h.pends.had x (List.mem_append_right _ List.mem_cons_self)
    refine .inl ⟨stream ++ [x], rest, h.move (h.reach.deliver hphase htoGuest
      (stream_note (hsound x hx) hfits)) ⟨htoHost, ?_⟩ rfl ?_ (by simp)⟩
    · rw [Pipe.closed_write]
      exact htoGuest
    · simp [hphase]
  | leave _ hb hunread =>
    refine .inr (h.left hb List.nil_prefix Frame.stream_nil ?_)
    rw [hunread, List.append_nil]
  | cut _ hbacklog hb hunread =>
    rw [h.backlog, List.map_eq_cons_iff] at hbacklog
    obtain ⟨x, rest, -, rfl, -⟩ := hbacklog
    exact .inr (h.left hb (List.prefix_refl _) (Frame.stream_singleton (by decide)) hunread)

/-- What is done to the feed, unless it is done on the connection of the attachment itself. -/
theorem Follows.attend {s : Service} {i : Nat} {i? : Option Nat} {progress : Progress}
    {copy? : Option Snapshot} (h : Follows s i progress copy?) {f : Feed → Option Feed}
    (hf : ∀ feed, f s.server.feed = some feed → s.server.feed.Attends i? feed) (hne : i? ≠ some i)
    (hsound : ∀ x, Had s.log x → Frame.Sound s.server.feed.limit (Wire.encodeSnapshot x)) :
    Follows (s.attend f) i progress copy? := by
  rw [Service.attend]
  cases hfeed : f s.server.feed with
  | none => exact h
  | some feed =>
    have hsettles : Settles s { s with server := s.server.withFeed feed } :=
      ⟨List.prefix_refl _, fun hdue => ⟨hdue, rfl⟩⟩
    obtain ⟨hcopy, a, ha, hstill⟩ := h
    rcases (hf feed hfeed).getElem? hne ha with hsame | ⟨b, hserves, hb⟩
    · exact Follows.settle ⟨hcopy, a, ha, hstill⟩ hsettles (hsame.trans ha.symm)
    · refine ⟨hcopy, b, hb, ?_⟩
      rcases hstill with ⟨stream, kept, hc⟩ | hleft
      · rcases hc.serve hserves hsound with ⟨stream', kept', hc'⟩ | hleft'
        · exact .inl ⟨stream', kept', hc'.settle hsettles⟩
        · exact .inr (hleft'.settle hsettles)
      · exact absurd hleft.gone hserves.ne_gone

/-! ## All moves -/

theorem Follows.moves {s s' : Service} {i : Nat} {progress : Progress} {copy? : Option Snapshot}
    {m : Move} (h : Follows s i progress copy?) (hs : Sane s)
    (hcapacity : 0 < s.server.feed.capacity)
    (hsound : ∀ x, Had s.log x → Frame.Sound s.server.feed.limit (Wire.encodeSnapshot x))
    (hmoves : Moves s m s') (hm : m.attached? ≠ some i) : Follows s' i progress copy? := by
  cases hmoves with
  | join limit => exact h.settle ⟨List.prefix_refl _, fun hdue => ⟨hdue, rfl⟩⟩ rfl
  | @act _ j f =>
    obtain ⟨hsettles, hfeed⟩ := s.settles_act j f
    exact h.settle hsettles (by rw [hfeed])
  | @serve _ _ f =>
    obtain ⟨hsettles, hfeed⟩ := s.settles_serve f
    exact h.settle hsettles (by rw [hfeed])
  | dispatch =>
    obtain ⟨hsettles, hfeed⟩ := s.settles_dispatch
    exact h.settle hsettles (by rw [hfeed])
  | broadcast => exact h.broadcast hs hcapacity
  | attend hf => exact h.attend hf hm hsound

/-- Whoever follows the directory goes on to, as long as nobody else uses its attachment. -/
theorem Follows.step {s : Service} {i : Nat} {progress : Progress} {copy? : Option Snapshot}
    {m : Move} (h : Follows s i progress copy?) (hs : Sane s)
    (hcapacity : 0 < s.server.feed.capacity)
    (hsound : ∀ x, Had s.log x → Frame.Sound s.server.feed.limit (Wire.encodeSnapshot x))
    (hm : m.attached? ≠ some i) : Follows (s.step m) i progress copy? :=
  h.moves hs hcapacity hsound (s.moves_step m) hm

/-- No move changes the limits of the feed. -/
theorem Moves.feed {s s' : Service} {m : Move} (hmoves : Moves s m s') :
    s'.server.feed.limit = s.server.feed.limit ∧
      s'.server.feed.capacity = s.server.feed.capacity := by
  cases hmoves with
  | join limit => exact ⟨rfl, rfl⟩
  | @act _ j f =>
    rw [(s.settles_act j f).2]
    exact ⟨rfl, rfl⟩
  | @serve _ _ f =>
    rw [(s.settles_serve f).2]
    exact ⟨rfl, rfl⟩
  | dispatch =>
    rw [s.settles_dispatch.2]
    exact ⟨rfl, rfl⟩
  | broadcast =>
    rw [Service.broadcast]
    split <;> exact ⟨rfl, rfl⟩
  | @attend _ f hf =>
    rw [Service.attend]
    split
    · rename_i feed hfeed
      exact (hf feed hfeed).limits
    · exact ⟨rfl, rfl⟩

end Service

end TopicDirectory
