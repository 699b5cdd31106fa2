import TopicDirectory.Proofs.Observer.Following

/-!
# What an observer does on its attachment

The observer calls the feed, greets it, reads that it is admitted, and takes what is broadcast
(`Follows.greet`, `Follows.enter`, `Follows.hear`).  What it takes from the stream of its attachment
is no longer still to come, and what it comes to hold is no worse than what it took.
-/

namespace TopicDirectory

open Client (Listener broadcasts)

namespace Subscription

theorem greet_eq_ok {limit : Nat} {l l' : Link} {stems : List String}
    (h : greet limit l stems = .ok l') :
    l.toHost.closed = false ∧
      l' = { l with toHost := l.toHost.write (Frame.encode (greeting stems)) } := by
  rw [greet, Frame.write] at h
  split at h
  · cases h
  · rename_i frame hframe
    split at hframe
    · cases hframe
    · cases hframe
      split at h
      · cases h
      · rename_i hopen
        exact ⟨eq_false_of_ne_true hopen, (Except.ok.inj h).symm⟩

theorem admitted_eq_ok {limit : Nat} {l l' : Link} (h : admitted limit l = (.ok (), l')) :
    ∃ rest, Frame.expect limit l.toGuest = some (.ok Feed.admission, rest) ∧
      l' = { l with toGuest := rest } := by
  rw [admitted] at h
  split at h
  · cases h
  · cases h
  · rename_i body rest hexpect
    split at h
    · rename_i hbody
      cases h
      rw [hbody] at hexpect
      exact ⟨rest, hexpect, rfl⟩
    · cases h

end Subscription

namespace Service

/-- Who has just called the feed has nothing to hear. -/
theorem follows_attach (s : Service) :
    Follows (s.step .attach) s.server.feed.attachments.length .called none := by
  refine ⟨nofun, {}, List.getElem?_concat_length, .inl ⟨[], [], ?_⟩⟩
  exact ⟨.called (.inl rfl) rfl rfl, ⟨rfl, rfl⟩, rfl, fun _ => ⟨rfl, rfl⟩, pends_nil _⟩

/-- What becomes of an attachment when something is done with its connection. -/
theorem Follows.relink {s : Service} {i : Nat} {progress progress' : Progress}
    {copy? copy?' : Option Snapshot} {a : Feed.Attachment} {l : Link}
    (h : Follows s i progress copy?) (ha : s.server.feed.attachments[i]? = some a)
    (hcopy : ∀ x, copy?' = some x → Had s.log x)
    (hcarries : ∀ stream kept, Carries s a progress stream kept copy? →
      ∃ stream', Carries s { a with link := l } progress' stream' kept copy?')
    (hleft : Left s a progress → Left s { a with link := l } progress') :
    Follows (s.step (.attend i l)) i progress' copy?' := by
  obtain ⟨-, b, hb, hstill⟩ := h
  obtain rfl := Option.some.inj (ha.symm.trans hb)
  have hstep : s.step (.attend i l) = { s with
      server := s.server.withFeed (s.server.feed.set i { a with link := l }) } := by
    rw [Service.step, Service.attend, ha]
    rfl
  have hsettles : Settles s { s with
      server := s.server.withFeed (s.server.feed.set i { a with link := l }) } :=
    ⟨List.prefix_refl _, fun hdue => ⟨hdue, rfl⟩⟩
  rw [hstep]
  refine ⟨hcopy, { a with link := l }, Feed.getElem?_set_self ha _, ?_⟩
  rcases hstill with ⟨stream, kept, hc⟩ | hl
  · obtain ⟨stream', hc'⟩ := hcarries stream kept hc
    exact .inl ⟨stream', kept, hc'.settle hsettles⟩
  · exact .inr ((hleft hl).settle hsettles)

theorem Follows.greet {s : Service} {i limit : Nat} {a : Feed.Attachment} {l : Link}
    (h : Follows s i .called none) (ha : s.server.feed.attachments[i]? = some a)
    (hgreet : Subscription.greet limit a.link [Directory.label] = .ok l) :
    Follows (s.step (.attend i l)) i .greeted none := by
  obtain ⟨hopen, rfl⟩ := Subscription.greet_eq_ok hgreet
  refine h.relink ha nofun ?_ ?_
  · intro stream kept hc
    obtain ⟨-, htoGuest⟩ := hc.opened
    cases hc.reach with
    | called hphase htoHost hnone =>
      refine ⟨[], .greeted hphase ?_ hnone, ⟨?_, htoGuest⟩, hc.backlog, hc.early, hc.pends⟩
      · rw [Pipe.unread_write, hopen, htoHost]
        exact Frame.stream_singleton (by decide)
      · rw [Pipe.closed_write]
        exact hopen
  · intro hleft
    obtain ⟨hgone, stream, tail, hhad, htail, hunread | ⟨hprogress, -⟩⟩ := hleft
    · exact ⟨hgone, stream, tail, hhad, htail, .inl hunread⟩
    · cases hprogress

theorem Follows.enter {s : Service} {i limit : Nat} {a : Feed.Attachment} {l : Link}
    (h : Follows s i .greeted none) (ha : s.server.feed.attachments[i]? = some a)
    (hadmitted : Subscription.admitted limit a.link = (.ok (), l)) :
    Follows (s.step (.attend i l)) i .admitted none := by
  obtain ⟨rest, hexpect, rfl⟩ := Subscription.admitted_eq_ok hadmitted
  refine h.relink ha nofun ?_ ?_
  · intro stream kept hc
    obtain ⟨htoHost, htoGuest⟩ := hc.opened
    cases hc.reach with
    | greeted _ _ hnone =>
      rcases Frame.expect_stream (Frame.stream_nil_iff.2 hnone) hexpect with
        ⟨body, bodies, heq, -⟩ | ⟨fault, heq⟩ <;> cases heq
    | answered hphase hread hstream =>
      rcases Frame.expect_stream hstream hexpect with
        ⟨body, bodies, heq, -, hrest, hclosed⟩ | ⟨fault, heq⟩
      · obtain ⟨-, rfl⟩ := List.cons.inj heq
        exact ⟨stream, .admitted hphase hread hrest, ⟨htoHost, hclosed.trans htoGuest⟩, hc.backlog,
          hc.early, hc.pends⟩
      · cases heq
  · intro hleft
    obtain ⟨hgone, stream, tail, hhad, htail, hunread | ⟨-, hunread⟩⟩ := hleft
    · rcases Frame.expect_stream hunread hexpect with
        ⟨body, bodies, heq, hbody, -⟩ | ⟨fault, heq⟩
      · obtain ⟨rfl, -⟩ := Client.broadcasts_eq_cons htail heq
        exact absurd (Except.ok.inj hbody) (by decide)
      · cases heq
    · rcases Frame.expect_stream hunread hexpect with
        ⟨body, bodies, heq, -, hrest, -⟩ | ⟨fault, heq⟩
      · obtain ⟨-, rfl⟩ := List.cons.inj heq
        exact ⟨hgone, stream, tail, hhad, htail, .inl hrest⟩
      · cases heq

/-- After it was admitted, an observer can go on from a copy of the current snapshot. -/
theorem Follows.copy {s : Service} {i : Nat} (hs : Sane s) (h : Follows s i .admitted none) :
    Follows s i .admitted (some s.current) := by
  have hcurrent : ∀ x, some s.current = some x → x = s.current := fun x hx => (Option.some.inj hx).symm
  have hcopied : ∀ x, some s.current = some x → Had s.log x := by
    intro x hx
    rw [hcurrent x hx]
    exact hs.had_current
  obtain ⟨-, a, ha, hstill⟩ := h
  refine ⟨hcopied, a, ha, ?_⟩
  rcases hstill with ⟨stream, kept, hc⟩ | hleft
  · refine .inl ⟨stream, kept, hc.reach, hc.opened, hc.backlog, fun hcalling => ?_,
      hc.pends.had, hcopied, hc.pends.last, fun _ _ => hcurrent⟩
    cases hc.reach with
    | admitted hphase =>
      rw [hphase] at hcalling
      cases hcalling
  · exact .inr hleft

/-- What is pending once the oldest snapshot was heard. -/
theorem Pends.hear {s : Service} (hs : Sane s) (hlog : (requests s.log).length < UInt64.size)
    {held x : Snapshot} {rest : List Snapshot} (h : Pends s (x :: rest) (some held)) :
    Pends s rest (some (Listener.newer held x)) where
  had y hy := h.had y (List.mem_cons_of_mem _ hy)
  copied y hy := by
    rw [← Option.some.inj hy, Listener.newer]
    split
    · exact h.had x List.mem_cons_self
    · exact h.copied held rfl
  last hdue y hy := by
    refine h.last hdue y ?_
    rw [List.getLast?_cons, hy]
    rfl
  upToDate hdue hnone y hy := by
    subst hnone
    have hx : x = s.current := h.last hdue x rfl
    have hcurrent : s.current = (registryAfter s.log).snapshot := hs.current
    rw [← Option.some.inj hy, Listener.newer]
    split
    · exact hx
    · rename_i hnewer
      -- what was heard is current and not newer than the copy, and nothing is newer than current
      rw [hcurrent]
      refine (h.copied held rfl).eq_of_le hlog ?_
      rw [hx, hcurrent] at hnewer
      exact UInt64.not_lt.1 hnewer

theorem Carries.hear {s : Service} {a : Feed.Attachment} {stream kept : List Snapshot} {l : Listener}
    (hs : Sane s) (hlog : (requests s.log).length < UInt64.size)
    (h : Carries s a .admitted stream kept (some l.held)) (limit n : Nat) :
    ∃ rest, Pends s (rest ++ kept) (some (Listener.run limit n l a.link.toGuest).1.1.held) ∧
      ((Listener.run limit n l a.link.toGuest).1.1.running = true →
        Carries s
          { a with link.toGuest := (Listener.run limit n l a.link.toGuest).2 } .admitted rest kept
          (some (Listener.run limit n l a.link.toGuest).1.1.held)) := by
  obtain ⟨htoHost, htoGuest⟩ := h.opened
  cases h.reach with
  | admitted hphase hread hstream =>
    have hkeeps : ∀ held x rest, Pends s (x :: rest ++ kept) (some held) →
        Pends s (rest ++ kept) (some (Listener.newer held x)) := fun held x rest hpends =>
      hpends.hear hs hlog
    obtain ⟨rest, hpends, hrest⟩ := Listener.run_broadcasts limit
      (fun held ss => Pends s (ss ++ kept) (some held)) List.nil_prefix hkeeps n
      (p := a.link.toGuest) h.pends fun _ => by rwa [List.append_nil]
    refine ⟨rest, hpends, ?_⟩
    intro hrunning
    obtain ⟨hstream', hclosed⟩ := hrest hrunning
    rw [List.append_nil] at hstream'
    refine ⟨.admitted hphase hread hstream', ⟨htoHost, hclosed.trans htoGuest⟩,
      h.backlog, ?_, hpends⟩
    intro hcalling
    rw [hphase] at hcalling
    cases hcalling

theorem Left.hear {s : Service} {a : Feed.Attachment} {l : Listener} (h : Left s a .admitted)
    (hheld : Had s.log l.held) (limit n : Nat) :
    Had s.log (Listener.run limit n l a.link.toGuest).1.1.held ∧
      ((Listener.run limit n l a.link.toGuest).1.1.running = true →
        Left s { a with link.toGuest := (Listener.run limit n l a.link.toGuest).2 } .admitted) := by
  obtain ⟨hgone, stream, tail, hhad, htail, hunread | ⟨hprogress, -⟩⟩ := h
  · have hkeeps : ∀ held x rest, (Had s.log held ∧ ∀ y ∈ x :: rest, Had s.log y) →
        Had s.log (Listener.newer held x) ∧ ∀ y ∈ rest, Had s.log y := by
      rintro held x rest ⟨hheld, hall⟩
      refine ⟨?_, fun y hy => hall y (List.mem_cons_of_mem _ hy)⟩
      rw [Listener.newer]
      split
      · exact hall x List.mem_cons_self
      · exact hheld
    obtain ⟨rest, ⟨hheld', hhad'⟩, hrest⟩ := Listener.run_broadcasts limit
      (fun held ss => Had s.log held ∧ ∀ x ∈ ss, Had s.log x) htail hkeeps n
      (p := a.link.toGuest) ⟨hheld, hhad⟩ fun _ => hunread
    refine ⟨hheld', ?_⟩
    intro hrunning
    exact ⟨hgone, rest, tail, hhad', htail, .inl (hrest hrunning).1⟩
  · cases hprogress

/-- What a listener comes to hold is a snapshot that the directory had, and as long as it goes on it
will come to hold the current one. -/
theorem Follows.hear {s : Service} {i : Nat} {a : Feed.Attachment} {l : Listener} (hs : Sane s)
    (hlog : (requests s.log).length < UInt64.size) (h : Follows s i .admitted (some l.held))
    (ha : s.server.feed.attachments[i]? = some a) (limit n : Nat) :
    Had s.log (Listener.run limit n l a.link.toGuest).1.1.held ∧
      ((Listener.run limit n l a.link.toGuest).1.1.running = true →
        Follows
          (s.step (.attend i { a.link with toGuest := (Listener.run limit n l a.link.toGuest).2 })) i
          .admitted (some (Listener.run limit n l a.link.toGuest).1.1.held)) := by
  have hheld : Had s.log l.held := h.1 l.held rfl
  have hhad : Had s.log (Listener.run limit n l a.link.toGuest).1.1.held := by
    obtain ⟨-, b, hb, hstill⟩ := h
    obtain rfl := Option.some.inj (ha.symm.trans hb)
    rcases hstill with ⟨stream, kept, hc⟩ | hleft
    · obtain ⟨rest, hpends, -⟩ := hc.hear hs hlog limit n
      exact hpends.copied _ rfl
    · exact (hleft.hear hheld limit n).1
  refine ⟨hhad, fun hrunning => h.relink ha ?_ (fun stream kept hc => ?_) ?_⟩
  · intro x hx
    rw [← Option.some.inj hx]
    exact hhad
  · obtain ⟨rest, -, hnext⟩ := hc.hear hs hlog limit n
    exact ⟨rest, hnext hrunning⟩
  · intro hleft
    exact (hleft.hear hheld limit n).2 hrunning

end Service

end TopicDirectory
