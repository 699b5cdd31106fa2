import TopicDirectory.Proofs.Feed.Account

/-!
# One guest of a feed

How a feed stands with a guest that sends its greeting and nothing more (`Standing`): what has become
of the greeting on the connection, and the account of what was written for the guest.  What the guest
can do and what the feed can do for it keep it that way.
-/

namespace TopicDirectory.Audience

open Feed (Attachment)
open Reception (Guest)

variable {limit capacity : Nat} {greeting : List UInt8} {stems : List String}
  {since' : List Message} {lost lost' : Nat → Prop} {a : Attachment} {g : Guest}

/-! ## One guest -/

/-- What has become of the greeting of a guest that sends nothing else. -/
inductive Wired (greeting : List UInt8) (stems : List String) (a : Attachment) (g : Guest) : Prop
  /-- Nothing has been read yet. -/
  | joining (hphase : a.phase = .calling ∨ a.phase = .greeting)
    (htoHost : a.link.toHost = ⟨g.sent, false⟩) (htoGuest : a.link.toGuest.closed = false)
  /-- The greeting has been read, and nothing else has come. -/
  | attached (hphase : a.phase = .attached stems) (hsent : g.sent = Frame.encode greeting)
    (htoHost : a.link.toHost = ⟨[], false⟩) (htoGuest : a.link.toGuest.closed = false)
  | gone (hphase : a.phase = .gone)

/-- How a feed stands with a guest that sends its greeting and nothing more. -/
structure Standing (limit capacity : Nat) (greeting : List UInt8) (stems : List String)
    (since : List Message) (lost : Nat → Prop) (a : Attachment) (g : Guest) : Prop where
  wired : Wired greeting stems a g
  account : ∃ n picks, Account limit capacity greeting stems since lost a
    (g.got ++ a.link.toGuest.unread) n picks

namespace Standing

theorem lost_mono (h : Standing limit capacity greeting stems since' lost a g)
    (hlost : ∀ k, lost k → lost' k) :
    Standing limit capacity greeting stems since' lost' a g := by
  obtain ⟨n, picks, haccount⟩ := h.account
  exact ⟨h.wired, n, picks, haccount.lost_mono hlost⟩

theorem new (limit capacity : Nat) (greeting : List UInt8) (stems : List String)
    (lost : Nat → Prop) : Standing limit capacity greeting stems [] lost {} {} :=
  ⟨.joining (.inl rfl) rfl rfl, 0, [], picks_nil stems [] lost, .waiting (.inl rfl) rfl rfl,
    Nat.le_refl _, fun _ => Nat.zero_le _⟩

/-! ### What the guest does -/

theorem write (h : Standing limit capacity greeting stems since' lost a g) {octets : List UInt8}
    (hsent : g.sent ++ octets <+: Frame.encode greeting) :
    Standing limit capacity greeting stems since' lost
      { a with link := (g.send octets a.link).2 } (g.send octets a.link).1 := by
  obtain ⟨n, picks, haccount⟩ := h.account
  refine ⟨?_, n, picks, haccount.link _⟩
  cases h.wired with
  | joining hphase htoHost htoGuest =>
    refine .joining hphase ?_ htoGuest
    simp [Guest.send, Pipe.write, htoHost]
  | attached hphase hwhole htoHost htoGuest =>
    -- the greeting was sent in full before, so nothing is written
    obtain rfl : octets = [] := by
      rw [hwhole] at hsent
      have hlength := hsent.length_le
      rw [List.length_append] at hlength
      exact List.length_eq_zero_iff.1 (by omega)
    refine .attached hphase ?_ ?_ htoGuest
    · rw [Guest.send, List.append_nil, hwhole]
    · simp [Guest.send, Pipe.write, htoHost]
  | gone hphase => exact .gone hphase

theorem take (h : Standing limit capacity greeting stems since' lost a g) (n : Nat) :
    Standing limit capacity greeting stems since' lost
      { a with link := (g.take n a.link).2 } (g.take n a.link).1 := by
  obtain ⟨n', picks, haccount⟩ := h.account
  refine ⟨?_, n', picks, ?_⟩
  · cases h.wired with
    | joining hphase htoHost htoGuest => exact .joining hphase htoHost htoGuest
    | attached hphase hwhole htoHost htoGuest => exact .attached hphase hwhole htoHost htoGuest
    | gone hphase => exact .gone hphase
  · have hoctets : (g.take n a.link).1.got ++ (g.take n a.link).2.toGuest.unread
        = g.got ++ a.link.toGuest.unread := by
      simp [Guest.take]
    rw [hoctets]
    exact haccount.link _

/-! ### What the feed does -/

theorem accept (h : Standing limit capacity greeting stems since' lost a g)
    (hphase : a.phase = .calling) :
    Standing limit capacity greeting stems since' lost { a with phase := .greeting } g := by
  obtain ⟨n, picks, haccount⟩ := h.account
  refine ⟨?_, n, picks, haccount.accept hphase⟩
  cases h.wired with
  | joining _ htoHost htoGuest => exact .joining (.inr rfl) htoHost htoGuest
  | _ => simp_all

/-- The greeting is read as it was sent, unless it is over the limit. -/
theorem expect (h : Standing limit capacity greeting stems since' lost a g)
    (hsent : g.sent <+: Frame.encode greeting) (h32 : greeting.length < UInt32.size)
    (hphase : a.phase = .greeting) {result : Except Link.Fault (List UInt8)} {rest : Pipe}
    (hexpect : Frame.expect limit a.link.toHost = some (result, rest)) :
    a.link.toGuest.closed = false ∧
      ((result = .ok greeting ∧ g.sent = Frame.encode greeting ∧ rest = ⟨[], false⟩) ∨
        (∃ fault, result = .error fault) ∧ limit < greeting.length) := by
  cases h.wired with
  | joining _ htoHost htoGuest =>
    rw [htoHost] at hexpect
    exact ⟨htoGuest, Frame.expect_of_prefix h32 rfl hsent hexpect⟩
  | _ => simp_all

theorem greet (h : Standing limit capacity greeting stems since' lost a g)
    (hsent : g.sent <+: Frame.encode greeting) (h32 : greeting.length < UInt32.size)
    (hphase : a.phase = .greeting) {rest : Pipe}
    (hexpect : Frame.expect limit a.link.toHost = some (.ok greeting, rest)) :
    Standing limit capacity greeting stems since' lost { a with
      link := ⟨rest, a.link.toGuest.write (Frame.encode Feed.admission)⟩
      phase := .attached stems } g := by
  obtain ⟨hopen, ⟨-, hwhole, rfl⟩ | ⟨⟨fault, hfault⟩, -⟩⟩ := h.expect hsent h32 hphase hexpect
  · obtain ⟨n, picks, haccount⟩ := h.account
    refine ⟨.attached rfl hwhole rfl ?_, n, picks, ?_⟩
    · rw [Pipe.closed_write]
      exact hopen
    · rw [Pipe.unread_write, hopen, if_neg Bool.false_ne_true, ← List.append_assoc]
      exact haccount.admit hphase _
  · cases hfault

theorem refuse (h : Standing limit capacity greeting stems since' lost a g)
    (hphase : a.phase = .greeting)
    (hover : limit < greeting.length ∨ limit < Feed.admission.length) (rest : Pipe) :
    Standing limit capacity greeting stems since' lost
      (Attachment.leave { a with link.toHost := rest }) g := by
  obtain ⟨n, picks, haccount⟩ := h.account
  exact ⟨.gone rfl, n, picks, haccount.refuse hphase rfl hover⟩

/-- Nothing has come from a guest after its greeting. -/
theorem read_eq_none (h : Standing limit capacity greeting stems since' lost a g)
    {stems' : List String} (hphase : a.phase = .attached stems') :
    stems' = stems ∧ Frame.read limit a.link.toHost = none ∧ a.link.toGuest.closed = false := by
  cases h.wired with
  | attached ha _ htoHost htoGuest =>
    rw [hphase] at ha
    cases ha
    exact ⟨rfl, by rw [htoHost]; rfl, htoGuest⟩
  | joining ha => simp [hphase] at ha
  | gone ha => simp [hphase] at ha

theorem wired_of_attached (h : Standing limit capacity greeting stems since' lost a g)
    (hphase : a.phase = .attached stems) {b : Attachment} (hb : b.phase = .attached stems)
    (htoHost : b.link.toHost = a.link.toHost)
    (htoGuest : b.link.toGuest.closed = a.link.toGuest.closed) : Wired greeting stems b g := by
  cases h.wired with
  | attached _ hwhole hhost hguest =>
    exact .attached hb hwhole (htoHost.trans hhost) (htoGuest.trans hguest)
  | joining ha => simp [hphase] at ha
  | gone ha => simp [hphase] at ha

theorem pass (h : Standing limit capacity greeting stems since' lost a g)
    (hphase : a.phase = .attached stems) {m : Message} {ms : List Message}
    (hbacklog : a.backlog = m :: ms) (hlabel : Feed.matchesAny stems m.label = false) :
    Standing limit capacity greeting stems since' lost { a with backlog := ms } g := by
  obtain ⟨n, picks, haccount⟩ := h.account
  exact ⟨h.wired_of_attached hphase hphase rfl rfl, n + 1, picks,
    haccount.pass hphase hbacklog hlabel⟩

/-- A message that begins with one of the stems is written as far as it is within the limit. -/
theorem deliver (h : Standing limit capacity greeting stems since' lost a g)
    (hphase : a.phase = .attached stems) {m : Message} {ms : List Message}
    (hbacklog : a.backlog = m :: ms) (hlabel : Feed.matchesAny stems m.label = true)
    (hopen : a.link.toGuest.closed = false) :
    Standing limit capacity greeting stems since' lost
      (if (Feed.forward limit m).2
        then { a with
          link.toGuest := a.link.toGuest.write (Feed.forward limit m).1
          backlog := ms }
        else Attachment.leave
          { a with link.toGuest := a.link.toGuest.write (Feed.forward limit m).1 }) g := by
  obtain ⟨n, picks, haccount⟩ := h.account
  have hunread (octets : List UInt8) : g.got ++ (a.link.toGuest.write octets).unread
      = g.got ++ a.link.toGuest.unread ++ octets := by
    rw [Pipe.unread_write, hopen, if_neg Bool.false_ne_true, List.append_assoc]
  rcases Feed.forward_cases limit m with
    ⟨-, -, hforward⟩ | ⟨hfits, hover, hforward⟩ | ⟨hover, hforward⟩
  · rw [hforward, if_pos rfl]
    refine ⟨h.wired_of_attached hphase hphase rfl (Pipe.closed_write _ _), n + 1, picks ++ [n], ?_⟩
    rw [hunread, ← Message.octets_eq]
    exact haccount.deliver hphase hbacklog hlabel _
  · rw [hforward, if_neg Bool.false_ne_true]
    refine ⟨.gone rfl, n, picks, ?_⟩
    show Account _ _ _ _ _ _ _ (g.got ++ (a.link.toGuest.write _).unread) _ _
    rw [hunread]
    exact haccount.cut hphase hbacklog hlabel rfl hfits hover
  · rw [hforward, if_neg Bool.false_ne_true]
    refine ⟨.gone rfl, n, picks, ?_⟩
    show Account _ _ _ _ _ _ _ (g.got ++ (a.link.toGuest.write _).unread) _ _
    rw [hunread, List.append_nil]
    exact haccount.giveUp hphase hbacklog hlabel rfl hover

/-- A message that is sent is kept for a guest that was taken in, unless the feed has left it. -/
theorem send (h : Standing limit capacity greeting stems since' lost a g) (hpos : 0 < capacity)
    (hphase : a.phase ≠ .calling) (hlost : ∀ k, lost k → lost' k)
    (hover : ∀ k, since'.length = k + capacity → a.backlog = since'.drop k → lost' k)
    (m : Message) :
    Standing limit capacity greeting stems (since' ++ [m]) lost'
      (if a.counts then { a with backlog := Feed.keepLast capacity (a.backlog ++ [m]) } else a)
      g := by
  obtain ⟨n, picks, haccount⟩ := h.account
  by_cases hgone : a.phase = .gone
  · have hcounts : a.counts = false := by simp [Attachment.counts, hgone]
    rw [hcounts, if_neg Bool.false_ne_true]
    exact ⟨h.wired, n, picks, haccount.send_gone hgone hlost m⟩
  · have hcounts : a.counts = true := by simp [Attachment.counts, hphase, hgone]
    rw [hcounts, if_pos rfl]
    obtain ⟨n', haccount'⟩ := haccount.send hpos hgone hlost (hover n) m
    refine ⟨?_, n', picks, haccount'⟩
    cases h.wired with
    | joining ha htoHost htoGuest => exact .joining ha htoHost htoGuest
    | attached ha hwhole htoHost htoGuest => exact .attached ha hwhole htoHost htoGuest
    | gone ha => exact absurd ha hgone

end Standing

end TopicDirectory.Audience
