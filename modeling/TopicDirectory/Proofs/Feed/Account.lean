import TopicDirectory.Proofs.Feed.Audience

/-!
# The account of a guest

What a feed has written for a guest is accounted for by the messages that were sent since the guest
was taken in: those before some position were picked, or did not begin with one of its stems, or were
lost, and the others are still kept for it unless the feed has left (`Account`).  Everything that can
become of the guest's attachment moves the position on by one message, ends the account, or leaves
it as it is.
-/

namespace TopicDirectory.Audience

open Feed (Attachment)

/-! ## Picks -/

theorem picked_append {since : List Message} {picks : List Nat} (h : ∀ k ∈ picks, k < since.length)
    (more : List Message) : picked (since ++ more) picks = picked since picks := by
  induction picks with
  | nil => rfl
  | cons k picks ih =>
    have hk : (since ++ more)[k]? = since[k]? :=
      List.getElem?_append_left (h k List.mem_cons_self)
    simp only [picked, List.filterMap_cons, hk]
    rw [← picked, ← picked, ih fun k hk => h k (List.mem_cons_of_mem _ hk)]

theorem broadcast_append {since : List Message} {picks : List Nat}
    (h : ∀ k ∈ picks, k < since.length) (more : List Message) :
    broadcast (since ++ more) picks = broadcast since picks := by
  rw [broadcast, picked_append h, broadcast]

theorem broadcast_concat {since : List Message} {n : Nat} {m : Message} (hm : since[n]? = some m)
    (picks : List Nat) : broadcast since (picks ++ [n]) = broadcast since picks ++ m.octets := by
  simp [broadcast, picked, hm]

theorem broadcast_nil (since : List Message) : broadcast since [] = Frame.encode Feed.admission :=
  List.append_nil _

variable {stems : List String} {since : List Message} {lost lost' : Nat → Prop} {n : Nat}
  {picks : List Nat}

theorem picks_nil (stems : List String) (since : List Message) (lost : Nat → Prop) :
    Picks stems since lost 0 [] :=
  ⟨.nil, nofun, nofun, fun _ _ hk => absurd hk (Nat.not_lt_zero _)⟩

theorem Picks.lt_length (h : Picks stems since lost n picks) : ∀ k ∈ picks, k < since.length := by
  intro k hk
  obtain ⟨m, hm, -⟩ := h.matching k hk
  exact (List.getElem?_eq_some_iff.1 hm).1

theorem Picks.mono (h : Picks stems since lost n picks) (hn : n ≤ since.length)
    (more : List Message) (hlost : ∀ k, lost k → lost' k) :
    Picks stems (since ++ more) lost' n picks where
  ascending := h.ascending
  reached := h.reached
  matching := by
    intro k hk
    obtain ⟨m, hm, hlabel⟩ := h.matching k hk
    exact ⟨m, by rw [List.getElem?_append_left (h.lt_length k hk), hm], hlabel⟩
  missing := by
    intro k m hk hm hlabel hpick
    rw [List.getElem?_append_left (Nat.lt_of_lt_of_le hk hn)] at hm
    exact hlost k (h.missing k m hk hm hlabel hpick)

/-- The message at position `n` does not begin with one of the stems, or it was lost. -/
theorem Picks.skip (h : Picks stems since lost n picks)
    (hn : ∀ m, since[n]? = some m → Feed.matchesAny stems m.label = true → lost n) :
    Picks stems since lost (n + 1) picks where
  ascending := h.ascending
  reached k hk := Nat.lt_succ_of_lt (h.reached k hk)
  matching := h.matching
  missing := by
    intro k m hk hm hlabel hpick
    rcases Nat.lt_succ_iff_lt_or_eq.1 hk with hk | rfl
    · exact h.missing k m hk hm hlabel hpick
    · exact hn m hm hlabel

/-- The message at position `n` is picked. -/
theorem Picks.pick (h : Picks stems since lost n picks) {m : Message} (hm : since[n]? = some m)
    (hlabel : Feed.matchesAny stems m.label = true) :
    Picks stems since lost (n + 1) (picks ++ [n]) where
  ascending := by
    refine List.pairwise_append.2 ⟨h.ascending, List.pairwise_singleton _ _, fun k hk j hj => ?_⟩
    rw [List.mem_singleton.1 hj]
    exact h.reached k hk
  reached := by
    intro k hk
    rcases List.mem_append.1 hk with hk | hk
    · exact Nat.lt_succ_of_lt (h.reached k hk)
    · rw [List.mem_singleton.1 hk]
      exact Nat.lt_succ_self n
  matching := by
    intro k hk
    rcases List.mem_append.1 hk with hk | hk
    · exact h.matching k hk
    · rw [List.mem_singleton.1 hk]
      exact ⟨m, hm, hlabel⟩
  missing := by
    intro k m' hk hm' hlabel' hpick
    rcases Nat.lt_succ_iff_lt_or_eq.1 hk with hk | rfl
    · exact h.missing k m' hk hm' hlabel' fun hmem => hpick (List.mem_append_left _ hmem)
    · exact absurd (List.mem_append_right _ List.mem_cons_self) hpick

/-! ## The account of one guest -/

/-- What was written for a guest, where the feed has come to, and that no more messages are waiting
than can be kept. -/
structure Account (limit capacity : Nat) (greeting : List UInt8) (stems : List String)
    (since : List Message) (lost : Nat → Prop) (a : Attachment) (octets : List UInt8) (n : Nat)
    (picks : List Nat) : Prop where
  accounted : Picks stems since lost n picks
  written : Written limit greeting stems since n picks a octets
  reached : n ≤ since.length
  kept : a.phase ≠ .gone → since.length ≤ n + capacity

variable {limit capacity : Nat} {greeting octets : List UInt8} {a b : Attachment} {m : Message}
  {ms : List Message}

theorem Written.congr (h : Written limit greeting stems since n picks a octets)
    (hphase : b.phase = a.phase) (hbacklog : b.backlog = a.backlog) :
    Written limit greeting stems since n picks b octets := by
  cases h with
  | waiting ha hpicks hb => exact .waiting (hphase ▸ ha) hpicks (hbacklog.trans hb)
  | attached ha hb => exact .attached (hphase.trans ha) (hbacklog.trans hb)
  | refused ha hpicks hover => exact .refused (hphase.trans ha) hpicks hover
  | unlabelled ha hm hlabel hover => exact .unlabelled (hphase.trans ha) hm hlabel hover
  | cut ha hm hlabel hfits hover => exact .cut (hphase.trans ha) hm hlabel hfits hover

theorem Account.link (h : Account limit capacity greeting stems since lost a octets n picks)
    (l : Link) :
    Account limit capacity greeting stems since lost { a with link := l } octets n picks :=
  ⟨h.accounted, h.written.congr rfl rfl, h.reached, h.kept⟩

theorem Account.lost_mono (h : Account limit capacity greeting stems since lost a octets n picks)
    (hlost : ∀ k, lost k → lost' k) :
    Account limit capacity greeting stems since lost' a octets n picks := by
  have hpicks := h.accounted.mono h.reached [] hlost
  rw [List.append_nil] at hpicks
  exact ⟨hpicks, h.written, h.reached, h.kept⟩

theorem Account.accept (h : Account limit capacity greeting stems since lost a octets n picks)
    (hphase : a.phase = .calling) :
    Account limit capacity greeting stems since lost { a with phase := .greeting } octets n
      picks := by
  refine ⟨h.accounted, ?_, h.reached, fun _ => h.kept (by simp [hphase])⟩
  cases h.written with
  | waiting _ hpicks hbacklog => exact .waiting (.inr rfl) hpicks hbacklog
  | _ => simp_all

/-- Nothing was written for a guest that was not admitted yet. -/
theorem Account.of_greeting (h : Account limit capacity greeting stems since lost a octets n picks)
    (hphase : a.phase = .greeting) : octets = [] ∧ picks = [] ∧ a.backlog = since.drop n := by
  cases h.written with
  | waiting _ hpicks hbacklog => exact ⟨rfl, hpicks, hbacklog⟩
  | _ => simp_all

theorem Account.of_attached (h : Account limit capacity greeting stems since lost a octets n picks)
    (hphase : a.phase = .attached stems) :
    octets = broadcast since picks ∧ a.backlog = since.drop n := by
  cases h.written with
  | attached _ hbacklog => exact ⟨rfl, hbacklog⟩
  | _ => simp_all

theorem Account.admit (h : Account limit capacity greeting stems since lost a octets n picks)
    (hphase : a.phase = .greeting) (l : Link) :
    Account limit capacity greeting stems since lost
      { a with link := l, phase := .attached stems } (octets ++ Frame.encode Feed.admission) n
      picks := by
  obtain ⟨rfl, rfl, hbacklog⟩ := h.of_greeting hphase
  refine ⟨h.accounted, ?_, h.reached, fun _ => h.kept (by simp [hphase])⟩
  rw [List.nil_append, ← broadcast_nil since]
  exact .attached rfl hbacklog

theorem Account.refuse (h : Account limit capacity greeting stems since lost a octets n picks)
    (hphase : a.phase = .greeting) (hb : b.phase = .gone)
    (hover : limit < greeting.length ∨ limit < Feed.admission.length) :
    Account limit capacity greeting stems since lost b octets n picks := by
  obtain ⟨rfl, rfl, -⟩ := h.of_greeting hphase
  exact ⟨h.accounted, .refused hb rfl hover, h.reached, fun hne => absurd hb hne⟩

/-- The oldest message that is kept is the one that the feed has come to. -/
theorem drop_eq_cons (h : since.drop n = m :: ms) :
    since[n]? = some m ∧ ms = since.drop (n + 1) ∧ n + 1 ≤ since.length := by
  have hn : n < since.length := by
    apply Nat.lt_of_not_le
    intro hle
    rw [List.drop_eq_nil_of_le hle] at h
    cases h
  rw [List.drop_eq_getElem_cons hn] at h
  obtain ⟨hm, hms⟩ := List.cons.inj h
  exact ⟨by rw [List.getElem?_eq_getElem hn, hm], hms.symm, hn⟩

theorem Account.pass (h : Account limit capacity greeting stems since lost a octets n picks)
    (hphase : a.phase = .attached stems) (hbacklog : a.backlog = m :: ms)
    (hlabel : Feed.matchesAny stems m.label = false) :
    Account limit capacity greeting stems since lost { a with backlog := ms } octets (n + 1)
      picks := by
  obtain ⟨rfl, hdrop⟩ := h.of_attached hphase
  obtain ⟨hm, rfl, hn⟩ := drop_eq_cons (hdrop.symm.trans hbacklog)
  have hkept := h.kept (by simp [hphase])
  refine ⟨h.accounted.skip fun m' hm' hlabel' => ?_, .attached hphase rfl, hn, fun _ => by omega⟩
  obtain rfl := Option.some.inj (hm.symm.trans hm')
  exact absurd (hlabel.symm.trans hlabel') nofun

theorem Account.deliver (h : Account limit capacity greeting stems since lost a octets n picks)
    (hphase : a.phase = .attached stems) (hbacklog : a.backlog = m :: ms)
    (hlabel : Feed.matchesAny stems m.label = true) (l : Link) :
    Account limit capacity greeting stems since lost { a with link := l, backlog := ms }
      (octets ++ m.octets) (n + 1) (picks ++ [n]) := by
  obtain ⟨rfl, hdrop⟩ := h.of_attached hphase
  obtain ⟨hm, rfl, hn⟩ := drop_eq_cons (hdrop.symm.trans hbacklog)
  have hkept := h.kept (by simp [hphase])
  refine ⟨h.accounted.pick hm hlabel, ?_, hn, fun _ => by omega⟩
  rw [← broadcast_concat hm]
  exact .attached hphase rfl

theorem Account.cut (h : Account limit capacity greeting stems since lost a octets n picks)
    (hphase : a.phase = .attached stems) (hbacklog : a.backlog = m :: ms)
    (hlabel : Feed.matchesAny stems m.label = true) (hb : b.phase = .gone)
    (hfits : (Utf8.encode m.label).length ≤ limit) (hover : limit < m.payload.length) :
    Account limit capacity greeting stems since lost b
      (octets ++ Frame.encode (Utf8.encode m.label)) n picks := by
  obtain ⟨rfl, hdrop⟩ := h.of_attached hphase
  obtain ⟨hm, -, -⟩ := drop_eq_cons (hdrop.symm.trans hbacklog)
  exact ⟨h.accounted, .cut hb hm hlabel hfits hover, h.reached, fun hne => absurd hb hne⟩

theorem Account.giveUp (h : Account limit capacity greeting stems since lost a octets n picks)
    (hphase : a.phase = .attached stems) (hbacklog : a.backlog = m :: ms)
    (hlabel : Feed.matchesAny stems m.label = true) (hb : b.phase = .gone)
    (hover : limit < (Utf8.encode m.label).length) :
    Account limit capacity greeting stems since lost b octets n picks := by
  obtain ⟨rfl, hdrop⟩ := h.of_attached hphase
  obtain ⟨hm, -, -⟩ := drop_eq_cons (hdrop.symm.trans hbacklog)
  exact ⟨h.accounted, .unlabelled hb hm hlabel hover, h.reached, fun hne => absurd hb hne⟩

/-- A message that is sent is of no concern to a guest that the feed has left. -/
theorem Account.send_gone (h : Account limit capacity greeting stems since lost a octets n picks)
    (hphase : a.phase = .gone) (hlost : ∀ k, lost k → lost' k) (m : Message) :
    Account limit capacity greeting stems (since ++ [m]) lost' a octets n picks := by
  have hstay {m' : Message} (hm' : since[n]? = some m') : (since ++ [m])[n]? = some m' := by
    rw [List.getElem?_append_left (List.getElem?_eq_some_iff.1 hm').1, hm']
  refine ⟨h.accounted.mono h.reached [m] hlost, ?_, ?_, fun hne => absurd hphase hne⟩
  · cases h.written with
    | waiting ha => simp [hphase] at ha
    | attached ha => simp [hphase] at ha
    | refused _ hpicks hover => exact .refused hphase hpicks hover
    | unlabelled _ hm hlabel hover =>
      rw [← broadcast_append h.accounted.lt_length [m]]
      exact .unlabelled hphase (hstay hm) hlabel hover
    | cut _ hm hlabel hfits hover =>
      rw [← broadcast_append h.accounted.lt_length [m]]
      exact .cut hphase (hstay hm) hlabel hfits hover
  · rw [List.length_append]
    exact Nat.le_add_right_of_le h.reached

/-- The last messages are kept: all that were, or all but the oldest. -/
theorem keepLast_drop (hn : n ≤ since.length) (hkept : since.length ≤ n + capacity) (m : Message) :
    Feed.keepLast capacity (since.drop n ++ [m])
      = (since ++ [m]).drop (if since.length = n + capacity then n + 1 else n) := by
  rw [← List.drop_append_of_le_length hn, Feed.keepLast, List.drop_drop]
  congr 1
  rw [List.length_drop, List.length_append, List.length_singleton]
  split <;> omega

/-- A message that is sent is kept for a guest; the oldest one gives way if as many are kept as can
be. -/
theorem Account.send (h : Account limit capacity greeting stems since lost a octets n picks)
    (hpos : 0 < capacity) (hphase : a.phase ≠ .gone) (hlost : ∀ k, lost k → lost' k)
    (hover : since.length = n + capacity → a.backlog = since.drop n → lost' n) (m : Message) :
    ∃ n', Account limit capacity greeting stems (since ++ [m]) lost'
      { a with backlog := Feed.keepLast capacity (a.backlog ++ [m]) } octets n' picks := by
  have hkept := h.kept hphase
  have hreached := h.reached
  have hlength : (since ++ [m]).length = since.length + 1 := by simp
  have hmono := h.accounted.mono h.reached [m] hlost
  have hbacklog : a.backlog = since.drop n := by
    cases h.written with
    | waiting _ _ hbacklog => exact hbacklog
    | attached _ hbacklog => exact hbacklog
    | _ => contradiction
  refine ⟨if since.length = n + capacity then n + 1 else n, ?_, ?_, ?_, fun _ => ?_⟩
  · split
    · rename_i hfull
      exact hmono.skip fun _ _ _ => hover hfull hbacklog
    · exact hmono
  · rw [hbacklog, keepLast_drop hreached hkept]
    cases h.written with
    | waiting ha hpicks => exact .waiting ha hpicks rfl
    | attached ha =>
      rw [← broadcast_append h.accounted.lt_length [m]]
      exact .attached ha rfl
    | _ => contradiction
  · rw [hlength]
    split <;> omega
  · rw [hlength]
    split <;> omega

end TopicDirectory.Audience
