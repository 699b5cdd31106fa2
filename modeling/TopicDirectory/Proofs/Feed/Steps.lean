import TopicDirectory.Feed.Subscription
import TopicDirectory.Proofs.Basic
import TopicDirectory.Proofs.Json.Values

/-!
# What a step of a feed does

Each step of a feed concerns one of its attachments (`Steps`), and the feed does not come back to one
that it has left (`Serves.ne_gone`).  With those who call it and who do something on a connection of
their own, these are all that becomes of a feed while nothing is sent (`Attends`).
-/

namespace TopicDirectory.Feed

theorem getElem?_set_self {f : Feed} {i : Nat} {a : Attachment} (h : f.attachments[i]? = some a)
    (b : Attachment) : (f.set i b).attachments[i]? = some b := by
  obtain ⟨hi, -⟩ := List.getElem?_eq_some_iff.1 h
  exact List.getElem?_set_self hi

theorem getElem?_set_ne (f : Feed) {i j : Nat} (h : i ≠ j) (b : Attachment) :
    (f.set i b).attachments[j]? = f.attachments[j]? :=
  List.getElem?_set_ne h

/-- What becomes of an attachment in a step of the feed. -/
inductive Serves (limit : Nat) (a : Attachment) : Attachment → Prop
  /-- It is taken in. -/
  | accept (h : a.phase = .calling) : Serves limit a { a with phase := .greeting }
  /-- Its greeting is read, and it is admitted. -/
  | greet {greeting : List UInt8} {rest : Pipe} {stems : List String} (h : a.phase = .greeting)
    (hexpect : Frame.expect limit a.link.toHost = some (.ok greeting, rest))
    (hstems : stems? greeting = some stems) :
    Serves limit a { a with
      link := ⟨rest, a.link.toGuest.write (Frame.encode admission)⟩
      phase := .attached stems }
  /-- A frame that means nothing is read. -/
  | hear {stems : List String} {frame : List UInt8} {rest : Pipe} (h : a.phase = .attached stems)
    (hread : Frame.read limit a.link.toHost = some (.ok (some frame), rest)) :
    Serves limit a { a with link.toHost := rest }
  /-- The oldest message that is kept for it is passed over. -/
  | pass {stems : List String} {m : Message} {ms : List Message} (h : a.phase = .attached stems)
    (hbacklog : a.backlog = m :: ms) (hlabel : matchesAny stems m.label = false) :
    Serves limit a { a with backlog := ms }
  /-- The oldest message that is kept for it is written. -/
  | deliver {stems : List String} {m : Message} {ms : List Message} (h : a.phase = .attached stems)
    (hbacklog : a.backlog = m :: ms) (hlabel : matchesAny stems m.label = true)
    (hfits : (Utf8.encode m.label).length ≤ limit) (hfits' : m.payload.length ≤ limit) :
    Serves limit a { a with
      link.toGuest := a.link.toGuest.write
        (Frame.encode (Utf8.encode m.label) ++ Frame.encode m.payload)
      backlog := ms }
  /-- The feed leaves it. -/
  | leave {b : Attachment} (h : a.phase ≠ .gone) (hb : b.phase = .gone)
    (hunread : b.link.toGuest.unread = a.link.toGuest.unread) : Serves limit a b
  /-- The feed leaves it with no more than the label of a message written. -/
  | cut {m : Message} {ms : List Message} {b : Attachment} (h : a.phase ≠ .gone)
    (hbacklog : a.backlog = m :: ms) (hb : b.phase = .gone)
    (hunread : b.link.toGuest.unread
      = a.link.toGuest.unread ++ Frame.encode (Utf8.encode m.label)) : Serves limit a b

/-- What becomes of a feed in a step. -/
def Steps (f f' : Feed) : Prop :=
  ∃ i a b, f.attachments[i]? = some a ∧ Serves f.limit a b ∧ f' = f.set i b

/-! ## The steps -/

theorem accept?_eq_some {f f' : Feed} {i : Nat} (hstep : f.accept? i = some f') :
    ∃ a, f.attachments[i]? = some a ∧ a.phase = .calling ∧
      f' = f.set i { a with phase := .greeting } := by
  cases ha : f.attachments[i]? with
  | none =>
    rw [accept?, ha] at hstep
    cases hstep
  | some a =>
    rw [accept?, ha] at hstep
    obtain ⟨⟨-, hphase⟩, heq⟩ := guard_bind_eq_some.1 hstep
    exact ⟨a, rfl, hphase, (Option.some.inj heq).symm⟩

/-- A greeting is admitted, or the feed leaves because there is none, or no room to admit it. -/
theorem greet?_eq_some {f f' : Feed} {i : Nat} (hstep : f.greet? i = some f') :
    ∃ a result rest, f.attachments[i]? = some a ∧ a.phase = .greeting ∧
      Frame.expect f.limit a.link.toHost = some (result, rest) ∧
      ((∃ greeting stems, result = .ok greeting ∧ stems? greeting = some stems ∧
          f' = f.set i { a with
            link := ⟨rest, a.link.toGuest.write (Frame.encode admission)⟩
            phase := .attached stems }) ∨
        (∀ greeting stems, result = .ok greeting → stems? greeting = some stems →
            f.limit < admission.length) ∧
          f' = f.set i (Attachment.leave { a with link.toHost := rest })) := by
  cases ha : f.attachments[i]? with
  | none =>
    rw [greet?, ha] at hstep
    cases hstep
  | some a =>
    rw [greet?, ha] at hstep
    obtain ⟨hphase, hstep⟩ := guard_bind_eq_some.1 hstep
    cases hexpect : Frame.expect f.limit a.link.toHost with
    | none => simp [hexpect] at hstep
    | some found =>
      obtain ⟨result, rest⟩ := found
      refine ⟨a, result, rest, rfl, hphase, hexpect, ?_⟩
      simp only [hexpect, Option.bind_eq_bind, Option.bind_some, Option.pure_def] at hstep
      split at hstep
      · rename_i stems frame hstems hwrite
        cases result with
        | error fault => cases hstems
        | ok greeting =>
          have hframe : frame = Frame.encode admission := by
            rw [Frame.write] at hwrite
            split at hwrite
            · cases hwrite
            · exact (Except.ok.inj hwrite).symm
          rw [hframe] at hstep
          exact .inl ⟨greeting, stems, rfl, hstems, (Option.some.inj hstep).symm⟩
      · rename_i hnone
        refine .inr ⟨?_, (Option.some.inj hstep).symm⟩
        rintro greeting stems rfl hstems
        apply Decidable.byContradiction
        intro hfits
        exact hnone stems (Frame.encode admission) hstems
          (Frame.write_of_le (Nat.le_of_not_lt hfits))

theorem hear?_eq_some {f f' : Feed} {i : Nat} (hstep : f.hear? i = some f') :
    ∃ a stems result rest, f.attachments[i]? = some a ∧ a.phase = .attached stems ∧
      Frame.read f.limit a.link.toHost = some (result, rest) ∧
      ((∃ frame, result = .ok (some frame)) ∧ f' = f.set i { a with link.toHost := rest } ∨
        (∀ frame, result ≠ .ok (some frame)) ∧
          f' = f.set i (Attachment.leave { a with link.toHost := rest })) := by
  cases ha : f.attachments[i]? with
  | none => simp [hear?, ha] at hstep
  | some a =>
    cases hphase : a.phase with
    | attached stems =>
      cases hread : Frame.read f.limit a.link.toHost with
      | none => simp [hear?, ha, hphase, hread] at hstep
      | some found =>
        obtain ⟨result, rest⟩ := found
        refine ⟨a, stems, result, rest, rfl, hphase, hread, ?_⟩
        simp only [hear?, ha, hphase, hread, Option.bind_eq_bind, Option.bind_some,
          Option.pure_def] at hstep
        split at hstep
        · rename_i heq
          cases heq
          rw [hphase]
          exact .inl ⟨⟨_, rfl⟩, (Option.some.inj hstep).symm⟩
        · rename_i hresult heq
          cases heq
          exact .inr ⟨hresult, (Option.some.inj hstep).symm⟩
    | _ => simp [hear?, ha, hphase] at hstep

/-- A message goes out in full, or the feed gives up after the label or before it, according to what
is within the limit. -/
theorem forward_cases (limit : Nat) (m : Message) :
    ((Utf8.encode m.label).length ≤ limit ∧ m.payload.length ≤ limit ∧
      forward limit m
        = (Frame.encode (Utf8.encode m.label) ++ Frame.encode m.payload, true)) ∨
    ((Utf8.encode m.label).length ≤ limit ∧ limit < m.payload.length ∧
      forward limit m = (Frame.encode (Utf8.encode m.label), false)) ∨
    (limit < (Utf8.encode m.label).length ∧ forward limit m = ([], false)) := by
  rw [forward]
  by_cases hlabel : (Utf8.encode m.label).length ≤ limit
  · by_cases hpayload : m.payload.length ≤ limit
    · rw [Frame.write_of_le hlabel, Frame.write_of_le hpayload]
      exact .inl ⟨hlabel, hpayload, rfl⟩
    · have hwrite : Frame.write limit m.payload = .error (.frameTooLarge m.payload.length limit) :=
        if_pos (Nat.lt_of_not_le hpayload)
      rw [Frame.write_of_le hlabel, hwrite]
      exact .inr (.inl ⟨hlabel, Nat.lt_of_not_le hpayload, rfl⟩)
  · have hwrite : Frame.write limit (Utf8.encode m.label)
        = .error (.frameTooLarge (Utf8.encode m.label).length limit) :=
      if_pos (Nat.lt_of_not_le hlabel)
    rw [hwrite]
    exact .inr (.inr ⟨Nat.lt_of_not_le hlabel, rfl⟩)

/-- The oldest message is passed over, or it cannot be written to anybody any more, or it goes out
as far as it can. -/
theorem deliver?_eq_some {f f' : Feed} {i : Nat} (hstep : f.deliver? i = some f') :
    ∃ a stems m ms, f.attachments[i]? = some a ∧ a.phase = .attached stems ∧ a.backlog = m :: ms ∧
      (matchesAny stems m.label = false ∧ f' = f.set i { a with backlog := ms } ∨
        matchesAny stems m.label = true ∧ a.link.toGuest.closed = true ∧ f' = f.set i a.leave ∨
        matchesAny stems m.label = true ∧ a.link.toGuest.closed = false ∧
          f' = f.set i (if (forward f.limit m).2
            then { a with
              link.toGuest := a.link.toGuest.write (forward f.limit m).1
              backlog := ms }
            else Attachment.leave
              { a with link.toGuest := a.link.toGuest.write (forward f.limit m).1 })) := by
  cases ha : f.attachments[i]? with
  | none => simp [deliver?, ha] at hstep
  | some a =>
    cases hphase : a.phase with
    | attached stems =>
      cases hbacklog : a.backlog with
      | nil => simp [deliver?, ha, hphase, hbacklog] at hstep
      | cons m ms =>
        refine ⟨a, stems, m, ms, rfl, hphase, hbacklog, ?_⟩
        simp only [deliver?, ha, hphase, hbacklog, Option.bind_eq_bind, Option.bind_some] at hstep
        cases hlabel : matchesAny stems m.label with
        | false =>
          rw [hlabel, if_neg Bool.false_ne_true] at hstep
          rw [hphase]
          exact .inl ⟨rfl, (Option.some.inj hstep).symm⟩
        | true =>
          rw [hlabel, if_pos rfl] at hstep
          cases hclosed : a.link.toGuest.closed with
          | true =>
            rw [hclosed, if_pos rfl] at hstep
            exact .inr (.inl ⟨rfl, rfl, (Option.some.inj hstep).symm⟩)
          | false =>
            rw [hclosed, if_neg Bool.false_ne_true] at hstep
            refine .inr (.inr ⟨rfl, rfl, ?_⟩)
            rw [hphase]
            exact (Option.some.inj hstep).symm
    | _ => simp [deliver?, ha, hphase] at hstep

theorem steps_accept? {f f' : Feed} {i : Nat} (hstep : f.accept? i = some f') : Steps f f' := by
  obtain ⟨a, ha, hphase, rfl⟩ := accept?_eq_some hstep
  exact ⟨i, a, _, ha, .accept hphase, rfl⟩

theorem steps_greet? {f f' : Feed} {i : Nat} (hstep : f.greet? i = some f') : Steps f f' := by
  obtain ⟨a, result, rest, ha, hphase, hexpect, hcases⟩ := greet?_eq_some hstep
  rcases hcases with ⟨greeting, stems, rfl, hstems, rfl⟩ | ⟨-, rfl⟩
  · exact ⟨i, a, _, ha, .greet hphase hexpect hstems, rfl⟩
  · refine ⟨i, a, _, ha, .leave (by simp [hphase]) ?_ ?_, rfl⟩ <;> rfl

theorem steps_hear? {f f' : Feed} {i : Nat} (hstep : f.hear? i = some f') : Steps f f' := by
  obtain ⟨a, stems, result, rest, ha, hphase, hread, hcases⟩ := hear?_eq_some hstep
  rcases hcases with ⟨⟨frame, rfl⟩, rfl⟩ | ⟨-, rfl⟩
  · exact ⟨i, a, _, ha, .hear hphase hread, rfl⟩
  · refine ⟨i, a, _, ha, .leave (by simp [hphase]) ?_ ?_, rfl⟩ <;> rfl

theorem steps_deliver? {f f' : Feed} {i : Nat} (hstep : f.deliver? i = some f') : Steps f f' := by
  obtain ⟨a, stems, m, ms, ha, hphase, hbacklog, hcases⟩ := deliver?_eq_some hstep
  have hne : a.phase ≠ .gone := by simp [hphase]
  rcases hcases with ⟨hlabel, rfl⟩ | ⟨-, -, rfl⟩ | ⟨hlabel, hopen, rfl⟩
  · exact ⟨i, a, _, ha, .pass hphase hbacklog hlabel, rfl⟩
  · refine ⟨i, a, _, ha, .leave hne ?_ ?_, rfl⟩ <;> rfl
  · have hunread (octets : List UInt8) : (Attachment.leave { a with
        link.toGuest := a.link.toGuest.write octets }).link.toGuest.unread
          = a.link.toGuest.unread ++ octets := by
      simp [Attachment.leave, Link.close, Pipe.close, hopen]
    rcases forward_cases f.limit m with ⟨hfits, hfits', hforward⟩ | ⟨-, -, hforward⟩ | ⟨-, hforward⟩
    · rw [hforward, if_pos rfl]
      exact ⟨i, a, _, ha, .deliver hphase hbacklog hlabel hfits hfits', rfl⟩
    · rw [hforward, if_neg Bool.false_ne_true]
      exact ⟨i, a, _, ha, .cut hne hbacklog rfl (hunread _), rfl⟩
    · rw [hforward, if_neg Bool.false_ne_true]
      exact ⟨i, a, _, ha, .leave hne rfl ((hunread _).trans (List.append_nil _)), rfl⟩

/-- Whatever a feed does next, it does for one of its attachments. -/
theorem steps_step? {f f' : Feed} {act : Action} (hstep : f.step? act = some f') : Steps f f' := by
  cases act with
  | accept i => exact steps_accept? hstep
  | greet i => exact steps_greet? hstep
  | hear i => exact steps_hear? hstep
  | deliver i => exact steps_deliver? hstep

/-- The feed does not come back to an attachment that it has left. -/
theorem Serves.ne_gone {limit : Nat} {a b : Attachment} (h : Serves limit a b) :
    a.phase ≠ .gone := by
  cases h with
  | accept hphase => simp [hphase]
  | greet hphase => simp [hphase]
  | hear hphase => simp [hphase]
  | pass hphase => simp [hphase]
  | deliver hphase => simp [hphase]
  | leave hphase => exact hphase
  | cut hphase => exact hphase

/-- What becomes of a feed that is called, takes a step, or finds that something was done on the
connection of an attachment. -/
inductive Attends (f : Feed) : Option Nat → Feed → Prop
  | call : Attends f none f.call.1
  | step {f' : Feed} (h : Steps f f') : Attends f none f'
  | link {i : Nat} {a : Attachment} (h : f.attachments[i]? = some a) (l : Link) :
    Attends f (some i) (f.set i { a with link := l })

theorem Attends.limits {f f' : Feed} {i? : Option Nat} (h : Attends f i? f') :
    f'.limit = f.limit ∧ f'.capacity = f.capacity := by
  cases h with
  | call => exact ⟨rfl, rfl⟩
  | step h =>
    obtain ⟨i, a, b, -, -, rfl⟩ := h
    exact ⟨rfl, rfl⟩
  | link h l => exact ⟨rfl, rfl⟩

/-- An attachment stays as it is, or the feed takes a step for it. -/
theorem Attends.getElem? {f f' : Feed} {i? : Option Nat} {j : Nat} {a : Attachment}
    (h : Attends f i? f') (hne : i? ≠ some j) (ha : f.attachments[j]? = some a) :
    f'.attachments[j]? = some a ∨ ∃ b, Serves f.limit a b ∧ f'.attachments[j]? = some b := by
  cases h with
  | call =>
    obtain ⟨hj, -⟩ := List.getElem?_eq_some_iff.1 ha
    left
    rw [← ha]
    exact List.getElem?_append_left hj
  | step h =>
    obtain ⟨i, a', b, ha', hserves, rfl⟩ := h
    by_cases hij : i = j
    · subst hij
      obtain rfl := Option.some.inj (ha.symm.trans ha')
      exact .inr ⟨b, hserves, getElem?_set_self ha b⟩
    · left
      rw [getElem?_set_ne f hij, ha]
  | @link i _ _ l =>
    have hij : i ≠ j := by
      rintro rfl
      exact hne rfl
    left
    rw [getElem?_set_ne f hij, ha]

/-- The feed reads from a greeting the stems that were asked for. -/
theorem stems?_greeting (stems : List String) : stems? (Subscription.greeting stems) = some stems := by
  rw [stems?, Subscription.greeting, Json.parse?_render (Json.wellFormed_ofStrings stems)]
  exact Json.strings?_ofStrings stems

/-! ## Sending -/

theorem getElem?_send {f : Feed} {i : Nat} {a : Attachment} (h : f.attachments[i]? = some a)
    (m : Message) : (f.send m).2.attachments[i]?
      = some (if a.counts then { a with backlog := keepLast f.capacity (a.backlog ++ [m]) } else a) := by
  rw [send, List.getElem?_map, h]
  rfl

/-- The last of some items is kept, if any are. -/
theorem keepLast_concat {α : Type} {n : Nat} (hn : 0 < n) (xs : List α) (x : α) :
    ∃ ys, ys <:+ xs ∧ keepLast n (xs ++ [x]) = ys ++ [x] := by
  refine ⟨xs.drop (xs.length + 1 - n), List.drop_suffix _ _, ?_⟩
  rw [keepLast, List.length_append, List.length_singleton]
  exact List.drop_append_of_le_length (by omega)

theorem keepLast_map {α β : Type} (f : α → β) (n : Nat) (xs : List α) :
    keepLast n (xs.map f) = (keepLast n xs).map f := by
  rw [keepLast, keepLast, List.length_map, List.map_drop]

theorem capacity_new_pos (limit capacity : Nat) : 0 < (new limit capacity).capacity :=
  Nat.pos_of_isPowerOfTwo (Nat.isPowerOfTwo_nextPowerOfTwo capacity)

end TopicDirectory.Feed
