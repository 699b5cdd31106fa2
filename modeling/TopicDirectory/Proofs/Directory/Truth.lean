import TopicDirectory.Proofs.Directory.Generations
import TopicDirectory.Proofs.Registry.Invariant
import TopicDirectory.Proofs.Wire.RoundTrip

/-!
# The directory tells the truth

Whatever octets come as a frame, the first of them decides the form of the answer, and the answer says
whether the registry was changed (`Truthful`): a registration is answered with the id that was given or
with a negative code, a removal or new topics with `OK` or the digits of a code, a request for the
snapshot with the current one.  Where nothing was granted nothing is changed.

The cases are those of reading a frame (`Command.Reads`), and in each of them the registry grants a
change or refuses it.
-/

namespace TopicDirectory

open Wire (Command Refusal RegisterReply StatusReply)

theorem Wire.Refusal.code_neg (r : Refusal) : r.code < 0 := by
  cases r <;> decide

namespace Directory

variable {r s : Registry}

/-- Whether the answer to a registration says what was done: it is the id that was given, or a negative
code if none was. -/
structure TellsId (r : Registry) (o : Outcome) (n : Int64) : Prop where
  reply : o.reply = .int n
  readable : ∃ reply, RegisterReply.ofValue o.reply = .ok reply
  changed : o.changed.isSome ↔ 0 ≤ n
  given : ∀ s, o.changed = some s → n.toInt = r.nextId.toNat ∧ r.get? r.nextId = none ∧
    (∃ p, s.get? r.nextId = some p ∧ p.id = some r.nextId) ∧ s.nextId = r.nextId + 1
  refused : o.changed = none → ∃ c : Refusal, n = c.code

/-- Whether the answer to a removal or to new topics says what was done. -/
structure TellsStatus (o : Outcome) (text : String) : Prop where
  reply : o.reply = .text text
  readable : ∃ reply, StatusReply.ofValue o.reply = .ok reply
  changed : o.changed.isSome ↔ text = "OK"
  refused : o.changed = none → ∃ c : Refusal, text = String.ofList (Refusal.codeText c.code.toInt)

/-- Whether the answer to a frame says what was done with it. -/
structure Truthful (r : Registry) (frame : List UInt8) (o : Outcome) : Prop where
  counted : o.changed.isSome ↔ (o.registry r).generation = r.generation + 1
  grown : o.changed.isSome → r.generation.toNat + 1 < UInt64.size →
    (o.registry r).generation.toNat = r.generation.toNat + 1
  unchanged : o.changed = none → o.registry r = r
  registration : frame.head? = some 0x01 → ∃ n, TellsId r o n
  status : frame.head? = some 0x02 ∨ frame.head? = some 0x04 → ∃ text, TellsStatus o text
  snapshot : frame.head? = some 0x03 → o = ⟨.directory r.snapshot, none⟩
  empty : frame = [] → o = ⟨.text "-6", none⟩
  unknown : ∀ header, frame.head? = some header → header ∉ [0x01, 0x02, 0x03, 0x04] →
    o = ⟨.text "-7", none⟩

/-! ## The two forms of answers -/

theorem tellsId_given {candidate : Record} {id : UInt32} (hfree : r.get? r.nextId = none)
    (hr : r.register candidate = .ok (id, s)) :
    TellsId r ⟨(RegisterReply.registered id).toValue, some s⟩ (Int64.ofInt r.nextId.toNat) := by
  obtain ⟨-, -, -, rfl, rfl⟩ := Registry.register_eq_ok.1 hr
  have hint := Wire.toInt_ofInt_toNat r.nextId
  refine ⟨rfl, ⟨_, RegisterReply.ofValue_toValue (.registered r.nextId)⟩,
    ⟨fun _ => ?_, fun _ => rfl⟩, ?_, nofun⟩
  · rw [Int64.le_iff_toInt_le, hint]
    exact Int.natCast_nonneg _
  · intro s hs
    cases hs
    refine ⟨hint, hfree, ⟨{ candidate with id := some r.nextId }, ?_, rfl⟩, rfl⟩
    exact (IdMap.get?_insert _ _ _ _).trans (if_pos rfl)

theorem tellsId_refused (r : Registry) (c : Refusal) :
    TellsId r ⟨(RegisterReply.refused c).toValue, none⟩ c.code :=
  ⟨rfl, ⟨_, RegisterReply.ofValue_toValue (.refused c)⟩,
    ⟨nofun, fun h => absurd c.code_neg (Int64.not_lt.2 h)⟩, nofun, fun _ => ⟨c, rfl⟩⟩

theorem tellsStatus_done (s : Registry) : TellsStatus ⟨StatusReply.done.toValue, some s⟩ "OK" :=
  ⟨rfl, ⟨_, StatusReply.ofValue_toValue .done⟩, ⟨fun _ => rfl, fun _ => rfl⟩, nofun⟩

theorem tellsStatus_refused (c : Refusal) :
    TellsStatus ⟨(StatusReply.refused c).toValue, none⟩ c.text :=
  ⟨rfl, ⟨_, StatusReply.ofValue_toValue (.refused c)⟩, ⟨nofun, fun h => absurd h c.text_ne_success⟩,
    fun _ => ⟨c, rfl⟩⟩

/-! ## Every frame -/

/-- The answer to a frame whose fault is not one of its header has the form of the header. -/
theorem unreadable_of_ofPayload (header : UInt8) {fault : Wire.Fault} (h : fault.OfPayload) :
    unreadable (some header) fault =
      if header = 0x01 then (RegisterReply.refused .addressUnreadable).toValue
      else if header = 0x02 then (StatusReply.refused .idUnknown).toValue
      else if header = 0x04 then (StatusReply.refused .topicsRefused).toValue
      else (StatusReply.refused .malformedCommand).toValue := by
  cases fault with
  | unknownHeader header => exact absurd rfl (h header)
  | _ => rfl

theorem tellsId_dispatch (hfree : r.get? r.nextId = none) {frame : List UInt8}
    (h : frame.head? = some 0x01) : ∃ n, TellsId r (dispatch r frame) n := by
  have hreads := Command.reads_decode frame
  rw [dispatch]
  generalize Command.decode frame = result at hreads
  cases hreads with
  | register payload candidate =>
    dsimp only
    rw [carryOut]
    cases hr : r.register candidate with
    | error e => exact ⟨_, tellsId_refused r _⟩
    | ok a => exact ⟨_, tellsId_given hfree hr⟩
  | unreadable payload hheader hfault =>
    obtain rfl := Option.some.inj h
    dsimp only
    rw [h, unreadable_of_ofPayload _ hfault]
    exact ⟨_, tellsId_refused r _⟩
  | unknown payload hheader =>
    obtain rfl := Option.some.inj h
    simp at hheader
  | _ => simp at h

theorem tellsStatus_dispatch (r : Registry) {frame : List UInt8}
    (h : frame.head? = some 0x02 ∨ frame.head? = some 0x04) :
    ∃ text, TellsStatus (dispatch r frame) text := by
  have hreads := Command.reads_decode frame
  rw [dispatch]
  generalize Command.decode frame = result at hreads
  cases hreads with
  | deregister payload id =>
    dsimp only
    rw [carryOut]
    cases r.deregister id with
    | error e => exact ⟨_, tellsStatus_refused _⟩
    | ok a => exact ⟨_, tellsStatus_done _⟩
  | setTopics payload id topics =>
    dsimp only
    rw [carryOut]
    cases r.setTopics id topics with
    | error e => exact ⟨_, tellsStatus_refused _⟩
    | ok s => exact ⟨_, tellsStatus_done _⟩
  | unreadable payload hheader hfault =>
    dsimp only
    rw [List.head?_cons, unreadable_of_ofPayload _ hfault]
    rcases h with h | h
    · obtain rfl := Option.some.inj h
      exact ⟨_, tellsStatus_refused _⟩
    · obtain rfl := Option.some.inj h
      exact ⟨_, tellsStatus_refused _⟩
  | unknown payload hheader =>
    rcases h with h | h
    · obtain rfl := Option.some.inj h
      simp at hheader
    · obtain rfl := Option.some.inj h
      simp at hheader
  | _ => simp at h

theorem dispatch_of_unknown (r : Registry) {frame : List UInt8} {header : UInt8}
    (h : frame.head? = some header) (hheader : header ∉ [0x01, 0x02, 0x03, 0x04]) :
    dispatch r frame = ⟨.text "-7", none⟩ := by
  cases frame with
  | nil => cases h
  | cons first payload =>
    obtain rfl := Option.some.inj h
    obtain ⟨h1, h2, h3, h4⟩ : first ≠ 0x01 ∧ first ≠ 0x02 ∧ first ≠ 0x03 ∧ first ≠ 0x04 := by
      simpa using hheader
    rw [dispatch, Command.decode, if_neg h1, if_neg h2, if_neg h3, if_neg h4]
    rfl

theorem counted_dispatch (r : Registry) (frame : List UInt8) :
    (dispatch r frame).changed.isSome ↔
      ((dispatch r frame).registry r).generation = r.generation + 1 := by
  rcases dispatch_registry r frame with ⟨hchanged, hsame⟩ | ⟨s, hchanged, hs, hgeneration⟩
  · rw [hchanged, hsame]
    simp
  · rw [hchanged, hs]
    simp [hgeneration]

/-- Whatever comes as a frame, the answer says what was done with it. -/
theorem truthful_dispatch (hfree : r.get? r.nextId = none) (frame : List UInt8) :
    Truthful r frame (dispatch r frame) where
  counted := counted_dispatch r frame
  grown h hlt := by
    rw [(counted_dispatch r frame).1 h]
    exact Registry.toNat_add_one hlt
  unchanged h := by rw [Outcome.registry, h, Option.getD_none]
  registration := tellsId_dispatch hfree
  status := tellsStatus_dispatch r
  snapshot h := by
    cases frame with
    | nil => cases h
    | cons first payload =>
      obtain rfl := Option.some.inj h
      rfl
  empty h := by
    rw [h]
    rfl
  unknown _ := dispatch_of_unknown r

/-- **The directory tells the truth, whatever octets it is sent.**  In every registry that calls have
led to, the first octet of a frame decides the form of its answer, and the answer says whether the
registry was changed.  In that case the generation has grown by one, unless it was the last one that
64 bits can hold. -/
theorem truthful_after (cs : List Registry.Change) (frame : List UInt8) :
    Truthful (Registry.after {} cs) frame (dispatch (Registry.after {} cs) frame) := by
  have hcoherent : Registry.Coherent (Registry.after {} cs) := Registry.coherent_new.after cs
  refine truthful_dispatch ?_ frame
  -- the id that comes next is not among those that were given
  cases hget : (Registry.after {} cs).get? (Registry.after {} cs).nextId with
  | none => rfl
  | some p => exact absurd (hcoherent.below _ p hget) (UInt32.lt_irrefl _)

end Directory

end TopicDirectory
