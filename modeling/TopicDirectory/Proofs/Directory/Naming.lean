import TopicDirectory.Proofs.Client.Calls
import TopicDirectory.Proofs.Directory.Dispatch
import TopicDirectory.Proofs.Registry.Invariant
import TopicDirectory.Proofs.Service.Log

/-!
# Frames that name an id

What the directory holds under an id is changed only by frames that name the id (`get?_dispatch`):
no other frame is read as a command to remove the publisher or to replace its topics, and an id that
is held is never given again.
-/

namespace TopicDirectory

open Client (Call)
open Wire (Command RegisterReply StatusReply)

/-- Whether a command is about the publisher with an id. -/
def Wire.Command.names (id : UInt32) : Command → Bool
  | .deregister i | .setTopics i _ => i = id
  | .register _ | .snapshot => false

namespace Directory

/-- Whether a frame is read as a command about the publisher with an id. -/
def names (id : UInt32) (frame : List UInt8) : Bool :=
  match Command.decode frame with
  | .ok c => c.names id
  | .error _ => false

variable {r : Registry} {id : UInt32} {p : Record}

theorem coherent_dispatch (h : r.Coherent) (frame : List UInt8) :
    ((dispatch r frame).registry r).Coherent := by
  rcases dispatch_granted r frame with ⟨-, hsame⟩ | ⟨c, s, -, rfl, hc⟩
  · rwa [hsame]
  · exact h.grant hc

theorem coherent_fed (h : r.Coherent) (frames : List (List UInt8)) : (r.fed frames).Coherent := by
  induction frames generalizing r with
  | nil => exact h
  | cons frame frames ih => exact ih (coherent_dispatch h frame)

/-! ## Other frames -/

theorem get?_register {r' : Registry} {candidate : Record} {id' : UInt32} (h : r.Coherent)
    (hget : r.get? id = some p) (hr : r.register candidate = .ok (id', r')) :
    r'.get? id = some p := by
  obtain ⟨-, -, -, -, rfl⟩ := Registry.register_eq_ok.1 hr
  have hne : id ≠ r.nextId := UInt32.ne_of_lt (h.below id p hget)
  show (r.records.insert r.nextId _).get? id = _
  rw [IdMap.get?_insert, if_neg hne]
  exact hget

theorem get?_deregister {r' : Registry} {gone : Record} {id' : UInt32} (hne : id' ≠ id)
    (hget : r.get? id = some p) (hr : r.deregister id' = .ok (gone, r')) :
    r'.get? id = some p := by
  obtain ⟨-, rfl⟩ := Registry.deregister_eq_ok.1 hr
  show (r.records.erase id').get? id = _
  rw [IdMap.get?_erase, if_neg hne.symm]
  exact hget

theorem get?_setTopics {r' : Registry} {id' : UInt32} {topics : List String} (hne : id' ≠ id)
    (hget : r.get? id = some p) (hr : r.setTopics id' topics = .ok r') : r'.get? id = some p := by
  obtain ⟨-, rfl⟩ := Registry.setTopics_eq_ok.1 hr
  show (r.records.adjust id' _).get? id = _
  rw [IdMap.get?_adjust, if_neg hne.symm]
  exact hget

/-- A frame that does not name an id leaves what is held under it. -/
theorem get?_dispatch {frame : List UInt8} (h : r.Coherent) (hget : r.get? id = some p)
    (hnames : names id frame = false) : ((dispatch r frame).registry r).get? id = some p := by
  rw [names] at hnames
  rw [dispatch]
  cases hdecode : Command.decode frame with
  | error fault => exact hget
  | ok command =>
    rw [hdecode] at hnames
    cases command with
    | snapshot => exact hget
    | register candidate =>
      cases hr : r.register candidate with
      | error fault =>
        simp only [carryOut, hr]
        exact hget
      | ok taken =>
        simp only [carryOut, hr]
        exact get?_register h hget hr
    | deregister id' =>
      cases hr : r.deregister id' with
      | error fault =>
        simp only [carryOut, hr]
        exact hget
      | ok taken =>
        simp only [carryOut, hr]
        exact get?_deregister (of_decide_eq_false hnames) hget hr
    | setTopics id' topics =>
      cases hr : r.setTopics id' topics with
      | error fault =>
        simp only [carryOut, hr]
        exact hget
      | ok r' =>
        simp only [carryOut, hr]
        exact get?_setTopics (of_decide_eq_false hnames) hget hr

/-! ## The frames of a publisher -/

/-- The directory answers a registration, and holds under the id that it gives the candidate. -/
theorem dispatch_register (r : Registry) (candidate : Record) :
    ∃ reply : RegisterReply,
      (dispatch r (Call.register candidate).request).reply = reply.toValue ∧
        ∀ id, reply = .registered id →
          ((dispatch r (Call.register candidate).request).registry r).get? id
            = some { candidate with id := some id } := by
  show ∃ reply : RegisterReply, (dispatch r (Command.register candidate).encode).reply = _ ∧
    ∀ id, _ → ((dispatch r (Command.register candidate).encode).registry r).get? id = _
  rw [dispatch_encode, carryOut]
  cases hr : r.register candidate with
  | error fault =>
    refine ⟨.refused (refusal fault), rfl, fun id hid => ?_⟩
    cases hid
  | ok taken =>
    obtain ⟨id, r'⟩ := taken
    refine ⟨.registered id, rfl, fun id' hid => ?_⟩
    cases hid
    obtain ⟨-, -, -, rfl, rfl⟩ := Registry.register_eq_ok.1 hr
    show (r.records.insert r.nextId _).get? r.nextId = _
    rw [IdMap.get?_insert, if_pos rfl]

/-- The directory answers an update, and makes it if it holds a record under the id. -/
theorem dispatch_setTopics (r : Registry) (id : UInt32) (topics : List String) :
    ∃ reply : StatusReply,
      (dispatch r (Call.setTopics id topics).request).reply = reply.toValue ∧
        ∀ p, r.get? id = some p → reply = .done ∧
          ((dispatch r (Call.setTopics id topics).request).registry r).get? id
            = some { p with topics } := by
  show ∃ reply : StatusReply, (dispatch r (Command.setTopics id topics).encode).reply = _ ∧
    ∀ p, _ → _ ∧ ((dispatch r (Command.setTopics id topics).encode).registry r).get? id = _
  rw [dispatch_encode, carryOut]
  cases hr : r.setTopics id topics with
  | error fault =>
    refine ⟨.refused (refusal fault), rfl, fun p hget => ?_⟩
    rw [Registry.setTopics, hget] at hr
    cases hr
  | ok r' =>
    obtain ⟨-, rfl⟩ := Registry.setTopics_eq_ok.1 hr
    refine ⟨.done, rfl, fun p hget => ⟨rfl, ?_⟩⟩
    show (r.records.adjust id _).get? id = _
    rw [IdMap.get?_adjust, if_pos rfl]
    exact congrArg (Option.map _) hget

end Directory

end TopicDirectory
