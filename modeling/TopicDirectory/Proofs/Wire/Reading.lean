import TopicDirectory.Proofs.Basic
import TopicDirectory.Wire.Command

/-!
# What can be read from a frame

The header decides which command a frame carries (`Command.Reads`).  What follows the header of a
request for a snapshot does not matter; after the other headers there has to be one value of the right
form, and a fault in it is not one of the header.
-/

namespace TopicDirectory.Wire

/-- A fault that does not lie in the header. -/
def Fault.OfPayload (fault : Fault) : Prop := ∀ header, fault ≠ .unknownHeader header

theorem Value.ofPayload_of_decode {octets : List UInt8} {fault : Fault}
    (h : decode octets = .error fault) : fault.OfPayload := by
  rw [decode] at h
  split at h <;> cases h
  nofun

theorem Value.ofPayload_of_asText {v : Value} {fault : Fault} (h : v.asText = .error fault) :
    fault.OfPayload := by
  cases v <;> cases h <;> nofun

namespace Command

theorem ofPayload_of_recordOf {v : Value} {fault : Fault} (h : recordOf v = .error fault) :
    fault.OfPayload := by
  cases v <;> cases h <;> nofun

/-- What reading a frame can come to. -/
inductive Reads : List UInt8 → Except Fault Command → Prop
  | empty : Reads [] (.error .emptyFrame)
  | register (payload : List UInt8) (candidate : Record) :
    Reads (0x01 :: payload) (.ok (.register candidate))
  | deregister (payload : List UInt8) (id : UInt32) : Reads (0x02 :: payload) (.ok (.deregister id))
  | snapshot (payload : List UInt8) : Reads (0x03 :: payload) (.ok .snapshot)
  | setTopics (payload : List UInt8) (id : UInt32) (topics : List String) :
    Reads (0x04 :: payload) (.ok (.setTopics id topics))
  | unreadable {header : UInt8} (payload : List UInt8) {fault : Fault}
    (hheader : header = 0x01 ∨ header = 0x02 ∨ header = 0x04) (hfault : fault.OfPayload) :
    Reads (header :: payload) (.error fault)
  | unknown {header : UInt8} (payload : List UInt8)
    (hheader : header ∉ [0x01, 0x02, 0x03, 0x04]) :
    Reads (header :: payload) (.error (.unknownHeader header))

/-- A command is made of a part of the value that follows the header. -/
theorem reads_of_part {α : Type} {header : UInt8} {payload : List UInt8}
    {part : Value → Except Fault α} {make : α → Except Fault Command}
    (hheader : header = 0x01 ∨ header = 0x02 ∨ header = 0x04)
    (hpart : ∀ v fault, part v = .error fault → fault.OfPayload)
    (hmake : ∀ a fault, make a = .error fault → fault.OfPayload)
    (hreads : ∀ a c, make a = .ok c → Reads (header :: payload) (.ok c)) :
    Reads (header :: payload) (Value.decode payload >>= fun v => part v >>= make) := by
  cases h : Value.decode payload >>= fun v => part v >>= make with
  | error fault =>
    refine .unreadable payload hheader ?_
    rcases bind_eq_error.1 h with hdecode | ⟨v, -, h⟩
    · exact Value.ofPayload_of_decode hdecode
    · rcases bind_eq_error.1 h with hfault | ⟨a, -, hfault⟩
      · exact hpart v fault hfault
      · exact hmake a fault hfault
  | ok c =>
    obtain ⟨v, -, h⟩ := bind_eq_ok.1 h
    obtain ⟨a, -, h⟩ := bind_eq_ok.1 h
    exact hreads a c h

theorem reads_register (payload : List UInt8) :
    Reads (0x01 :: payload) (decode (0x01 :: payload)) := by
  refine reads_of_part (.inl rfl) (fun _ _ => ofPayload_of_recordOf) ?_ ?_
  · rintro r fault ⟨⟩
  · rintro r c ⟨⟩
    exact .register payload r

theorem reads_deregister (payload : List UInt8) :
    Reads (0x02 :: payload) (decode (0x02 :: payload)) := by
  refine reads_of_part (.inr (.inl rfl)) (fun _ _ => Value.ofPayload_of_asText) ?_ ?_
  · intro s fault h
    split at h <;> cases h
    nofun
  · intro s c h
    split at h <;> cases h
    exact .deregister payload _

theorem reads_setTopics (payload : List UInt8) :
    Reads (0x04 :: payload) (decode (0x04 :: payload)) := by
  refine reads_of_part (.inr (.inr rfl)) (fun _ _ => ofPayload_of_recordOf) ?_ ?_
  · intro r fault h
    split at h <;> cases h
    nofun
  · intro r c h
    split at h <;> cases h
    exact .setTopics payload _ _

/-- The header decides what is read. -/
theorem reads_decode (frame : List UInt8) : Reads frame (decode frame) := by
  cases frame with
  | nil => exact .empty
  | cons header payload =>
    by_cases hregister : header = 0x01
    · subst hregister
      exact reads_register payload
    · by_cases hderegister : header = 0x02
      · subst hderegister
        exact reads_deregister payload
      · by_cases hsnapshot : header = 0x03
        · subst hsnapshot
          exact .snapshot payload
        · by_cases htopics : header = 0x04
          · subst htopics
            exact reads_setTopics payload
          · rw [decode, if_neg hregister, if_neg hderegister, if_neg hsnapshot, if_neg htopics]
            exact .unknown payload (by simp [hregister, hderegister, hsnapshot, htopics])

/-- The command that is read from a frame is the one of its header. -/
theorem head?_of_decode {frame : List UInt8} {c : Command} (h : decode frame = .ok c) :
    frame.head? = some c.header := by
  have hreads := reads_decode frame
  rw [h] at hreads
  cases hreads <;> rfl

end Command

end TopicDirectory.Wire
