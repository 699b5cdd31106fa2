import TopicDirectory.Config.Client
import TopicDirectory.Config.Server
import TopicDirectory.Proofs.Link.Stream

/-!
# Limits that the length of a frame can hold

Four octets hold the lengths below `2 ^ 32`.  Of a longer body they hold the length modulo `2 ^ 32`,
and the reader takes only so much of the body (`read_encode_wrapped`).  A body is read again just
where the four octets hold its length (`regained_iff_sound`), so all that a limit lets through is read
again if and only if the limit is below `2 ^ 32` (`regained_all_iff`).  Settings can be used with any
limit but 0, whoever's they are; `truncated_wideServer` shows what comes of a greater one.
-/

namespace TopicDirectory.Frame

/-- The length that stands in front of octets. -/
def header? : List UInt8 → Option Nat
  | a :: b :: c :: d :: _ => some (length a b c d)
  | _ => none

/-- Whether a body, if it is written at all, has its length in front, and a reader with the same limit
takes the body and leaves nothing. -/
def Regained (limit : Nat) (body : List UInt8) : Prop :=
  ∀ octets, write limit body = .ok octets → header? octets = some body.length ∧
    ∀ closed, read limit ⟨octets, closed⟩ = some (.ok (some body), ⟨[], closed⟩)

variable {limit : Nat} {body : List UInt8}

theorem write_eq_ok {octets : List UInt8} :
    write limit body = .ok octets ↔ body.length ≤ limit ∧ octets = encode body := by
  by_cases hlimit : body.length ≤ limit
  · rw [write_of_le hlimit]
    simp [hlimit, eq_comm]
  · simp [write, Nat.lt_of_not_le hlimit, hlimit]

/-! ## What four octets hold -/

theorem header?_encode (body : List UInt8) :
    header? (encode body) = some (body.length % UInt32.size) :=
  congrArg some (length_lengthOctets_mod body.length)

/-- The reader takes as much of a body as the four octets say, and leaves the rest of it to be taken
for frames. -/
theorem read_encode_wrapped (hlimit : body.length ≤ limit) (closed : Bool) :
    read limit ⟨encode body, closed⟩
      = some (.ok (some (body.take (body.length % UInt32.size))),
        ⟨body.drop (body.length % UInt32.size), closed⟩) := by
  have hl := length_lengthOctets_mod body.length
  have hle : body.length % UInt32.size ≤ body.length := Nat.mod_le _ _
  have hfits : ¬ limit < body.length % UInt32.size := by omega
  simp [read, encode, lengthOctets, hl, hfits, Nat.min_eq_left hle]

/-! ## Which bodies are read again -/

/-- A body is read again just where the four octets hold its length, or its writer refuses it. -/
theorem regained_iff_sound : Regained limit body ↔ Sound limit body := by
  constructor
  · intro h hlimit
    obtain ⟨hheader, -⟩ := h (encode body) (write_of_le hlimit)
    rw [header?_encode, Option.some.injEq] at hheader
    rw [← hheader]
    exact Nat.mod_lt _ (by decide)
  · intro h octets hwrite
    obtain ⟨hlimit, rfl⟩ := write_eq_ok.1 hwrite
    have h32 := h hlimit
    refine ⟨?_, fun closed => ?_⟩
    · rw [header?_encode, Nat.mod_eq_of_lt h32]
    · rw [read_encode_wrapped hlimit, Nat.mod_eq_of_lt h32, List.take_length, List.drop_length]

/-- A body of the least length that four octets do not hold; it is only spoken of and never built. -/
noncomputable def wideBody : List UInt8 := List.replicate UInt32.size 0

theorem length_wideBody : wideBody.length = UInt32.size := List.length_replicate

/-- A limit lets through only what is read again if the four octets can hold it. -/
theorem regained_all_iff (limit : Nat) :
    (∀ body, Regained limit body) ↔ limit < UInt32.size := by
  constructor
  · intro h
    refine Nat.lt_of_not_le fun hlimit => ?_
    have hsound := regained_iff_sound.1 (h wideBody) (length_wideBody ▸ hlimit)
    rw [length_wideBody] at hsound
    exact Nat.lt_irrefl _ hsound
  · intro hlimit body
    exact regained_iff_sound.2 fun hle => Nat.lt_of_le_of_lt hle hlimit

/-- **When no length is truncated.**  With the limit of any settings, a directory's or a caller's, all
that is written has its true length in front and is read again, if and only if the limit is below
`2 ^ 32`.  Within any limit the four octets hold the length of a body modulo `2 ^ 32`, and the reader
takes that much of the body and leaves the rest. -/
theorem regained_settings_iff (server : Config.Server) (client : Config.Client) :
    ((∀ body, Regained server.messageSize.toNat body) ↔ server.messageSize.toNat < UInt32.size) ∧
      ((∀ body, Regained client.messageSize.toNat body) ↔
        client.messageSize.toNat < UInt32.size) ∧
      ∀ limit body, body.length ≤ limit →
        ∃ octets, write limit body = .ok octets ∧
          header? octets = some (body.length % UInt32.size) ∧
          ∀ closed, read limit ⟨octets, closed⟩
            = some (.ok (some (body.take (body.length % UInt32.size))),
              ⟨body.drop (body.length % UInt32.size), closed⟩) := by
  refine ⟨regained_all_iff _, regained_all_iff _, fun limit body hlimit => ?_⟩
  exact ⟨encode body, write_of_le hlimit, header?_encode body, read_encode_wrapped hlimit⟩

/-- Settings of a directory with a limit of `2 ^ 32` octets. -/
def wideServer : Config.Server := { messageSize := 0x100000000 }

/-- Settings of a caller with a limit of `2 ^ 32` octets. -/
def wideClient : Config.Client := { messageSize := 0x100000000 }

/-- **A length that is truncated.**  Settings with a limit of `2 ^ 32` octets can be used, and a body
of that length is within the limit.  The length in front of its frame is 0, so an empty body is read,
and the octets of the body are left unread. -/
theorem truncated_wideServer :
    wideServer.validate = .ok () ∧ wideClient.validate = .ok () ∧
      wideClient.messageSize = wideServer.messageSize ∧ wideBody.length = UInt32.size ∧
      ∃ octets, write wideServer.messageSize.toNat wideBody = .ok octets ∧
        header? octets = some 0 ∧
        read wideServer.messageSize.toNat ⟨octets, true⟩ = some (.ok (some []), ⟨wideBody, true⟩) := by
  have hlimit : wideBody.length ≤ wideServer.messageSize.toNat := by
    rw [length_wideBody]
    decide
  have hread := read_encode_wrapped hlimit true
  have hheader := header?_encode wideBody
  rw [length_wideBody, Nat.mod_self] at hread hheader
  exact ⟨rfl, rfl, rfl, length_wideBody, encode wideBody, write_of_le hlimit, hheader,
    hread⟩

end TopicDirectory.Frame
