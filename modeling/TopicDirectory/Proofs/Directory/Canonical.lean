import TopicDirectory.Proofs.Client.Calls
import TopicDirectory.Proofs.Service.Log

/-!
# Frames that carry one command

A command can be sent in many ways: with other blanks and escapes, with its fields in another order or
among others, with blanks around an id, with something behind the header of a request for a snapshot,
with an id in a candidate.  One of them is its own frame (`canonical`), and that one has no other form
(`canonical_canonical`).  A directory deals with all of them as it deals with that one
(`dispatch_canonical`), and so it does with any number of frames one after the other
(`replies_canonical`, `fed_canonical`).
-/

namespace TopicDirectory

open Wire (Command)

namespace Wire.Command

/-- A frame in the form in which its command is written; a frame that carries no command is left as
it is. -/
def canonical (frame : List UInt8) : List UInt8 :=
  match decode frame with
  | .ok c => c.encode
  | .error _ => frame

variable {frame : List UInt8} {c : Command}

theorem canonical_of_decode (h : decode frame = .ok c) : canonical frame = c.encode := by
  rw [canonical, h]

/-- The id of a candidate is not written either. -/
theorem encode_sent (c : Command) : c.sent.encode = c.encode := by
  cases c <;> rfl

/-- A frame has one form only. -/
theorem canonical_canonical (frame : List UInt8) : canonical (canonical frame) = canonical frame := by
  cases h : decode frame with
  | error fault =>
    have hsame : canonical frame = frame := by rw [canonical, h]
    rw [hsame, hsame]
  | ok c => rw [canonical_of_decode h, canonical_of_decode (decode_encode c), encode_sent]

end Wire.Command

namespace Directory

open Wire.Command (canonical)

theorem dispatch_encode_of_decode {frame : List UInt8} {c : Command}
    (h : Command.decode frame = .ok c) (r : Registry) : dispatch r c.encode = dispatch r frame := by
  rw [dispatch_encode, dispatch, h]

/-- The form of a frame does not matter. -/
theorem dispatch_canonical (r : Registry) (frame : List UInt8) :
    dispatch r (canonical frame) = dispatch r frame := by
  cases h : Command.decode frame with
  | error fault => rw [canonical, h]
  | ok c => rw [Wire.Command.canonical_of_decode h, dispatch_encode_of_decode h]

theorem replies_canonical (r : Registry) (frames : List (List UInt8)) :
    r.replies (frames.map canonical) = r.replies frames := by
  induction frames generalizing r with
  | nil => rfl
  | cons frame frames ih =>
    rw [List.map_cons, Registry.replies, Registry.replies, dispatch_canonical, ih]

theorem fed_canonical (r : Registry) (frames : List (List UInt8)) :
    r.fed (frames.map canonical) = r.fed frames := by
  induction frames generalizing r with
  | nil => rfl
  | cons frame frames ih =>
    rw [Registry.fed, List.map_cons, List.foldl_cons, dispatch_canonical]
    exact ih _

/-- **The form of a command does not matter.**  A command is read from its own frame as it was, but
for the id of a candidate.  Whatever frame a command is read from, a directory gives the same answer
to that frame and to the command's own, changes the registry for both or for neither, and is left
with the same registry.  So it is for any number of frames one after the other. -/
theorem canonical_equivalent :
    (∀ c : Command, Command.decode c.encode = .ok c.sent) ∧
      (∀ (frame : List UInt8) (c : Command), Command.decode frame = .ok c → ∀ r : Registry,
        (dispatch r frame).reply = (dispatch r c.encode).reply ∧
          (dispatch r frame).changed = (dispatch r c.encode).changed ∧
          (dispatch r frame).registry r = (dispatch r c.encode).registry r) ∧
      ∀ (r : Registry) (frames : List (List UInt8)),
        r.replies (frames.map canonical) = r.replies frames ∧
          r.fed (frames.map canonical) = r.fed frames := by
  refine ⟨Command.decode_encode, fun frame c h r => ?_, fun r frames => ?_⟩
  · rw [dispatch_encode_of_decode h]
    exact ⟨rfl, rfl, rfl⟩
  · exact ⟨replies_canonical r frames, fed_canonical r frames⟩

/-- A candidate sent with blanks, with its fields in another order, one escape, a field that no
candidate has, and an id. -/
def spelledFrame : List UInt8 :=
  0x01 :: Utf8.encode (" \x7b\"type\": \"record\", \"value\":\n\x7b\"name\":\"\\u0061\", \"age\":[1.5],"
    ++ "\"id\":7,\"address\":\"tcp://h:1\"\x7d\x7d ")

/-- The candidate that is read. -/
def spelledCandidate : Record := { id := some 7, address := "tcp://h:1", name := "a" }

theorem canonical_equivalent_spelledFrame :
    Command.decode spelledFrame = .ok (.register spelledCandidate) ∧
      spelledFrame ≠ (Command.register spelledCandidate).encode ∧
      (dispatch {} spelledFrame).reply
        = (dispatch {} (Command.register spelledCandidate).encode).reply ∧
      (dispatch {} spelledFrame).changed
        = (dispatch {} (Command.register spelledCandidate).encode).changed := by
  have hdecode : Command.decode spelledFrame = .ok (.register spelledCandidate) := by rfl
  obtain ⟨-, hsame, -⟩ := canonical_equivalent
  obtain ⟨hreply, hchanged, -⟩ := hsame spelledFrame _ hdecode {}
  exact ⟨hdecode, by decide +kernel, hreply, hchanged⟩

end Directory

end TopicDirectory
