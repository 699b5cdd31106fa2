/-!
# UTF-8

Strings as the octets that stand for them on the wire.  Encoding never loses anything
(`decode?_encode`), and octets are read only in the one way they can be written
(`encode_of_decode?`).  `decodeLossy` reads any octets: a part that begins no character, or breaks
off inside one, becomes one replacement character.
-/

namespace TopicDirectory.Utf8

/-- The octets of a string. -/
def encode (s : String) : List UInt8 := s.toByteArray.data.toList

/-- The string that the octets spell, if they are valid UTF-8. -/
def decode? (octets : List UInt8) : Option String := String.fromUTF8? ⟨octets.toArray⟩

@[simp] theorem decode?_encode (s : String) : decode? (encode s) = some s := by
  simp [decode?, encode, String.fromUTF8?, String.fromUTF8, s.isValidUTF8]

theorem encode_ofList (cs : List Char) :
    encode (String.ofList cs) = cs.flatMap String.utf8EncodeChar := by
  simp [encode, List.utf8Encode]

theorem encode_of_decode? {octets : List UInt8} {s : String} (h : decode? octets = some s) :
    encode s = octets := by
  unfold decode? String.fromUTF8? String.fromUTF8 at h
  split at h
  · simp only [Option.some.injEq] at h
    subst h
    simp [encode]
  · simp at h

/-- Two strings with the same octets are the same string. -/
theorem encode_injective {s t : String} (h : encode s = encode t) : s = t := by
  have hs := decode?_encode s
  rw [h, decode?_encode] at hs
  exact (Option.some.inj hs).symm

/-! ### Reading octets that may be damaged -/

/-- A character of which some octets have been read: its bits so far, and for each octet still to
come the range it has to lie in. -/
structure Partial where
  bits : Nat
  due : List (UInt8 × UInt8)

/-- What a first octet promises: `none` if no character begins with it. -/
def Partial.start? (b : UInt8) : Option Partial :=
  let anyLater : UInt8 × UInt8 := (0x80, 0xbf)
  if b < 0x80 then some ⟨b.toNat, []⟩
  else if b < 0xc2 then none
  else if b < 0xe0 then some ⟨b.toNat % 0x20, [anyLater]⟩
  else if b = 0xe0 then some ⟨0, [(0xa0, 0xbf), anyLater]⟩
  else if b = 0xed then some ⟨0xd, [(0x80, 0x9f), anyLater]⟩
  else if b < 0xf0 then some ⟨b.toNat % 0x10, [anyLater, anyLater]⟩
  else if b = 0xf0 then some ⟨0, [(0x90, 0xbf), anyLater, anyLater]⟩
  else if b < 0xf4 then some ⟨b.toNat % 0x08, [anyLater, anyLater, anyLater]⟩
  else if b = 0xf4 then some ⟨4, [(0x80, 0x8f), anyLater, anyLater]⟩
  else none

/-- The characters read so far, last first, and the one begun, if any. -/
structure Reading where
  done : List Char
  begun : Option Partial

/-- The character that stands for what cannot be read. -/
def replacement : Char := '\uFFFD'

/-- Reads an octet with which a character has to begin. -/
def Reading.start (done : List Char) (b : UInt8) : Reading :=
  match Partial.start? b with
  | none => ⟨replacement :: done, none⟩
  | some ⟨bits, []⟩ => ⟨Char.ofNat bits :: done, none⟩
  | some p => ⟨done, some p⟩

/-- Reads one more octet; an octet out of range breaks off the character begun and is read anew. -/
def Reading.step (r : Reading) (b : UInt8) : Reading :=
  match r.begun with
  | none | some ⟨_, []⟩ => start r.done b
  | some ⟨bits, (low, high) :: due⟩ =>
    if low ≤ b ∧ b ≤ high then
      let bits := bits * 0x40 + b.toNat % 0x40
      match due with
      | [] => ⟨Char.ofNat bits :: r.done, none⟩
      | _ => ⟨r.done, some ⟨bits, due⟩⟩
    else start (replacement :: r.done) b

/-- The characters of a reading whose octets have come to an end. -/
def Reading.finish (r : Reading) : List Char :=
  (if r.begun.isSome then replacement :: r.done else r.done).reverse

/-- The string that the octets spell, with every unreadable part replaced. -/
def decodeLossy (octets : List UInt8) : String :=
  match decode? octets with
  | some s => s
  | none => String.ofList (octets.foldl Reading.step ⟨[], none⟩).finish

@[simp] theorem decodeLossy_encode (s : String) : decodeLossy (encode s) = s := by
  simp [decodeLossy]

end TopicDirectory.Utf8
