import TopicDirectory.Link.Fault
import TopicDirectory.Link.Pipe

/-!
# Frames

A frame is four octets that give the length of its body, greatest first, and the body.  `read` takes
one frame from a pipe and says so if more octets have to come first; `write` refuses a body over the
limit and writes nothing of it.
-/

namespace TopicDirectory.Frame

open Link (Fault)

/-- The four octets of a length; a length they cannot hold loses its high part. -/
def lengthOctets (n : Nat) : List UInt8 :=
  [UInt8.ofNat (n / 0x1000000), UInt8.ofNat (n / 0x10000), UInt8.ofNat (n / 0x100), UInt8.ofNat n]

/-- The length that four octets give. -/
def length (a b c d : UInt8) : Nat :=
  ((a.toNat * 0x100 + b.toNat) * 0x100 + c.toNat) * 0x100 + d.toNat

/-- The frame of a body. -/
def encode (body : List UInt8) : List UInt8 := lengthOctets body.length ++ body

/-- The frame of a body within the limit. -/
def write (limit : Nat) (body : List UInt8) : Except Fault (List UInt8) :=
  if limit < body.length then .error (.frameTooLarge body.length limit) else .ok (encode body)

/-- Takes one frame from a pipe.  `none` if more octets have to come first; otherwise the body, or
nothing where the pipe ends before a length is complete, or why it cannot be taken: a length over
the limit is taken out alone, a body cut short is taken out with its length. -/
def read (limit : Nat) (p : Pipe) : Option (Except Fault (Option (List UInt8)) × Pipe) :=
  match p.unread with
  | a :: b :: c :: d :: rest =>
    let n := length a b c d
    if limit < n then some (.error (.frameTooLarge n limit), { p with unread := rest })
    else
      let body := rest.take n
      if body.length = n then some (.ok (some body), { p with unread := rest.drop n })
      else if p.closed then some (.error (.system .unexpectedEnd), { p with unread := [] })
      else none
  | _ => if p.closed then some (.ok none, { p with unread := [] }) else none

/-- Takes one frame from a pipe that should not have ended. -/
def expect (limit : Nat) (p : Pipe) : Option (Except Fault (List UInt8) × Pipe) :=
  (read limit p).map fun (result, p) =>
    (match result with
      | .ok (some body) => .ok body
      | .ok none => .error .closed
      | .error fault => .error fault, p)

/-- Four octets hold a length modulo `2 ^ 32`. -/
theorem length_lengthOctets_mod (n : Nat) :
    length (UInt8.ofNat (n / 0x1000000)) (UInt8.ofNat (n / 0x10000)) (UInt8.ofNat (n / 0x100))
      (UInt8.ofNat n) = n % UInt32.size := by
  simp only [length, UInt8.toNat_ofNat', UInt32.size]
  omega

theorem length_lengthOctets {n : Nat} (h : n < UInt32.size) :
    length (UInt8.ofNat (n / 0x1000000)) (UInt8.ofNat (n / 0x10000)) (UInt8.ofNat (n / 0x100))
      (UInt8.ofNat n) = n := by
  rw [length_lengthOctets_mod, Nat.mod_eq_of_lt h]

/-- What was written is read, and nothing of what follows it. -/
theorem read_encode {limit : Nat} {body rest : List UInt8} {closed : Bool}
    (hlimit : body.length ≤ limit) (h32 : body.length < UInt32.size) :
    read limit ⟨encode body ++ rest, closed⟩ = some (.ok (some body), ⟨rest, closed⟩) := by
  have hl := length_lengthOctets h32
  simp [read, encode, lengthOctets, hl, Nat.not_lt.2 hlimit]

theorem expect_encode {limit : Nat} {body rest : List UInt8} {closed : Bool}
    (hlimit : body.length ≤ limit) (h32 : body.length < UInt32.size) :
    expect limit ⟨encode body ++ rest, closed⟩ = some (.ok body, ⟨rest, closed⟩) := by
  rw [expect, read_encode hlimit h32]
  rfl

theorem write_of_le {limit : Nat} {body : List UInt8} (h : body.length ≤ limit) :
    write limit body = .ok (encode body) :=
  if_neg (Nat.not_lt.2 h)

/-- A frame taken out leaves less to read. -/
theorem unread_length_lt_of_read {limit : Nat} {p q : Pipe} {body : List UInt8}
    (h : read limit p = some (.ok (some body), q)) : q.unread.length < p.unread.length := by
  unfold read at h
  split at h
  · rename_i a b c d rest heq
    simp only at h
    split at h
    · simp at h
    · split at h
      · simp only [Option.some.injEq, Prod.mk.injEq] at h
        rw [← h.2, heq]
        simp only [List.length_drop, List.length_cons]
        omega
      · split at h <;> simp at h
  · split at h <;> simp at h

end TopicDirectory.Frame
