import TopicDirectory.Proofs.Link.Frames

/-!
# From a writer to a reader

A writer and a reader that have limits of their own.  The writer refuses the bodies that are over its
limit, and writes the frames of the others one after the other (`writeAll_eq`).  The reader takes
frames as long as they are within its own limit.  Of a frame over that limit it takes the four octets
of the length and nothing else, so the body stays where it is (`readAll_writeAll`).
-/

namespace TopicDirectory.Frame

open Link (Fault)

/-- Writes bodies one after the other to a pipe; with the pipe comes what each writing came to. -/
def writeAll (limit : Nat) (p : Pipe) : List (List UInt8) → List (Except Fault Unit) × Pipe
  | [] => ([], p)
  | body :: bodies =>
    match write limit body with
    | .ok octets =>
      let (results, q) := writeAll limit (p.write octets) bodies
      (.ok () :: results, q)
    | .error fault =>
      let (results, q) := writeAll limit p bodies
      (.error fault :: results, q)

/-- What writing a body comes to. -/
def verdict (limit : Nat) (body : List UInt8) : Except Fault Unit :=
  if limit < body.length then .error (.frameTooLarge body.length limit) else .ok ()

/-- The bodies that are within a limit. -/
def accepted (limit : Nat) (bodies : List (List UInt8)) : List (List UInt8) :=
  bodies.filter fun b => b.length ≤ limit

variable {limit : Nat}

theorem length_le_of_mem_accepted {bodies : List (List UInt8)} {body : List UInt8}
    (h : body ∈ accepted limit bodies) : body.length ≤ limit :=
  of_decide_eq_true (List.mem_filter.1 h).2

/-- What is over the limit is refused and nothing of it is written; all else is written. -/
theorem writeAll_eq (limit : Nat) {p : Pipe} (hopen : p.closed = false)
    (bodies : List (List UInt8)) :
    writeAll limit p bodies
      = (bodies.map (verdict limit),
        { p with unread := p.unread ++ (accepted limit bodies).flatMap encode }) := by
  induction bodies generalizing p with
  | nil => simp [writeAll, accepted]
  | cons body bodies ih =>
    by_cases hlimit : body.length ≤ limit
    · have hnext : p.write (encode body) = { p with unread := p.unread ++ encode body } := by
        simp [Pipe.write, hopen]
      have haccepted : accepted limit (body :: bodies) = body :: accepted limit bodies := by
        simp [accepted, hlimit]
      have hverdict : verdict limit body = .ok () := if_neg (Nat.not_lt.2 hlimit)
      have hrest := ih (p := { p with unread := p.unread ++ encode body }) hopen
      rw [writeAll, write_of_le hlimit, haccepted, List.map_cons, hverdict]
      dsimp only
      rw [hnext, hrest, List.flatMap_cons, List.append_assoc]
    · have hwrite : write limit body = .error (.frameTooLarge body.length limit) :=
        if_pos (Nat.lt_of_not_le hlimit)
      have haccepted : accepted limit (body :: bodies) = accepted limit bodies := by
        simp [accepted, hlimit]
      have hverdict : verdict limit body = .error (.frameTooLarge body.length limit) :=
        if_pos (Nat.lt_of_not_le hlimit)
      rw [writeAll, hwrite, haccepted, List.map_cons, hverdict]
      dsimp only
      rw [ih hopen]

/-- At the end of what has come the reader finds just that. -/
theorem readAll_nil (limit : Nat) : readAll limit ⟨[], true⟩ = ⟨[], some (.ok none), ⟨[], true⟩⟩ :=
  readAll_of_other rfl nofun

/-- Of a frame over the limit the length is taken, and the body stays where it is. -/
theorem readAll_of_lt {body : List UInt8} (hlimit : limit < body.length)
    (h32 : body.length < UInt32.size) (rest : List UInt8) (closed : Bool) :
    readAll limit ⟨encode body ++ rest, closed⟩
      = ⟨[], some (.error (.frameTooLarge body.length limit)), ⟨body ++ rest, closed⟩⟩ :=
  readAll_of_other (read_encode_of_lt hlimit h32) nofun

/-- **What is written is read.**  A writer whose limit the four octets of a length can hold refuses
the bodies over the limit, and writes nothing of them.  A reader with a limit of its own takes the
bodies that were written, in order, and then finds the end; or, where one of them is over the reader's
limit, it takes those before the first such one, and then finds that this one is too large, having
taken the four octets of its length and nothing of what follows them. -/
theorem readAll_writeAll {writing : Nat} (hwriting : writing < UInt32.size) (reading : Nat)
    (bodies : List (List UInt8)) :
    let written := accepted writing bodies
    let wire := (writeAll writing {} bodies).2
    (writeAll writing {} bodies).1 = bodies.map (verdict writing) ∧
      wire.unread = written.flatMap encode ∧
      (writing ≤ reading ∨ (∀ b ∈ written, b.length ≤ reading) →
        readAll reading wire.close = ⟨written, some (.ok none), ⟨[], true⟩⟩) ∧
      ∀ before body after, written = before ++ body :: after →
        (∀ b ∈ before, b.length ≤ reading) → reading < body.length →
        readAll reading wire.close
          = ⟨before, some (.error (.frameTooLarge body.length reading)),
            ⟨body ++ after.flatMap encode, true⟩⟩ := by
  intro written wire
  have heq := writeAll_eq writing (p := {}) rfl bodies
  have hwire : wire = ⟨written.flatMap encode, false⟩ := congrArg Prod.snd heq
  have hclose : wire.close = ⟨written.flatMap encode, true⟩ := by rw [hwire]; rfl
  have hwritten (b : List UInt8) (hb : b ∈ written) : b.length ≤ writing ∧ b.length < UInt32.size := by
    have hlimit := length_le_of_mem_accepted hb
    omega
  refine ⟨congrArg Prod.fst heq, by rw [hwire], ?_, ?_⟩
  · intro hreading
    have hfits (b : List UInt8) (hb : b ∈ written) :
        b.length ≤ reading ∧ b.length < UInt32.size := by
      obtain ⟨hlimit, h32⟩ := hwritten b hb
      rcases hreading with hle | hall
      · exact ⟨Nat.le_trans hlimit hle, h32⟩
      · exact ⟨hall b hb, h32⟩
    have hall := readAll_flatMap_encode hfits [] true
    rw [List.append_nil, readAll_nil, List.append_nil] at hall
    rw [hclose, hall]
  · intro before body after hsplit hbefore hlarge
    have hmem : body ∈ written := hsplit ▸ List.mem_append_right _ List.mem_cons_self
    have hfits (b : List UInt8) (hb : b ∈ before) :
        b.length ≤ reading ∧ b.length < UInt32.size :=
      ⟨hbefore b hb, (hwritten b (hsplit ▸ List.mem_append_left _ hb)).2⟩
    have hfirst := readAll_flatMap_encode hfits (encode body ++ after.flatMap encode) true
    rw [readAll_of_lt hlarge (hwritten body hmem).2, List.append_nil] at hfirst
    rw [hclose, hsplit, List.flatMap_append, List.flatMap_cons, hfirst]

/-- Five bodies, of which a writer with a limit of three octets refuses the third. -/
def sampleBodies : List (List UInt8) := [[1], [], [1, 2, 3, 4], [5, 6, 7], [8]]

theorem readAll_writeAll_sampleBodies :
    3 < UInt32.size ∧
      (writeAll 3 {} sampleBodies).1
        = [.ok (), .ok (), .error (.frameTooLarge 4 3), .ok (), .ok ()] ∧
      readAll 3 (writeAll 3 {} sampleBodies).2.close
        = ⟨[[1], [], [5, 6, 7], [8]], some (.ok none), ⟨[], true⟩⟩ ∧
      readAll 2 (writeAll 3 {} sampleBodies).2.close
        = ⟨[[1], []], some (.error (.frameTooLarge 3 2)), ⟨[5, 6, 7, 0, 0, 0, 1, 8], true⟩⟩ := by
  have h32 : 3 < UInt32.size := by decide
  obtain ⟨hresults, -, hall, -⟩ := readAll_writeAll h32 3 sampleBodies
  obtain ⟨-, -, -, hlarge⟩ := readAll_writeAll h32 2 sampleBodies
  refine ⟨h32, hresults, hall (.inl (Nat.le_refl 3)), ?_⟩
  exact hlarge [[1], []] [5, 6, 7] [[8]] rfl (by decide) (by decide)

end TopicDirectory.Frame
