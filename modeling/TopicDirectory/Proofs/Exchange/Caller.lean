import TopicDirectory.Exchange.Caller

/-!
# What a caller does
-/

namespace TopicDirectory.Exchange.Caller

/-- A request goes out in full, or nothing of it does and the caller has failed. -/
theorem post_cases (c : Caller) (l : Link) (request : List UInt8) :
    (∃ fault, c.post l request = (.error fault, c.fail, l)) ∨
    (c.broken = false ∧ request.length ≤ c.limit ∧ l.toHost.closed = false ∧
      c.post l request
        = (.ok (), c, { l with toHost := l.toHost.write (Frame.encode request) })) := by
  cases hbroken : c.broken with
  | true =>
    have hfail : c.fail = c := by rw [fail, ← hbroken]
    exact .inl ⟨.closed, by rw [post_of_broken hbroken, hfail]⟩
  | false =>
    by_cases hlimit : request.length ≤ c.limit
    · cases hclosed : l.toHost.closed with
      | true => exact .inl ⟨.system .reset, by simp [post, hbroken, Frame.write_of_le hlimit, hclosed]⟩
      | false =>
        exact .inr ⟨rfl, hlimit, rfl, by simp [post, hbroken, Frame.write_of_le hlimit, hclosed]⟩
    · have hwrite : Frame.write c.limit request = .error (.frameTooLarge request.length c.limit) :=
        if_pos (Nat.lt_of_not_le hlimit)
      exact .inl ⟨.frameTooLarge request.length c.limit, by simp [post, hbroken, hwrite]⟩

/-- The answer is the next frame, or there is none and the caller has failed. -/
theorem collect_cases (c : Caller) (l : Link) :
    (∃ fault rest, c.collect l = (.error fault, c.fail, { l with toGuest := rest })) ∨
    ∃ reply rest, Frame.expect c.limit l.toGuest = some (.ok reply, rest) ∧
      c.collect l = (.ok reply, c, { l with toGuest := rest }) := by
  rw [collect]
  split
  · exact .inl ⟨.timeout, l.toGuest, rfl⟩
  · exact .inr ⟨_, _, ‹_›, rfl⟩
  · exact .inl ⟨_, _, rfl⟩

end TopicDirectory.Exchange.Caller
