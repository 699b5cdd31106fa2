import TopicDirectory.Proofs.Directory.Dispatch
import TopicDirectory.Proofs.Wire.RoundTrip

/-!
# How long replies are

What became of a change is said in a few octets (`Wire.Verdict.length_encode_le`).  So under a limit
that is not too small for these no reply is too long but the one that carries a snapshot
(`Directory.overlong_reply`).
-/

namespace TopicDirectory

/-- Beside its number the value of an integer takes 23 octets. -/
theorem Wire.Value.length_encode_int (n : Int64) :
    (Value.int n).encode.length = (Json.Numeral.ofInt n.toInt).text.length + 23 := by
  have hlength : (Value.int n).encode.length
      = (Json.asciiText (Json.Numeral.ofInt n.toInt).text ++ [Json.ascii '\x7d']).length + 22 := rfl
  rw [hlength, List.length_append, Json.asciiText, List.length_map]
  rfl

/-- A number of 32 bits is written with at most ten digits. -/
theorem Json.Numeral.length_text_le {n : Nat} (h : n < UInt32.size) :
    (ofInt n).text.length ≤ 10 := by
  have hsign : ¬ (n : Int) < 0 := by omega
  have hdigits : (Decimal.digits n).length ≤ 10 :=
    (Nat.length_toDigits_le_iff (by decide) (by decide)).2 (Nat.lt_trans h (by decide))
  simpa [text, ofInt, hsign] using hdigits

theorem Wire.Verdict.length_encode_le {v : Value} (h : Verdict v) : v.encode.length ≤ 256 := by
  cases h with
  | registration r =>
    cases r with
    | registered id =>
      have htext := Json.Numeral.length_text_le id.toNat_lt
      rw [RegisterReply.toValue, Value.length_encode_int, toInt_ofInt_toNat]
      omega
    | refused r => cases r <;> decide
  | status r =>
    cases r with
    | done => decide
    | refused r => cases r <;> decide

/-- Only the answer to a request for a snapshot can be too long. -/
theorem Directory.overlong_reply {limit : Nat} (hlimit : 256 ≤ limit) {r : Registry}
    {frame : List UInt8} (h : limit < (dispatch r frame).reply.encode.length) :
    frame.head? = some 0x03 ∧
      (dispatch r frame).reply.encode = Wire.encodeSnapshot r.snapshot := by
  rcases dispatch_cases r frame with ⟨hhead, heq⟩ | hsettles
  · rw [heq]
    exact ⟨hhead, rfl⟩
  · generalize dispatch r frame = o at h hsettles
    cases hsettles with
    | refused hv => exact absurd h (Nat.not_lt.2 (Nat.le_trans hv.length_encode_le hlimit))
    | granted hv hs => exact absurd h (Nat.not_lt.2 (Nat.le_trans hv.length_encode_le hlimit))

end TopicDirectory
