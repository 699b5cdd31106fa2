import TopicDirectory.Proofs.Endpoint.Spelling

/-!
# The grammar of endpoints

An endpoint is written as `tcp://`, a host, a colon and the number of a port, and a text is read as
an endpoint if and only if it is made up like this (`Endpoint.read_eq_ok_iff`).  The host is
whatever stands before the last colon; the number may have a plus sign and zeros in front.  Every
other text is given back with the fault.

Such a text need not be the one that `Endpoint.text` gives, but the endpoint is the same: what is
read from a text is read from its own text again (`Endpoint.read_text`).
-/

namespace TopicDirectory.Endpoint

/-- Whether a text can be a host: it is not empty and holds neither slashes nor blanks. -/
structure CanHost (host : String) : Prop where
  ne_empty : host ≠ ""
  no_slash : '/' ∉ host.toList
  no_blank : ∀ c ∈ host.toList, Blank.isBlank c = false

/-- Whether a text is the number of a port: some digits, perhaps after a plus sign. -/
structure PortText (number : String) (port : UInt16) : Prop where
  no_colon : ':' ∉ number.toList
  digits : ∃ sign ds, number = sign ++ ds ∧ (sign = "" ∨ sign = "+") ∧ ds ≠ "" ∧
    (∀ c ∈ ds.toList, c.isDigit = true) ∧ Decimal.value ds.toList = port.toNat

variable {s host number : String} {port : UInt16} {e : Endpoint}

theorem canHost_iff : CanHost host ↔ isHost host.toList = true := by
  have hempty : host.toList.isEmpty = false ↔ host ≠ "" := by simp
  have hslash : host.toList.contains '/' = false ↔ '/' ∉ host.toList := by simp
  have hblank : host.toList.any Blank.isBlank = false
      ↔ ∀ c ∈ host.toList, Blank.isBlank c = false := by simp
  rw [isHost, Bool.and_eq_true, Bool.and_eq_true, Bool.not_eq_true', Bool.not_eq_true',
    Bool.not_eq_true', hempty, hslash, hblank]
  exact ⟨fun h => ⟨⟨h.ne_empty, h.no_slash⟩, h.no_blank⟩, fun h => ⟨h.1.1, h.1.2, h.2⟩⟩

/-- The numbers of a port are its spellings. -/
theorem portText_iff : PortText number port ↔
    ∃ plus zeros, number = String.ofList (Decimal.padded plus zeros port.toNat) := by
  constructor
  · rintro ⟨-, sign, ds, rfl, hsign, hne, hdigits, hvalue⟩
    have hds : ds.toList ≠ [] := by simpa using hne
    obtain ⟨zeros, hzeros⟩ := Decimal.eq_padded_of_digits hds hdigits
    rw [hvalue] at hzeros
    refine ⟨sign = "+", zeros, String.toList_inj.1 ?_⟩
    rw [String.toList_append, String.toList_ofList, Decimal.padded, ← hzeros]
    rcases hsign with rfl | rfl <;> rfl
  · rintro ⟨plus, zeros, rfl⟩
    have hdigits : ∀ c ∈ List.replicate zeros '0' ++ Decimal.digits port.toNat, c.isDigit = true :=
      fun _ hc => Decimal.isDigit_of_mem_zeros hc
    constructor
    · intro hmem
      rw [String.toList_ofList, Decimal.padded] at hmem
      rcases List.mem_append.1 hmem with hmem | hmem
      · cases plus <;> simp at hmem
      · exact absurd (hdigits _ hmem) (by decide)
    · refine ⟨if plus then "+" else "", String.ofList (List.replicate zeros '0' ++
        Decimal.digits port.toNat), String.toList_inj.1 ?_, ?_, ?_, ?_, ?_⟩
      · cases plus <;> simp [Decimal.padded]
      · cases plus <;> simp
      · intro hnil
        have hlist := congrArg String.toList hnil
        rw [String.toList_ofList] at hlist
        exact Decimal.digits_ne_nil _ (List.append_eq_nil_iff.1 hlist).2
      · rw [String.toList_ofList]
        exact hdigits
      · rw [String.toList_ofList, Decimal.value_replicate_append, Decimal.value_digits]

theorem spelled_eq (e : Endpoint) (plus : Bool) (zeros : Nat) :
    e.spelled plus zeros = "tcp://" ++ e.host ++ ":"
      ++ String.ofList (Decimal.padded plus zeros e.port.toNat) := by
  apply String.toList_inj.1
  simp [spelled, scheme]

theorem read_eq_ok : read s = .ok e ↔ ofText? s = some e := by
  rw [read]
  cases ofText? s <;> simp

theorem read_cases (s : String) : (∃ e, read s = .ok e) ∨ read s = .error (.invalidEndpoint s) := by
  rw [read]
  cases ofText? s with
  | some e => exact .inl ⟨e, rfl⟩
  | none => exact .inr rfl

/-- A text is read as an endpoint if it is made up of its host and the number of its port, and only
then. -/
theorem read_eq_ok_iff : read s = .ok ⟨host, port⟩ ↔
    ∃ number, s = "tcp://" ++ host ++ ":" ++ number ∧ CanHost host ∧ PortText number port := by
  rw [read_eq_ok, ofText?_eq_some_iff, ← canHost_iff]
  constructor
  · rintro ⟨hhost, plus, zeros, rfl⟩
    exact ⟨_, spelled_eq _ plus zeros, hhost, portText_iff.2 ⟨plus, zeros, rfl⟩⟩
  · rintro ⟨number, rfl, hhost, hport⟩
    obtain ⟨plus, zeros, rfl⟩ := portText_iff.1 hport
    exact ⟨hhost, plus, zeros, (spelled_eq ⟨host, port⟩ plus zeros).symm⟩

/-- An endpoint is read from its text if its host can be one, and only then. -/
theorem read_text : read e.text = .ok e ↔ CanHost e.host := by
  rw [read_eq_ok, ofText?_eq_some_iff, ← canHost_iff]
  exact ⟨fun h => h.1, fun h => ⟨h, false, 0, (spelled_false_zero e).symm⟩⟩

/-- Whatever is read from the text of an endpoint has its host: the port has no colon. -/
theorem host_of_read_text {e' : Endpoint} (h : read e.text = .ok e') : e'.host = e.host := by
  obtain ⟨number, htext, -, hport⟩ := read_eq_ok_iff.1 h
  have hchars := congrArg String.toList htext
  simp only [text, String.toList_ofList, chars, hostAndPort, String.toList_append] at hchars
  have hsplit : e.host.toList ++ ':' :: Decimal.digits e.port.toNat
      = e'.host.toList ++ ':' :: number.toList := by
    refine (List.append_right_inj scheme).1 ?_
    rw [hchars]
    simp [scheme]
  have hcolon : ':' ∉ Decimal.digits e.port.toNat := fun hmem =>
    absurd (Decimal.isDigit_of_mem_digits hmem) (by decide)
  have hcut := cutAtLast?_eq_some_iff.2 ⟨hsplit, hport.no_colon⟩
  rw [cutAtLast?_eq_some_iff.2 ⟨rfl, hcolon⟩] at hcut
  exact (String.toList_inj.1 (Prod.mk.inj (Option.some.inj hcut)).1).symm

/-- The text of an endpoint whose host can be none is refused. -/
theorem read_text_of_not_canHost (h : ¬ CanHost e.host) :
    read e.text = .error (.invalidEndpoint e.text) := by
  rcases read_cases e.text with ⟨e', he'⟩ | hrefused
  · obtain ⟨-, -, hhost, -⟩ := read_eq_ok_iff.1 he'
    exact absurd (host_of_read_text he' ▸ hhost) h
  · exact hrefused

/-- **The grammar of endpoints.**  A text is read as the endpoint of a host and a port if and only
if it is `tcp://`, the host, a colon and the number of the port; a text that is not is given back
with the fault.  So an endpoint is read from its own text if its host can be one, and else that text
is refused; and the endpoint that is read from any text is read from its own text too. -/
theorem read_grammar :
    (∀ (s host : String) (port : UInt16), read s = .ok ⟨host, port⟩ ↔
      ∃ number, s = "tcp://" ++ host ++ ":" ++ number ∧ CanHost host ∧ PortText number port) ∧
    (∀ s, (∃ e, read s = .ok e) ∨ read s = .error (.invalidEndpoint s)) ∧
    (∀ e : Endpoint, (CanHost e.host ∧ read e.text = .ok e) ∨
      (¬ CanHost e.host ∧ read e.text = .error (.invalidEndpoint e.text))) ∧
    (∀ (s : String) (e : Endpoint), read s = .ok e → read e.text = .ok e) := by
  refine ⟨fun s host port => read_eq_ok_iff, read_cases, fun e => ?_, fun s e h => ?_⟩
  · by_cases hhost : CanHost e.host
    · exact .inl ⟨hhost, read_text.2 hhost⟩
    · exact .inr ⟨hhost, read_text_of_not_canHost hhost⟩
  · obtain ⟨number, -, hhost, -⟩ := read_eq_ok_iff.1 h
    exact read_text.2 hhost

/-- The host holds colons, and the number of the port a sign and zeros. -/
theorem read_grammar_colons :
    read "tcp://tcp:[::1]:+00080" = .ok ⟨"tcp:[::1]", 80⟩ ∧
      read (text ⟨"tcp:[::1]", 80⟩) = .ok ⟨"tcp:[::1]", 80⟩ := by
  have hread : read "tcp://tcp:[::1]:+00080" = .ok ⟨"tcp:[::1]", 80⟩ := by decide +kernel
  obtain ⟨-, -, -, hagain⟩ := read_grammar
  exact ⟨hread, hagain _ _ hread⟩

end TopicDirectory.Endpoint
