import TopicDirectory.Proofs.Publisher.Moves

/-!
# The life of a publisher

A publisher is registered, has a line to the directory, has a feed, and tells its id, its address
and its record, all together or not at all (`Consistent`).  One call takes it one stage further at
most, and only a call that succeeds changes anything, deregistration apart (`Lawful`).  Both hold
after every run of moves (`lawful_after`), whatever the bindings, connections and exchanges come to.
-/

namespace TopicDirectory

open Client (Call Error Session Stage)
open Link (Fault)

/-! ## Stages -/

/-- How far one call takes a publisher at most. -/
inductive Client.Stage.Advances : Stage → Stage → Prop
  | stay (s : Stage) : Advances s s
  | register (s : Session) : Advances .unregistered (.registered s)
  | deregister (s : Session) : Advances (.registered s) .deregistered

namespace Network.Publishing

variable {p : Publishing}

/-! ## What a call comes to -/

theorem make_register_cases (p : Publishing) (bound : Except Fault (Nat × UInt16))
    (dialled : Except Error Unit) (answered : Except Fault (List UInt8)) (line : Line) :
    (∃ e, p.make (.register bound dialled answered line) = { result := .error e, after := p }) ∨
      ∃ id station port address, p.publisher.registerFault? = none ∧
        p.make (.register bound dialled answered line) =
          { result := .ok (some id)
            after := ⟨{ p.publisher with stage := .registered ⟨id, address⟩ }, some line,
              some (station, port)⟩ } := by
  dsimp only [make]
  cases hfault : p.publisher.registerFault? with
  | some e => exact .inl ⟨e, rfl⟩
  | none =>
    rcases bound with fault | ⟨station, port⟩
    · exact .inl ⟨.link fault, rfl⟩
    rcases dialled with e | ⟨⟩
    · exact .inl ⟨e, rfl⟩
    dsimp only
    rcases p.publisher.register_cases (Endpoint.mk p.publisher.bindHost port).text
      ((Call.register (p.publisher.candidate (Endpoint.mk p.publisher.bindHost port).text)).result
        answered) with ⟨e, heq⟩ | ⟨id, -, -, heq⟩
    · rw [heq]
      exact .inl ⟨e, rfl⟩
    · rw [heq]
      exact .inr ⟨id, station, port, _, rfl, rfl⟩

theorem make_publish_cases (p : Publishing) (topic text : String) :
    (∃ e, p.publisher.message topic text = .error e ∧
        p.make (.publish topic text) = { result := .error e, after := p }) ∨
      ∃ m, p.publisher.message topic text = .ok m ∧
        p.make (.publish topic text) =
          { result := .ok none, sent := p.feed.map fun (station, _) => (station, m), after := p } := by
  dsimp only [make]
  cases p.publisher.message topic text with
  | error e => exact .inl ⟨e, rfl, rfl⟩
  | ok m => exact .inr ⟨m, rfl, rfl⟩

theorem make_setTopics_cases (p : Publishing) (topics : List String)
    (answered : Except Fault (List UInt8)) (line : Line) :
    (∃ e held, held.isSome = p.line.isSome ∧ p.make (.setTopics topics answered line) =
        { result := .error e, after := { p with line := held } }) ∨
      (p.line.isSome = true ∧ p.make (.setTopics topics answered line) =
        { result := .ok none
          after := { p with publisher := { p.publisher with topics }, line := some line } }) := by
  obtain ⟨publisher, held, feed⟩ := p
  dsimp only [make]
  cases publisher.id? with
  | none => exact .inl ⟨.notRegistered, held, rfl, rfl⟩
  | some id =>
    cases held with
    | none => exact .inl ⟨.notRegistered, none, rfl, rfl⟩
    | some _ =>
      dsimp only
      rcases publisher.setTopics_cases topics ((Call.setTopics id topics).result answered) with
        ⟨e, heq⟩ | ⟨-, -, heq⟩
      · rw [heq]
        exact .inl ⟨e, some line, rfl, rfl⟩
      · rw [heq]
        exact .inr ⟨rfl, rfl⟩

theorem make_setTopics_of_none (h : p.publisher.registered = false) (topics : List String)
    (answered : Except Fault (List UInt8)) (line : Line) :
    p.make (.setTopics topics answered line) = { result := .error .notRegistered, after := p } := by
  unfold make
  rw [Client.Publisher.id?_eq_none h]

theorem make_deregister_of_none (h : p.publisher.registered = false)
    (answered : Except Fault (List UInt8)) :
    p.make (.deregister answered) = { result := .ok none, after := p } := by
  unfold make
  rw [Client.Publisher.id?_eq_none h]

/-! ## Consistency -/

/-- The signs of a registered publisher go together. -/
structure Consistent (p : Publishing) : Prop where
  line : p.line.isSome = p.publisher.registered
  feed : p.feed.isSome = p.publisher.registered
  id : p.publisher.id?.isSome = p.publisher.registered
  address : p.publisher.address?.isSome = p.publisher.registered
  record : p.publisher.record?.isSome = p.publisher.registered

/-- Only the line and the feed are held beside the stage. -/
theorem Consistent.of_held (hline : p.line.isSome = p.publisher.registered)
    (hfeed : p.feed.isSome = p.publisher.registered) : Consistent p where
  line := hline
  feed := hfeed
  id := Client.Publisher.isSome_id?
  address := Client.Publisher.isSome_address?
  record := Client.Publisher.isSome_record?

theorem make_deregister (h : Consistent p) (hregistered : p.publisher.registered = true)
    (answered : Except Fault (List UInt8)) :
    ∃ result, p.make (.deregister answered) =
      { result, after := { publisher := { p.publisher with stage := .deregistered } } } := by
  obtain ⟨s, hstage⟩ := Client.Publisher.registered_eq_true.1 hregistered
  obtain ⟨line, hline⟩ := Option.isSome_iff_exists.1 (h.line.trans hregistered)
  have hid : p.publisher.id? = some s.id := Client.Publisher.id?_eq_some.2 ⟨s, hstage, rfl⟩
  unfold make
  rw [hid, hline]
  dsimp only
  rw [Client.Publisher.deregister_eq hstage]
  exact ⟨_, rfl⟩

theorem Consistent.make (h : Consistent p) (m : Move) : Consistent (p.make m).after := by
  cases m with
  | register bound dialled answered line =>
    rcases make_register_cases p bound dialled answered line with
      ⟨e, heq⟩ | ⟨id, station, port, address, -, heq⟩
    · rw [heq]
      exact h
    · rw [heq]
      exact .of_held rfl rfl
  | publish topic text =>
    rcases make_publish_cases p topic text with ⟨e, -, heq⟩ | ⟨m, -, heq⟩
    · rw [heq]
      exact h
    · rw [heq]
      exact h
  | setTopics topics answered line =>
    rcases make_setTopics_cases p topics answered line with ⟨e, held, hheld, heq⟩ | ⟨hline, heq⟩
    · rw [heq]
      exact .of_held (hheld.trans h.line) h.feed
    · rw [heq]
      exact .of_held (hline.symm.trans h.line) h.feed
  | deregister answered =>
    cases hregistered : p.publisher.registered with
    | false =>
      rw [make_deregister_of_none hregistered]
      exact h
    | true =>
      obtain ⟨result, heq⟩ := make_deregister h hregistered answered
      rw [heq]
      exact .of_held rfl rfl

theorem Consistent.run (h : Consistent p) (ms : List Move) : Consistent (p.run ms) := by
  induction ms generalizing p with
  | nil => exact h
  | cons m ms ih => exact ih (h.make m)

/-! ## Stages -/

/-- One call takes a publisher one stage further at most. -/
theorem advances_make (h : Consistent p) (m : Move) :
    Stage.Advances p.publisher.stage (p.make m).after.publisher.stage := by
  cases m with
  | register bound dialled answered line =>
    rcases make_register_cases p bound dialled answered line with
      ⟨e, heq⟩ | ⟨id, station, port, address, hfault, heq⟩
    · rw [heq]
      exact .stay _
    · rw [heq, (Client.Publisher.registerFault?_eq_none.1 hfault).1]
      exact .register _
  | publish topic text =>
    rcases make_publish_cases p topic text with ⟨e, -, heq⟩ | ⟨m, -, heq⟩
    · rw [heq]
      exact .stay _
    · rw [heq]
      exact .stay _
  | setTopics topics answered line =>
    rcases make_setTopics_cases p topics answered line with ⟨e, held, -, heq⟩ | ⟨-, heq⟩
    · rw [heq]
      exact .stay _
    · rw [heq]
      exact .stay _
  | deregister answered =>
    cases hregistered : p.publisher.registered with
    | false =>
      rw [make_deregister_of_none hregistered]
      exact .stay _
    | true =>
      obtain ⟨s, hstage⟩ := Client.Publisher.registered_eq_true.1 hregistered
      obtain ⟨result, heq⟩ := make_deregister h hregistered answered
      rw [heq, hstage]
      exact .deregister s

/-- A registered publisher keeps its id and address until it is deregistered. -/
theorem stage_run (h : Consistent p) {s : Session} (ms : List Move)
    (hstage : p.publisher.stage = .registered s ∨ p.publisher.stage = .deregistered) :
    (p.run ms).publisher.stage = .registered s ∨ (p.run ms).publisher.stage = .deregistered := by
  induction ms generalizing p with
  | nil => exact hstage
  | cons m ms ih =>
    refine ih (h.make m) ?_
    have hadvances := advances_make h m
    generalize (p.make m).after.publisher.stage = later at hadvances ⊢
    rcases hstage with hstage | hstage
    · rw [hstage] at hadvances
      cases hadvances with
      | stay => exact .inl rfl
      | deregister => exact .inr rfl
    · rw [hstage] at hadvances
      cases hadvances with
      | stay => exact .inr rfl

/-- Nothing happens to a publisher once it is deregistered. -/
theorem make_of_deregistered (hstage : p.publisher.stage = .deregistered)
    (m : Move) : (p.make m).after = p := by
  have hregistered : p.publisher.registered = false := by rw [Client.Publisher.registered, hstage]
  cases m with
  | register bound dialled answered line =>
    rcases make_register_cases p bound dialled answered line with
      ⟨e, heq⟩ | ⟨id, station, port, address, hfault, -⟩
    · rw [heq]
    · rw [Client.Publisher.registerFault?, hstage] at hfault
      cases hfault
  | publish topic text =>
    rcases make_publish_cases p topic text with ⟨e, -, heq⟩ | ⟨m, -, heq⟩
    · rw [heq]
    · rw [heq]
  | setTopics topics answered line => rw [make_setTopics_of_none hregistered]
  | deregister answered => rw [make_deregister_of_none hregistered]

theorem run_of_deregistered (hstage : p.publisher.stage = .deregistered) (ms : List Move) :
    p.run ms = p := by
  induction ms with
  | nil => rfl
  | cons m ms ih =>
    show (p.make m).after.run ms = p
    rw [make_of_deregistered hstage m, ih]

/-! ## The law -/

/-- What the calls of a publisher may do. -/
structure Lawful (p : Publishing) : Prop where
  /-- One call takes the publisher one stage further at most. -/
  advances (m : Move) : Stage.Advances p.publisher.stage (p.make m).after.publisher.stage
  /-- The id and the address stay while the publisher is registered. -/
  same (s s' : Session) (more : List Move) : p.publisher.stage = .registered s →
    (p.run more).publisher.stage = .registered s' → s' = s
  /-- Being deregistered is for good. -/
  final (more : List Move) : p.publisher.stage = .deregistered → p.run more = p
  /-- A registration that fails leaves everything as it was. -/
  register_error (bound : Except Fault (Nat × UInt16)) (dialled : Except Error Unit)
    (answered : Except Fault (List UInt8)) (line : Line) (e : Error) :
    (p.make (.register bound dialled answered line)).result = .error e →
      (p.make (.register bound dialled answered line)).after = p
  /-- A publisher that is unregistered still can be registered. -/
  register_ok (station : Nat) (port : UInt16) (answered : Except Fault (List UInt8)) (line : Line)
    (id : UInt32) :
    let address := (Endpoint.mk p.publisher.bindHost port).text
    p.publisher.stage = .unregistered → p.publisher.config.invalid? = none →
    (Call.register (p.publisher.candidate address)).result answered = .ok (.registered id) →
      p.make (.register (.ok (station, port)) (.ok ()) answered line) =
        { result := .ok (some id)
          after := ⟨{ p.publisher with stage := .registered ⟨id, address⟩ }, some line,
            some (station, port)⟩ }
  /-- Topics that were not taken are not declared, and nothing else has changed either. -/
  setTopics_error (topics : List String) (answered : Except Fault (List UInt8)) (line : Line)
    (e : Error) :
    (p.make (.setTopics topics answered line)).result = .error e →
      (p.make (.setTopics topics answered line)).after.publisher = p.publisher ∧
        (p.make (.setTopics topics answered line)).after.feed = p.feed
  /-- A registered publisher is deregistered whatever comes of the call. -/
  deregister_registered (answered : Except Fault (List UInt8)) : p.publisher.registered = true →
    (p.make (.deregister answered)).after =
      { publisher := { p.publisher with stage := .deregistered }, line := none, feed := none }
  /-- Another one is left alone. -/
  deregister_other (answered : Except Fault (List UInt8)) : p.publisher.registered = false →
    p.make (.deregister answered) = { result := .ok none, after := p }
  /-- A message is sent on a declared topic while the publisher is registered. -/
  publish_ok (topic text : String) :
    (p.make (.publish topic text)).result = .ok none ↔
      topic ≠ "" ∧ topic ∈ p.publisher.topics ∧ p.publisher.registered = true
  /-- It goes to the publisher's feed. -/
  published (topic text : String) : (p.make (.publish topic text)).result = .ok none →
    ∃ station port, p.feed = some (station, port) ∧
      (p.make (.publish topic text)).sent = some (station, ⟨topic, (Wire.Value.text text).encode⟩)
  /-- Nothing is sent otherwise. -/
  unsent (m : Move) : (p.make m).sent.isSome = true →
    ∃ topic text, m = .publish topic text ∧ (p.make m).result = .ok none
  /-- Sending changes nothing. -/
  publish_same (topic text : String) : (p.make (.publish topic text)).after = p

theorem make_publish_eq_ok {topic text : String} :
    (p.make (.publish topic text)).result = .ok none ↔
      topic ≠ "" ∧ topic ∈ p.publisher.topics ∧ p.publisher.registered = true := by
  rcases make_publish_cases p topic text with ⟨e, hmessage, heq⟩ | ⟨m, hmessage, heq⟩
  · rw [heq]
    constructor
    · intro h
      cases h
    · intro h
      rw [Client.Publisher.message_eq_ok.2 ⟨h, rfl⟩] at hmessage
      cases hmessage
  · rw [heq]
    exact ⟨fun _ => (Client.Publisher.message_eq_ok.1 hmessage).1, fun _ => rfl⟩

theorem sent_of_publish (h : Consistent p) {topic text : String}
    (hok : (p.make (.publish topic text)).result = .ok none) :
    ∃ station port, p.feed = some (station, port) ∧
      (p.make (.publish topic text)).sent =
        some (station, ⟨topic, (Wire.Value.text text).encode⟩) := by
  have hlegal := make_publish_eq_ok.1 hok
  obtain ⟨⟨station, port⟩, hfeed⟩ := Option.isSome_iff_exists.1 (h.feed.trans hlegal.2.2)
  refine ⟨station, port, hfeed, ?_⟩
  rcases make_publish_cases p topic text with ⟨e, -, heq⟩ | ⟨m, hmessage, heq⟩
  · rw [heq] at hok
    cases hok
  · rw [heq, hfeed, (Client.Publisher.message_eq_ok.1 hmessage).2]
    rfl

/-- Only a message that is let through is sent. -/
theorem publish_of_sent (h : Consistent p) {m : Move} (hsent : (p.make m).sent.isSome = true) :
    ∃ topic text, m = .publish topic text ∧ (p.make m).result = .ok none := by
  cases m with
  | register bound dialled answered line =>
    rcases make_register_cases p bound dialled answered line with
      ⟨e, heq⟩ | ⟨id, station, port, address, -, heq⟩
    · rw [heq] at hsent
      cases hsent
    · rw [heq] at hsent
      cases hsent
  | publish topic text =>
    rcases make_publish_cases p topic text with ⟨e, -, heq⟩ | ⟨m, -, heq⟩
    · rw [heq] at hsent
      cases hsent
    · exact ⟨topic, text, rfl, by rw [heq]⟩
  | setTopics topics answered line =>
    rcases make_setTopics_cases p topics answered line with ⟨e, held, -, heq⟩ | ⟨-, heq⟩
    · rw [heq] at hsent
      cases hsent
    · rw [heq] at hsent
      cases hsent
  | deregister answered =>
    cases hregistered : p.publisher.registered with
    | false =>
      rw [make_deregister_of_none hregistered] at hsent
      cases hsent
    | true =>
      obtain ⟨result, heq⟩ := make_deregister h hregistered answered
      rw [heq] at hsent
      cases hsent

theorem Consistent.lawful (h : Consistent p) : Lawful p where
  advances m := advances_make h m
  same s s' more hstage hstage' := by
    rcases stage_run h more (.inl hstage) with hlater | hlater
    · exact Stage.registered.inj (hstage'.symm.trans hlater)
    · rw [hlater] at hstage'
      cases hstage'
  final more hstage := run_of_deregistered hstage more
  register_error bound dialled answered line e herror := by
    rcases make_register_cases p bound dialled answered line with
      ⟨e, heq⟩ | ⟨id, station, port, address, -, heq⟩
    · rw [heq]
    · rw [heq] at herror
      cases herror
  register_ok station port answered line id := by
    intro address hstage hvalid hresult
    have hfault := Client.Publisher.registerFault?_eq_none.2 ⟨hstage, hvalid⟩
    simp only [Publishing.make, hfault]
    rw [hresult]
    simp only [Client.Publisher.register, hfault]
    rfl
  setTopics_error topics answered line e herror := by
    rcases make_setTopics_cases p topics answered line with ⟨e, held, -, heq⟩ | ⟨-, heq⟩
    · rw [heq]
      exact ⟨rfl, rfl⟩
    · rw [heq] at herror
      cases herror
  deregister_registered answered hregistered := by
    obtain ⟨result, heq⟩ := make_deregister h hregistered answered
    rw [heq]
  deregister_other answered hregistered := make_deregister_of_none hregistered answered
  publish_ok topic text := make_publish_eq_ok
  published topic text hok := sent_of_publish h hok
  unsent m hsent := publish_of_sent h hsent
  publish_same topic text := by
    rcases make_publish_cases p topic text with ⟨e, -, heq⟩ | ⟨m, -, heq⟩
    · rw [heq]
    · rw [heq]

/-- A publisher that has not done anything yet. -/
def fresh (config : Config.Client) (bindHost name : String) (topics : List String) : Publishing :=
  { publisher := { config, bindHost, name, topics } }

theorem consistent_fresh (config : Config.Client) (bindHost name : String) (topics : List String) :
    Consistent (fresh config bindHost name topics) := .of_held rfl rfl

/-- **A publisher lives lawfully.**  Whatever calls are made, and whatever their bindings,
connections and exchanges come to, the signs of a registered publisher go together and the next call
does what it may.  On a network every call is one of those considered here. -/
theorem lawful_after (config : Config.Client) (bindHost name : String) (topics : List String)
    (ms : List Move) :
    Consistent ((fresh config bindHost name topics).run ms) ∧
      Lawful ((fresh config bindHost name topics).run ms) ∧
      ∀ n, Realized ((fresh config bindHost name topics).run ms) n := by
  have h := (consistent_fresh config bindHost name topics).run ms
  exact ⟨h, h.lawful, realized _⟩

end Network.Publishing

end TopicDirectory
