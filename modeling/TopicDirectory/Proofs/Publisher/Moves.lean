import TopicDirectory.Network.Parties

/-!
# The moves of a publisher

What a publisher does depends on the network only through what its bindings, connections and
exchanges come to.  A `Move` is a call together with these, so a run of moves meets everything that
the others can do to a publisher: refusals, octets that are no reply, connections that are lost and
waits that take too long.  On a network every call is such a move (`realized`).
-/

namespace TopicDirectory

open Client (Call Error Session Stage)
open Link (Fault)

/-! ## Publishers without a network -/

namespace Client.Publisher

variable {p : Publisher}

/-- Whether the publisher is registered. -/
def registered (p : Publisher) : Bool :=
  match p.stage with
  | .registered _ => true
  | _ => false

theorem registered_eq_true : p.registered = true ↔ ∃ s, p.stage = .registered s := by
  rw [registered]
  split
  · rename_i s hstage
    exact ⟨fun _ => ⟨s, hstage⟩, fun _ => rfl⟩
  · rename_i hstage
    exact ⟨Bool.noConfusion, fun ⟨s, h⟩ => (hstage s h).elim⟩

theorem session?_eq_some {s : Session} : p.session? = some s ↔ p.stage = .registered s := by
  rw [session?]
  cases p.stage with
  | unregistered => exact ⟨nofun, nofun⟩
  | registered s' =>
    exact ⟨fun h => congrArg _ (Option.some.inj h), fun h => congrArg _ (Stage.registered.inj h)⟩
  | deregistered => exact ⟨nofun, nofun⟩

@[simp] theorem isSome_session? : p.session?.isSome = p.registered := by
  rw [session?, registered]
  cases p.stage <;> rfl

@[simp] theorem isSome_id? : p.id?.isSome = p.registered := by
  rw [id?, Option.isSome_map, isSome_session?]

@[simp] theorem isSome_address? : p.address?.isSome = p.registered := by
  rw [address?, Option.isSome_map, isSome_session?]

@[simp] theorem isSome_record? : p.record?.isSome = p.registered := by
  rw [record?, Option.isSome_map, isSome_session?]

theorem id?_eq_some {id : UInt32} : p.id? = some id ↔ ∃ s, p.stage = .registered s ∧ s.id = id := by
  rw [id?, Option.map_eq_some_iff]
  exact exists_congr fun s => and_congr_left fun _ => session?_eq_some

theorem id?_eq_none (h : p.registered = false) : p.id? = none := by
  rw [← Option.not_isSome_iff_eq_none, isSome_id?, h]
  exact Bool.false_ne_true

theorem registerFault?_eq_none :
    p.registerFault? = none ↔ p.stage = .unregistered ∧ p.config.invalid? = none := by
  rw [registerFault?]
  cases p.stage with
  | unregistered => simp
  | registered s => simp
  | deregistered => simp

/-- A registration fails and changes nothing, or the directory has given an id. -/
theorem register_cases (p : Publisher) (address : String)
    (outcome : Except Error Wire.RegisterReply) :
    (∃ e, p.register address outcome = (.error e, p)) ∨
      ∃ id, p.registerFault? = none ∧ outcome = .ok (.registered id) ∧
        p.register address outcome = (.ok id, { p with stage := .registered ⟨id, address⟩ }) := by
  unfold register
  cases hfault : p.registerFault? with
  | some e => exact .inl ⟨e, rfl⟩
  | none =>
    cases outcome with
    | error e => exact .inl ⟨e, rfl⟩
    | ok reply =>
      cases reply with
      | refused r => exact .inl ⟨registerError address r, rfl⟩
      | registered id => exact .inr ⟨id, rfl, rfl, rfl⟩

/-- Declaring topics fails and changes nothing, or the directory has taken them. -/
theorem setTopics_cases (p : Publisher) (topics : List String)
    (outcome : Except Error Wire.StatusReply) :
    (∃ e, p.setTopics topics outcome = (.error e, p)) ∨
      (p.registered = true ∧ outcome = .ok .done ∧
        p.setTopics topics outcome = (.ok (), { p with topics })) := by
  unfold setTopics
  cases hsession : p.session? with
  | none => exact .inl ⟨.notRegistered, rfl⟩
  | some s =>
    cases outcome with
    | error e => exact .inl ⟨e, rfl⟩
    | ok reply =>
      cases reply with
      | refused r => exact .inl ⟨.topicsRefused s.id, rfl⟩
      | done => exact .inr ⟨registered_eq_true.2 ⟨s, session?_eq_some.1 hsession⟩, rfl, rfl⟩

/-- Whatever the directory says, a registered publisher is deregistered. -/
theorem deregister_eq {s : Session} (h : p.stage = .registered s)
    (outcome : Except Error Wire.StatusReply) :
    p.deregister outcome =
      (deregisterResult s.id outcome, { p with stage := .deregistered }) := by
  rw [deregister, session?_eq_some.2 h]

/-- A message is sent on a declared topic while the publisher is registered. -/
theorem message_eq_ok {topic text : String} {m : Message} :
    p.message topic text = .ok m ↔
      (topic ≠ "" ∧ topic ∈ p.topics ∧ p.registered = true) ∧
        m = ⟨topic, (Wire.Value.text text).encode⟩ := by
  have hsession : p.session?.isNone = !p.registered := by
    rw [← isSome_session?, Option.not_isSome]
  rw [message, hsession]
  by_cases htopic : topic = ""
  · simp [htopic]
  by_cases hmem : topic ∈ p.topics
  · cases hregistered : p.registered with
    | false => simp [htopic, hmem]
    | true =>
      simp only [htopic, hmem, List.contains_eq_mem, decide_true, Bool.not_true, ↓reduceIte,
        Bool.false_eq_true, ne_eq, not_false_eq_true, true_and, and_self]
      exact ⟨fun h => (Except.ok.inj h).symm, fun h => congrArg _ h.symm⟩
  · simp [htopic, hmem]

end Client.Publisher

/-! ## Moves -/

namespace Network.Publishing

/-- A call of a publisher, and what its bindings, connections and exchanges come to.  An exchange
comes with the line as it is afterwards. -/
inductive Move
  | register (bound : Except Fault (Nat × UInt16)) (dialled : Except Error Unit)
      (answered : Except Fault (List UInt8)) (line : Line)
  | publish (topic text : String)
  | setTopics (topics : List String) (answered : Except Fault (List UInt8)) (line : Line)
  | deregister (answered : Except Fault (List UInt8))

/-- What a call comes to: its result, which is an id for a registration; the message that is given
to a feed, if any; and the publisher afterwards. -/
structure Upshot where
  result : Except Error (Option UInt32)
  sent : Option (Nat × Message) := none
  after : Publishing

/-- Makes a move. -/
def make (p : Publishing) : Move → Upshot
  | .register bound dialled answered line =>
    match p.publisher.registerFault?, bound, dialled with
    | some e, _, _ => { result := .error e, after := p }
    | none, .error fault, _ => { result := .error (.link fault), after := p }
    | none, .ok _, .error e => { result := .error e, after := p }
    | none, .ok (station, port), .ok () =>
      let address := (Endpoint.mk p.publisher.bindHost port).text
      let outcome := (Call.register (p.publisher.candidate address)).result answered
      match p.publisher.register address outcome with
      | (.error e, publisher) => { result := .error e, after := { p with publisher } }
      | (.ok id, publisher) =>
        { result := .ok (some id), after := ⟨publisher, some line, some (station, port)⟩ }
  | .publish topic text =>
    match p.publisher.message topic text with
    | .error e => { result := .error e, after := p }
    | .ok m =>
      { result := .ok none, sent := p.feed.map fun (station, _) => (station, m), after := p }
  | .setTopics topics answered line =>
    match p.publisher.id?, p.line with
    | some id, some _ =>
      let outcome := (Call.setTopics id topics).result answered
      let (result, publisher) := p.publisher.setTopics topics outcome
      { result := result.map fun _ => none, after := { p with publisher, line := some line } }
    | _, _ => { result := .error .notRegistered, after := p }
  | .deregister answered =>
    match p.publisher.id?, p.line with
    | some id, some _ =>
      let outcome := (Call.deregister id).result answered
      let (result, publisher) := p.publisher.deregister outcome
      { result := result.map fun _ => none, after := { publisher } }
    | _, _ => { result := .ok none, after := p }

/-- A publisher after some moves. -/
def run (p : Publishing) (ms : List Move) : Publishing := ms.foldl (fun p m => (p.make m).after) p

/-! ## Networks -/

/-- The network after a message was given to a feed. -/
def handOver (n : Network) : Option (Nat × Message) → Network
  | none => n
  | some (station, m) => n.modify station fun s =>
    match s.feed? with
    | some f => s.withFeed (f.send m).2
    | none => s

/-- On the network, the calls of the publisher are moves. -/
structure Realized (p : Publishing) (n : Network) : Prop where
  register : ∃ bound dialled answered line,
    let u := p.make (.register bound dialled answered line)
    (p.register n).1.map some = u.result ∧ (p.register n).2.1 = u.after
  publish (topic text : String) :
    let u := p.make (.publish topic text)
    ((p.publish n topic text).1.map fun _ => none) = u.result ∧
      (p.publish n topic text).2 = handOver n u.sent
  setTopics (topics : List String) : ∃ answered line,
    let u := p.make (.setTopics topics answered line)
    ((p.setTopics n topics).1.map fun _ => none) = u.result ∧ (p.setTopics n topics).2.1 = u.after
  deregister : ∃ answered,
    let u := p.make (.deregister answered)
    ((p.deregister n).1.map fun _ => none) = u.result ∧ (p.deregister n).2.1 = u.after

/-- A line that leads nowhere. -/
def nowhere : Line := ⟨⟨0, .commands, 0⟩, { limit := 0 }⟩

theorem realized_register (p : Publishing) (n : Network) :
    ∃ bound dialled answered line,
      let u := p.make (.register bound dialled answered line)
      (p.register n).1.map some = u.result ∧ (p.register n).2.1 = u.after := by
  unfold Publishing.register make
  cases hfault : p.publisher.registerFault? with
  | some e => exact ⟨.error .closed, .ok (), .error .closed, nowhere, rfl, rfl⟩
  | none =>
    dsimp only
    rcases n.listen _ _ _ with ⟨fault | ⟨station, port⟩, n₁⟩
    · exact ⟨.error fault, .ok (), .error .closed, nowhere, rfl, rfl⟩
    dsimp only
    rcases n₁.dial p.publisher.config with ⟨e | line, n₂⟩
    · exact ⟨.ok (station, port), .error e, .error .closed, nowhere, rfl, rfl⟩
    refine ⟨.ok (station, port), .ok (), ?_⟩
    dsimp only [perform]
    rcases n₂.request line _ with ⟨answered, line', n₃⟩
    refine ⟨answered, line', ?_⟩
    dsimp only
    rcases p.publisher.register _ _ with ⟨e | id, publisher⟩
    · exact ⟨rfl, rfl⟩
    · exact ⟨rfl, rfl⟩

theorem realized (p : Publishing) (n : Network) : Realized p n where
  register := realized_register p n
  publish topic text := by
    dsimp only [Publishing.publish, make]
    cases p.publisher.message topic text with
    | error e => exact ⟨rfl, rfl⟩
    | ok m =>
      cases p.feed with
      | none => exact ⟨rfl, rfl⟩
      | some feed => exact ⟨rfl, rfl⟩
  setTopics topics := by
    unfold Publishing.setTopics make
    cases p.publisher.id? with
    | none => exact ⟨.error .closed, nowhere, rfl, rfl⟩
    | some id =>
      cases p.line with
      | none => exact ⟨.error .closed, nowhere, rfl, rfl⟩
      | some line => exact ⟨(n.request line _).1, (n.request line _).2.1, rfl, rfl⟩
  deregister := by
    unfold Publishing.deregister make
    cases p.publisher.id? with
    | none => exact ⟨.error .closed, rfl, rfl⟩
    | some id =>
      cases p.line with
      | none => exact ⟨.error .closed, rfl, rfl⟩
      | some line => exact ⟨(n.request line _).1, rfl, rfl⟩

end Network.Publishing

end TopicDirectory
