import TopicDirectory.Client.Calls
import TopicDirectory.Directory.Dispatch
import TopicDirectory.Link.Frame
import TopicDirectory.Proofs.Wire.RoundTrip

/-!
# A call answers what the registry would

A call travels to the directory as a frame and comes back as a frame (`Call.perform`).  The caller
learns from it exactly what the registry's own operation comes to, and the registry is left exactly
as that operation leaves it (`Registry.answer`), for any number of calls one after the other
(`session_eq_answers`).

The argument has one step for each direction: the directory reads the command that was meant, up to
the id of a candidate, which the registry passes over (`register_clearId`); and the caller reads the
result that the directory meant (`answer_toValue`).
-/

namespace TopicDirectory

open Client (Call)
open Directory (dispatch carryOut refusal)
open Wire (Command RegisterReply StatusReply)

/-! ## Both sides -/

/-- What a call to a directory comes to. -/
inductive Client.Result
  | registration (r : RegisterReply)
  | status (r : StatusReply)
  | snapshot (s : Snapshot)
deriving DecidableEq

open Client (Result)

/-- The same call, with another form of its answer. -/
def Client.Call.map {α β : Type} (f : α → β) (c : Call α) : Call β :=
  ⟨c.request, fun reply => (c.answer reply).map f⟩

/-- The call for a command. -/
def Client.Call.ofCommand : Command → Call Result
  | .register candidate => (Call.register candidate).map .registration
  | .deregister id => (Call.deregister id).map .status
  | .setTopics id topics => (Call.setTopics id topics).map .status
  | .snapshot => Call.snapshot.map .snapshot

/-- Sends a body as one frame to a receiver of its own limit. -/
def Frame.carry (sender receiver : Nat) (body : List UInt8) : Except Link.Fault (List UInt8) :=
  match Frame.write sender body with
  | .error fault => .error fault
  | .ok octets =>
    match Frame.expect receiver ⟨octets, false⟩ with
    | none => .error .timeout
    | some (result, _) => result

/-- Makes a call to a directory with the given registry: the request goes out as a frame, the
directory carries it out, and its reply comes back as a frame. -/
def Client.Call.perform {α : Type} (guest host : Nat) (r : Registry) (c : Call α) :
    Except Client.Error α × Registry :=
  match Frame.carry guest host c.request with
  | .error fault => (.error (.link fault), r)
  | .ok request =>
    let outcome := dispatch r request
    (c.result (Frame.carry host guest outcome.reply.encode), outcome.registry r)

/-- What the registry itself makes of a command. -/
def Registry.answer (r : Registry) : Command → Result × Registry
  | .register candidate =>
    match r.register candidate with
    | .ok (id, r) => (.registration (.registered id), r)
    | .error e => (.registration (.refused (refusal e)), r)
  | .deregister id =>
    match r.deregister id with
    | .ok (_, r) => (.status .done, r)
    | .error e => (.status (.refused (refusal e)), r)
  | .setTopics id topics =>
    match r.setTopics id topics with
    | .ok r => (.status .done, r)
    | .error e => (.status (.refused (refusal e)), r)
  | .snapshot => (.snapshot r.snapshot, r)

/-- Makes calls one after the other. -/
def Client.session (guest host : Nat) (r : Registry) : List Command →
    List (Except Client.Error Result) × Registry
  | [] => ([], r)
  | c :: cs =>
    let (result, r) := (Call.ofCommand c).perform guest host r
    let (results, r) := session guest host r cs
    (result :: results, r)

/-- What the registry itself makes of commands one after the other. -/
def Registry.answers (r : Registry) : List Command → List Result × Registry
  | [] => ([], r)
  | c :: cs =>
    let (result, r) := r.answer c
    let (results, r) := r.answers cs
    (result :: results, r)

/-! ## Frames -/

/-- Whether a body can go from one party to another: neither refuses its size, and the four octets
of its length can hold it. -/
def Frame.Passes (sender receiver : Nat) (body : List UInt8) : Prop :=
  body.length ≤ sender ∧ body.length ≤ receiver ∧ body.length < UInt32.size

instance (sender receiver : Nat) (body : List UInt8) :
    Decidable (Frame.Passes sender receiver body) :=
  inferInstanceAs (Decidable (_ ∧ _ ∧ _))

theorem Frame.carry_of_passes {sender receiver : Nat} {body : List UInt8}
    (h : Frame.Passes sender receiver body) : Frame.carry sender receiver body = .ok body := by
  obtain ⟨hsender, hreceiver, h32⟩ := h
  have hexpect : Frame.expect receiver ⟨Frame.encode body ++ [], false⟩
      = some (.ok body, ⟨[], false⟩) := Frame.expect_encode hreceiver h32
  rw [List.append_nil] at hexpect
  simp only [Frame.carry, Frame.write_of_le hsender, hexpect]

/-- Whether the requests and the replies of a session can go between the two parties. -/
def Client.Fits (guest host : Nat) (r : Registry) : List Command → Prop
  | [] => True
  | c :: cs =>
    Frame.Passes guest host c.encode ∧
      Frame.Passes host guest (dispatch r c.encode).reply.encode ∧
      Fits guest host (r.answer c).2 cs

instance Client.decidableFits (guest host : Nat) :
    (r : Registry) → (cs : List Command) → Decidable (Client.Fits guest host r cs)
  | _, [] => inferInstanceAs (Decidable True)
  | r, c :: cs =>
    have := decidableFits guest host (r.answer c).2 cs
    inferInstanceAs (Decidable (_ ∧ _ ∧ _))

/-! ## One call -/

/-- The registry gives a candidate its id, whatever id the candidate had. -/
theorem Registry.register_clearId (r : Registry) (candidate : Record) :
    r.register { candidate with id := none } = r.register candidate := rfl

/-- What the directory makes of a command is what the registry makes of it. -/
theorem dispatch_encode (r : Registry) (c : Command) : dispatch r c.encode = carryOut r c := by
  rw [dispatch, Command.decode_encode]
  cases c with
  | register candidate =>
    show carryOut r (.register { candidate with id := none }) = carryOut r (.register candidate)
    rw [carryOut, carryOut, Registry.register_clearId]
  | deregister id => rfl
  | setTopics id topics => rfl
  | snapshot => rfl

/-- The value in which a result is sent. -/
def Client.Result.toValue : Result → Wire.Value
  | registration r => r.toValue
  | status r => r.toValue
  | snapshot s => .directory s

theorem carryOut_eq (r : Registry) (c : Command) :
    (carryOut r c).reply = (r.answer c).1.toValue ∧ (carryOut r c).registry r = (r.answer c).2 := by
  cases c with
  | register candidate =>
    rw [carryOut, Registry.answer]
    cases r.register candidate <;> exact ⟨rfl, rfl⟩
  | deregister id =>
    rw [carryOut, Registry.answer]
    cases r.deregister id <;> exact ⟨rfl, rfl⟩
  | setTopics id topics =>
    rw [carryOut, Registry.answer]
    cases r.setTopics id topics <;> exact ⟨rfl, rfl⟩
  | snapshot => exact ⟨rfl, rfl⟩

@[simp] theorem request_ofCommand (c : Command) : (Call.ofCommand c).request = c.encode := by
  cases c <;> rfl

theorem answer_registration (candidate : Record) (reply : RegisterReply) :
    (Call.ofCommand (.register candidate)).answer (Result.registration reply).toValue.encode
      = .ok (.registration reply) := by
  show ((Wire.Value.decode reply.toValue.encode >>= RegisterReply.ofValue).map _) = _
  rw [Wire.Value.decode_encode]
  show (RegisterReply.ofValue reply.toValue).map _ = _
  rw [RegisterReply.ofValue_toValue]
  rfl

theorem answer_status {c : Command} (reply : StatusReply)
    (hc : (Call.ofCommand c).answer
      = fun b => (Wire.Value.decode b >>= StatusReply.ofValue).map Result.status) :
    (Call.ofCommand c).answer (Result.status reply).toValue.encode = .ok (.status reply) := by
  rw [hc]
  show ((Wire.Value.decode reply.toValue.encode >>= StatusReply.ofValue).map _) = _
  rw [Wire.Value.decode_encode]
  show (StatusReply.ofValue reply.toValue).map _ = _
  rw [StatusReply.ofValue_toValue]
  rfl

/-- The caller reads from the octets of a result the result. -/
theorem answer_toValue (r : Registry) (c : Command) :
    (Call.ofCommand c).answer (r.answer c).1.toValue.encode = .ok (r.answer c).1 := by
  cases c with
  | register candidate =>
    rw [Registry.answer]
    cases r.register candidate with
    | ok p => exact answer_registration candidate (.registered p.1)
    | error e => exact answer_registration candidate (.refused (refusal e))
  | deregister id =>
    rw [Registry.answer]
    cases r.deregister id with
    | ok p => exact answer_status .done rfl
    | error e => exact answer_status (.refused (refusal e)) rfl
  | setTopics id topics =>
    rw [Registry.answer]
    cases r.setTopics id topics with
    | ok r => exact answer_status .done rfl
    | error e => exact answer_status (.refused (refusal e)) rfl
  | snapshot =>
    show (Wire.decodeSnapshot (Wire.encodeSnapshot r.snapshot)).map _ = _
    rw [Wire.decodeSnapshot_encodeSnapshot]
    rfl

/-- A call whose frames pass comes to what the registry's own operation comes to. -/
theorem perform_ofCommand {guest host : Nat} {r : Registry} {c : Command}
    (hrequest : Frame.Passes guest host c.encode)
    (hreply : Frame.Passes host guest (dispatch r c.encode).reply.encode) :
    (Call.ofCommand c).perform guest host r = (.ok (r.answer c).1, (r.answer c).2) := by
  obtain ⟨hvalue, hregistry⟩ := carryOut_eq r c
  rw [Call.perform, request_ofCommand, Frame.carry_of_passes hrequest]
  show ((Call.ofCommand c).result (Frame.carry host guest (dispatch r c.encode).reply.encode),
    (dispatch r c.encode).registry r) = _
  rw [dispatch_encode] at hreply ⊢
  rw [Frame.carry_of_passes hreply, hregistry, hvalue, Call.result]
  simp only [answer_toValue]

/-! ## Sessions -/

/-- **A session with the directory is a session with its registry**: from any registry, and for any
number of calls one after the other, no call fails, every call gives the result of the registry's
own operation, and the registry ends as those operations leave it. -/
theorem session_eq_answers {guest host : Nat} {r : Registry} {cs : List Command}
    (h : Client.Fits guest host r cs) :
    Client.session guest host r cs = ((r.answers cs).1.map .ok, (r.answers cs).2) := by
  induction cs generalizing r with
  | nil => rfl
  | cons c cs ih =>
    obtain ⟨hrequest, hreply, hrest⟩ := h
    simp only [Client.session, Registry.answers, perform_ofCommand hrequest hreply, ih hrest,
      List.map_cons]

/-- A session in which the registry grants some of the calls and refuses the others. -/
def sampleCalls : List Command :=
  [.register ⟨some 7, "tcp://h:1", "p\n", ["t", "ż"]⟩, .register ⟨none, "tcp://h:1", "q", []⟩,
    .setTopics 0 ["\""], .snapshot, .deregister 0, .deregister 4294967295]

theorem session_eq_answers_sampleCalls :
    Client.Fits 200 150 {} sampleCalls ∧
      Client.session 200 150 {} sampleCalls
        = ((Registry.answers {} sampleCalls).1.map .ok, (Registry.answers {} sampleCalls).2) :=
  have h : Client.Fits 200 150 {} sampleCalls := by decide +kernel
  ⟨h, session_eq_answers h⟩

end TopicDirectory
