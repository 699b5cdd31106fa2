import TopicDirectory.Proofs.Feed.Messages
import TopicDirectory.Proofs.Reception.Basic

/-!
# A feed and its guests

A running feed, whoever gives it messages, any number of guests that write octets to it and take
octets from it, and a log of what they could tell the order of: the guests that were taken in and the
messages that were sent (`Audience`).  The feed takes the steps for one guest at any time between the
steps for the others.  Whatever can be done next is a `Move`, and a move that is not possible changes
nothing.
-/

namespace TopicDirectory

open Reception (Guest)

namespace Audience

/-- A guest was taken in, or a message was sent. -/
inductive Event
  | accepted (i : Nat)
  | sent (m : Message)
deriving DecidableEq

/-- The message that was sent, if one was. -/
def Event.message? : Event → Option Message
  | accepted _ => none
  | sent m => some m

end Audience

/-- A feed, its guests by the number of their attachment, and what has happened. -/
structure Audience where
  feed : Feed
  guests : List Guest := []
  log : List Audience.Event := []

namespace Audience

/-- What can be done next. -/
inductive Move
  /-- A guest connects. -/
  | call
  /-- A guest writes octets. -/
  | write (i : Nat) (octets : List UInt8)
  /-- A guest takes octets that have come, so many at most. -/
  | take (i n : Nat)
  /-- A guest does something else with its connection, and leaves it in some state. -/
  | stray (i : Nat) (l : Link)
  /-- A message is sent. -/
  | send (m : Message)
  /-- The feed takes a step. -/
  | serve (a : Feed.Action)

/-- A feed without guests. -/
def new (limit capacity : Nat) : Audience := { feed := .new limit capacity }

/-- What a guest does. -/
def act (r : Audience) (i : Nat) (f : Guest → Link → Guest × Link) : Audience :=
  match r.guests[i]?, r.feed.attachments[i]? with
  | some g, some a =>
    { r with
      feed := r.feed.set i { a with link := (f g a.link).2 }
      guests := r.guests.set i (f g a.link).1 }
  | _, _ => r

/-- What happens in a step of the feed. -/
def events : Feed.Action → List Event
  | .accept i => [.accepted i]
  | _ => []

/-- A step of the feed. -/
def serve (r : Audience) (a : Feed.Action) : Audience :=
  match r.feed.step? a with
  | some feed => { r with feed, log := r.log ++ events a }
  | none => r

/-- Makes a move, if it can be made. -/
def step (r : Audience) : Move → Audience
  | .call => { r with feed := r.feed.call.1, guests := r.guests ++ [{}] }
  | .write i octets => r.act i (Guest.send octets)
  | .take i n => r.act i (Guest.take n)
  | .stray i l => r.act i (Guest.stray l)
  | .send m => { r with feed := (r.feed.send m).2, log := r.log ++ [.sent m] }
  | .serve a => r.serve a

/-- Makes moves one after the other. -/
def run (r : Audience) (ms : List Move) : Audience := ms.foldl step r

/-! ## The messages for a guest -/

/-- The messages that were sent since a guest was taken in. -/
def since : List Event → Nat → List Message
  | [], _ => []
  | e :: log, i => if e = .accepted i then log.filterMap Event.message? else since log i

theorem since_append {log : List Event} {i : Nat} (h : .accepted i ∈ log) (es : List Event) :
    since (log ++ es) i = since log i ++ es.filterMap Event.message? := by
  induction log with
  | nil => cases h
  | cons e log ih =>
    by_cases he : e = .accepted i
    · simp [since, he]
    · have hlog : .accepted i ∈ log := (List.mem_cons.1 h).resolve_left (Ne.symm he)
      simp only [List.cons_append, since, if_neg he]
      exact ih hlog

theorem since_append_of_not_mem {log : List Event} {i : Nat} (h : .accepted i ∉ log)
    (es : List Event) : since (log ++ es) i = since es i := by
  induction log with
  | nil => rfl
  | cons e log ih =>
    obtain ⟨he, hlog⟩ := not_or.1 (mt List.mem_cons.2 h)
    simp only [List.cons_append, since, if_neg (Ne.symm he)]
    exact ih hlog

theorem since_of_not_mem {log : List Event} {i : Nat} (h : .accepted i ∉ log) :
    since log i = [] := by
  have happend := since_append_of_not_mem h []
  rw [List.append_nil] at happend
  exact happend

theorem since_sent {log : List Event} {i : Nat} (h : .accepted i ∈ log) (m : Message) :
    since (log ++ [.sent m]) i = since log i ++ [m] :=
  since_append h _

/-- Who is taken in makes no difference to the messages that were sent since. -/
theorem since_accepted (log : List Event) (i j : Nat) :
    since (log ++ [.accepted j]) i = since log i := by
  by_cases h : .accepted i ∈ log
  · rw [since_append h]
    exact List.append_nil _
  · rw [since_append_of_not_mem h, since_of_not_mem h]
    by_cases hij : j = i <;> simp [since, hij]

/-- A step of the feed makes no difference to the messages that were sent. -/
theorem since_events (log : List Event) (act : Feed.Action) (i : Nat) :
    since (log ++ events act) i = since log i := by
  cases act with
  | accept j => exact since_accepted log i j
  | _ => exact congrArg (since · i) (List.append_nil log)

/-- The messages at some positions. -/
def picked (since : List Message) (picks : List Nat) : List Message :=
  picks.filterMap fun k => since[k]?

/-- What has become of the messages before a position: some of those that begin with one of the stems
were picked, in their order and no one twice, and all others of them were lost. -/
structure Picks (stems : List String) (since : List Message) (lost : Nat → Prop) (n : Nat)
    (picks : List Nat) : Prop where
  ascending : picks.Pairwise (· < ·)
  reached : ∀ k ∈ picks, k < n
  matching : ∀ k ∈ picks, ∃ m, since[k]? = some m ∧ Feed.matchesAny stems m.label = true
  missing : ∀ k m, k < n → since[k]? = some m → Feed.matchesAny stems m.label = true →
    k ∉ picks → lost k

/-- The octets that admit a guest, and those of the messages that were picked for it. -/
def broadcast (since : List Message) (picks : List Nat) : List UInt8 :=
  Frame.encode Feed.admission ++ (picked since picks).flatMap Message.octets

/-- What was written for a guest that has sent a greeting, where the feed has come to the message at
position `n` of those that were sent since it took the guest in. -/
inductive Written (limit : Nat) (greeting : List UInt8) (stems : List String)
    (since : List Message) (n : Nat) (picks : List Nat) (a : Feed.Attachment) :
    List UInt8 → Prop
  /-- The guest has not been admitted yet, and all messages from `n` on are kept for it. -/
  | waiting (hphase : a.phase = .calling ∨ a.phase = .greeting) (hpicks : picks = [])
    (hbacklog : a.backlog = since.drop n) : Written limit greeting stems since n picks a []
  /-- The guest has been admitted, and all messages from `n` on are kept for it. -/
  | attached (hphase : a.phase = .attached stems) (hbacklog : a.backlog = since.drop n) :
    Written limit greeting stems since n picks a (broadcast since picks)
  /-- The feed has left because the greeting, or its answer, is over the limit. -/
  | refused (hphase : a.phase = .gone) (hpicks : picks = [])
    (hover : limit < greeting.length ∨ limit < Feed.admission.length) :
    Written limit greeting stems since n picks a []
  /-- The feed has left because the label of a message is over the limit. -/
  | unlabelled {m : Message} (hphase : a.phase = .gone) (hm : since[n]? = some m)
    (hlabel : Feed.matchesAny stems m.label = true) (hover : limit < (Utf8.encode m.label).length) :
    Written limit greeting stems since n picks a (broadcast since picks)
  /-- The feed has left because the payload of a message is over the limit: the label was written. -/
  | cut {m : Message} (hphase : a.phase = .gone) (hm : since[n]? = some m)
    (hlabel : Feed.matchesAny stems m.label = true) (hfits : (Utf8.encode m.label).length ≤ limit)
    (hover : limit < m.payload.length) :
    Written limit greeting stems since n picks a
      (broadcast since picks ++ Frame.encode (Utf8.encode m.label))

/-- Whether a move makes a guest lose a message: another one is sent while it is the oldest of the
messages that are kept for the guest, and as many are kept as can be. -/
def Overruns (capacity : Nat) (r : Audience) (m : Move) (i k : Nat) : Prop :=
  (∃ further, m = .send further) ∧ (since r.log i).length = k + capacity ∧
    ∃ a, r.feed.attachments[i]? = some a ∧ a.backlog = (since r.log i).drop k

/-- Whether a guest has lost a message in the course of some moves. -/
def Lost (limit capacity : Nat) (ms : List Move) (i k : Nat) : Prop :=
  ∃ before m after, ms = before ++ m :: after ∧
    Overruns capacity.nextPowerOfTwo ((new limit capacity).run before) m i k

end Audience

end TopicDirectory
