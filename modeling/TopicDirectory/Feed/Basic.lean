import TopicDirectory.Json.Reader
import TopicDirectory.Link.Frame
import TopicDirectory.Json.Fields

/-!
# Feeds

A feed gives every message to all who are attached to it.  An attachment begins with a greeting,
the list of the stems its labels have to begin with, and takes messages from the moment the feed
took the connection in; `send` never waits, and an attachment that lags behind loses its oldest
messages beyond the capacity (`keepLast`).  Every atomic step is an `Action`.  A feed learns only by
and by what has come on its connections (`look`); in a `turn` it takes the steps that what it has
learnt and what it has to deliver allow.
-/

namespace TopicDirectory

/-- A message: its label and its payload. -/
structure Message where
  label : String
  payload : List UInt8
deriving DecidableEq, Repr

namespace Feed

/-- Where an attachment stands. -/
inductive Phase
  /-- The feed has not taken the connection in yet. -/
  | calling
  | greeting
  | attached (stems : List String)
  | gone
deriving DecidableEq, Repr

/-- A connection, where it stands, and the messages that were not delivered on it yet. -/
structure Attachment where
  link : Link := {}
  phase : Phase := .calling
  backlog : List Message := []
deriving DecidableEq, Repr

namespace Attachment

/-- Whether messages are kept for the attachment. -/
def counts (a : Attachment) : Bool := a.phase ≠ .calling && a.phase ≠ .gone

/-- Whether there is something on the connection for the feed to learn of. -/
def hasNews (a : Attachment) : Bool :=
  a.phase = .calling ||
    a.phase ≠ .gone && (!a.link.toHost.unread.isEmpty || a.link.toHost.closed)

/-- The attachment after the feed has left it. -/
def leave (a : Attachment) : Attachment := ⟨a.link.close, .gone, []⟩

end Attachment

/-- The last `n` of some items. -/
def keepLast {α : Type} (n : Nat) (xs : List α) : List α := xs.drop (xs.length - n)

/-- Whether a label begins with one of the stems. -/
def matchesAny (stems : List String) (label : String) : Bool :=
  stems.any fun stem => stem.toList.isPrefixOf label.toList

/-- The frame that admits an attachment. -/
def admission : List UInt8 := [Json.ascii 'O', Json.ascii 'K']

/-- Reads a greeting. -/
def stems? (greeting : List UInt8) : Option (List String) :=
  (Json.parse? greeting).bind Json.strings?

end Feed

/-- The attachments of a feed in the order in which they came, and the numbers of those on which
the feed has learnt that something has come. -/
structure Feed where
  limit : Nat
  capacity : Nat
  attachments : List Feed.Attachment := []
  heard : List Nat := []
  listening : Bool := true
deriving DecidableEq, Repr

namespace Feed

/-- A feed without attachments; it keeps a power of two of messages, not fewer than asked for. -/
def new (limit capacity : Nat) : Feed := { limit, capacity := capacity.nextPowerOfTwo }

/-- Calls the feed and gives the number of the attachment. -/
def call (f : Feed) : Feed × Nat :=
  ({ f with attachments := f.attachments ++ [{}] }, f.attachments.length)

/-- The number of attachments that messages are kept for. -/
def count (f : Feed) : Nat := f.attachments.countP Attachment.counts

/-- Keeps a message for every attachment and says for how many. -/
def send (f : Feed) (m : Message) : Nat × Feed :=
  (f.count, { f with attachments := f.attachments.map fun a =>
    if a.counts then { a with backlog := keepLast f.capacity (a.backlog ++ [m]) } else a })

/-- Replaces an attachment. -/
def set (f : Feed) (i : Nat) (a : Attachment) : Feed :=
  { f with attachments := f.attachments.set i a }

/-- Takes in an attachment that has called. -/
def accept? (f : Feed) (i : Nat) : Option Feed := do
  let a ← f.attachments[i]?
  guard (f.listening ∧ a.phase = .calling)
  return f.set i { a with phase := .greeting }

/-- Reads the greeting of an attachment and admits it, or leaves it. -/
def greet? (f : Feed) (i : Nat) : Option Feed := do
  let a ← f.attachments[i]?
  guard (a.phase = .greeting)
  let (result, rest) ← Frame.expect f.limit a.link.toHost
  let a := { a with link.toHost := rest }
  match result.toOption.bind stems?, Frame.write f.limit admission with
  | some stems, .ok frame =>
    return f.set i { a with
      link.toGuest := a.link.toGuest.write frame
      phase := .attached stems }
  | _, _ => return f.set i a.leave

/-- Reads on after the greeting: a frame means nothing, the end that the guest has left. -/
def hear? (f : Feed) (i : Nat) : Option Feed := do
  let a ← f.attachments[i]?
  match a.phase with
  | .attached _ =>
    match ← Frame.read f.limit a.link.toHost with
    | (.ok (some _), rest) => return f.set i { a with link.toHost := rest }
    | (_, rest) => return f.set i (Attachment.leave { a with link.toHost := rest })
  | _ => none

/-- Writes the frames of a message: the label alone if only the payload is over the limit. -/
def forward (limit : Nat) (m : Message) : List UInt8 × Bool :=
  match Frame.write limit (Utf8.encode m.label), Frame.write limit m.payload with
  | .ok label, .ok payload => (label ++ payload, true)
  | .ok label, .error _ => (label, false)
  | .error _, _ => ([], false)

/-- Delivers the oldest message kept for an attachment, or passes over one whose label does not
match; the feed leaves an attachment to which a message cannot be written. -/
def deliver? (f : Feed) (i : Nat) : Option Feed := do
  let a ← f.attachments[i]?
  match a.phase, a.backlog with
  | .attached stems, m :: ms =>
    if matchesAny stems m.label then
      if a.link.toGuest.closed then return f.set i a.leave
      let (octets, complete) := forward f.limit m
      let a := { a with link.toGuest := a.link.toGuest.write octets, backlog := ms }
      return f.set i (if complete then a else a.leave)
    else return f.set i { a with backlog := ms }
  | _, _ => none

/-- The feed after it was told to stop: nobody is taken in any more. -/
def stop (f : Feed) : Feed := { f with listening := false }

/-- The feed after it has left every attachment. -/
def close (f : Feed) : Feed :=
  { f with attachments := f.attachments.map Attachment.leave, listening := false }

/-- A step of a feed, by the number of the attachment it is about. -/
inductive Action
  | accept (i : Nat)
  | greet (i : Nat)
  | hear (i : Nat)
  | deliver (i : Nat)
deriving DecidableEq, Repr

/-- Takes a step, if it can be taken. -/
def step? (f : Feed) : Action → Option Feed
  | .accept i => f.accept? i
  | .greet i => f.greet? i
  | .hear i => f.hear? i
  | .deliver i => f.deliver? i

/-- Learns on which connections something has come. -/
def look (f : Feed) : Feed :=
  { f with heard := (List.range f.attachments.length).filter fun i =>
      f.attachments[i]?.any Attachment.hasNews }

@[simp] theorem attachments_look (f : Feed) : f.look.attachments = f.attachments := rfl

/-- The steps that may be possible on the connections that were taken in, in the order in which the
attachments came. -/
def actions (f : Feed) : List Action :=
  (List.range f.attachments.length).flatMap fun i =>
    if f.heard.contains i then [.greet i, .hear i, .deliver i] else [.deliver i]

/-- Takes the first step that can be taken, at most `fuel` times. -/
def run : Nat → Feed → Feed
  | 0, f => f
  | fuel + 1, f =>
    match f.actions.findSome? f.step? with
    | some f => run fuel f
    | none => f

/-- More steps than can be taken before something else comes. -/
def workload (f : Feed) : Nat :=
  f.attachments.foldl (fun n a => n + a.link.toHost.unread.length + a.backlog.length + 4) 1

/-- Takes the steps that can be taken on the connections that were taken in. -/
def work (f : Feed) : Feed := run f.workload f

/-- Takes in everybody whose call has been heard. -/
def takeIn (f : Feed) : Feed := f.heard.foldl (fun f i => (f.accept? i).getD f) f

/-- A turn: works, then takes in who has called, or leaves everybody if it was told to stop. -/
def turn (f : Feed) : Feed :=
  let f := f.work
  if f.listening then f.takeIn else f.close

/-- Takes in everybody who has called, and takes steps until none can be taken. -/
def settle (f : Feed) : Feed := f.look.turn.look.turn

end Feed

end TopicDirectory
