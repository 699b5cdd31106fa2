import TopicDirectory.Proofs.Directory.Emissions
import TopicDirectory.Proofs.Feed.Delivery

/-!
# A directory on the air

An `Airing` is the loop of a directory with the feed of its snapshots, the guests of the feed, who do
what they like, and all snapshots that have left the loop.  What has left is what the loop emits in
dealing with the requests, whatever becomes of the feed in between (`Airing.Traces`); and to the
guests of the feed the broadcasts are sent, one message for each, and nothing else (`Airing.Carries`).
-/

namespace TopicDirectory

open Directory (Emission Server State respond)
open Reception (Guest)

/-! ## What is sent to an audience -/

namespace Audience

theorem step_withLog (r : Audience) (log : List Event) (m : Move) :
    (step { r with log } m).feed = (r.step m).feed ∧
      (step { r with log } m).guests = (r.step m).guests := by
  have hact (i : Nat) (f : Guest → Link → Guest × Link) :
      (act { r with log } i f).feed = (r.act i f).feed ∧
        (act { r with log } i f).guests = (r.act i f).guests := by
    simp only [act]
    split <;> exact ⟨rfl, rfl⟩
  cases m with
  | call => exact ⟨rfl, rfl⟩
  | write i octets => exact hact i _
  | take i n => exact hact i _
  | stray i l => exact hact i _
  | send m => exact ⟨rfl, rfl⟩
  | serve a =>
    simp only [step, serve]
    split <;> exact ⟨rfl, rfl⟩

/-- Nothing is sent but what somebody sends. -/
theorem messages_step {m : Move} (hm : ∀ x, m ≠ .send x) (r : Audience) :
    (r.step m).log.filterMap Event.message? = r.log.filterMap Event.message? := by
  have hact (i : Nat) (f : Guest → Link → Guest × Link) :
      (r.act i f).log = r.log := by
    rw [act]
    split <;> rfl
  cases m with
  | call => rfl
  | write i octets => exact congrArg _ (hact i _)
  | take i n => exact congrArg _ (hact i _)
  | stray i l => exact congrArg _ (hact i _)
  | send x => exact absurd rfl (hm x)
  | serve a =>
    rcases serve_cases r a with heq | ⟨feed, -, heq⟩
    · exact congrArg (fun r => r.log.filterMap Event.message?) heq
    · show (r.serve a).log.filterMap Event.message? = _
      rw [heq, List.filterMap_append]
      cases a <;> exact List.append_nil _

theorem run_append (r : Audience) (ms more : List Move) :
    r.run (ms ++ more) = (r.run ms).run more := List.foldl_append

theorem run_sends (r : Audience) (xs : List Message) :
    r.run (xs.map .send)
      = { r with
          feed := xs.foldl (fun f m => (f.send m).2) r.feed
          log := r.log ++ xs.map .sent } := by
  induction xs generalizing r with
  | nil => rw [List.map_nil, List.map_nil, List.append_nil]; rfl
  | cons x xs ih =>
    have hstep : r.run ((x :: xs).map .send) = (r.step (.send x)).run (xs.map .send) := rfl
    rw [hstep, ih, List.map_cons, step, List.append_assoc]
    rfl

theorem messages_sent (xs : List Message) :
    (xs.map Event.sent).filterMap Event.message? = xs := by
  rw [List.filterMap_map]
  exact List.filterMap_some

/-- What was sent since a guest was taken in was sent. -/
theorem mem_of_mem_since {log : List Event} {i : Nat} {m : Message} (h : m ∈ since log i) :
    m ∈ log.filterMap Event.message? := by
  induction log with
  | nil => cases h
  | cons e log ih =>
    have hlog : m ∈ log.filterMap Event.message? := by
      rw [since] at h
      split at h
      · exact h
      · exact ih h
    rw [List.mem_filterMap] at hlog ⊢
    obtain ⟨e', he', hm⟩ := hlog
    exact ⟨e', List.mem_cons_of_mem _ he', hm⟩

end Audience

/-! ## The directory and its feed -/

/-- The loop of a directory, the guests of its feed by the number of their attachment, the requests
that were dealt with, and the snapshots that have left. -/
structure Airing where
  state : State
  guests : List Guest := []
  requests : List (List UInt8) := []
  emitted : List Emission

namespace Airing

/-- What can happen next. -/
inductive Move
  /-- The loop deals with a request. -/
  | request (frame : List UInt8)
  /-- The feed takes a step, or a guest does something.  Only the loop sends messages. -/
  | attend (m : Audience.Move)

/-- A directory that has just been started. -/
def new (c : Config.Server) : Airing :=
  { state := (Server.new c).state, emitted := [.published (Server.new c).state.published] }

/-- Deals with a request. -/
def request (t : Airing) (frame : List UInt8) : Airing :=
  { t with
    state := (respond t.state frame).2
    requests := t.requests ++ [frame]
    emitted := t.emitted ++ t.state.emits frame }

/-- Lets something become of the feed and its guests. -/
def attend (t : Airing) (m : Audience.Move) : Airing :=
  let r := Audience.step { feed := t.state.broadcaster.feed, guests := t.guests } m
  { t with state := t.state.withFeed r.feed, guests := r.guests }

/-- Makes a move, if it can be made. -/
def step (t : Airing) : Move → Airing
  | .request frame => t.request frame
  | .attend (.send _) => t
  | .attend m => t.attend m

/-- Makes moves one after the other. -/
def run (t : Airing) (ms : List Move) : Airing := ms.foldl step t

/-- What is kept in dealing with requests and by what becomes of the feed, where nobody else sends
messages, is kept by every move. -/
theorem step_induct {P : Airing → Prop} {t : Airing} (h : P t)
    (hrequest : ∀ frame, P (t.request frame))
    (hattend : ∀ m, (∀ x, m ≠ .send x) → P (t.attend m)) (m : Move) : P (t.step m) := by
  cases m with
  | request frame => exact hrequest frame
  | attend m =>
    cases m with
    | send x => exact h
    | _ => exact hattend _ nofun

/-! ## What has left -/

variable {c : Config.Server} {t : Airing}

/-- Whether the loop is where the requests have brought it, and what has left is what it emitted in
dealing with them, what can be seen of the directory included. -/
structure Traces (c : Config.Server) (t : Airing) : Prop where
  state : t.state = ((Server.new c).state.after t.requests).withFeed t.state.broadcaster.feed
  emitted : t.emitted = (Server.new c).state.emissions t.requests
  seen : .published t.state.published ∈ t.emitted

theorem traces_new (c : Config.Server) : Traces c (new c) := ⟨rfl, rfl, List.mem_cons_self⟩

theorem Traces.request (h : Traces c t) (frame : List UInt8) : Traces c (t.request frame) where
  state := by
    have hrespond := Directory.respond_withFeed ((Server.new c).state.after t.requests)
      t.state.broadcaster.feed frame
    rw [← h.state, ← Directory.after_concat] at hrespond
    exact hrespond
  emitted := by
    have hemits := Directory.emits_withFeed ((Server.new c).state.after t.requests)
      t.state.broadcaster.feed frame
    rw [← h.state] at hemits
    show t.emitted ++ t.state.emits frame = (Server.new c).state.emissions (t.requests ++ [frame])
    rw [Directory.emissions_concat, h.emitted, hemits]
  seen := List.mem_append_right _ (List.mem_append_right _ List.mem_cons_self)

theorem Traces.attend (h : Traces c t) (m : Audience.Move) : Traces c (t.attend m) where
  state := by
    show t.state.withFeed _ = ((Server.new c).state.after t.requests).withFeed _
    rw [h.state]
    rfl
  emitted := h.emitted
  seen := h.seen

theorem Traces.run (h : Traces c t) (ms : List Move) : Traces c (t.run ms) := by
  induction ms generalizing t with
  | nil => exact h
  | cons m ms ih => exact ih (step_induct h h.request (fun m _ => h.attend m) m)

/-! ## What is sent on the feed -/

/-- The feed and its guests are an audience to which the broadcasts were sent, one message for each,
and nothing else. -/
def Carries (c : Config.Server) (t : Airing) : Prop :=
  ∃ ms : List Audience.Move,
    let r := (Audience.new c.messageSize.toNat c.broadcastCapacity.toNat).run ms
    r.feed = t.state.broadcaster.feed ∧ r.guests = t.guests ∧
      r.log.filterMap Audience.Event.message?
        = (t.emitted.filterMap Emission.broadcast?).map
            fun x => ⟨Directory.label, Wire.encodeSnapshot x⟩

theorem carries_new (c : Config.Server) : Carries c (new c) := ⟨[], rfl, rfl, rfl⟩

/-- The loop sends its broadcasts. -/
theorem Carries.request (h : Carries c t) (frame : List UInt8) : Carries c (t.request frame) := by
  obtain ⟨ms, hfeed, hguests, hsent⟩ := h
  have hrespond := Directory.feed_respond t.state t.state.broadcaster.feed frame
  rw [← Directory.broadcasts_emits] at hrespond
  generalize hxs : (t.state.emits frame).filterMap Emission.broadcast? = xs at hrespond
  refine ⟨ms ++ (xs.map fun x => ⟨Directory.label, Wire.encodeSnapshot x⟩).map .send, ?_⟩
  rw [Audience.run_append, Audience.run_sends]
  refine ⟨?_, hguests, ?_⟩
  · rw [List.foldl_map, hfeed]
    exact hrespond.symm
  · rw [List.filterMap_append, hsent, Audience.messages_sent]
    show _ = (List.filterMap _ (t.emitted ++ t.state.emits frame)).map _
    rw [List.filterMap_append, hxs, List.map_append]

/-- Nobody else sends anything. -/
theorem Carries.attend (h : Carries c t) {m : Audience.Move} (hm : ∀ x, m ≠ .send x) :
    Carries c (t.attend m) := by
  obtain ⟨ms, hfeed, hguests, hsent⟩ := h
  generalize hr : (Audience.new c.messageSize.toNat c.broadcastCapacity.toNat).run ms = r
    at hfeed hguests hsent
  obtain ⟨hfeed', hguests'⟩ := r.step_withLog [] m
  rw [hfeed, hguests] at hfeed' hguests'
  refine ⟨ms ++ [m], ?_⟩
  rw [Audience.run_concat, hr]
  exact ⟨hfeed'.symm, hguests'.symm, (Audience.messages_step hm r).trans hsent⟩

theorem Carries.run (h : Carries c t) (ms : List Move) : Carries c (t.run ms) := by
  induction ms generalizing t with
  | nil => exact h
  | cons m ms ih => exact ih (step_induct h h.request (fun _ hm => h.attend hm) m)

end Airing

end TopicDirectory
