import TopicDirectory.Proofs.Directory.Listing
import TopicDirectory.Proofs.Watch.Follow

/-!
# The tasks of the watch tool

The tool follows each publisher by a task of its own, which takes the messages of the topic from the
publisher until it ends by itself or is stopped.  A `Pursuit` is a directory that deals with requests
and a tool that takes up snapshots of it, in whatever order, while tasks end at any time, also in the
midst of a call.

What has become of the tasks is kept as a log, one event after the other, so that what holds of every
part of the log from its beginning holds at every moment.  After each snapshot the tool has one task
for each publisher that declares the topic (`Follows`), and no publisher ever has two (`Sole`); this
comes down to one invariant (`Tended`) that each event keeps.  Tasks are told apart by the ids of
their publishers alone, and that is enough because an id never stands for another address
(`Listed.same`).
-/

namespace TopicDirectory.Watch

open Directory (Emission Server)

/-! ## Tasks -/

/-- What becomes of the tasks.  A task is known by the number of those started before it. -/
inductive Event
  /-- A task is started for a publisher. -/
  | started (publisher : Record)
  /-- A task ends by itself. -/
  | ended (task : Nat)
  /-- A task is stopped by the tool. -/
  | stopped (task : Nat)
deriving DecidableEq

/-- The publisher for which a task is started, if one is. -/
def Event.publisher? : Event → Option Record
  | started p => some p
  | ended _ | stopped _ => none

/-- The publishers for which the tasks were started, one after the other. -/
def tasks (log : List Event) : List Record := log.filterMap Event.publisher?

/-- Whether a task has been started, and has neither ended nor been stopped. -/
def Running (log : List Event) (k : Nat) : Prop :=
  k < (tasks log).length ∧ .ended k ∉ log ∧ .stopped k ∉ log

instance (log : List Event) (k : Nat) : Decidable (Running log k) :=
  inferInstanceAs (Decidable (_ ∧ _ ∧ _))

/-- Whether no publisher has two running tasks. -/
def Sole (log : List Event) : Prop :=
  ∀ i j p q, Running log i → Running log j → (tasks log)[i]? = some p → (tasks log)[j]? = some q →
    p.id = q.id → i = j

/-- Whether a task has ended by itself. -/
def hasEnded (log : List Event) (k : Nat) : Bool := decide (.ended k ∈ log)

/-- Lets tasks end that are running. -/
def endTasks (ks : List Nat) (log : List Event) : List Event :=
  ks.foldl (fun log k => if Running log k then log ++ [.ended k] else log) log

/-- Stops a task; others may have ended before. -/
def stopTask (ends : List Event → List Nat) (k : Nat) (log : List Event) : List Event :=
  endTasks (ends log) log ++ [.stopped k]

/-- Starts a task for a publisher; others may have ended before. -/
def startTask (ends : List Event → List Nat) (r : Record) (log : List Event) : Nat × List Event :=
  ((tasks log).length, endTasks (ends log) log ++ [.started r])

/-- The requests that a directory has dealt with, and a tool that follows a topic: the task of each
publisher that it follows, and what has become of its tasks. -/
structure Pursuit where
  requests : List (List UInt8) := []
  followers : IdMap Nat := .empty
  log : List Event := []

namespace Pursuit

/-- What can happen next. -/
inductive Move
  /-- The directory deals with a request. -/
  | request (frame : List UInt8)
  /-- A task ends. -/
  | ended (task : Nat)
  /-- The tool takes up the `n`-th snapshot that has left the directory.  Before each thing that it
  does, tasks may end, and which ones may depend on all that has happened. -/
  | follow (n : Nat) (ends : List Event → List Nat)

/-- The snapshots that have left the directory, in this order. -/
def emissions (c : Config.Server) (t : Pursuit) : List Emission :=
  (Server.new c).state.emissions t.requests

/-- Takes up a snapshot. -/
def takeUp (ends : List Event → List Nat) (topic : String) (s : Snapshot) (t : Pursuit) : Pursuit :=
  let after := Watch.follow (hasEnded t.log) (stopTask ends) (startTask ends) t.followers s topic
    t.log
  { t with followers := after.1, log := after.2 }

/-- Makes a move. -/
def step (c : Config.Server) (topic : String) (t : Pursuit) : Move → Pursuit
  | .request frame => { t with requests := t.requests ++ [frame] }
  | .ended k => { t with log := endTasks [k] t.log }
  | .follow n ends =>
    match (t.emissions c)[n]? with
    | some e => t.takeUp ends topic e.snapshot
    | none => t

/-- Makes moves one after the other. -/
def run (c : Config.Server) (topic : String) (t : Pursuit) (ms : List Move) : Pursuit :=
  ms.foldl (step c topic) t

/-- What a snapshot makes of the followers of a topic. -/
structure Follows (topic : String) (s : Snapshot) (t t' : Pursuit) : Prop where
  /-- Those who declare the topic are followed, and nobody else. -/
  declaring : ∀ id, t'.followers.contains id = true ↔ s.Declares topic id
  /-- Each is followed by a task that was started for its id and its address of now; there the task
  subscribes to the topic, if that is one that can be subscribed to. -/
  subscribed : ∀ id k r, t'.followers.get? id = some k → s.get? id = some r →
    ∃ p e, (tasks t'.log)[k]? = some p ∧ p.id = some id ∧ p.address = r.address ∧
      Endpoint.ofText? r.address = some e ∧
      (topic ≠ "" → Client.Subscriber.endpoint p [topic] = .ok e)
  /-- These tasks are all that had not ended before and have not been stopped. -/
  following : ∀ k, (∃ id, t'.followers.get? id = some k) ↔
    k < (tasks t'.log).length ∧ .ended k ∉ t.log ∧ .stopped k ∉ t'.log
  /-- Of the tasks of before, those go on that were running for a publisher that declares the topic
  still. -/
  same : ∀ id k, k < (tasks t.log).length → (t'.followers.get? id = some k ↔
    t.followers.get? id = some k ∧ Running t.log k ∧ s.Declares topic id)
  /-- Every other task of before had ended, or has been stopped. -/
  others : ∀ k, k < (tasks t.log).length → (∀ id, t'.followers.get? id ≠ some k) →
    .ended k ∈ t.log ∨ .stopped k ∈ t'.log
  /-- Who was followed by a task that had ended is followed by a new one. -/
  renewed : ∀ id k, t.followers.get? id = some k → .ended k ∈ t.log → s.Declares topic id →
    ∃ k', t'.followers.get? id = some k' ∧ (tasks t.log).length ≤ k'
  /-- What has happened stays as it is, and the directory is left alone. -/
  grown : t.log <+: t'.log ∧ t'.requests = t.requests

end Pursuit

/-! ## The log -/

variable {log log₀ : List Event} {e : Event} {k : Nat}

theorem hasEnded_eq_false : hasEnded log k = false ↔ .ended k ∉ log := decide_eq_false_iff_not

theorem tasks_append (log more : List Event) : tasks (log ++ more) = tasks log ++ tasks more :=
  List.filterMap_append

theorem tasks_quiet (he : e.publisher? = none) (log : List Event) :
    tasks (log ++ [e]) = tasks log := by
  rw [tasks_append, tasks, tasks, List.filterMap_cons_none he, List.filterMap_nil, List.append_nil]

theorem tasks_started (log : List Event) (r : Record) :
    tasks (log ++ [.started r]) = tasks log ++ [r] := tasks_append log [.started r]

theorem length_tasks_le (h : log₀ <+: log) : (tasks log₀).length ≤ (tasks log).length := by
  obtain ⟨more, rfl⟩ := h
  rw [tasks_append, List.length_append]
  exact Nat.le_add_right _ _

/-- What holds of a log, and is kept when one more task ends, holds when any have ended. -/
theorem endTasks_induct {P : List Event → Prop} (ks : List Nat) (h : P log)
    (hended : ∀ log k, Running log k → P log → P (log ++ [.ended k])) : P (endTasks ks log) := by
  induction ks generalizing log with
  | nil => exact h
  | cons k ks ih =>
    rw [endTasks, List.foldl_cons]
    split
    · rename_i hrunning
      exact ih (hended log k hrunning h)
    · exact ih h

theorem tasks_endTasks (ks : List Nat) (log : List Event) : tasks (endTasks ks log) = tasks log :=
  endTasks_induct (P := fun log' => tasks log' = tasks log) ks rfl fun _ _ _ h =>
    (tasks_quiet rfl _).trans h

theorem stopped_mem_endTasks {ks : List Nat} : .stopped k ∈ endTasks ks log ↔ .stopped k ∈ log :=
  endTasks_induct (P := fun log' => .stopped k ∈ log' ↔ .stopped k ∈ log) ks Iff.rfl
    fun _ _ _ h => by simpa using h

theorem tasks_stopTask (ends : List Event → List Nat) (k : Nat) (log : List Event) :
    tasks (stopTask ends k log) = tasks log := by
  rw [stopTask, tasks_quiet rfl, tasks_endTasks]

theorem stopped_mem_stopTasks {ends : List Event → List Nat} {ks : List Nat} :
    .stopped k ∈ ks.foldl (fun log k => stopTask ends k log) log ↔ .stopped k ∈ log ∨ k ∈ ks := by
  induction ks generalizing log with
  | nil => simp
  | cons i ks ih =>
    rw [List.foldl_cons, ih, stopTask, List.mem_append, stopped_mem_endTasks, List.mem_singleton,
      List.mem_cons, or_assoc, Event.stopped.injEq]

/-! ## What each event keeps -/

/-- What holds of the followers after a snapshot, and while one is dealt with that was taken up when
the log was `log₀`. -/
structure Tended (topic : String) (requests : List (List UInt8)) (log₀ : List Event)
    (followers : IdMap Nat) (log : List Event) : Prop where
  /-- What had happened then has happened. -/
  grown : log₀ <+: log
  /-- Only tasks that were started end and are stopped. -/
  begun : ∀ k, .ended k ∈ log ∨ .stopped k ∈ log → k < (tasks log).length
  /-- Everybody is followed by a task that was started for a record that the directory had under the
  id, with the topic. -/
  serves : ∀ id k, followers.get? id = some k →
    ∃ p, (tasks log)[k]? = some p ∧ p.hasTopic topic = true ∧ Listed requests id p
  /-- A task that had not ended then and has not been stopped follows somebody. -/
  followed : ∀ k, k < (tasks log).length → .ended k ∉ log₀ → .stopped k ∉ log →
    ∃ id, followers.get? id = some k
  /-- At no moment has a publisher had two running tasks. -/
  sole : ∀ past, past <+: log → Sole past

namespace Tended

variable {topic : String} {requests : List (List UInt8)} {followers : IdMap Nat}

/-- Running tasks follow somebody, each a publisher of its own. -/
theorem sole_of_followed (hgrown : log₀ <+: log)
    (hserves : ∀ id k, followers.get? id = some k →
      ∃ p, (tasks log)[k]? = some p ∧ p.hasTopic topic = true ∧ Listed requests id p)
    (hfollowed : ∀ k, k < (tasks log).length → .ended k ∉ log₀ → .stopped k ∉ log →
      ∃ id, followers.get? id = some k) : Sole log := by
  have howner : ∀ k p, Running log k → (tasks log)[k]? = some p →
      ∃ id, p.id = some id ∧ followers.get? id = some k := by
    rintro k p ⟨hlt, hended, hstopped⟩ hp
    obtain ⟨id, hid⟩ := hfollowed k hlt (fun h => hended (hgrown.subset h)) hstopped
    obtain ⟨q, hq, -, hlisted⟩ := hserves id k hid
    obtain rfl : p = q := Option.some.inj (hp.symm.trans hq)
    exact ⟨id, hlisted.own, hid⟩
  intro i j p q hi hj hp hq hsame
  obtain ⟨id, hpid, hid⟩ := howner i p hi hp
  obtain ⟨id', hqid, hid'⟩ := howner j q hj hq
  obtain rfl : id = id' := Option.some.inj (hpid.symm.trans (hsame.trans hqid))
  exact Option.some.inj (hid.symm.trans hid')

theorem nil : Tended topic requests [] .empty [] where
  grown := List.prefix_refl _
  begun := by simp
  serves := nofun
  followed := nofun
  sole past hpast := by
    obtain rfl := List.prefix_nil.1 hpast
    nofun

/-- A task that was started ends or is stopped. -/
theorem quiet (h : Tended topic requests log₀ followers log) (he : e = .ended k ∨ e = .stopped k)
    (hk : k < (tasks log).length) : Tended topic requests log₀ followers (log ++ [e]) := by
  have htasks : tasks (log ++ [e]) = tasks log :=
    tasks_quiet (by rcases he with rfl | rfl <;> rfl) log
  have hgrown : log₀ <+: log ++ [e] := h.grown.trans (List.prefix_append _ _)
  have hserves : ∀ id k, followers.get? id = some k →
      ∃ p, (tasks (log ++ [e]))[k]? = some p ∧ p.hasTopic topic = true ∧ Listed requests id p :=
    htasks ▸ h.serves
  have hfollowed : ∀ k, k < (tasks (log ++ [e])).length → .ended k ∉ log₀ →
      .stopped k ∉ log ++ [e] → ∃ id, followers.get? id = some k := by
    intro k hlt hended hstopped
    rw [htasks] at hlt
    exact h.followed k hlt hended fun hmem => hstopped (List.mem_append_left _ hmem)
  refine ⟨hgrown, fun i hi => ?_, hserves, hfollowed, fun past hpast => ?_⟩
  · rw [htasks]
    simp only [List.mem_append, List.mem_singleton] at hi
    rcases he with rfl | rfl <;> grind [h.begun i]
  · rcases List.prefix_concat_iff.1 hpast with rfl | hpast
    · exact sole_of_followed hgrown hserves hfollowed
    · exact h.sole past hpast

theorem endTasks (h : Tended topic requests log₀ followers log) (ks : List Nat) :
    Tended topic requests log₀ followers (Watch.endTasks ks log) :=
  endTasks_induct ks h fun _ _ hrunning h => h.quiet (.inl rfl) hrunning.1

theorem stopTasks (h : Tended topic requests log₀ followers log) (ends : List Event → List Nat)
    {ks : List Nat} (hks : ∀ k ∈ ks, k < (tasks log).length) :
    Tended topic requests log₀ followers (ks.foldl (fun log k => stopTask ends k log) log) := by
  induction ks generalizing log with
  | nil => exact h
  | cons k ks ih =>
    have hk : k < (tasks (Watch.endTasks (ends log) log)).length := by
      rw [tasks_endTasks]
      exact hks k List.mem_cons_self
    refine ih ((h.endTasks (ends log)).quiet (.inr rfl) hk) fun i hi => ?_
    rw [← tasks_stopTask ends k log] at hks
    exact hks i (List.mem_cons_of_mem _ hi)

/-- Whoever is followed by a task that was stopped need not be kept. -/
theorem restrict (h : Tended topic requests log₀ followers log) {rest : IdMap Nat}
    (hrest : ∀ id k, rest.get? id = some k → followers.get? id = some k)
    (hdropped : ∀ id k, followers.get? id = some k → .ended k ∉ log₀ → .stopped k ∉ log →
      rest.get? id = some k) : Tended topic requests log₀ rest log where
  grown := h.grown
  begun := h.begun
  serves id k hid := h.serves id k (hrest id k hid)
  followed k hlt hended hstopped := by
    obtain ⟨id, hid⟩ := h.followed k hlt hended hstopped
    exact ⟨id, hdropped id k hid hended hstopped⟩
  sole := h.sole

/-- A task is started for a publisher that nobody follows. -/
theorem startTask (h : Tended topic requests log₀ followers log) (ends : List Event → List Nat)
    {id : UInt32} {r : Record} (hr : Listed requests id r) (htopic : r.hasTopic topic = true)
    (hfree : followers.get? id = none) :
    Tended topic requests log₀ (followers.insert id (Watch.startTask ends r log).1)
      (Watch.startTask ends r log).2 := by
  have h := h.endTasks (ends log)
  rw [Watch.startTask, ← tasks_endTasks (ends log) log]
  dsimp only
  generalize Watch.endTasks (ends log) log = log at h
  have hgrown : log₀ <+: log ++ [.started r] := h.grown.trans (List.prefix_append _ _)
  have hserves : ∀ i k, (followers.insert id (tasks log).length).get? i = some k →
      ∃ p, (tasks (log ++ [.started r]))[k]? = some p ∧ p.hasTopic topic = true ∧
        Listed requests i p := by
    intro i k hi
    rw [tasks_started]
    rw [IdMap.get?_insert] at hi
    split at hi
    · rename_i heq
      obtain rfl := heq
      obtain rfl := Option.some.inj hi
      exact ⟨r, List.getElem?_concat_length, htopic, hr⟩
    · obtain ⟨p, hp, hrest⟩ := h.serves i k hi
      exact ⟨p, getElem?_concat_eq_some.2 (.inl hp), hrest⟩
  have hfollowed : ∀ k, k < (tasks (log ++ [.started r])).length → .ended k ∉ log₀ →
      .stopped k ∉ log ++ [.started r] →
      ∃ i, (followers.insert id (tasks log).length).get? i = some k := by
    intro k hlt hended hstopped
    rw [tasks_started, List.length_append, List.length_singleton] at hlt
    rcases Nat.lt_succ_iff_lt_or_eq.1 hlt with hlt | rfl
    · obtain ⟨i, hi⟩ := h.followed k hlt hended fun hmem => hstopped (List.mem_append_left _ hmem)
      have hne : i ≠ id := by
        rintro rfl
        cases hi.symm.trans hfree
      exact ⟨i, by rw [IdMap.get?_insert, if_neg hne, hi]⟩
    · exact ⟨id, by rw [IdMap.get?_insert, if_pos rfl]⟩
  refine ⟨hgrown, fun k hk => ?_, hserves, hfollowed, fun past hpast => ?_⟩
  · have hbegun := h.begun k (by simpa using hk)
    rw [tasks_started, List.length_append]
    omega
  · rcases List.prefix_concat_iff.1 hpast with rfl | hpast
    · exact sole_of_followed hgrown hserves hfollowed
    · exact h.sole past hpast

/-- What has happened until now may count as what had happened before. -/
theorem rebase (h : Tended topic requests log₀ followers log) :
    Tended topic requests log followers log :=
  { h with
    grown := List.prefix_refl _
    followed := fun k hlt hended hstopped =>
      h.followed k hlt (fun hmem => hended (h.grown.subset hmem)) hstopped }

theorem mono (h : Tended topic requests log₀ followers log) {more : List (List UInt8)}
    (hmore : requests <+: more) : Tended topic more log₀ followers log :=
  { h with
    serves := fun id k hid => by
      obtain ⟨p, hp, htopic, hlisted⟩ := h.serves id k hid
      exact ⟨p, hp, htopic, hlisted.mono hmore⟩ }

theorem lt_of_get? (h : Tended topic requests log₀ followers log) {id : UInt32}
    (hid : followers.get? id = some k) : k < (tasks log).length := by
  obtain ⟨p, hp, -⟩ := h.serves id k hid
  exact (List.getElem?_eq_some_iff.1 hp).1

/-- A task follows one publisher. -/
theorem id_eq (h : Tended topic requests log₀ followers log) {id id' : UInt32}
    (hid : followers.get? id = some k) (hid' : followers.get? id' = some k) : id = id' := by
  obtain ⟨p, hp, -, hlisted⟩ := h.serves id k hid
  obtain ⟨q, hq, -, hlisted'⟩ := h.serves id' k hid'
  obtain rfl : p = q := Option.some.inj (hp.symm.trans hq)
  exact Option.some.inj (hlisted.own.symm.trans hlisted'.own)

end Tended

/-! ## A snapshot is taken up -/

/-- Who declares a topic is subscribed to at its address. -/
theorem endpoint_of_hasTopic {p : Record} {topic : String} {e : Endpoint} (hne : topic ≠ "")
    (htopic : p.hasTopic topic = true) (he : Endpoint.ofText? p.address = some e) :
    Client.Subscriber.endpoint p [topic] = .ok e := by
  have hcheck : Client.Subscriber.checkTopic p topic = .ok () := by
    rw [Client.Subscriber.checkTopic, if_neg hne, if_pos htopic]
  have hchecks : [topic].forM (Client.Subscriber.checkTopic p) = .ok () := by
    rw [List.forM_eq_forM, List.forM_cons, hcheck]
    rfl
  rw [Client.Subscriber.endpoint, if_neg (List.cons_ne_nil _ _), hchecks, he]
  rfl

namespace Pursuit

variable {topic : String} {t : Pursuit} {s : Snapshot} {followers : IdMap Nat}
  {ends : List Event → List Nat}

/-- What holds of a tool between its calls: whoever is followed is followed by a task that was not
stopped. -/
structure Sound (topic : String) (t : Pursuit) : Prop where
  tended : Tended topic t.requests t.log t.followers t.log
  unstopped : ∀ id k, t.followers.get? id = some k → .stopped k ∉ t.log

/-- What holds while publishers are followed anew: whoever is followed was kept or is followed by a
task that is new. -/
structure Begun (topic : String) (s : Snapshot) (t : Pursuit) (followers : IdMap Nat)
    (log : List Event) : Prop where
  tended : Tended topic t.requests t.log followers log
  unstopped : ∀ id k, followers.get? id = some k → .stopped k ∉ log
  fresh : ∀ id k, followers.get? id = some k →
    (kept (hasEnded t.log) t.followers s topic).get? id = some k ∨ (tasks t.log).length ≤ k

/-- Those that do not go on are stopped. -/
theorem begun_kept (h : Sound topic t) (s : Snapshot) (ends : List Event → List Nat) :
    Begun topic s t (kept (hasEnded t.log) t.followers s topic)
      ((dropped (hasEnded t.log) t.followers s topic).foldl (fun log k => stopTask ends k log)
        t.log) where
  tended := by
    have hstarted : ∀ k ∈ dropped (hasEnded t.log) t.followers s topic,
        k < (tasks t.log).length := by
      intro k hk
      obtain ⟨id, hid, -⟩ := mem_dropped.1 hk
      exact h.tended.lt_of_get? hid
    refine (h.tended.stopTasks ends hstarted).restrict (fun id k hid => (get?_kept.1 hid).1)
      fun id k hid _ hnot => ?_
    rw [stopped_mem_stopTasks, not_or] at hnot
    by_contra hdropped
    exact hnot.2 (mem_dropped.2 ⟨id, hid, fun hgoes => hdropped (get?_kept.2 ⟨hid, hgoes⟩)⟩)
  unstopped id k hid hstopped := by
    obtain ⟨hold, hgoes⟩ := get?_kept.1 hid
    rcases stopped_mem_stopTasks.1 hstopped with hmem | hmem
    · exact h.unstopped id k hold hmem
    · obtain ⟨id', hid', hdropped⟩ := mem_dropped.1 hmem
      obtain rfl := h.tended.id_eq hold hid'
      exact hdropped hgoes
  fresh _ _ hid := .inl hid

/-- One more publisher is followed that nobody follows. -/
theorem Begun.startTask (h : Begun topic s t followers log) (ends : List Event → List Nat)
    {id : UInt32} {r : Record} (hr : Listed t.requests id r) (htopic : r.hasTopic topic = true)
    (hfree : followers.get? id = none) :
    Begun topic s t (followers.insert id (Watch.startTask ends r log).1)
      (Watch.startTask ends r log).2 where
  tended := h.tended.startTask ends hr htopic hfree
  unstopped i k hi hstopped := by
    have hold : .stopped k ∈ log := by
      rw [Watch.startTask, List.mem_append, stopped_mem_endTasks] at hstopped
      simpa using hstopped
    rw [IdMap.get?_insert] at hi
    split at hi
    · obtain rfl := Option.some.inj hi
      exact Nat.lt_irrefl _ (h.tended.begun _ (.inr hold))
    · exact h.unstopped i k hi hold
  fresh i k hi := by
    rw [IdMap.get?_insert] at hi
    split at hi
    · obtain rfl := Option.some.inj hi
      exact .inr (length_tasks_le h.tended.grown)
    · exact h.fresh i k hi

theorem begun_takeUp (h : Sound topic t) (hs : ∀ id r, s.get? id = some r → Listed t.requests id r)
    (ends : List Event → List Nat) :
    Begun topic s t (t.takeUp ends topic s).followers (t.takeUp ends topic s).log := by
  refine follow_induct (P := Begun topic s t) (begun_kept h s ends)
    fun m log r id id' hget htopic hid hfree hm => ?_
  obtain rfl : id' = id := Option.some.inj ((hs id' r hget).own.symm.trans hid)
  exact hm.startTask ends (hs id' r hget) htopic hfree

/-- A snapshot of the directory makes the followers what it should. -/
theorem follows_takeUp (h : Sound topic t)
    (hs : ∀ id r, s.get? id = some r → Listed t.requests id r) (ends : List Event → List Nat) :
    Follows topic s t (t.takeUp ends topic s) := by
  have hbegun := begun_takeUp h hs ends
  have hdeclaring : ∀ id, (t.takeUp ends topic s).followers.contains id = true
      ↔ s.Declares topic id := fun id => contains_follow fun id r hget => (hs id r hget).own
  have hdeclares : ∀ {id k}, (t.takeUp ends topic s).followers.get? id = some k →
      s.Declares topic id :=
    fun hid => (hdeclaring _).1 (Option.isSome_iff_exists.2 ⟨_, hid⟩)
  -- a task of before was kept, as the new ones come after all of them
  have hkept : ∀ {id k}, (t.takeUp ends topic s).followers.get? id = some k →
      k < (tasks t.log).length → t.followers.get? id = some k ∧ .ended k ∉ t.log := by
    intro id k hid hlt
    have hold := (hbegun.fresh id k hid).resolve_right (Nat.not_le_of_lt hlt)
    obtain ⟨hbefore, -, hended⟩ := get?_kept.1 hold
    exact ⟨hbefore, hasEnded_eq_false.1 hended⟩
  have hfollowing : ∀ k, (∃ id, (t.takeUp ends topic s).followers.get? id = some k) ↔
      k < (tasks (t.takeUp ends topic s).log).length ∧ .ended k ∉ t.log ∧
        .stopped k ∉ (t.takeUp ends topic s).log := by
    intro k
    constructor
    · rintro ⟨id, hid⟩
      refine ⟨hbegun.tended.lt_of_get? hid, fun hended => ?_, hbegun.unstopped id k hid⟩
      exact (hkept hid (h.tended.begun k (.inl hended))).2 hended
    · rintro ⟨hlt, hended, hstopped⟩
      exact hbegun.tended.followed k hlt hended hstopped
  refine ⟨hdeclaring, fun id k r hid hget => ?_, hfollowing, fun id k hlt => ⟨fun hid => ?_, ?_⟩,
    fun k hlt hnone => ?_, fun id k hid hended hdeclared => ?_, hbegun.tended.grown, rfl⟩
  · obtain ⟨p, hp, htopic, hlisted⟩ := hbegun.tended.serves id k hid
    have haddress := (hlisted.same (hs id r hget)).1
    obtain ⟨e, he⟩ := Option.isSome_iff_exists.1 hlisted.readable
    exact ⟨p, e, hp, hlisted.own, haddress, haddress ▸ he,
      fun hne => endpoint_of_hasTopic hne htopic he⟩
  · obtain ⟨hbefore, hended⟩ := hkept hid hlt
    exact ⟨hbefore, ⟨hlt, hended, h.unstopped id k hbefore⟩, hdeclares hid⟩
  · rintro ⟨hbefore, ⟨-, hended, -⟩, hdeclared⟩
    exact get?_follow_of_kept hbefore hdeclared (hasEnded_eq_false.2 hended)
  · by_contra hneither
    rw [not_or] at hneither
    have hlt' := Nat.lt_of_lt_of_le hlt (length_tasks_le hbegun.tended.grown)
    obtain ⟨id, hid⟩ := (hfollowing k).2 ⟨hlt', hneither⟩
    exact hnone id hid
  · obtain ⟨k', hk'⟩ := Option.isSome_iff_exists.1 ((hdeclaring id).2 hdeclared)
    refine ⟨k', hk', Nat.le_of_not_lt fun hlt => ?_⟩
    obtain ⟨hbefore, hrunning⟩ := hkept hk' hlt
    obtain rfl : k = k' := Option.some.inj (hid.symm.trans hbefore)
    exact hrunning hended

/-! ## Any number of moves -/

theorem Sound.takeUp (h : Sound topic t)
    (hs : ∀ id r, s.get? id = some r → Listed t.requests id r) (ends : List Event → List Nat) :
    Sound topic (t.takeUp ends topic s) :=
  ⟨(begun_takeUp h hs ends).tended.rebase, (begun_takeUp h hs ends).unstopped⟩

theorem listed_of_emissions {c : Config.Server} {n : Nat} {e : Emission}
    (he : (t.emissions c)[n]? = some e) (id : UInt32) (r : Record)
    (hget : e.snapshot.get? id = some r) : Listed t.requests id r :=
  Directory.listed_of_mem_emissions (List.mem_of_getElem? he) hget

theorem Sound.step (h : Sound topic t) (c : Config.Server) (m : Move) :
    Sound topic (t.step c topic m) := by
  cases m with
  | request frame => exact ⟨h.tended.mono (List.prefix_append _ _), h.unstopped⟩
  | ended k =>
    refine ⟨(h.tended.endTasks [k]).rebase, fun id i hid hstopped => ?_⟩
    exact h.unstopped id i hid (stopped_mem_endTasks.1 hstopped)
  | follow n ends =>
    rw [Pursuit.step]
    split
    · rename_i e he
      exact h.takeUp (listed_of_emissions he) ends
    · exact h

theorem Sound.run (h : Sound topic t) (c : Config.Server) (ms : List Move) :
    Sound topic (t.run c topic ms) := by
  induction ms generalizing t with
  | nil => exact h
  | cons m ms ih => exact ih (h.step c m)

theorem sound_new (topic : String) : Sound topic {} := ⟨.nil, nofun⟩

/-- **The tool follows the publishers that declare its topic.**  After any moves of a directory and
of a tool that has just been started:

* at no moment, also in the midst of a call, has a publisher had two tasks that were running;
* whichever snapshot of the directory is taken up next, and whichever tasks end meanwhile, each
  publisher that declares the topic in it is followed by one task, at the address that it has there;
  the task is the same as before if that was running, and a new one if it had ended; and every other
  task of before had ended or is stopped. -/
theorem follows_run (c : Config.Server) (topic : String) (ms : List Move) :
    let t := run c topic {} ms
    (∀ past, past <+: t.log → Sole past) ∧
    ∀ n ends e, (t.emissions c)[n]? = some e →
      Follows topic e.snapshot t (t.step c topic (.follow n ends)) ∧
      ∀ past, past <+: (t.step c topic (.follow n ends)).log → Sole past := by
  intro t
  have hsound : Sound topic t := (sound_new topic).run c ms
  refine ⟨hsound.tended.sole, fun n ends e he => ?_⟩
  have hstep : t.step c topic (.follow n ends) = t.takeUp ends topic e.snapshot := by
    rw [step, he]
  refine ⟨?_, (hsound.step c (.follow n ends)).tended.sole⟩
  rw [hstep]
  exact follows_takeUp hsound (listed_of_emissions he) ends

/-- Two publishers of the topic are followed; then the task of the first one ends, and the second
one gives the topic up. -/
def sampleMoves : List Move :=
  [.request (Wire.Command.register ⟨none, "tcp://h:1", "a", ["t"]⟩).encode,
    .request (Wire.Command.register ⟨none, "tcp://h:2", "b", ["t", "u"]⟩).encode,
    .follow 4 fun _ => [], .ended 0, .request (Wire.Command.setTopics 1 ["u"]).encode]

theorem follows_run_sampleMoves :
    let t := run {} "t" {} sampleMoves
    let t' := t.step {} "t" (.follow 6 fun _ => [1])
    ∃ e, (t.emissions {})[6]? = some e ∧ t.log = [.started ⟨some 0, "tcp://h:1", "a", ["t"]⟩,
        .started ⟨some 1, "tcp://h:2", "b", ["t", "u"]⟩, .ended 0] ∧
      t'.log.drop 3 = [.ended 1, .stopped 0, .stopped 1,
        .started ⟨some 0, "tcp://h:1", "a", ["t"]⟩] ∧
      t'.followers.entries = [(0, 2)] ∧ Follows "t" e.snapshot t t' ∧ Sole t'.log := by
  intro t t'
  obtain ⟨e, he⟩ : ∃ e, (t.emissions {})[6]? = some e :=
    Option.isSome_iff_exists.1 (by decide +kernel)
  obtain ⟨hfollows, hsole⟩ := (follows_run {} "t" sampleMoves).2 6 (fun _ => [1]) e he
  exact ⟨e, he, by decide +kernel, by decide +kernel, by decide +kernel, hfollows,
    hsole t'.log (List.prefix_refl _)⟩

end Pursuit

end TopicDirectory.Watch
