import TopicDirectory.Proofs.Observer.Asking
import TopicDirectory.Proofs.Observer.Attending
import TopicDirectory.Proofs.Observer.Basic

/-!
# The course of an observer

While an observer connects and while it listens, its attachment is one that it can rely on, and the
one answer that it gets from the directory is a snapshot from which it can go on (`OnCourse`).  Every
move, its own or one of the others, keeps it on its course.
-/

namespace TopicDirectory

open Client (Call Listener Observer)
open Service (Asking Follows Grows Had Sane requests)

theorem Client.Observer.connect_eq_ok {o o' : Observer} {outcome : Except Client.Error Snapshot}
    (h : o.connect outcome = (.ok (), o')) :
    ∃ x, outcome = .ok x ∧
      o' = { o with listener := some { held := x }, handed := o.handed ++ [x] } := by
  unfold connect at h
  split at h
  · cases h
  · cases h
  · rename_i x _
    cases h
    exact ⟨x, rfl, rfl⟩

namespace Watched

/-! ## What the directory keeps -/

/-- What a move of either comes to for the directory. -/
theorem service_step (w : Watched) (m : Move) :
    (w.step m).service = w.service ∨ ∃ m', (w.step m).service = w.service.step m' := by
  cases m with
  | others m =>
    rw [step]
    split
    · exact .inl rfl
    · exact .inr ⟨m, rfl⟩
  | call =>
    rw [step, call]
    split
    · exact .inr ⟨.attach, rfl⟩
    · exact .inl rfl
  | greet =>
    rw [step, greet]
    split
    · rename_i a _
      split
      · rename_i l _
        exact .inr ⟨.attend a l, rfl⟩
      · exact .inl rfl
    · exact .inl rfl
  | enter =>
    rw [step, enter]
    split
    · rename_i a _
      split
      · rename_i l _
        exact .inr ⟨.attend a l, rfl⟩
      · exact .inl rfl
    · exact .inl rfl
  | dial =>
    rw [step, dial]
    split
    · exact .inr ⟨.join w.limit, rfl⟩
    · exact .inl rfl
  | ask =>
    rw [step, ask]
    split
    · rename_i i _
      exact .inr ⟨.issue i Call.snapshot.request, rfl⟩
    · exact .inl rfl
  | fetch =>
    rw [step, fetch]
    split
    · rename_i i _
      split
      · exact .inr ⟨.collect i, rfl⟩
      · exact .inl rfl
    · exact .inl rfl
  | hear n =>
    rw [step, hear]
    split
    · rename_i a i _
      split
      · rename_i listener l _ _
        exact .inr ⟨.attend a { l with toGuest := (listener.run w.limit n l.toGuest).2 }, rfl⟩
      · exact .inl rfl
    · exact .inl rfl

/-- What holds of the directory and its feed from the start. -/
structure Settled (s : Service) : Prop where
  sane : Sane s
  limit : s.server.feed.limit = s.server.host.limit
  capacity : 0 < s.server.feed.capacity

theorem settled_new (c : Config.Server) : Settled (Service.new c) :=
  ⟨Service.sane_new c, rfl, Feed.capacity_new_pos _ _⟩

theorem Settled.step {s : Service} (h : Settled s) (m : Service.Move) : Settled (s.step m) := by
  obtain ⟨hlimit, hcapacity⟩ := (s.moves_step m).feed
  refine ⟨h.sane.step m, ?_, ?_⟩
  · rw [hlimit, (s.grows_step m).limit, h.limit]
  · rw [hcapacity]
    exact h.capacity

/-- Whether the four octets of a length hold those of the snapshots that the directory has had. -/
def Sound (s : Service) : Prop :=
  ∀ x, Had s.log x → Frame.Sound s.server.host.limit (Wire.encodeSnapshot x)

theorem Sound.of_grows {s s' : Service} (h : Sound s') (hs : Grows s s') : Sound s := by
  intro x hx
  rw [← hs.limit]
  exact h x (hx.mono hs.log)

/-! ## What the observer can rely on -/

/-- What an observer can rely on at a stage of its way. -/
inductive OnCourse (s : Service) (o : Observer) : Stage → Prop
  | idle : OnCourse s o .idle
  | called {a : Nat} (h : s.Follows a .called none) : OnCourse s o (.called a)
  | greeted {a : Nat} (h : s.Follows a .greeted none) : OnCourse s o (.greeted a)
  | admitted {a : Nat} (h : s.Follows a .admitted none) : OnCourse s o (.admitted a)
  | dialled {a i : Nat} (h : s.Follows a .admitted none) (hasking : s.Asking i false none) :
    OnCourse s o (.dialled a i)
  | asked {a i : Nat} {copy? : Option Snapshot} (h : s.Follows a .admitted copy?)
    (hasking : s.Asking i true copy?) : OnCourse s o (.asked a i)
  | connected {a i : Nat} {l : Listener} (hlistener : o.listener = some l) (hheld : Had s.log l.held)
    (h : l.running = true → s.Follows a .admitted (some l.held)) : OnCourse s o (.connected a i)
  | failed : OnCourse s o .failed

theorem attached?_ne_of_owns {stage : Stage} {m : Service.Move} {a : Nat}
    (h : stage.owns m = false) (ha : stage.attachment? = some a) : m.attached? ≠ some a := by
  intro hm
  cases m <;> simp_all [Stage.owns, Service.Move.attached?]

theorem actor?_ne_of_owns {stage : Stage} {m : Service.Move} {i : Nat} (h : stage.owns m = false)
    (hi : stage.client? = some i) : m.actor? ≠ some i := by
  intro hm
  cases m <;> simp_all [Stage.owns, Service.Move.actor?]

/-- The others leave an observer on its course. -/
theorem OnCourse.others {s : Service} {o : Observer} {stage : Stage} (h : OnCourse s o stage)
    (hs : Settled s) (hsound : Sound s) {m : Service.Move} (hm : stage.owns m = false) :
    OnCourse (s.step m) o stage := by
  have hfollows : ∀ {a : Nat} {progress : Service.Progress} {copy? : Option Snapshot},
      stage.attachment? = some a → s.Follows a progress copy? →
      (s.step m).Follows a progress copy? := fun ha hf =>
    hf.step hs.sane hs.capacity (hs.limit ▸ hsound) (attached?_ne_of_owns hm ha)
  cases h with
  | idle => exact .idle
  | called h => exact .called (hfollows rfl h)
  | greeted h => exact .greeted (hfollows rfl h)
  | admitted h => exact .admitted (hfollows rfl h)
  | dialled h hasking =>
    rcases hasking.step hs.sane nofun (actor?_ne_of_owns hm rfl) with hsame | ⟨hposted, -⟩
    · exact .dialled (hfollows rfl h) hsame
    · cases hposted
  | asked h hasking =>
    have hcopy : ∀ x, _ = some x → Frame.Sound s.server.host.limit (Wire.encodeSnapshot x) :=
      fun x hx => hsound x (h.1 x hx)
    rcases hasking.step hs.sane hcopy (actor?_ne_of_owns hm rfl) with hsame | ⟨-, rfl, hnew⟩
    · exact .asked (hfollows rfl h) hsame
    · exact .asked (hfollows rfl (h.copy hs.sane)) hnew
  | connected hlistener hheld h =>
    exact .connected hlistener (hheld.mono (s.grows_step m).log) fun hrunning =>
      hfollows rfl (h hrunning)
  | failed => exact .failed

/-! ## What the observer does -/

variable {w : Watched}

theorem onCourse_call (h : OnCourse w.service w.observer w.stage) :
    OnCourse w.call.service w.call.observer w.call.stage := by
  rw [call]
  split
  · exact .called w.service.follows_attach
  · exact h

/-- The connection of an attachment is that of the attachment. -/
theorem inlet?_map {α : Type} {a : Nat} {f : Link → α} {x : α}
    (h : (w.inlet? a).map f = some x) :
    ∃ b, w.service.server.feed.attachments[a]? = some b ∧ f b.link = x := by
  rw [inlet?, Option.map_map] at h
  exact Option.map_eq_some_iff.1 h

theorem onCourse_greet (h : OnCourse w.service w.observer w.stage) :
    OnCourse w.greet.service w.greet.observer w.greet.stage := by
  rw [greet]
  split
  · rename_i a hstage
    split
    · rename_i l hgreet
      obtain ⟨b, hb, hl⟩ := inlet?_map hgreet
      rw [hstage] at h
      cases h with
      | called h => exact .greeted (h.greet hb hl)
    · exact .failed
  · exact h

theorem onCourse_enter (h : OnCourse w.service w.observer w.stage) :
    OnCourse w.enter.service w.enter.observer w.enter.stage := by
  rw [enter]
  split
  · rename_i a hstage
    split
    · rename_i l hadmitted
      obtain ⟨b, hb, hl⟩ := inlet?_map hadmitted
      rw [hstage] at h
      cases h with
      | greeted h => exact .admitted (h.enter hb hl)
    · exact .failed
  · exact h

theorem onCourse_dial (hs : Settled w.service) (hsound : Sound w.service)
    (h : OnCourse w.service w.observer w.stage) :
    OnCourse w.dial.service w.dial.observer w.dial.stage := by
  rw [dial]
  split
  · rename_i a hstage
    rw [hstage] at h
    cases h with
    | admitted h =>
      have hfollows := h.step hs.sane hs.capacity (hs.limit ▸ hsound)
        (m := .join w.limit) nofun
      exact .dialled hfollows (Service.asking_join hs.sane w.limit)
  · exact h

theorem onCourse_ask (hs : Settled w.service) (hsound : Sound w.service)
    (h : OnCourse w.service w.observer w.stage) :
    OnCourse w.ask.service w.ask.observer w.ask.stage := by
  rw [ask]
  split
  · rename_i a i hstage
    rw [hstage] at h
    cases h with
    | dialled h hasking =>
      have hfollows := h.step hs.sane hs.capacity (hs.limit ▸ hsound)
        (m := .issue i Call.snapshot.request) nofun
      exact .asked hfollows (hasking.ask hs.sane)
  · exact h

/-- What the observer connects with is the copy that the directory gave it. -/
theorem onCourse_fetch (hs : Settled w.service) (hsound : Sound w.service)
    (h : OnCourse w.service w.observer w.stage) :
    OnCourse w.fetch.service w.fetch.observer w.fetch.stage := by
  rw [fetch]
  split
  · rename_i a i hstage
    split
    · rename_i observer hconnect
      obtain ⟨result, hanswer, hconnect⟩ := Option.map_eq_some_iff.1 hconnect
      obtain ⟨x, hx, rfl⟩ := Observer.connect_eq_ok hconnect
      rw [answer?] at hanswer
      split at hanswer
      · rename_i c p hc hp
        split at hanswer
        · rename_i hwaiting
          rw [hstage] at h
          cases h with
          | asked h hasking =>
            have hfollows := h.step hs.sane hs.capacity (hs.limit ▸ hsound)
              (m := .collect i) nofun
            cases result with
            | error fault => cases hx
            | ok reply =>
              obtain ⟨y, rfl, hy⟩ := hasking.collect hc hp hwaiting (Option.some.inj hanswer)
              obtain rfl := Except.ok.inj (hy.symm.trans hx)
              exact .connected rfl (hfollows.1 y rfl) fun _ => hfollows
        · cases hanswer
      · cases hanswer
    · exact .failed
  · exact h

theorem onCourse_hear (hs : Settled w.service)
    (hlog : (requests w.service.log).length < UInt64.size)
    (h : OnCourse w.service w.observer w.stage) (n : Nat) :
    OnCourse (w.hear n).service (w.hear n).observer (w.hear n).stage := by
  rw [hear]
  split
  · rename_i a i hstage
    split
    · rename_i listener link hlistener hlink
      obtain ⟨b, hb, rfl⟩ := Option.map_eq_some_iff.1 hlink
      rw [hstage] at h ⊢
      cases h with
      | connected hlistener' hheld h =>
        obtain rfl := Option.some.inj (hlistener.symm.trans hlistener')
        cases hrunning : listener.running with
        | true =>
          obtain ⟨hhad, hnext⟩ := (h hrunning).hear hs.sane hlog hb w.limit n
          exact .connected rfl (hhad.mono (w.service.grows_step _).log) hnext
        | false =>
          have hstopped := Listener.run_of_stopped w.limit n hrunning b.link.toGuest
          rw [hstopped]
          refine .connected rfl (hheld.mono (w.service.grows_step _).log) ?_
          intro hgoes
          rw [hrunning] at hgoes
          cases hgoes
    · exact h
  · exact h

/-- Every move keeps an observer on its course. -/
theorem onCourse_step (hs : Settled w.service) (hsound : Sound w.service)
    (hlog : (requests w.service.log).length < UInt64.size)
    (h : OnCourse w.service w.observer w.stage) (m : Move) :
    OnCourse (w.step m).service (w.step m).observer (w.step m).stage := by
  cases m with
  | others m =>
    rw [step]
    split
    · exact h
    · rename_i hm
      exact h.others hs hsound (eq_false_of_ne_true hm)
  | call => exact onCourse_call h
  | greet => exact onCourse_greet h
  | enter => exact onCourse_enter h
  | dial => exact onCourse_dial hs hsound h
  | ask => exact onCourse_ask hs hsound h
  | fetch => exact onCourse_fetch hs hsound h
  | hear n => exact onCourse_hear hs hlog h n

/-! ## Runs -/

theorem grows_step (w : Watched) (m : Move) : Grows w.service (w.step m).service := by
  rcases w.service_step m with heq | ⟨m', heq⟩
  · rw [heq]
    exact Service.grows_refl w.service
  · rw [heq]
    exact w.service.grows_step m'

theorem grows_run (w : Watched) (ms : List Move) : Grows w.service (w.run ms).service := by
  induction ms generalizing w with
  | nil => exact Service.grows_refl w.service
  | cons m ms ih => exact (w.grows_step m).trans (ih (w.step m))

theorem settled_step (hs : Settled w.service) (m : Move) : Settled (w.step m).service := by
  rcases w.service_step m with heq | ⟨m', heq⟩
  · rw [heq]
    exact hs
  · rw [heq]
    exact hs.step m'

theorem settled_run (hs : Settled w.service) (ms : List Move) : Settled (w.run ms).service := by
  induction ms generalizing w with
  | nil => exact hs
  | cons m ms ih => exact ih (settled_step hs m)

/-- Whatever is done, and in whatever order, an observer stays on its course. -/
theorem onCourse_run {ms : List Move} (hs : Settled w.service) (hsound : Sound (w.run ms).service)
    (hlog : (requests (w.run ms).service.log).length < UInt64.size)
    (h : OnCourse w.service w.observer w.stage) :
    OnCourse (w.run ms).service (w.run ms).observer (w.run ms).stage := by
  induction ms generalizing w with
  | nil => exact h
  | cons m ms ih =>
    have hgrows := w.grows_run (m :: ms)
    have hlog' : (requests w.service.log).length < UInt64.size :=
      Nat.lt_of_le_of_lt (Service.requests_mono hgrows.log).length_le hlog
    exact ih (settled_step hs m) hsound hlog (onCourse_step hs (hsound.of_grows hgrows) hlog' h m)

end Watched

end TopicDirectory
