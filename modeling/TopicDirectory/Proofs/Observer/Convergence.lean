import TopicDirectory.Proofs.Observer.Course

/-!
# Observers converge

An observer connects and listens while the directory goes on changing.  What it holds is always a
snapshot that the directory had, each one from a later moment than the one before; and when there is
nothing more for it to hear, it holds the current one (`run_converges`).
-/

namespace TopicDirectory

open Service (Grows Had requests registryAfter)

namespace Watched

variable {w : Watched}

/-! ## What a listener holds -/

/-- A listener goes on holding a snapshot, and never one from before. -/
theorem listener_step {a i : Nat} {l : Client.Listener} (hstage : w.stage = .connected a i)
    (hlistener : w.observer.listener = some l) (m : Move) :
    (w.step m).stage = .connected a i ∧ ∃ l', (w.step m).observer.listener = some l' ∧
      l.held.generation ≤ l'.held.generation := by
  have hsame : w.stage = .connected a i ∧ ∃ l', w.observer.listener = some l' ∧
      l.held.generation ≤ l'.held.generation := ⟨hstage, l, hlistener, UInt64.le_refl _⟩
  cases m with
  | others m =>
    rw [step]
    split
    · exact hsame
    · exact hsame
  | call =>
    rw [step, call, hstage]
    exact hsame
  | greet =>
    rw [step, greet, hstage]
    exact hsame
  | enter =>
    rw [step, enter, hstage]
    exact hsame
  | dial =>
    rw [step, dial, hstage]
    exact hsame
  | ask =>
    rw [step, ask, hstage]
    exact hsame
  | fetch =>
    rw [step, fetch, hstage]
    exact hsame
  | hear n =>
    rw [step, hear]
    split
    · split
      · rename_i listener link hlistener' _
        obtain rfl := Option.some.inj (hlistener'.symm.trans hlistener)
        have hle := Client.Listener.generation_le_run w.limit n listener link.toGuest
        exact ⟨hstage, _, rfl, hle⟩
      · exact hsame
    · exact hsame

theorem listener_run {a i : Nat} {l : Client.Listener} (hstage : w.stage = .connected a i)
    (hlistener : w.observer.listener = some l) (ms : List Move) :
    (w.run ms).stage = .connected a i ∧ ∃ l', (w.run ms).observer.listener = some l' ∧
      l.held.generation ≤ l'.held.generation := by
  induction ms generalizing w l with
  | nil => exact ⟨hstage, l, hlistener, UInt64.le_refl _⟩
  | cons m ms ih =>
    obtain ⟨hstage', l', hlistener', hle⟩ := listener_step hstage hlistener m
    obtain ⟨hstage'', l'', hlistener'', hle'⟩ := ih hstage' hlistener'
    exact ⟨hstage'', l'', hlistener'', UInt64.le_trans hle hle'⟩

/-! ## Moments of a run -/

theorem run_append (w : Watched) (ms more : List Move) :
    w.run (ms ++ more) = (w.run ms).run more :=
  List.foldl_append

theorem length_log_step_le (w : Watched) (m : Move) :
    (w.step m).service.log.length ≤ w.service.log.length + 1 := by
  rcases w.service_step m with heq | ⟨m', heq⟩
  · rw [heq]
    exact Nat.le_succ _
  · rw [heq]
    exact w.service.length_log_step_le m'

/-- Every log between those at two moments is that at a moment in between. -/
theorem exists_moment {ms : List Move} {past : List Service.Event} (hw : w.service.log <+: past)
    (hpast : past <+: (w.run ms).service.log) :
    ∃ n ≤ ms.length, (w.run (ms.take n)).service.log = past := by
  induction ms generalizing w with
  | nil => exact ⟨0, Nat.le_refl _, hw.eq_of_length_le hpast.length_le⟩
  | cons m ms ih =>
    rcases Nat.lt_or_ge w.service.log.length past.length with hlt | hge
    · -- one move adds one event at most, so it does not pass over the log that is looked for
      have hnext : (w.step m).service.log <+: past := by
        refine List.prefix_of_prefix_length_le ((w.step m).grows_run ms).log hpast ?_
        have hle := w.length_log_step_le m
        omega
      obtain ⟨n, hn, hlog⟩ := ih hnext hpast
      exact ⟨n + 1, Nat.succ_le_succ hn, hlog⟩
    · exact ⟨0, Nat.zero_le _, hw.eq_of_length_le hge⟩

/-- The registry at a moment is what the requests until then leave. -/
theorem current_run (c : Config.Server) (config : Config.Client) (ms : List Move) :
    ((new c config).run ms).service.current
      = (registryAfter ((new c config).run ms).service.log).snapshot :=
  (settled_run (w := new c config) (settled_new c) ms).sane.current

/-! ## Convergence -/

/-- Whether there is nothing more for an attachment to hear: no snapshot is due to be broadcast, the
feed has not left the attachment and keeps nothing for it, and nothing is on its way. -/
def Quiet (w : Watched) (a : Nat) : Prop :=
  w.service.due = false ∧ ∃ b, w.service.server.feed.attachments[a]? = some b ∧ b.phase ≠ .gone ∧
    b.backlog = [] ∧ b.link.toGuest.unread = []

instance (w : Watched) (a : Nat) : Decidable (Quiet w a) :=
  decidable_of_iff (w.service.due = false ∧ w.service.server.feed.attachments[a]?.any (fun b =>
    b.phase ≠ .gone ∧ b.backlog = [] ∧ b.link.toGuest.unread = []) = true) (by
      simp [Quiet, Option.any_eq_true])

theorem OnCourse.had {s : Service} {o : Client.Observer} {stage : Stage} {a i : Nat}
    {l : Client.Listener} (h : OnCourse s o stage) (hstage : stage = .connected a i)
    (hlistener : o.listener = some l) : Had s.log l.held := by
  subst hstage
  cases h with
  | connected hlistener' hheld _ =>
    obtain rfl := Option.some.inj (hlistener.symm.trans hlistener')
    exact hheld

/-- When there is nothing more to hear, the copy is the current snapshot. -/
theorem OnCourse.held_eq {s : Service} {o : Client.Observer} {a i : Nat} {l : Client.Listener}
    (h : OnCourse s o (.connected a i)) (hlistener : o.listener = some l) (hrunning : l.running = true)
    (hquiet : Quiet ⟨s, o, .connected a i⟩ a) : l.held = s.current := by
  obtain ⟨hdue, b, hb, hphase, hbacklog, hunread⟩ := hquiet
  cases h with
  | connected hlistener' _ h =>
    obtain rfl := Option.some.inj (hlistener.symm.trans hlistener')
    obtain ⟨-, b', hb', hstill⟩ := h hrunning
    obtain rfl := Option.some.inj (hb.symm.trans hb')
    rcases hstill with ⟨stream, kept, hc⟩ | hleft
    · have hkept : kept = [] := by
        have hnotes := hc.backlog
        rw [hbacklog] at hnotes
        exact List.map_eq_nil_iff.1 hnotes.symm
      have hstream : stream = [] := by
        cases hc.reach with
        | admitted _ _ hstream =>
          rw [hunread] at hstream
          exact Client.broadcasts_eq_nil hstream.eq_nil
      exact hc.pends.upToDate hdue (by rw [hstream, hkept]; rfl) l.held rfl
    · exact absurd hleft.gone hphase

/-- What has to be read again of the snapshots of a run. -/
theorem sound_run {c : Config.Server} {config : Config.Client} {ms : List Move}
    (h : ∀ n ≤ ms.length, Frame.Sound c.messageSize.toNat
      (Wire.encodeSnapshot ((new c config).run (ms.take n)).service.current)) :
    Sound ((new c config).run ms).service := by
  rintro x ⟨past, hpast, rfl⟩
  have hlimit : ((new c config).run ms).service.server.host.limit = c.messageSize.toNat :=
    ((new c config).grows_run ms).limit
  obtain ⟨n, hn, hlog⟩ := exists_moment (w := new c config) List.nil_prefix hpast
  have hsound := h n hn
  rw [current_run, hlog] at hsound
  rw [hlimit]
  exact hsound

/-- Of a snapshot from before a moment and another one that is not older, the first one comes from
a moment before that of the other. -/
theorem ordered_moments {c : Config.Server} {config : Config.Client} {ms more : List Move}
    {x y : Snapshot} (hx : Had ((new c config).run ms).service.log x)
    (hy : Had ((new c config).run (ms ++ more)).service.log y)
    (hlength : (requests ((new c config).run (ms ++ more)).service.log).length < UInt64.size)
    (hle : x.generation ≤ y.generation) :
    ∃ n n', n ≤ ms.length ∧ n ≤ n' ∧ n' ≤ (ms ++ more).length ∧
      x = ((new c config).run ((ms ++ more).take n)).service.current ∧
      y = ((new c config).run ((ms ++ more).take n')).service.current := by
  have hgrows : Grows ((new c config).run ms).service ((new c config).run (ms ++ more)).service := by
    rw [run_append]
    exact grows_run _ more
  obtain ⟨past, past', hpast, hbefore, hpast', rfl, rfl⟩ := hx.ordered hy hgrows.log hlength hle
  obtain ⟨n, hn, hlog⟩ := exists_moment (w := new c config) List.nil_prefix hpast
  have hrest : ms.take n ++ (ms.drop n ++ more) = ms ++ more := by
    rw [← List.append_assoc, List.take_append_drop]
  rw [← hlog] at hbefore
  rw [← hrest, run_append] at hpast'
  -- the other moment is looked for among those that come after the first one
  obtain ⟨k, hk, hlog'⟩ := exists_moment hbefore hpast'
  have htake : (ms ++ more).take n = ms.take n := List.take_append_of_le_length hn
  have htake' : (ms ++ more).take (n + k) = ms.take n ++ (ms.drop n ++ more).take k := by
    rw [List.take_add, htake, List.drop_append_of_le_length hn]
  refine ⟨n, n + k, hn, Nat.le_add_right n k, ?_, ?_, ?_⟩
  · rw [List.length_append, List.length_drop] at hk
    rw [List.length_append]
    omega
  · rw [htake, current_run, hlog]
  · rw [htake', current_run, run_append, hlog']

/-- **Observers converge and never lose the last state.**  Whatever the others do while an observer
connects and listens, and in whatever order: once it is connected it holds the snapshot of a moment
that has been, later it holds that of a later moment, and when there is nothing more for it to hear
it holds the current one.  A snapshot that is written has to be one that can be read again: the four
octets of its length hold it.  The generations count up to `2 ^ 64` requests. -/
theorem run_converges {c : Config.Server} {config : Config.Client} {ms more : List Move} {a i : Nat}
    {l : Client.Listener}
    (hsound : ∀ n ≤ (ms ++ more).length, Frame.Sound c.messageSize.toNat
      (Wire.encodeSnapshot ((new c config).run ((ms ++ more).take n)).service.current))
    (hlength : (requests ((new c config).run (ms ++ more)).service.log).length < UInt64.size)
    (hstage : ((new c config).run ms).stage = .connected a i)
    (hlistener : ((new c config).run ms).observer.listener = some l) :
    ∃ l', ((new c config).run (ms ++ more)).observer.listener = some l' ∧
      (∃ n n', n ≤ ms.length ∧ n ≤ n' ∧ n' ≤ (ms ++ more).length ∧
        l.held = ((new c config).run ((ms ++ more).take n)).service.current ∧
        l'.held = ((new c config).run ((ms ++ more).take n')).service.current) ∧
      l.held.generation ≤ l'.held.generation ∧
      (l'.running = true → Quiet ((new c config).run (ms ++ more)) a →
        l'.held = ((new c config).run (ms ++ more)).service.current) := by
  have hsound' : Sound ((new c config).run (ms ++ more)).service := sound_run hsound
  have hgrows : Grows ((new c config).run ms).service ((new c config).run (ms ++ more)).service := by
    rw [run_append]
    exact grows_run _ more
  have hlength' : (requests ((new c config).run ms).service.log).length < UInt64.size :=
    Nat.lt_of_le_of_lt (Service.requests_mono hgrows.log).length_le hlength
  have hcourse := onCourse_run (w := new c config) (settled_new c) (hsound'.of_grows hgrows) hlength'
    .idle
  have hcourse' := onCourse_run (w := new c config) (settled_new c) hsound' hlength .idle
  obtain ⟨hstage', l', hlistener', hle⟩ := listener_run hstage hlistener more
  rw [← run_append] at hstage' hlistener'
  refine ⟨l', hlistener', ?_, hle, ?_⟩
  · exact ordered_moments (hcourse.had hstage hlistener) (hcourse'.had hstage' hlistener') hlength hle
  · intro hrunning hquiet
    rw [hstage'] at hcourse'
    exact hcourse'.held_eq hlistener' hrunning hquiet

/-- The feed keeps no more than one message. -/
def sampleConfig : Config.Server := { broadcastCapacity := 1 }

/-- An observer connects while a publisher comes, and listens while another one does. -/
def sampleMoves : List Move × List Move :=
  let register (address : String) := (Wire.Command.register ⟨none, address, "p", []⟩).encode
  ([.others (.join 300), .others (.accept 0), .call, .others (.feed (.accept 0)), .greet,
    .others (.issue 0 (register "tcp://h:1")), .others (.read 0), .others (.enqueue 0),
    .others .dispatch, .others (.feed (.greet 0)), .enter, .dial, .others .broadcast,
    .others (.write 0), .others (.accept 1), .others (.collect 0),
    .others (.issue 0 (register "tcp://h:2")), .ask, .others (.read 1), .others (.enqueue 1),
    .others .dispatch, .others (.write 1), .fetch],
    [.others (.read 0), .others (.enqueue 0), .others .dispatch, .others .broadcast,
      .others (.feed (.deliver 0)), .hear 2])

theorem run_converges_sampleMoves :
    ∃ l l', ((new sampleConfig {}).run sampleMoves.1).observer.listener = some l ∧
      ((new sampleConfig {}).run (sampleMoves.1 ++ sampleMoves.2)).observer.listener = some l' ∧
      l.held.generation ≤ l'.held.generation ∧ l'.held.generation = 2 ∧
      l'.held = ((new sampleConfig {}).run (sampleMoves.1 ++ sampleMoves.2)).service.current := by
  obtain ⟨l, hlistener⟩ : ∃ l, ((new sampleConfig {}).run sampleMoves.1).observer.listener = some l :=
    Option.isSome_iff_exists.1 (by decide +kernel)
  have hlistening : ((new sampleConfig {}).run
      (sampleMoves.1 ++ sampleMoves.2)).observer.listening = true := by decide +kernel
  have hquiet : Quiet ((new sampleConfig {}).run (sampleMoves.1 ++ sampleMoves.2)) 0 := by
    decide +kernel
  have hcurrent : ((new sampleConfig {}).run
      (sampleMoves.1 ++ sampleMoves.2)).service.current.generation = 2 := by decide +kernel
  obtain ⟨l', hlistener', -, hle, hheld⟩ := @run_converges sampleConfig {} sampleMoves.1
    sampleMoves.2 0 1 l (by decide +kernel) (by decide +kernel) (by decide +kernel) hlistener
  rw [Client.Observer.listening, hlistener'] at hlistening
  have heq := hheld hlistening hquiet
  exact ⟨l, l', hlistener, hlistener', hle, by rw [heq, hcurrent], heq⟩

end Watched

end TopicDirectory
