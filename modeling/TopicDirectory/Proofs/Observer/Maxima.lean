import TopicDirectory.Proofs.Link.Frames
import TopicDirectory.Proofs.Observer.Observation

/-!
# What a listener keeps of what comes

Whatever octets come on a subscription, and in whatever portions, a listener attends to the payloads
of the messages that are labelled as snapshots, up to the first other label and as far as whole frames
within the limit come (`attended`).  Of the snapshots among these payloads it hands over those that
are newer than all before them, the copy that was held at first included (`maxima`), and it holds the
last of them (`hears_maxima`).  A payload that is no snapshot is passed over.
-/

namespace TopicDirectory.Client

open Link (Fault)
open TopicDirectory.Frame (frames)

/-! ## What is to be kept -/

/-- The payloads of the messages that are labelled as snapshots, up to the first other label, where
the bodies of frames are labels and payloads in turn. -/
def heeded : List (List UInt8) → List (List UInt8)
  | label :: payload :: bodies =>
    if label = Utf8.encode Directory.label then payload :: heeded bodies else []
  | _ => []

/-- The payloads that a listener attends to where octets come. -/
def attended (limit : Nat) (octets : List UInt8) : List (List UInt8) := heeded (frames limit octets)

/-- The snapshots among payloads. -/
def readable (payloads : List (List UInt8)) : List Snapshot :=
  payloads.filterMap fun b => (Wire.decodeSnapshot b).toOption

/-- The snapshots that are newer than all before them, those of another list included. -/
def maxima (before : List Snapshot) : List Snapshot → List Snapshot
  | [] => []
  | s :: ss =>
    if ∀ t ∈ before, t.generation < s.generation then s :: maxima (before ++ [s]) ss
    else maxima (before ++ [s]) ss

theorem maxima_concat (before ss : List Snapshot) (s : Snapshot) :
    maxima before (ss ++ [s])
      = maxima before ss
        ++ if ∀ t ∈ before ++ ss, t.generation < s.generation then [s] else [] := by
  induction ss generalizing before with
  | nil => rw [List.append_nil]; rfl
  | cons first ss ih =>
    have hbefore : before ++ first :: ss = before ++ [first] ++ ss := by simp
    rw [List.cons_append, maxima, maxima, ih, hbefore]
    split <;> rfl

theorem readable_concat (payloads : List (List UInt8)) (payload : List UInt8) :
    readable (payloads ++ [payload])
      = readable payloads ++ (Wire.decodeSnapshot payload).toOption.toList := by
  rw [readable, List.filterMap_append]
  rfl

/-! ## One message -/

variable {limit : Nat} {p q : Pipe} {heard : Heard}

theorem heeded_of_ne {label : List UInt8} (h : label ≠ Utf8.encode Directory.label)
    (bodies : List (List UInt8)) : heeded (label :: bodies) = [] := by
  cases bodies with
  | nil => rfl
  | cons payload bodies => rw [heeded, if_neg h]

/-- Where snapshots are broadcast, and it all breaks off somewhere, their payloads are attended to. -/
theorem heeded_of_prefix {ss : List Snapshot} {tail bodies : List (List UInt8)}
    (htail : tail <+: [Utf8.encode Directory.label]) (h : bodies <+: broadcasts ss ++ tail) :
    heeded bodies <+: ss.map Wire.encodeSnapshot := by
  induction ss generalizing bodies with
  | nil =>
    have hlength := (List.IsPrefix.trans h htail).length_le
    match bodies, hlength with
    | [], _ => exact List.nil_prefix
    | [_], _ => exact List.nil_prefix
  | cons s ss ih =>
    have hcons : broadcasts (s :: ss) ++ tail
        = Utf8.encode Directory.label :: Wire.encodeSnapshot s :: (broadcasts ss ++ tail) := rfl
    match bodies, h with
    | [], _ => exact List.nil_prefix
    | [_], _ => exact List.nil_prefix
    | label :: payload :: bodies, h =>
      rw [hcons, List.cons_prefix_cons, List.cons_prefix_cons] at h
      obtain ⟨hlabel, hpayload, hrest⟩ := h
      rw [heeded, if_pos hlabel, hpayload]
      exact List.cons_prefix_cons.2 ⟨rfl, ih hrest⟩

/-- A listener takes a payload that it has to attend to next, or there is none to come and it
stops. -/
theorem Heard.next_eq_some (h : next limit p = some (heard, q)) : q.closed = p.closed ∧
    ((∃ payload, heard = ofPayload payload ∧ q.unread.length < p.unread.length ∧
        ∀ more, attended limit (p.unread ++ more) = payload :: attended limit (q.unread ++ more)) ∨
      (∀ l : Listener, l.hear heard = ({ l with running := false }, none)) ∧
        attended limit p.unread = [] ∧
        (p.closed = false → ∀ more, attended limit (p.unread ++ more) = [])) := by
  cases hlabel : Frame.expect limit p with
  | none => simp [next, hlabel] at h
  | some found =>
    obtain ⟨result, p'⟩ := found
    obtain ⟨hclosed, ⟨label, rfl, hshorter, hframes⟩ | ⟨⟨fault, rfl⟩, hnow, hlater⟩⟩ :=
      Frame.frames_of_expect hlabel
    · have hframes' : frames limit p.unread = label :: frames limit p'.unread := by
        have hnothing := hframes []
        rwa [List.append_nil, List.append_nil] at hnothing
      by_cases hdirectory : label = Utf8.encode Directory.label
      · cases hpayload : Frame.expect limit p' with
        | none => simp [next, hlabel, hdirectory, hpayload] at h
        | some found =>
          obtain ⟨result, q'⟩ := found
          obtain ⟨hclosed', ⟨payload, rfl, hshorter', hrest⟩ | ⟨⟨fault, rfl⟩, hnow, hlater⟩⟩ :=
            Frame.frames_of_expect hpayload
          · simp [next, hlabel, hdirectory, hpayload] at h
            obtain ⟨rfl, rfl⟩ := h
            refine ⟨hclosed'.trans hclosed, .inl ⟨payload, rfl, ?_, fun more => ?_⟩⟩
            · exact Nat.lt_trans hshorter' hshorter
            · rw [attended, hframes, hrest, heeded, if_pos hdirectory]
              rfl
          · simp [next, hlabel, hdirectory, hpayload] at h
            obtain ⟨rfl, rfl⟩ := h
            refine ⟨hclosed'.trans hclosed, .inr ⟨fun _ => rfl, ?_, fun hopen more => ?_⟩⟩
            · rw [attended, hframes', hnow]
              rfl
            · rw [attended, hframes, hlater (hclosed.trans hopen) more]
              rfl
      · simp [next, hlabel, hdirectory] at h
        obtain ⟨rfl, rfl⟩ := h
        refine ⟨hclosed, .inr ⟨fun _ => rfl, ?_, fun _ more => ?_⟩⟩
        · rw [attended, hframes', heeded_of_ne hdirectory]
        · rw [attended, hframes, heeded_of_ne hdirectory]
    · simp [next, hlabel] at h
      obtain ⟨rfl, rfl⟩ := h
      refine ⟨hclosed, .inr ⟨fun _ => rfl, by rw [attended, hnow]; rfl, fun hopen more => ?_⟩⟩
      rw [attended, hlater hopen more]
      rfl

theorem Heard.isSome_next (limit : Nat) (h : p.closed = true) : (next limit p).isSome := by
  obtain ⟨⟨result, p'⟩, hlabel⟩ := Option.isSome_iff_exists.1 (Frame.isSome_expect limit h)
  obtain ⟨hclosed, -⟩ := Frame.frames_of_expect hlabel
  cases result with
  | error fault => simp [next, hlabel]
  | ok label =>
    by_cases hdirectory : label = Utf8.encode Directory.label
    · obtain ⟨⟨result, q'⟩, hpayload⟩ :=
        Option.isSome_iff_exists.1 (Frame.isSome_expect limit (hclosed.trans h))
      cases result with
      | error fault => simp [next, hlabel, hdirectory, hpayload]
      | ok payload => simp [next, hlabel, hdirectory, hpayload]
    · simp [next, hlabel, hdirectory]

/-- What a listener that held a copy at first has made of the payloads it has attended to. -/
structure Kept (held : Snapshot) (payloads : List (List UInt8)) (l : Listener)
    (handed : List Snapshot) : Prop where
  sink : handed = maxima [held] (readable payloads)
  copy : l.held = handed.getLastD held
  mem : l.held ∈ held :: readable payloads
  newest : ∀ t ∈ held :: readable payloads, t.generation ≤ l.held.generation

variable {held s : Snapshot} {payloads more : List (List UInt8)} {l : Listener}
  {handed : List Snapshot}

theorem kept_nil (held : Snapshot) : Kept held [] { held } [] where
  sink := rfl
  copy := rfl
  mem := List.mem_cons_self
  newest t ht := by
    rw [List.mem_singleton.1 ht]
    exact UInt64.le_refl _

/-- Whether a snapshot is newer than all before it can be seen from the copy that is held. -/
theorem Kept.newer_iff (h : Kept held payloads l handed) (s : Snapshot) :
    (∀ t ∈ [held] ++ readable payloads, t.generation < s.generation) ↔
      l.held.generation < s.generation := by
  constructor
  · intro hall
    exact hall l.held h.mem
  · intro hlt t ht
    exact UInt64.lt_of_le_of_lt (h.newest t ht) hlt

/-- A payload that is no snapshot makes no difference. -/
theorem Kept.skip (h : Kept held payloads l handed) (hsame : readable more = readable payloads) :
    Kept held more l handed where
  sink := by
    rw [hsame]
    exact h.sink
  copy := h.copy
  mem := by
    rw [hsame]
    exact h.mem
  newest := by
    rw [hsame]
    exact h.newest

/-- A snapshot that is newer than the copy is one of those to be kept. -/
theorem Kept.take (h : Kept held payloads l handed) (hmore : readable more = readable payloads ++ [s])
    (hlt : l.held.generation < s.generation) :
    Kept held more { l with held := s } (handed ++ [s]) where
  sink := by
    rw [hmore, maxima_concat, if_pos ((h.newer_iff s).2 hlt), ← h.sink]
  copy := by
    rw [List.getLastD_concat]
  mem := by
    rw [hmore]
    exact List.mem_cons_of_mem _ (List.mem_append_right _ List.mem_cons_self)
  newest t ht := by
    rw [hmore, ← List.cons_append] at ht
    rcases List.mem_append.1 ht with ht | ht
    · exact UInt64.le_of_lt ((h.newer_iff s).2 hlt t ht)
    · rw [List.mem_singleton.1 ht]
      exact UInt64.le_refl _

/-- A snapshot that is not is not. -/
theorem Kept.stale (h : Kept held payloads l handed)
    (hmore : readable more = readable payloads ++ [s])
    (hge : ¬ l.held.generation < s.generation) : Kept held more l handed where
  sink := by
    have hnot : ¬ ∀ t ∈ [held] ++ readable payloads, t.generation < s.generation := by
      rw [h.newer_iff]
      exact hge
    rw [hmore, maxima_concat, if_neg hnot, List.append_nil, ← h.sink]
  copy := h.copy
  mem := by
    rw [hmore, ← List.cons_append]
    exact List.mem_append_left _ h.mem
  newest t ht := by
    rw [hmore, ← List.cons_append] at ht
    rcases List.mem_append.1 ht with ht | ht
    · exact h.newest t ht
    · rw [List.mem_singleton.1 ht]
      exact UInt64.not_lt.1 hge

/-- After one more payload what should be kept has been kept. -/
theorem Kept.hear (h : Kept held payloads l handed) (payload : List UInt8) :
    Kept held (payloads ++ [payload]) (l.hear (.ofPayload payload)).1
      (handed ++ (l.hear (.ofPayload payload)).2.toList) := by
  have hreadable := readable_concat payloads payload
  unfold Heard.ofPayload
  cases hdecode : Wire.decodeSnapshot payload with
  | error fault =>
    rw [hdecode] at hreadable
    have hsame := h.skip (hreadable.trans (List.append_nil _))
    simpa [Listener.hear] using hsame
  | ok s =>
    rw [hdecode] at hreadable
    have hmore : readable (payloads ++ [payload]) = readable payloads ++ [s] := hreadable
    by_cases hlt : l.held.generation < s.generation
    · have hnewer := h.take hmore hlt
      simpa [Listener.hear, hlt] using hnewer
    · have hstale := h.stale hmore hlt
      simpa [Listener.hear, hlt] using hstale

theorem running_hear_ofPayload (l : Listener) (payload : List UInt8) :
    (l.hear (.ofPayload payload)).1.running = l.running := by
  unfold Heard.ofPayload
  split
  · unfold Listener.hear
    dsimp only
    split <;> rfl
  · rfl

/-! ## All that comes -/

/-- A listener at work: what has come and is not read yet, and what it has handed over. -/
structure Audition where
  listener : Listener
  inlet : Pipe := {}
  handed : List Snapshot := []

namespace Audition

/-- Lets the listener read what has come. -/
def listen (limit : Nat) (a : Audition) : Audition :=
  let heard := a.listener.listen limit a.inlet
  { listener := heard.1.1, inlet := heard.2, handed := a.handed ++ heard.1.2 }

/-- Lets octets come, and the listener read them. -/
def arrive (limit : Nat) (a : Audition) (octets : List UInt8) : Audition :=
  listen limit { a with inlet := a.inlet.write octets }

/-- A listener that holds a copy, and octets that come in portions and then come to their end. -/
def hearOut (limit : Nat) (held : Snapshot) (portions : List (List UInt8)) : Audition :=
  let a := portions.foldl (arrive limit) { listener := { held } }
  listen limit { a with inlet := a.inlet.close }

/-- Whether a listener that held a copy at first has made of the octets that have come what it
should. -/
structure Attends (limit : Nat) (held : Snapshot) (octets : List UInt8) (a : Audition)
    (payloads : List (List UInt8)) : Prop where
  kept : Kept held payloads a.listener a.handed
  running : a.listener.running = true → ∀ more,
    attended limit (octets ++ more) = payloads ++ attended limit (a.inlet.unread ++ more)
  stopped : a.listener.running = false → attended limit octets = payloads ∧
    (a.inlet.closed = false → ∀ more, attended limit (octets ++ more) = payloads)

variable {octets : List UInt8} {a : Audition}

theorem attends_new (limit : Nat) (held : Snapshot) :
    Attends limit held [] { listener := { held } } [] where
  kept := kept_nil held
  running _ _ := rfl
  stopped h := by cases h

/-- What a listener keeps when it takes one message, it keeps when it takes many. -/
theorem Attends.run (n : Nat) (h : Attends limit held octets a payloads) :
    ∃ payloads, Attends limit held octets
      ⟨(Listener.run limit n a.listener a.inlet).1.1, (Listener.run limit n a.listener a.inlet).2,
        a.handed ++ (Listener.run limit n a.listener a.inlet).1.2⟩ payloads := by
  induction n generalizing a payloads with
  | zero =>
    rw [Listener.run, List.append_nil]
    exact ⟨payloads, h⟩
  | succ n ih =>
    obtain ⟨l, p, handed⟩ := a
    cases hrunning : l.running with
    | false =>
      rw [Listener.run_of_stopped _ _ hrunning, List.append_nil]
      exact ⟨payloads, h⟩
    | true =>
      cases hnext : Heard.next limit p with
      | none =>
        rw [Listener.run_of_none hnext, List.append_nil]
        exact ⟨payloads, h⟩
      | some found =>
        obtain ⟨heard, q⟩ := found
        obtain ⟨hclosed, ⟨payload, rfl, -, hattended⟩ | ⟨hstop, hnow, hlater⟩⟩ :=
          Heard.next_eq_some hnext
        · have hrunning' := (running_hear_ofPayload l payload).trans hrunning
          have hafter : Attends limit held octets ⟨(l.hear (.ofPayload payload)).1, q,
              handed ++ (l.hear (.ofPayload payload)).2.toList⟩ (payloads ++ [payload]) := by
            refine ⟨h.kept.hear payload, fun _ more => ?_, fun hstopped => ?_⟩
            · rw [h.running hrunning, hattended, List.append_assoc]
              rfl
            · cases hrunning'.symm.trans hstopped
          obtain ⟨payloads', h'⟩ := ih hafter
          rw [Listener.run_of_some hrunning hnext]
          rw [List.append_assoc] at h'
          exact ⟨payloads', h'⟩
        · -- nothing more is to be attended to, whatever comes
          have hstopped : ({ l with running := false } : Listener).running = false := rfl
          rw [Listener.run_of_some hrunning hnext, hstop l, Listener.run_of_stopped _ _ hstopped]
          rw [Option.toList_none, List.append_nil, List.append_nil]
          refine ⟨payloads, ⟨h.kept.sink, h.kept.copy, h.kept.mem, h.kept.newest⟩,
            (fun hgoing => by cases hgoing), fun _ => ⟨?_, fun hopen more => ?_⟩⟩
          · have hall := h.running hrunning []
            rw [List.append_nil, List.append_nil, hnow, List.append_nil] at hall
            exact hall
          · rw [h.running hrunning more, hlater (hclosed.symm.trans hopen) more, List.append_nil]

theorem Attends.listen (h : Attends limit held octets a payloads) :
    ∃ payloads, Attends limit held octets (a.listen limit) payloads :=
  h.run (a.inlet.unread.length + 1)

/-- As long as there may be more to come the connection stays open. -/
theorem closed_run (limit n : Nat) (l : Listener) (p : Pipe) :
    (Listener.run limit n l p).2.closed = p.closed := by
  induction n generalizing l p with
  | zero => rfl
  | succ n ih =>
    cases hrunning : l.running with
    | false => rw [Listener.run_of_stopped _ _ hrunning]
    | true =>
      cases hnext : Heard.next limit p with
      | none => rw [Listener.run_of_none hnext]
      | some found =>
        obtain ⟨heard, q⟩ := found
        rw [Listener.run_of_some hrunning hnext]
        exact (ih _ q).trans (Heard.next_eq_some hnext).1

/-- At the end of what comes the listener stops. -/
theorem running_run {limit n : Nat} {l : Listener} {p : Pipe} (hclosed : p.closed = true)
    (hn : p.unread.length < n) : (Listener.run limit n l p).1.1.running = false := by
  induction n generalizing l p with
  | zero => exact absurd hn (Nat.not_lt_zero _)
  | succ n ih =>
    cases hrunning : l.running with
    | false => rw [Listener.run_of_stopped _ _ hrunning, hrunning]
    | true =>
      obtain ⟨⟨heard, q⟩, hnext⟩ :=
        Option.isSome_iff_exists.1 (Heard.isSome_next limit hclosed)
      rw [Listener.run_of_some hrunning hnext]
      obtain ⟨hq, ⟨payload, -, hshorter, -⟩ | ⟨hstop, -, -⟩⟩ := Heard.next_eq_some hnext
      · exact ih (hq.trans hclosed) (by omega)
      · have hstopped : ({ l with running := false } : Listener).running = false := rfl
        rw [hstop l, Listener.run_of_stopped _ _ hstopped]

/-- Octets that come are attended to as if they had come with those before them. -/
theorem Attends.arrive (h : Attends limit held octets a payloads) (hopen : a.inlet.closed = false)
    (portion : List UInt8) : ∃ payloads, Attends limit held (octets ++ portion)
      (a.arrive limit portion) payloads := by
  have hcome : Attends limit held (octets ++ portion)
      { a with inlet := a.inlet.write portion } payloads := by
    refine ⟨h.kept, fun hrunning more => ?_, fun hstopped => ?_⟩
    · rw [Pipe.unread_write, hopen, if_neg Bool.false_ne_true, List.append_assoc, List.append_assoc]
      exact h.running hrunning (portion ++ more)
    · obtain ⟨-, hlater⟩ := h.stopped hstopped
      refine ⟨hlater hopen portion, fun _ more => ?_⟩
      rw [List.append_assoc]
      exact hlater hopen (portion ++ more)
  exact hcome.listen

theorem Attends.portions (h : Attends limit held octets a payloads)
    (hopen : a.inlet.closed = false) (portions : List (List UInt8)) :
    ∃ payloads, Attends limit held (octets ++ portions.flatten)
      (portions.foldl (Audition.arrive limit) a) payloads := by
  induction portions generalizing a octets payloads with
  | nil =>
    rw [List.flatten_nil, List.append_nil]
    exact ⟨payloads, h⟩
  | cons portion portions ih =>
    obtain ⟨payloads', h'⟩ := h.arrive hopen portion
    have hopen' : (a.arrive limit portion).inlet.closed = false := by
      have hwritten : (a.inlet.write portion).closed = false := by
        rw [Pipe.closed_write]
        exact hopen
      exact (closed_run limit _ a.listener _).trans hwritten
    rw [List.flatten_cons, ← List.append_assoc]
    exact ih h' hopen'

/-- What a listener makes of octets is what it should, whatever portions they come in. -/
theorem kept_hearOut (limit : Nat) (held : Snapshot) (portions : List (List UInt8)) :
    Kept held (attended limit portions.flatten) (hearOut limit held portions).listener
        (hearOut limit held portions).handed ∧
      (hearOut limit held portions).listener.running = false := by
  obtain ⟨payloads, h⟩ := (attends_new limit held).portions rfl portions
  rw [List.nil_append] at h
  have hclosed : Attends limit held portions.flatten
      { portions.foldl (arrive limit) { listener := { held } } with
        inlet := (portions.foldl (arrive limit) { listener := { held } }).inlet.close } payloads :=
    ⟨h.kept, h.running, fun hstopped => ⟨(h.stopped hstopped).1, nofun⟩⟩
  obtain ⟨payloads', h'⟩ := hclosed.listen
  have hstopped : (hearOut limit held portions).listener.running = false :=
    running_run rfl (Nat.lt_succ_self _)
  rw [(h'.stopped hstopped).1]
  exact ⟨h'.kept, hstopped⟩

theorem listener_hearOut (limit : Nat) (held : Snapshot) (portions : List (List UInt8)) :
    (hearOut limit held portions).listener
      = { held := (maxima [held] (readable (attended limit portions.flatten))).getLastD held
          running := false } := by
  obtain ⟨hkept, hstopped⟩ := kept_hearOut limit held portions
  have hcopy := hkept.copy
  rw [hkept.sink] at hcopy
  rw [← hcopy, ← hstopped]

end Audition

/-! ## Payloads that are no snapshots -/

/-- The octets of messages that are labelled as snapshots. -/
def messages (payloads : List (List UInt8)) : List UInt8 :=
  payloads.flatMap fun b => Frame.encode (Utf8.encode Directory.label) ++ Frame.encode b

theorem attended_messages (hlabel : (Utf8.encode Directory.label).length ≤ limit)
    {payloads : List (List UInt8)}
    (hfits : ∀ b ∈ payloads, b.length ≤ limit ∧ b.length < UInt32.size) (rest : List UInt8) :
    attended limit (messages payloads ++ rest) = payloads ++ attended limit rest := by
  induction payloads with
  | nil => rfl
  | cons payload payloads ih =>
    obtain ⟨hlimit, h32⟩ := hfits payload List.mem_cons_self
    have hrest := ih fun b hb => hfits b (List.mem_cons_of_mem _ hb)
    have hlabel32 : (Utf8.encode Directory.label).length < UInt32.size := by decide
    rw [messages, List.flatMap_cons, List.append_assoc, List.append_assoc, attended,
      Frame.frames_encode_append hlabel hlabel32, Frame.frames_encode_append hlimit h32, heeded,
      if_pos rfl, List.cons_append, ← hrest]
    rfl

/-- Where the label itself is over the limit no payload is attended to. -/
theorem attended_of_lt (h : limit < (Utf8.encode Directory.label).length) (octets : List UInt8) :
    attended limit octets = [] := by
  have hbegins := (Frame.longest_frames limit octets).begins
  rw [attended]
  cases hframes : frames limit octets with
  | nil => rfl
  | cons label bodies =>
    rw [hframes] at hbegins
    have hlimit := (hbegins.fits label List.mem_cons_self).1
    refine heeded_of_ne ?_ bodies
    rintro rfl
    omega

/-- A payload that is no snapshot makes no difference to what snapshots come. -/
theorem readable_attended_messages {before : List (List UInt8)} {bad : List UInt8}
    {fault : Wire.Fault} (hbad : Wire.decodeSnapshot bad = .error fault)
    (hfits : ∀ b ∈ bad :: before, b.length ≤ limit ∧ b.length < UInt32.size) (after : List UInt8) :
    readable (attended limit (messages (before ++ [bad]) ++ after))
      = readable (attended limit (messages before ++ after)) := by
  by_cases hlabel : (Utf8.encode Directory.label).length ≤ limit
  · have hbefore (b : List UInt8) (hb : b ∈ before) : b.length ≤ limit ∧ b.length < UInt32.size :=
      hfits b (List.mem_cons_of_mem _ hb)
    have hboth (b : List UInt8) (hb : b ∈ before ++ [bad]) :
        b.length ≤ limit ∧ b.length < UInt32.size := by
      rcases List.mem_append.1 hb with hb | hb
      · exact hbefore b hb
      · rw [List.mem_singleton.1 hb]
        exact hfits bad List.mem_cons_self
    rw [attended_messages hlabel hboth, attended_messages hlabel hbefore]
    simp [readable, hbad, Except.toOption]
  · rw [attended_of_lt (Nat.lt_of_not_le hlabel), attended_of_lt (Nat.lt_of_not_le hlabel)]

/-- **A listener keeps the snapshots that are newer than all before them.**  Of octets of any kind,
which come in any portions, let `bodies` be those of the longest run of whole frames within the limit.
They are labels and payloads in turn; the payloads up to the first label that is not that of snapshots
are attended to.  Of the snapshots among these, those that are newer than the copy held at first and
than all snapshots before them are handed over, in order, and the last of them is held in the end.  A
payload that is attended to and is no snapshot could as well not have come. -/
theorem hears_maxima (limit : Nat) (held : Snapshot) (portions : List (List UInt8)) :
    (∃ bodies, Frame.Longest limit portions.flatten bodies ∧
      let kept := maxima [held] (readable (heeded bodies))
      (Audition.hearOut limit held portions).handed = kept ∧
        (Audition.hearOut limit held portions).listener
          = { held := kept.getLastD held, running := false }) ∧
      ∀ before bad after fault others, portions.flatten = messages (before ++ [bad]) ++ after →
        Wire.decodeSnapshot bad = .error fault →
        (∀ b ∈ bad :: before, b.length ≤ limit ∧ b.length < UInt32.size) →
        others.flatten = messages before ++ after →
        (Audition.hearOut limit held portions).handed
            = (Audition.hearOut limit held others).handed ∧
          (Audition.hearOut limit held portions).listener
            = (Audition.hearOut limit held others).listener := by
  have hsink (portions : List (List UInt8)) := (Audition.kept_hearOut limit held portions).1.sink
  refine ⟨⟨frames limit portions.flatten, Frame.longest_frames _ _, hsink portions,
    Audition.listener_hearOut limit held portions⟩, ?_⟩
  intro before bad after fault others hportions hbad hfits hothers
  have hsame := readable_attended_messages hbad hfits after
  rw [← hportions, ← hothers] at hsame
  constructor
  · rw [hsink portions, hsink others, hsame]
  · rw [Audition.listener_hearOut, Audition.listener_hearOut, hsame]

/-- Three snapshots, of which the second one is older than the first. -/
def samplePayloads : List (List UInt8) :=
  [1, 0, 2].map fun n => Wire.encodeSnapshot { generation := n }

/-- The second and the third of them, and another one that is newer but comes after a foreign label. -/
def sampleRest : List UInt8 :=
  messages (samplePayloads.drop 1) ++ Frame.encode (Utf8.encode "DIRX")
    ++ messages [Wire.encodeSnapshot { generation := 3 }]

theorem hears_maxima_samplePayloads :
    let bad := (Wire.Value.int 7).encode
    let octets := messages (samplePayloads.take 1 ++ [bad]) ++ sampleRest
    let others := [messages (samplePayloads.take 1) ++ sampleRest]
    Wire.decodeSnapshot bad = .error (.unexpectedKind .directory .int) ∧
      (Audition.hearOut 64 {} [octets.take 9, octets.drop 9]).handed
        = (Audition.hearOut 64 {} others).handed ∧
      (Audition.hearOut 64 {} others).handed = [{ generation := 1 }, { generation := 2 }] := by
  intro bad octets others
  have hbad : Wire.decodeSnapshot bad = .error (.unexpectedKind .directory .int) := by
    rw [Wire.decodeSnapshot, Wire.Value.decode_encode]
    rfl
  have hportions : [octets.take 9, octets.drop 9].flatten = octets := by simp
  obtain ⟨-, hskip⟩ := hears_maxima 64 {} [octets.take 9, octets.drop 9]
  have hsame := hskip (samplePayloads.take 1) bad sampleRest _ others hportions hbad
    (by decide +kernel) (by simp [others])
  exact ⟨hbad, hsame.1, by decide +kernel⟩

end TopicDirectory.Client
