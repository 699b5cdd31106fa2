import TopicDirectory.Proofs.Feed.Messages

/-!
# What is received of a feed

A feed that forwards messages to one of its guests, and the guest that receives them one after the
other, whatever portions the octets come in (`Relay`).  Either of them has a limit of its own.  Until
the guest refuses a frame as too large, what it receives are the first of the messages that were
forwarded, and a guest that takes every frame that is written to it receives nothing else
(`received_in_order`).  After a refusal that is no longer so.
-/

namespace TopicDirectory

open Link (Fault)

/-- The limit of a feed, the messages it has forwarded to a guest, what is on the way to the guest and
whether more will follow, the limit of the guest, what has come, and the results of receiving. -/
structure Relay where
  limit : Nat
  reading : Nat
  forwarded : List Message := []
  wire : List UInt8 := []
  ended : Bool := false
  inlet : Pipe := {}
  results : List (Except Fault Message) := []

namespace Relay

/-- What can be done next. -/
inductive Move
  /-- The feed forwards a message, unless it has left. -/
  | forward (m : Message)
  /-- The feed leaves. -/
  | leave
  /-- So many octets come in at most, and after the last one of a feed that has left the end. -/
  | arrive (n : Nat)
  /-- The guest receives a message, or waits for it. -/
  | receive

/-- Forwards a message. -/
def forward (r : Relay) (m : Message) : Relay :=
  if r.ended then r
  else { r with
    forwarded := r.forwarded ++ [m]
    wire := r.wire ++ (Feed.forward r.limit m).1
    ended := !(Feed.forward r.limit m).2 }

/-- Lets octets come in. -/
def arrive (r : Relay) (n : Nat) : Relay :=
  { r with
    wire := r.wire.drop n
    inlet := ⟨r.inlet.unread ++ r.wire.take n, r.ended && (r.wire.drop n).isEmpty⟩ }

/-- Receives a message, if it has come. -/
def receive (r : Relay) : Relay :=
  match Subscription.receive r.reading r.inlet with
  | some (result, inlet) => { r with inlet, results := r.results ++ [result] }
  | none => r

/-- Makes a move. -/
def step (r : Relay) : Move → Relay
  | .forward m => r.forward m
  | .leave => { r with ended := true }
  | .arrive n => r.arrive n
  | .receive => r.receive

/-- Makes moves one after the other. -/
def run (r : Relay) (ms : List Move) : Relay := ms.foldl step r

/-- Nothing has been forwarded yet. -/
def new (limit reading : Nat) : Relay := { limit, reading }

/-- Whether a result is that a frame was too large. -/
def tooLarge : Except Fault Message → Bool
  | .error (.frameTooLarge _ _) => true
  | _ => false

/-- The messages among results. -/
def received (results : List (Except Fault Message)) : List Message :=
  results.filterMap Except.toOption

theorem received_concat_ok (results : List (Except Fault Message)) (m : Message) :
    received (results ++ [.ok m]) = received results ++ [m] :=
  List.filterMap_append

theorem received_concat_error (results : List (Except Fault Message)) (fault : Fault) :
    received (results ++ [.error fault]) = received results :=
  List.filterMap_append.trans (List.append_nil _)

/-- The results up to the first frame that was too large. -/
def beforeRefusal (results : List (Except Fault Message)) : List (Except Fault Message) :=
  results.takeWhile fun x => !tooLarge x

/-- Whether no frame was too large so far. -/
def Clear (results : List (Except Fault Message)) : Prop := ∀ x ∈ results, tooLarge x = false

theorem Clear.concat {results : List (Except Fault Message)} {x : Except Fault Message}
    (h : Clear results) (hx : tooLarge x = false) : Clear (results ++ [x]) := by
  intro y hy
  rcases List.mem_append.1 hy with hy | hy
  · exact h y hy
  · rw [List.mem_singleton.1 hy]
    exact hx

theorem beforeRefusal_append {results : List (Except Fault Message)} (h : Clear results)
    (more : List (Except Fault Message)) :
    beforeRefusal (results ++ more) = results ++ beforeRefusal more :=
  List.takeWhile_append_of_pos fun x hx => by rw [h x hx]; rfl

theorem beforeRefusal_eq_self {results : List (Except Fault Message)} (h : Clear results) :
    beforeRefusal results = results := by
  have happend := beforeRefusal_append h []
  rw [List.append_nil] at happend
  exact happend.trans (List.append_nil _)

/-! ## How the guest stands with what was forwarded -/

/-- The guest is to receive the messages `rest` next, and then perhaps a label alone. -/
structure Following (r : Relay) (rest : List Message) (tail : List (List UInt8)) : Prop where
  clear : Clear r.results
  first : received r.results ++ rest <+: r.forwarded
  uncut : r.ended = false → received r.results ++ rest = r.forwarded ∧ tail = []
  short : tail.length ≤ 1
  stream : Frame.Stream (rest.flatMap Message.bodies ++ tail) (r.inlet.unread ++ r.wire)
  written : ∀ b ∈ rest.flatMap Message.bodies ++ tail, ∃ m ∈ r.forwarded, b ∈ m.written r.limit
  closed : r.inlet.closed = true → r.ended = true ∧ r.wire = []

/-- Nothing more comes to the guest. -/
structure Over (r : Relay) : Prop where
  clear : Clear r.results
  first : received r.results <+: r.forwarded
  ended : r.ended = true
  wire : r.wire = []
  inlet : r.inlet = ⟨[], true⟩

/-- The guest has refused a frame that the feed has written. -/
structure Astray (r : Relay) : Prop where
  first : ∃ before x after, r.results = before ++ x :: after ∧ Clear before ∧
    tooLarge x = true ∧ received before <+: r.forwarded
  refused : ∃ m ∈ r.forwarded, ¬ m.Fits r.limit r.reading

/-- How a guest stands with what was forwarded. -/
inductive Standing (r : Relay) : Prop
  | following (rest : List Message) (tail : List (List UInt8)) (h : Following r rest tail)
  | ended (h : Over r)
  | astray (h : Astray r)

theorem standing_new (limit reading : Nat) : Standing (new limit reading) :=
  .following [] []
    { clear := nofun
      first := List.prefix_rfl
      uncut := fun _ => ⟨rfl, rfl⟩
      short := Nat.zero_le _
      stream := Frame.stream_nil
      written := nofun
      closed := nofun }

variable {r : Relay} {rest : List Message} {tail : List (List UInt8)}

/-! ## One move -/

/-- The feed writes a message, or a part of it, behind what is on the way already. -/
theorem Following.extend (h : Following r rest tail) (hopen : r.ended = false) {m : Message}
    (hsound : m.Sound r.limit) {more : List Message} {tail' : List (List UInt8)} {ended : Bool}
    (hmore : more <+: [m]) (hshort : tail'.length ≤ 1)
    (huncut : ended = false → more = [m] ∧ tail' = [])
    (hwritten : m.written r.limit = more.flatMap Message.bodies ++ tail') :
    Following { r with
      forwarded := r.forwarded ++ [m]
      wire := r.wire ++ (m.written r.limit).flatMap Frame.encode
      ended } (rest ++ more) tail' := by
  obtain ⟨hall, rfl⟩ := h.uncut hopen
  have hbodies : (rest ++ more).flatMap Message.bodies ++ tail'
      = (rest.flatMap Message.bodies ++ []) ++ m.written r.limit := by
    rw [hwritten]
    simp
  have hsplit : received r.results ++ (rest ++ more) = r.forwarded ++ more := by
    rw [← List.append_assoc, hall]
  constructor
  case clear => exact h.clear
  case short => exact hshort
  case first =>
    show received r.results ++ (rest ++ more) <+: r.forwarded ++ [m]
    rw [hsplit]
    exact (List.prefix_append_right_inj r.forwarded).2 hmore
  case uncut =>
    intro hended
    obtain ⟨rfl, htail⟩ := huncut hended
    exact ⟨hsplit, htail⟩
  case stream =>
    show Frame.Stream _ (r.inlet.unread ++ (r.wire ++ (m.written r.limit).flatMap Frame.encode))
    rw [hbodies, ← List.append_assoc r.inlet.unread]
    exact h.stream.append (Message.stream_written hsound)
  case written =>
    intro b hb
    rw [hbodies] at hb
    rcases List.mem_append.1 hb with hb | hb
    · obtain ⟨m', hm', hbody⟩ := h.written b hb
      exact ⟨m', List.mem_append_left _ hm', hbody⟩
    · exact ⟨m, List.mem_append_right _ List.mem_cons_self, hb⟩
  case closed =>
    intro hclosed
    exact absurd ((h.closed hclosed).1.symm.trans hopen) Bool.noConfusion

theorem Following.forward (h : Following r rest tail) (hopen : r.ended = false) {m : Message}
    (hsound : m.Sound r.limit) : ∃ rest tail, Following (r.forward m) rest tail := by
  obtain ⟨hcases, hoctets, hcomplete⟩ := Message.forward_written r.limit m
  rw [Relay.forward, hopen, if_neg Bool.false_ne_true, hoctets]
  cases hsecond : (Feed.forward r.limit m).2 with
  | true =>
    refine ⟨rest ++ [m], [], h.extend hopen hsound List.prefix_rfl (Nat.zero_le _)
      (fun _ => ⟨rfl, rfl⟩) ?_⟩
    rw [hcomplete hsecond]
    simp
  | false =>
    have huncut {more : List Message} {tail' : List (List UInt8)} (hended : (!false) = false) :
        more = [m] ∧ tail' = [] := absurd hended Bool.noConfusion
    rcases hcases with hwritten | hwritten | hwritten
    · refine ⟨rest ++ [m], [], h.extend hopen hsound List.prefix_rfl (Nat.zero_le _) huncut ?_⟩
      rw [hwritten]
      simp
    · exact ⟨rest ++ [], [Utf8.encode m.label],
        h.extend hopen hsound List.nil_prefix (Nat.le_refl _) huncut hwritten⟩
    · exact ⟨rest ++ [], [],
        h.extend hopen hsound List.nil_prefix (Nat.zero_le _) huncut hwritten⟩

theorem Following.arrive (h : Following r rest tail) (n : Nat) :
    Following (r.arrive n) rest tail where
  clear := h.clear
  first := h.first
  uncut := h.uncut
  short := h.short
  stream := by
    rw [Relay.arrive, List.append_assoc, List.take_append_drop]
    exact h.stream
  written := h.written
  closed := by
    intro hclosed
    obtain ⟨hended, hwire⟩ := Bool.and_eq_true_iff.1 hclosed
    exact ⟨hended, List.isEmpty_iff.1 hwire⟩

/-- A message that is received is the next one that was forwarded. -/
theorem Following.next (h : Following r rest tail) {m : Message} {inlet : Pipe}
    (hreceive : Subscription.receive r.reading r.inlet = some (.ok m, inlet)) :
    ∃ rest', Following { r with inlet, results := r.results ++ [.ok m] } rest' tail := by
  obtain ⟨label, before, hm, hbefore, hunread, hclosed⟩ := Subscription.receive_eq_ok hreceive
  have hstream := h.stream
  rw [hunread, List.append_assoc] at hstream
  obtain ⟨bodies, hbodies, hrest⟩ := hbefore.of_append hstream
  -- two frames are more than a label alone, so a message is still to come
  cases rest with
  | nil =>
    have hshort := h.short
    rw [show tail = [label, m.payload] ++ bodies from hbodies] at hshort
    simp at hshort
  | cons m' rest =>
    have hcons : Utf8.encode m'.label :: m'.payload :: (rest.flatMap Message.bodies ++ tail)
        = label :: m.payload :: bodies := hbodies
    obtain ⟨rfl, htwo⟩ := List.cons.inj hcons
    obtain ⟨hpayload, rfl⟩ := List.cons.inj htwo
    rw [Utf8.decodeLossy_encode] at hm
    obtain rfl : m' = m := by
      cases m
      cases m'
      simp_all
    have hsplit : received (r.results ++ [.ok m']) ++ rest
        = received r.results ++ (m' :: rest) := by
      rw [received_concat_ok, List.append_assoc]
      rfl
    refine ⟨rest, h.clear.concat rfl, ?_, fun hopen => ?_, h.short, hrest, fun b hb => ?_,
      fun hinlet => h.closed (hclosed.symm.trans hinlet)⟩
    · rw [hsplit]
      exact h.first
    · rw [hsplit]
      exact h.uncut hopen
    · refine h.written b ?_
      rw [List.flatMap_cons, List.append_assoc]
      exact List.mem_append_right _ hb

/-- All that is on the way was written by the feed, so where a frame is too large for the guest it is
one of a message that was forwarded. -/
theorem Following.refused (h : Following r rest tail)
    (hrefused : Frame.Refused r.reading r.inlet.unread) :
    ∃ m ∈ r.forwarded, ¬ m.Fits r.limit r.reading := by
  apply Decidable.byContradiction
  intro hnone
  refine h.stream.not_refused (fun b hb => ?_) (hrefused.mono r.wire)
  obtain ⟨m, hm, hbody⟩ := h.written b hb
  apply Decidable.byContradiction
  intro hlarge
  exact hnone ⟨m, hm, fun hfits => hlarge (hfits b hbody)⟩

theorem Following.receive (h : Following r rest tail) : Standing r.receive := by
  have hsome : received r.results <+: r.forwarded := (List.prefix_append _ _).trans h.first
  cases hreceive : Subscription.receive r.reading r.inlet with
  | none =>
    rw [Relay.receive, hreceive]
    exact .following rest tail h
  | some found =>
    obtain ⟨result, inlet⟩ := found
    rw [Relay.receive, hreceive]
    cases result with
    | ok m =>
      obtain ⟨rest', h'⟩ := h.next hreceive
      exact .following rest' tail h'
    | error fault =>
      rcases Subscription.receive_eq_error hreceive with
        ⟨⟨n, rfl⟩, hrefused⟩ | ⟨hfault, hclosed, rfl⟩
      · exact .astray ⟨⟨r.results, _, [], rfl, h.clear, rfl, hsome⟩, h.refused hrefused⟩
      · obtain ⟨hended, hwire⟩ := h.closed hclosed
        refine .ended ⟨h.clear.concat ?_, ?_, hended, hwire, rfl⟩
        · rcases hfault with rfl | rfl <;> rfl
        · rw [received_concat_error]
          exact hsome

theorem Over.receive (h : Over r) : Over r.receive := by
  have hreceive : Subscription.receive r.reading r.inlet = some (.error .closed, ⟨[], true⟩) := by
    rw [h.inlet]
    rfl
  rw [Relay.receive, hreceive]
  refine ⟨h.clear.concat rfl, ?_, h.ended, h.wire, rfl⟩
  rw [received_concat_error]
  exact h.first

theorem Astray.receive (h : Astray r) : Astray r.receive := by
  rw [Relay.receive]
  split
  · rename_i result inlet _
    obtain ⟨before, x, after, hresults, hbefore⟩ := h.first
    refine ⟨⟨before, x, after ++ [result], ?_, hbefore⟩, h.refused⟩
    rw [hresults, List.append_assoc]
    rfl
  · exact h

theorem Astray.forward (h : Astray r) (m : Message) : Astray (r.forward m) := by
  rw [Relay.forward]
  split
  · exact h
  · obtain ⟨before, x, after, hresults, hbefore, hx, hfront⟩ := h.first
    obtain ⟨m', hm', hfits⟩ := h.refused
    exact ⟨⟨before, x, after, hresults, hbefore, hx, hfront.trans (List.prefix_append _ _)⟩,
      m', List.mem_append_left _ hm', hfits⟩

/-- A move keeps the guest standing with what was forwarded as it should. -/
theorem Standing.step (h : Standing r) (mv : Move)
    (hsound : ∀ m ∈ (r.step mv).forwarded, m.Sound r.limit) : Standing (r.step mv) := by
  cases mv with
  | forward m =>
    cases hopen : r.ended with
    | true =>
      have hsame : r.step (.forward m) = r := if_pos hopen
      rw [hsame]
      exact h
    | false =>
      have hm : m ∈ (r.step (.forward m)).forwarded := by
        simp [Relay.step, Relay.forward, hopen]
      cases h with
      | following rest tail h =>
        obtain ⟨rest', tail', h'⟩ := h.forward hopen (hsound m hm)
        exact .following rest' tail' h'
      | ended h => exact absurd (h.ended.symm.trans hopen) nofun
      | astray h => exact .astray (h.forward m)
  | leave =>
    cases h with
    | following rest tail h =>
      exact .following rest tail { h with
        uncut := nofun
        closed := fun hclosed => ⟨rfl, (h.closed hclosed).2⟩ }
    | ended h => exact .ended { h with ended := rfl }
    | astray h => exact .astray ⟨h.first, h.refused⟩
  | arrive n =>
    cases h with
    | following rest tail h => exact .following rest tail (h.arrive n)
    | ended h =>
      refine .ended ⟨h.clear, h.first, h.ended, ?_, ?_⟩
      · simp [Relay.step, Relay.arrive, h.wire]
      · simp [Relay.step, Relay.arrive, h.wire, h.inlet, h.ended]
    | astray h => exact .astray ⟨h.first, h.refused⟩
  | receive =>
    cases h with
    | following rest tail h => exact h.receive
    | ended h => exact .ended h.receive
    | astray h => exact .astray h.receive

/-! ## Runs -/

theorem limits_step (r : Relay) (mv : Move) :
    (r.step mv).limit = r.limit ∧ (r.step mv).reading = r.reading := by
  cases mv with
  | forward m =>
    rw [Relay.step, Relay.forward]
    split <;> exact ⟨rfl, rfl⟩
  | receive =>
    rw [Relay.step, Relay.receive]
    split <;> exact ⟨rfl, rfl⟩
  | _ => exact ⟨rfl, rfl⟩

theorem limits_run (r : Relay) (ms : List Move) :
    (r.run ms).limit = r.limit ∧ (r.run ms).reading = r.reading := by
  induction ms generalizing r with
  | nil => exact ⟨rfl, rfl⟩
  | cons mv ms ih =>
    obtain ⟨hlimit, hreading⟩ := limits_step r mv
    obtain ⟨hlimit', hreading'⟩ := ih (r.step mv)
    exact ⟨hlimit'.trans hlimit, hreading'.trans hreading⟩

theorem forwarded_step (r : Relay) (mv : Move) : r.forwarded <+: (r.step mv).forwarded := by
  cases mv with
  | forward m =>
    rw [Relay.step, Relay.forward]
    split
    · exact List.prefix_rfl
    · exact List.prefix_append _ _
  | receive =>
    rw [Relay.step, Relay.receive]
    split <;> exact List.prefix_rfl
  | _ => exact List.prefix_rfl

theorem forwarded_run (r : Relay) (ms : List Move) : r.forwarded <+: (r.run ms).forwarded := by
  induction ms generalizing r with
  | nil => exact List.prefix_rfl
  | cons mv ms ih => exact (forwarded_step r mv).trans (ih (r.step mv))

theorem Standing.run {r : Relay} (h : Standing r) (ms : List Move)
    (hsound : ∀ m ∈ (r.run ms).forwarded, m.Sound r.limit) : Standing (r.run ms) := by
  induction ms generalizing r with
  | nil => exact h
  | cons mv ms ih =>
    refine ih (h.step mv fun m hm => ?_) fun m hm => ?_
    · exact hsound m ((forwarded_run (r.step mv) ms).subset hm)
    · rw [(limits_step r mv).1]
      exact hsound m hm

/-- Until a guest refuses a frame as too large, it receives the first of the messages that were
forwarded to it, each of them once and in their order; a guest that takes every frame that is written
to it never receives anything else. -/
theorem received_in_order (limit reading : Nat) (ms : List Move)
    (hsound : ∀ m ∈ ((new limit reading).run ms).forwarded, m.Sound limit) :
    received (beforeRefusal ((new limit reading).run ms).results)
        <+: ((new limit reading).run ms).forwarded ∧
      ((∀ m ∈ ((new limit reading).run ms).forwarded, m.Fits limit reading) →
        received ((new limit reading).run ms).results
          <+: ((new limit reading).run ms).forwarded) := by
  obtain ⟨hlimit, hreading⟩ := limits_run (new limit reading) ms
  cases (standing_new limit reading).run ms hsound with
  | following rest tail h =>
    have hfirst := (List.prefix_append _ _).trans h.first
    rw [beforeRefusal_eq_self h.clear]
    exact ⟨hfirst, fun _ => hfirst⟩
  | ended h =>
    rw [beforeRefusal_eq_self h.clear]
    exact ⟨h.first, fun _ => h.first⟩
  | astray h =>
    constructor
    · obtain ⟨before, x, after, hresults, hclear, hx, hfront⟩ := h.first
      have hstop : beforeRefusal (x :: after) = [] := by
        rw [beforeRefusal, List.takeWhile_cons, hx]
        rfl
      rw [hresults, beforeRefusal_append hclear, hstop, List.append_nil]
      exact hfront
    · intro hfits
      obtain ⟨m, hm, hnot⟩ := h.refused
      rw [hlimit, hreading] at hnot
      exact absurd (hfits m hm) hnot

/-- Two messages whose octets come in portions, and a third one of which only the label is written. -/
theorem received_in_order_portions :
    let ms : List Move := [.forward ⟨"t", [1]⟩, .arrive 3, .receive, .forward ⟨"t", [2, 3]⟩,
      .forward ⟨"t", [4, 5, 6]⟩, .arrive 9, .receive, .arrive 20, .receive, .receive]
    (∀ m ∈ ((new 2 2).run ms).forwarded, m.Sound 2) ∧
      (∀ m ∈ ((new 2 2).run ms).forwarded, m.Fits 2 2) ∧
      received ((new 2 2).run ms).results = [⟨"t", [1]⟩, ⟨"t", [2, 3]⟩] ∧
      received ((new 2 2).run ms).results <+: ((new 2 2).run ms).forwarded := by
  intro ms
  have hsound : ∀ m ∈ ((new 2 2).run ms).forwarded, m.Sound 2 := by decide +kernel
  have hfits : ∀ m ∈ ((new 2 2).run ms).forwarded, m.Fits 2 2 := by decide +kernel
  exact ⟨hsound, hfits, by decide +kernel, (received_in_order 2 2 ms hsound).2 hfits⟩

/-- A guest that has refused a message receives one that was never forwarded: what it takes next is
inside of the message that it refused. -/
theorem received_not_forwarded :
    ¬ ∀ m ∈ received ((new 64 8).run [.forward ⟨"t", Message.octets ⟨"t", [120]⟩⟩, .arrive 19,
        .receive, .receive]).results,
      m ∈ ((new 64 8).run [.forward ⟨"t", Message.octets ⟨"t", [120]⟩⟩, .arrive 19,
        .receive, .receive]).forwarded := by
  decide +kernel

end Relay

end TopicDirectory
