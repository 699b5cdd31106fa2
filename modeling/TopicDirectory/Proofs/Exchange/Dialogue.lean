import TopicDirectory.Exchange.Script
import TopicDirectory.Proofs.Exchange.Caller
import TopicDirectory.Proofs.Link.Frames

/-!
# A caller and whoever is at the other end

One caller makes calls one after the other, and the other end of its connection does what it likes:
it writes octets of any kind, takes what was sent, and closes either direction, at any moment
(`Dialogue`).  A call may also break off while its request is being written or while the answer is
awaited, because its time runs out or the connection breaks.

As long as no call has failed, the answers are the frames that come, one for each call and none left
out, and the requests are what was sent (`Intact`).  After a call has failed every further call is
refused: nothing more is sent, nothing more is read (`Failed`).  So no answer is ever taken for that
to another request (`answered_in_order`).
-/

namespace TopicDirectory

open Exchange (Caller Playback)
open Link (Fault)
open TopicDirectory.Frame (Begins encode)

/-- A caller, its connection, whether a call of it waits for its answer, the requests of its calls, what
the calls that are over came to, what the other end has taken of what was sent, and what it has
written. -/
structure Dialogue where
  caller : Caller
  link : Link := {}
  pending : Bool := false
  asked : List (List UInt8) := []
  results : List (Except Fault (List UInt8)) := []
  taken : List UInt8 := []
  spoken : List UInt8 := []

namespace Dialogue

/-- What can be done next. -/
inductive Move
  /-- The caller makes a call. -/
  | call (request : List UInt8)
  /-- The caller makes a call that breaks off when so many octets of it have been written. -/
  | stall (request : List UInt8) (n : Nat) (fault : Fault)
  /-- The caller takes the answer, or its time has run out. -/
  | collect
  /-- The call breaks off when so many octets have been read. -/
  | giveUp (n : Nat) (fault : Fault)
  /-- The other end writes octets. -/
  | speak (octets : List UInt8)
  /-- The other end takes so many octets. -/
  | hear (n : Nat)
  /-- The other end says that it will write nothing more. -/
  | finish
  /-- The other end leaves. -/
  | leave

/-- What was sent to the other end. -/
def sent (t : Dialogue) : List UInt8 := t.taken ++ t.link.toHost.unread

/-- The caller makes a call, given what writing the request comes to. -/
def begin (t : Dialogue) (request : List UInt8) : Except Fault Unit × Caller × Link → Dialogue
  | (.ok (), caller, link) => { t with caller, link, pending := true, asked := t.asked ++ [request] }
  | (.error fault, caller, link) =>
    { t with caller, link, asked := t.asked ++ [request], results := t.results ++ [.error fault] }

/-- Breaks a request off that could have been written. -/
def breakOff (t : Dialogue) (request : List UInt8) (n : Nat) (fault : Fault) :
    Except Fault Unit × Caller × Link → Except Fault Unit × Caller × Link
  | (.ok (), caller, _) =>
    (.error fault, caller.fail,
      { t.link with toHost := t.link.toHost.write ((encode request).take n) })
  | failed => failed

/-- Makes a move, if it can be made: the caller makes one call at a time. -/
def step (t : Dialogue) : Move → Dialogue
  | .call request => if t.pending then t else t.begin request (t.caller.post t.link request)
  | .stall request n fault =>
    if t.pending then t
    else t.begin request (t.breakOff request n fault (t.caller.post t.link request))
  | .collect =>
    if t.pending then
      let (result, caller, link) := t.caller.collect t.link
      { t with caller, link, pending := false, results := t.results ++ [result] }
    else t
  | .giveUp n fault =>
    if t.pending then
      { t with
        caller := t.caller.fail
        link.toGuest.unread := t.link.toGuest.unread.drop n
        pending := false
        results := t.results ++ [.error fault] }
    else t
  | .speak octets =>
    { t with
      link.toGuest := t.link.toGuest.write octets
      spoken := if t.link.toGuest.closed then t.spoken else t.spoken ++ octets }
  | .hear n =>
    { t with
      link.toHost.unread := t.link.toHost.unread.drop n
      taken := t.taken ++ t.link.toHost.unread.take n }
  | .finish => { t with link.toGuest := t.link.toGuest.close }
  | .leave => { t with link := t.link.close }

/-- Makes moves one after the other. -/
def run (t : Dialogue) (ms : List Move) : Dialogue := ms.foldl step t

/-- A caller that has made no call yet. -/
def new (limit : Nat) : Dialogue := { caller := { limit } }

/-! ## How things stand -/

/-- No call has failed: the calls that are over got the given answers. -/
structure Intact (limit : Nat) (t : Dialogue) (replies : List (List UInt8)) : Prop where
  within : t.caller.limit = limit
  working : t.caller.broken = false
  results : t.results = replies.map .ok
  asked : t.asked.length = replies.length + if t.pending then 1 else 0
  fits : ∀ request ∈ t.asked, request.length ≤ limit
  /-- What was sent are the requests. -/
  sent : t.sent = t.asked.flatMap encode
  /-- What was read are the answers. -/
  spoken : t.spoken = replies.flatMap encode ++ t.link.toGuest.unread

/-- A call has failed: those before it got the given answers. -/
structure Failed (limit : Nat) (t : Dialogue) (replies : List (List UInt8)) : Prop where
  within : t.caller.limit = limit
  broken : t.caller.broken = true
  idle : t.pending = false
  /-- All calls after it were refused. -/
  results : ∃ fault n, t.results = replies.map .ok ++ .error fault :: List.replicate n (.error .closed)
  asked : t.asked.length = t.results.length
  /-- What was sent are the requests before it, and of its own request a part at most, and nothing if it
  is over the limit. -/
  sent : ∃ request part, t.asked[replies.length]? = some request ∧
    t.sent = (t.asked.take replies.length).flatMap encode ++ part ∧ part <+: encode request ∧
    (limit < request.length → part = [])

/-- How a dialogue stands; the answers are the first frames that the other end has written. -/
inductive Standing (limit : Nat) (t : Dialogue) (replies : List (List UInt8)) : Prop
  | intact (hbegins : Begins limit replies t.spoken) (h : Intact limit t replies)
  | failed (hbegins : Begins limit replies t.spoken) (h : Failed limit t replies)

theorem standing_new (limit : Nat) : Standing limit (new limit) [] :=
  .intact Frame.begins_nil ⟨rfl, rfl, rfl, rfl, nofun, rfl, rfl⟩

variable {limit : Nat} {t : Dialogue} {replies : List (List UInt8)}

/-! ## The other end -/

/-- Whether the caller has done nothing, and the other end has written some octets at most. -/
structure Heard (t t' : Dialogue) (more : List UInt8) : Prop where
  caller : t'.caller = t.caller
  pending : t'.pending = t.pending
  asked : t'.asked = t.asked
  results : t'.results = t.results
  sent : t'.sent = t.sent
  spoken : t'.spoken = t.spoken ++ more
  unread : t'.link.toGuest.unread = t.link.toGuest.unread ++ more

/-- What the other end does changes nothing for the caller. -/
theorem Standing.heard {t' : Dialogue} {more : List UInt8} (h : Standing limit t replies)
    (hheard : Heard t t' more) : Standing limit t' replies := by
  obtain ⟨hcaller, hpending, hasked, hresults, hsent, hspoken, hunread⟩ := hheard
  cases h with
  | intact hbegins h =>
    refine .intact (hspoken ▸ hbegins.mono more) ⟨?_, ?_, ?_, ?_, ?_, ?_, ?_⟩
    · rw [hcaller]
      exact h.within
    · rw [hcaller]
      exact h.working
    · rw [hresults]
      exact h.results
    · rw [hasked, hpending]
      exact h.asked
    · rw [hasked]
      exact h.fits
    · rw [hsent, hasked]
      exact h.sent
    · rw [hspoken, hunread, h.spoken, List.append_assoc]
  | failed hbegins h =>
    refine .failed (hspoken ▸ hbegins.mono more) ⟨?_, ?_, ?_, ?_, ?_, ?_⟩
    · rw [hcaller]
      exact h.within
    · rw [hcaller]
      exact h.broken
    · rw [hpending]
      exact h.idle
    · rw [hresults]
      exact h.results
    · rw [hasked, hresults]
      exact h.asked
    · rw [hsent, hasked]
      exact h.sent

theorem heard_speak (t : Dialogue) (octets : List UInt8) :
    Heard t (t.step (.speak octets)) (if t.link.toGuest.closed then [] else octets) where
  caller := rfl
  pending := rfl
  asked := rfl
  results := rfl
  sent := rfl
  spoken := by
    dsimp only [step]
    split <;> simp
  unread := by
    dsimp only [step]
    rw [Pipe.unread_write]
    split <;> simp

theorem heard_hear (t : Dialogue) (n : Nat) : Heard t (t.step (.hear n)) [] where
  caller := rfl
  pending := rfl
  asked := rfl
  results := rfl
  sent := by
    show t.taken ++ t.link.toHost.unread.take n ++ t.link.toHost.unread.drop n = _
    rw [List.append_assoc, List.take_append_drop]
    rfl
  spoken := (List.append_nil _).symm
  unread := (List.append_nil _).symm

theorem heard_finish (t : Dialogue) : Heard t (t.step .finish) [] :=
  ⟨rfl, rfl, rfl, rfl, rfl, (List.append_nil _).symm, (List.append_nil _).symm⟩

theorem heard_leave (t : Dialogue) : Heard t (t.step .leave) [] :=
  ⟨rfl, rfl, rfl, rfl, rfl, (List.append_nil _).symm, (List.append_nil _).symm⟩

/-! ## The caller -/

/-- After a failure a call is refused, and nothing else happens. -/
theorem Failed.call (h : Failed limit t replies) (request : List UInt8) :
    t.step (.call request)
      = { t with asked := t.asked ++ [request], results := t.results ++ [.error .closed] } := by
  have hidle : ¬ t.pending = true := by
    rw [h.idle]
    exact Bool.false_ne_true
  rw [step, if_neg hidle, Caller.post_of_broken h.broken]
  rfl

theorem Failed.stall (h : Failed limit t replies) (request : List UInt8) (n : Nat) (fault : Fault) :
    t.step (.stall request n fault)
      = { t with asked := t.asked ++ [request], results := t.results ++ [.error .closed] } := by
  have hidle : ¬ t.pending = true := by
    rw [h.idle]
    exact Bool.false_ne_true
  rw [step, if_neg hidle, Caller.post_of_broken h.broken]
  rfl

theorem Failed.refused (h : Failed limit t replies) (request : List UInt8) :
    Failed limit
      { t with asked := t.asked ++ [request], results := t.results ++ [.error .closed] } replies where
  within := h.within
  broken := h.broken
  idle := h.idle
  results := by
    obtain ⟨fault, n, hresults⟩ := h.results
    refine ⟨fault, n + 1, ?_⟩
    show t.results ++ [.error .closed] = _
    rw [hresults, List.replicate_succ', List.append_assoc]
    rfl
  asked := by
    show (t.asked ++ [request]).length = (t.results ++ [_]).length
    rw [List.length_append, List.length_append, h.asked]
    rfl
  sent := by
    obtain ⟨request', part, hrequest, hsent, hpart⟩ := h.sent
    obtain ⟨hlt, -⟩ := List.getElem?_eq_some_iff.1 hrequest
    refine ⟨request', part, ?_, ?_, hpart⟩
    · exact (List.getElem?_append_left hlt).trans hrequest
    · show t.sent = ((t.asked ++ [request]).take replies.length).flatMap encode ++ part
      rw [List.take_append_of_le_length (Nat.le_of_lt hlt)]
      exact hsent

/-- The requests of the calls that are over are those that got answers, as long as none failed. -/
theorem Intact.asked_of_idle (h : Intact limit t replies) (hidle : t.pending = false) :
    t.asked.length = replies.length := by
  have hasked := h.asked
  rw [hidle] at hasked
  exact hasked

/-- The first call that fails. -/
theorem Intact.fails (h : Intact limit t replies) (hidle : t.pending = false) {request : List UInt8}
    {fault : Fault} {part : List UInt8} {link : Link}
    (hlink : t.taken ++ link.toHost.unread = t.sent ++ part) (hpart : part <+: encode request)
    (hlimit : limit < request.length → part = []) :
    Failed limit
      { t with
        caller := t.caller.fail, link, asked := t.asked ++ [request],
        results := t.results ++ [.error fault] } replies where
  within := h.within
  broken := rfl
  idle := hidle
  results := ⟨fault, 0, by rw [h.results]; rfl⟩
  asked := by
    show (t.asked ++ [request]).length = (t.results ++ [_]).length
    rw [List.length_append, List.length_append, h.results, List.length_map, h.asked_of_idle hidle]
    rfl
  sent := by
    have hlength := h.asked_of_idle hidle
    refine ⟨request, part, ?_, ?_, hpart, hlimit⟩
    · show (t.asked ++ [request])[replies.length]? = some request
      rw [← hlength, List.getElem?_concat_length]
    · show t.taken ++ link.toHost.unread
        = ((t.asked ++ [request]).take replies.length).flatMap encode ++ part
      rw [hlink, h.sent, ← hlength, List.take_left]

/-- The request of the next call is sent. -/
theorem Intact.posts (h : Intact limit t replies) (hidle : t.pending = false)
    (hopen : t.link.toHost.closed = false) {request : List UInt8} (hlimit : request.length ≤ limit) :
    Intact limit
      { t with
        link := { t.link with toHost := t.link.toHost.write (encode request) }
        pending := true, asked := t.asked ++ [request] } replies where
  within := h.within
  working := h.working
  results := h.results
  asked := by
    show (t.asked ++ [request]).length = replies.length + 1
    rw [List.length_append, h.asked_of_idle hidle]
    rfl
  fits q hq := by
    rcases List.mem_append.1 hq with hq | hq
    · exact h.fits q hq
    · rw [List.mem_singleton.1 hq]
      exact hlimit
  sent := by
    show t.taken ++ (t.link.toHost.write (encode request)).unread = _
    rw [Pipe.unread_write, hopen, if_neg Bool.false_ne_true, ← List.append_assoc]
    show t.sent ++ _ = _
    rw [h.sent, List.flatMap_append, List.flatMap_singleton]
  spoken := h.spoken

/-- What writing a request comes to where no call has failed. -/
theorem Intact.post (h : Intact limit t replies) (request : List UInt8) :
    (∃ fault, t.caller.post t.link request = (.error fault, t.caller.fail, t.link)) ∨
      request.length ≤ limit ∧ t.link.toHost.closed = false ∧
        t.caller.post t.link request = (.ok (), t.caller,
          { t.link with toHost := t.link.toHost.write (encode request) }) := by
  rcases t.caller.post_cases t.link request with hfault | ⟨-, hlimit, hopen, hpost⟩
  · exact .inl hfault
  · exact .inr ⟨h.within ▸ hlimit, hopen, hpost⟩

/-- A call of which nothing is written fails. -/
theorem Intact.refused (h : Intact limit t replies) (hidle : t.pending = false)
    (request : List UInt8) (fault : Fault) :
    Failed limit (t.begin request (.error fault, t.caller.fail, t.link)) replies :=
  h.fails hidle (List.append_nil _).symm List.nil_prefix fun _ => rfl

theorem Standing.call (h : Standing limit t replies) (request : List UInt8) :
    Standing limit (t.step (.call request)) replies := by
  cases h with
  | failed hbegins h =>
    rw [h.call]
    exact .failed hbegins (h.refused request)
  | intact hbegins h =>
    cases hidle : t.pending with
    | true =>
      have hsame : t.step (.call request) = t := if_pos hidle
      rw [hsame]
      exact .intact hbegins h
    | false =>
      rw [step, hidle, if_neg Bool.false_ne_true]
      rcases h.post request with ⟨fault, hpost⟩ | ⟨hlimit, hopen, hpost⟩
      · rw [hpost]
        exact .failed hbegins (h.refused hidle request fault)
      · rw [hpost]
        exact .intact hbegins (h.posts hidle hopen hlimit)

theorem Standing.stall (h : Standing limit t replies) (request : List UInt8) (n : Nat)
    (fault : Fault) : Standing limit (t.step (.stall request n fault)) replies := by
  cases h with
  | failed hbegins h =>
    rw [h.stall]
    exact .failed hbegins (h.refused request)
  | intact hbegins h =>
    cases hidle : t.pending with
    | true =>
      have hsame : t.step (.stall request n fault) = t := if_pos hidle
      rw [hsame]
      exact .intact hbegins h
    | false =>
      rw [step, hidle, if_neg Bool.false_ne_true]
      rcases h.post request with ⟨fault', hpost⟩ | ⟨hlimit, hopen, hpost⟩
      · rw [hpost]
        exact .failed hbegins (h.refused hidle request fault')
      · rw [hpost]
        refine .failed hbegins (h.fails hidle ?_ (List.take_prefix n (encode request)) ?_)
        · show t.taken ++ (t.link.toHost.write ((encode request).take n)).unread = _
          rw [Pipe.unread_write, hopen, if_neg Bool.false_ne_true, ← List.append_assoc]
          rfl
        · intro hlarge
          omega

/-- A call that waits for its answer is the one after those that got theirs. -/
theorem Intact.pending (h : Intact limit t replies) (hpending : t.pending = true) :
    ∃ before request, t.asked = before ++ [request] ∧ before.length = replies.length := by
  have hasked := h.asked
  rw [hpending, if_pos rfl] at hasked
  have hne : t.asked ≠ [] := by
    intro hnil
    rw [hnil] at hasked
    cases hasked
  refine ⟨t.asked.dropLast, t.asked.getLast hne, (List.dropLast_concat_getLast hne).symm, ?_⟩
  rw [List.length_dropLast]
  omega

/-- A call that gets no answer fails. -/
theorem Intact.unanswered (h : Intact limit t replies) (hpending : t.pending = true)
    (fault : Fault) (toGuest : Pipe) :
    Failed limit
      { t with
        caller := t.caller.fail, link := { t.link with toGuest }, pending := false
        results := t.results ++ [.error fault] } replies where
  within := h.within
  broken := rfl
  idle := rfl
  results := ⟨fault, 0, by rw [h.results]; rfl⟩
  asked := by
    show t.asked.length = (t.results ++ [_]).length
    rw [h.asked, hpending, List.length_append, h.results, List.length_map]
    rfl
  sent := by
    obtain ⟨before, request, hasked, hlength⟩ := h.pending hpending
    refine ⟨request, encode request, ?_, ?_, List.prefix_rfl, ?_⟩
    · show t.asked[replies.length]? = some request
      rw [hasked, ← hlength, List.getElem?_concat_length]
    · show t.sent = (t.asked.take replies.length).flatMap encode ++ encode request
      rw [h.sent, hasked, ← hlength, List.take_left, List.flatMap_append, List.flatMap_singleton]
    · intro hlarge
      have hlimit := h.fits request (hasked ▸ List.mem_append_right _ List.mem_cons_self)
      omega

/-- A call that gets its answer gets the next frame that has come. -/
theorem Standing.answered (hbegins : Begins limit replies t.spoken) (h : Intact limit t replies)
    (hpending : t.pending = true) {reply : List UInt8} {rest : Pipe}
    (hexpect : Frame.expect limit t.link.toGuest = some (.ok reply, rest)) :
    Standing limit
      { t with
        link := { t.link with toGuest := rest }, pending := false
        results := t.results ++ [.ok reply] } (replies ++ [reply]) := by
  obtain ⟨hunread, -, hlimit, h32⟩ := Frame.read_eq_ok (Frame.read_of_expect hexpect)
  have hspoken := h.spoken
  rw [hunread] at hspoken
  refine .intact (hbegins.concat hlimit h32 hspoken) ⟨h.within, h.working, ?_, ?_, h.fits, h.sent, ?_⟩
  · show t.results ++ [_] = _
    rw [h.results, List.map_append]
    rfl
  · show t.asked.length = (replies ++ [reply]).length + 0
    rw [h.asked, hpending, List.length_append]
    rfl
  · show t.spoken = (replies ++ [reply]).flatMap encode ++ rest.unread
    rw [hspoken, List.flatMap_append, List.flatMap_singleton, List.append_assoc]

theorem Standing.collect (h : Standing limit t replies) :
    ∃ replies, Standing limit (t.step .collect) replies := by
  cases hpending : t.pending with
  | false =>
    have hsame : t.step .collect = t := by
      rw [step, hpending, if_neg Bool.false_ne_true]
    rw [hsame]
    exact ⟨replies, h⟩
  | true =>
    cases h with
    | failed hbegins h => exact absurd (h.idle.symm.trans hpending) nofun
    | intact hbegins h =>
      dsimp only [step]
      rw [hpending, if_pos rfl]
      rcases t.caller.collect_cases t.link with ⟨fault, rest, hcollect⟩ | ⟨reply, rest, hexpect, hcollect⟩
      · rw [hcollect]
        exact ⟨replies, .failed hbegins (h.unanswered hpending fault rest)⟩
      · rw [hcollect]
        rw [h.within] at hexpect
        exact ⟨_, Standing.answered hbegins h hpending hexpect⟩

theorem Standing.giveUp (h : Standing limit t replies) (n : Nat) (fault : Fault) :
    Standing limit (t.step (.giveUp n fault)) replies := by
  cases hpending : t.pending with
  | false =>
    have hsame : t.step (.giveUp n fault) = t := by
      rw [step, hpending, if_neg Bool.false_ne_true]
    rw [hsame]
    exact h
  | true =>
    cases h with
    | failed hbegins h => exact absurd (h.idle.symm.trans hpending) nofun
    | intact hbegins h =>
      rw [step, hpending, if_pos rfl]
      exact .failed hbegins (h.unanswered hpending fault _)

/-! ## All moves -/

theorem Standing.step (h : Standing limit t replies) (m : Move) :
    ∃ replies, Standing limit (t.step m) replies := by
  cases m with
  | call request => exact ⟨replies, h.call request⟩
  | stall request n fault => exact ⟨replies, h.stall request n fault⟩
  | collect => exact h.collect
  | giveUp n fault => exact ⟨replies, h.giveUp n fault⟩
  | speak octets => exact ⟨replies, h.heard (heard_speak t octets)⟩
  | hear n => exact ⟨replies, h.heard (heard_hear t n)⟩
  | finish => exact ⟨replies, h.heard (heard_finish t)⟩
  | leave => exact ⟨replies, h.heard (heard_leave t)⟩

theorem Standing.run (h : Standing limit t replies) (ms : List Move) :
    ∃ replies, Standing limit (t.run ms) replies := by
  induction ms generalizing t replies with
  | nil => exact ⟨replies, h⟩
  | cons m ms ih =>
    obtain ⟨replies', h'⟩ := h.step m
    exact ih h'

theorem standing_run (limit : Nat) (ms : List Move) :
    ∃ replies, Standing limit ((new limit).run ms) replies :=
  (standing_new limit).run ms

/-! ## Conversations with a playback -/

theorem step_call_of_idle (hidle : t.pending = false) (request : List UInt8) :
    t.step (.call request) = t.begin request (t.caller.post t.link request) := by
  rw [step, hidle, if_neg Bool.false_ne_true]

/-- A call that waits for its answer ends when the answer is taken. -/
theorem step_collect_of_pending (hpending : t.pending = true) :
    (t.step .collect).link = (t.caller.collect t.link).2.2 ∧
      (t.step .collect).caller = (t.caller.collect t.link).2.1 ∧
      (t.step .collect).pending = false ∧
      (t.step .collect).results = t.results ++ [(t.caller.collect t.link).1] := by
  rw [step, hpending, if_pos rfl]
  exact ⟨rfl, rfl, rfl, rfl⟩

theorem run_append (t : Dialogue) (ms ms' : List Move) : t.run (ms ++ ms') = (t.run ms).run ms' :=
  List.foldl_append

/-- What a playback does with a connection is what the other end of a dialogue can do. -/
theorem exists_run_react (t : Dialogue) (p : Playback) :
    ∃ ms, (t.run ms).link = (p.react t.link).2 ∧ (t.run ms).caller = t.caller ∧
      (t.run ms).pending = t.pending ∧ (t.run ms).results = t.results := by
  unfold Playback.react
  split
  · exact ⟨[], rfl, rfl, rfl, rfl⟩
  · split
    · exact ⟨[], rfl, rfl, rfl, rfl⟩
    · rename_i frame rest hread
      obtain ⟨hunread, hclosed, -⟩ := Frame.read_eq_ok hread
      have hrest : rest = { t.link.toHost with
          unread := t.link.toHost.unread.drop (encode frame).length } := by
        obtain ⟨unread, closed⟩ := rest
        obtain rfl : closed = t.link.toHost.closed := hclosed
        rw [hunread, List.drop_left]
      rw [hrest]
      dsimp only
      split
      · exact ⟨[.hear (encode frame).length, .leave], rfl, rfl, rfl, rfl⟩
      · rename_i octets _ _
        exact ⟨[.hear (encode frame).length, .speak octets], rfl, rfl, rfl, rfl⟩
      · exact ⟨[.hear (encode frame).length], rfl, rfl, rfl, rfl⟩
    · exact ⟨[.leave], rfl, rfl, rfl, rfl⟩

/-- The results of a conversation with a playback are those of moves in a dialogue. -/
theorem exists_run_converse (t : Dialogue) (hidle : t.pending = false) (p : Playback)
    (requests : List (List UInt8)) :
    ∃ ms, (t.run ms).results = t.results ++ (p.converse t.caller t.link requests).1 := by
  induction requests generalizing t p with
  | nil => exact ⟨[], (List.append_nil _).symm⟩
  | cons request requests ih =>
    have hcall := step_call_of_idle hidle request
    rw [Playback.converse]
    rcases hpost : t.caller.post t.link request with ⟨fault | ⟨⟩, caller, link⟩
    · -- the call fails, and the others follow
      rw [hpost] at hcall
      obtain ⟨ms, hms⟩ := ih (t.step (.call request)) (by rw [hcall]; exact hidle) p
      refine ⟨.call request :: ms, ?_⟩
      show ((t.step (.call request)).run ms).results = _
      rw [hms, hcall]
      dsimp only [begin]
      rw [List.append_assoc]
      rfl
    · -- the playback does what it does, and then the answer is taken
      rw [hpost] at hcall
      obtain ⟨react, hlink, hcaller, hpending, hresults⟩ := exists_run_react (t.step (.call request)) p
      have hwaiting : ((t.step (.call request)).run react).pending = true := by
        rw [hpending, hcall]
        rfl
      obtain ⟨hlink', hcaller', hidle', hresults'⟩ := step_collect_of_pending hwaiting
      obtain ⟨ms, hms⟩ := ih (((t.step (.call request)).run react).step .collect) hidle'
        (p.react link).1
      refine ⟨.call request :: (react ++ .collect :: ms), ?_⟩
      show ((t.step (.call request)).run (react ++ .collect :: ms)).results = _
      rw [run_append]
      show ((((t.step (.call request)).run react).step .collect).run ms).results = _
      rw [hms, hlink', hcaller', hresults', hlink, hcaller, hresults, hcall]
      dsimp only [begin]
      rw [List.append_assoc]
      rfl

/-! ## All dialogues -/

/-- Whether every further call is refused: it changes nothing but that it was made and has failed, and
there is no answer to be taken. -/
structure Refuses (t : Dialogue) : Prop where
  call (request : List UInt8) : t.step (.call request)
    = { t with asked := t.asked ++ [request], results := t.results ++ [.error .closed] }
  stall (request : List UInt8) (n : Nat) (fault : Fault) : t.step (.stall request n fault)
    = { t with asked := t.asked ++ [request], results := t.results ++ [.error .closed] }
  collect : t.step .collect = t
  giveUp (n : Nat) (fault : Fault) : t.step (.giveUp n fault) = t

theorem Failed.refuses (h : Failed limit t replies) : Refuses t where
  call := h.call
  stall := h.stall
  collect := by
    rw [step, h.idle, if_neg Bool.false_ne_true]
  giveUp n fault := by
    rw [step, h.idle, if_neg Bool.false_ne_true]

/-- **No answer is taken for that to another request.**  Whatever the other end does, at any moment, the
calls before the first one that fails got the first frames that it has written, one each and in order.
What was sent to it are the requests of these calls, and of the request of the call that failed a part
at most, nothing if it is over the limit.  Every call after that is refused, sends nothing and reads
nothing.  The conversations with a playback are dialogues of this kind. -/
theorem answered_in_order (limit : Nat) (ms : List Move) :
    (∃ replies, Begins limit replies ((new limit).run ms).spoken ∧
      (Intact limit ((new limit).run ms) replies ∨
        Failed limit ((new limit).run ms) replies ∧ Refuses ((new limit).run ms))) ∧
      ∀ (p : Playback) (requests : List (List UInt8)), ∃ ms',
        ((new limit).run ms').results = (p.converse { limit } {} requests).1 := by
  constructor
  · obtain ⟨replies, h⟩ := standing_run limit ms
    cases h with
    | intact hbegins h => exact ⟨replies, hbegins, .inl h⟩
    | failed hbegins h => exact ⟨replies, hbegins, .inr ⟨h, h.refuses⟩⟩
  · intro p requests
    exact exists_run_converse (new limit) rfl p requests

/-- An answer that comes late is not taken for that to the next request. -/
example : ((new 8).run [.call [1], .speak (encode [7]), .collect, .call [2], .collect,
    .speak (encode [8]), .call [3], .collect]).results
      = [.ok [7], .error .timeout, .error .closed] := rfl

end Dialogue

end TopicDirectory
