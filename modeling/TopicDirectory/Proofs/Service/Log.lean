import TopicDirectory.Directory.Dispatch
import TopicDirectory.Proofs.Basic

/-!
# What happens between a directory and its clients

A log of the calls that clients make of a directory: the moments at which a client makes a call, at
which the directory deals with the request, and at which the call comes to an end with a reply.  A
call is known by its `Ticket`, the client and the number of calls that the client made before.

A log is `Orderly` for a client if each of the client's events follows from those before it.  For
the clients of whom that is so, the log is that of one sequential run (`Linearizable`).
-/

namespace TopicDirectory

open Directory (dispatch)

/-! ## One run of the directory -/

/-- The registry after frames were dealt with one after the other. -/
def Registry.fed (r : Registry) (frames : List (List UInt8)) : Registry :=
  frames.foldl (fun r frame => (dispatch r frame).registry r) r

/-- The replies to frames that are dealt with one after the other. -/
def Registry.replies (r : Registry) : List (List UInt8) → List (List UInt8)
  | [] => []
  | frame :: frames =>
    (dispatch r frame).reply.encode :: ((dispatch r frame).registry r).replies frames

theorem Registry.fed_concat (r : Registry) (frames : List (List UInt8)) (frame : List UInt8) :
    r.fed (frames ++ [frame]) = (dispatch (r.fed frames) frame).registry (r.fed frames) := by
  simp only [fed, List.foldl_append, List.foldl_cons, List.foldl_nil]

theorem Registry.replies_append (r : Registry) (frames more : List (List UInt8)) :
    r.replies (frames ++ more) = r.replies frames ++ (r.fed frames).replies more := by
  induction frames generalizing r with
  | nil => rfl
  | cons frame frames ih =>
    rw [List.cons_append, replies, ih, replies, List.cons_append]
    rfl

theorem Registry.replies_concat (r : Registry) (frames : List (List UInt8)) (frame : List UInt8) :
    r.replies (frames ++ [frame])
      = r.replies frames ++ [(dispatch (r.fed frames) frame).reply.encode] := by
  rw [replies_append]
  rfl

theorem Registry.length_replies (r : Registry) (frames : List (List UInt8)) :
    (r.replies frames).length = frames.length := by
  induction frames generalizing r with
  | nil => rfl
  | cons frame frames ih => rw [replies, List.length_cons, ih, List.length_cons]

namespace Service

/-! ## Events -/

/-- One call of a client. -/
structure Ticket where
  client : Nat
  number : Nat
deriving DecidableEq

/-- What happens to a call. -/
inductive Event
  /-- The client makes the call. -/
  | issued (t : Ticket) (request : List UInt8)
  /-- The directory deals with the request. -/
  | dispatched (t : Ticket) (request reply : List UInt8)
  /-- The call succeeds. -/
  | returned (t : Ticket) (reply : List UInt8)
deriving DecidableEq

namespace Event

/-- The call that an event is about. -/
def ticket : Event → Ticket
  | issued t _ => t
  | dispatched t _ _ => t
  | returned t _ => t

/-- Whether in an event the directory deals with a call. -/
def deals (t : Ticket) : Event → Bool
  | dispatched u _ _ => u = t
  | _ => false

end Event

variable (log : List Event)

/-- The requests of a client's calls, in order. -/
def asks (i : Nat) : List (List UInt8) :=
  log.filterMap fun
    | .issued t request => if t.client = i then some request else none
    | _ => none

/-- The requests of a client that were dealt with, in order, with their replies. -/
def deals (i : Nat) : List (List UInt8 × List UInt8) :=
  log.filterMap fun
    | .dispatched t request reply => if t.client = i then some (request, reply) else none
    | _ => none

/-- The replies that a client's calls came to, in order. -/
def gains (i : Nat) : List (List UInt8) :=
  log.filterMap fun
    | .returned t reply => if t.client = i then some reply else none
    | _ => none

/-- The requests that were dealt with, in order. -/
def requests : List (List UInt8) :=
  log.filterMap fun
    | .dispatched _ request _ => some request
    | _ => none

/-- The replies to the requests that were dealt with, in order. -/
def replies : List (List UInt8) :=
  log.filterMap fun
    | .dispatched _ _ reply => some reply
    | _ => none

/-- The registry that the requests leave if they are dealt with one after the other. -/
def registryAfter : Registry := Registry.fed {} (requests log)

variable {log}

theorem asks_append (es : List Event) (i : Nat) : asks (log ++ es) i = asks log i ++ asks es i :=
  List.filterMap_append

theorem deals_append (es : List Event) (i : Nat) : deals (log ++ es) i = deals log i ++ deals es i :=
  List.filterMap_append

theorem gains_append (es : List Event) (i : Nat) : gains (log ++ es) i = gains log i ++ gains es i :=
  List.filterMap_append

@[simp] theorem asks_issued (t : Ticket) (q : List UInt8) : asks [.issued t q] t.client = [q] := by
  simp [asks]

@[simp] theorem asks_dispatched (t : Ticket) (q r : List UInt8) (i : Nat) :
    asks [.dispatched t q r] i = [] := rfl

@[simp] theorem asks_returned (t : Ticket) (r : List UInt8) (i : Nat) :
    asks [.returned t r] i = [] := rfl

@[simp] theorem deals_issued (t : Ticket) (q : List UInt8) (i : Nat) :
    deals [.issued t q] i = [] := rfl

@[simp] theorem deals_dispatched (t : Ticket) (q r : List UInt8) :
    deals [.dispatched t q r] t.client = [(q, r)] := by
  simp [deals]

@[simp] theorem deals_returned (t : Ticket) (r : List UInt8) (i : Nat) :
    deals [.returned t r] i = [] := rfl

@[simp] theorem gains_issued (t : Ticket) (q : List UInt8) (i : Nat) :
    gains [.issued t q] i = [] := rfl

@[simp] theorem gains_dispatched (t : Ticket) (q r : List UInt8) (i : Nat) :
    gains [.dispatched t q r] i = [] := rfl

@[simp] theorem gains_returned (t : Ticket) (r : List UInt8) :
    gains [.returned t r] t.client = [r] := by
  simp [gains]

/-- What happens to one client is not seen by the others. -/
theorem views_of_ne {e : Event} {i : Nat} (h : e.ticket.client ≠ i) :
    asks [e] i = [] ∧ deals [e] i = [] ∧ gains [e] i = [] := by
  cases e <;> simp_all [asks, deals, gains, Event.ticket]

/-! ## Orderly logs -/

/-- Whether an event follows from those before it. -/
def Justified (past : List Event) : Event → Prop
  | .issued t _ => t.number = (asks past t.client).length
  | .dispatched t request _ =>
    t.number = (deals past t.client).length ∧ (asks past t.client)[t.number]? = some request
  | .returned t reply =>
    t.number = (gains past t.client).length ∧ t.number + 1 = (asks past t.client).length ∧
      ∃ request, (deals past t.client)[t.number]? = some (request, reply)

/-- Whether each event of a client follows from those before it. -/
inductive Orderly (i : Nat) : List Event → Prop
  | nil : Orderly i []
  | concat {past : List Event} {e : Event} (h : Orderly i past)
      (he : e.ticket.client = i → Justified past e) : Orderly i (past ++ [e])

theorem Orderly.of_append {i : Nat} {past rest : List Event} (h : Orderly i (past ++ rest)) :
    Orderly i past := by
  generalize hlog : past ++ rest = log at h
  induction h generalizing rest with
  | nil =>
    obtain ⟨rfl, -⟩ := List.append_eq_nil_iff.1 hlog
    exact .nil
  | @concat older e hold he ih =>
    -- the last event is the last one of what is cut off, unless nothing is
    rcases List.eq_nil_or_concat rest with rfl | ⟨init, x, rfl⟩
    · rw [List.append_nil] at hlog
      rw [hlog]
      exact hold.concat he
    · rw [List.concat_eq_append, ← List.append_assoc] at hlog
      exact ih (List.append_inj' hlog rfl).1

theorem Orderly.justified {i : Nat} {past rest : List Event} {e : Event}
    (h : Orderly i (past ++ e :: rest)) (he : e.ticket.client = i) : Justified past e := by
  rw [← List.singleton_append, ← List.append_assoc] at h
  have hpast := h.of_append
  generalize hlog : past ++ [e] = log at hpast
  cases hpast with
  | nil => simp at hlog
  | concat hold hnew =>
    obtain ⟨rfl, heq⟩ := List.append_inj' hlog rfl
    obtain rfl : e = _ := List.singleton_inj.1 heq
    exact hnew he

/-- The calls that a client made are numbered in the order in which it made them. -/
theorem Orderly.issued_iff {i n : Nat} {request : List UInt8} (h : Orderly i log) :
    .issued ⟨i, n⟩ request ∈ log ↔ (asks log i)[n]? = some request := by
  induction h with
  | nil => simp [asks]
  | @concat past e _ he ih =>
    rw [List.mem_append, List.mem_singleton, asks_append, ih]
    by_cases hi : e.ticket.client = i
    · subst hi
      cases e with
      | issued t q =>
        have hn : t.number = (asks past t.client).length := he rfl
        show _ ↔ (asks past t.client ++ asks [.issued t q] t.client)[n]? = _
        rw [asks_issued, getElem?_concat_eq_some, ← hn]
        cases t
        simp [Event.ticket, eq_comm]
      | _ => simp
    · rw [(views_of_ne hi).1, List.append_nil]
      apply or_iff_left
      rintro rfl
      exact hi rfl

/-- The calls of a client that were dealt with are numbered in the order in which they were. -/
theorem Orderly.dispatched_iff {i n : Nat} {request reply : List UInt8} (h : Orderly i log) :
    .dispatched ⟨i, n⟩ request reply ∈ log ↔ (deals log i)[n]? = some (request, reply) := by
  induction h with
  | nil => simp [deals]
  | @concat past e _ he ih =>
    rw [List.mem_append, List.mem_singleton, deals_append, ih]
    by_cases hi : e.ticket.client = i
    · subst hi
      cases e with
      | dispatched t q r =>
        have hn : t.number = (deals past t.client).length := (he rfl).1
        show _ ↔ (deals past t.client ++ deals [.dispatched t q r] t.client)[n]? = _
        rw [deals_dispatched, getElem?_concat_eq_some, ← hn]
        cases t
        simp [Event.ticket, eq_comm]
      | _ => simp
    · rw [(views_of_ne hi).2.1, List.append_nil]
      apply or_iff_left
      rintro rfl
      exact hi rfl

/-- No call is dealt with a second time. -/
theorem Orderly.count_deals {i : Nat} (h : Orderly i log) (n : Nat) :
    log.countP (Event.deals ⟨i, n⟩) = if n < (deals log i).length then 1 else 0 := by
  induction h with
  | nil => rfl
  | @concat past e _ he ih =>
    rw [List.countP_append, List.countP_singleton, deals_append, ih]
    by_cases hi : e.ticket.client = i
    · subst hi
      cases e with
      | dispatched t q r =>
        obtain ⟨i, m⟩ := t
        have hm : m = (deals past i).length := (he rfl).1
        have hsame : Event.deals ⟨i, n⟩ (.dispatched ⟨i, m⟩ q r) = decide (m = n) := by
          simp [Event.deals]
        have hnew : deals [.dispatched ⟨i, m⟩ q r] i = [(q, r)] := deals_dispatched ⟨i, m⟩ q r
        simp only [Event.ticket, hsame, decide_eq_true_eq, hnew, List.length_append,
          List.length_singleton, ← hm]
        rcases Nat.lt_trichotomy n m with hlt | rfl | hgt
        · rw [if_pos hlt, if_neg (by omega), if_pos (by omega)]
        · rw [if_neg (by omega), if_pos rfl, if_pos (by omega)]
        · rw [if_neg (by omega), if_neg (by omega), if_neg (by omega)]
      | _ => simp [Event.deals]
    · have hother : Event.deals ⟨i, n⟩ e = false := by
        cases e with
        | dispatched t q r =>
          apply decide_eq_false
          rintro rfl
          exact hi rfl
        | _ => rfl
      rw [(views_of_ne hi).2.1, List.append_nil, hother]
      rfl

/-! ## Linearizable logs -/

/-- One event comes before another. -/
def Precedes (log : List Event) (e f : Event) : Prop := [e, f].Sublist log

theorem precedes_iff {e f : Event} :
    Precedes log e f ↔ ∃ past rest, log = past ++ f :: rest ∧ e ∈ past := by
  constructor
  · intro h
    obtain ⟨as, bs, rfl, ha, hb⟩ := List.cons_sublist_iff.1 h
    obtain ⟨bs, cs, rfl⟩ := List.append_of_mem (List.singleton_sublist.1 hb)
    exact ⟨as ++ bs, cs, by simp, List.mem_append_left _ ha⟩
  · rintro ⟨past, rest, rfl, he⟩
    have hpast : [e].Sublist past := List.singleton_sublist.2 he
    have hrest : [f].Sublist (f :: rest) := List.singleton_sublist.2 List.mem_cons_self
    exact hpast.append hrest

/-- A log of calls that might as well have been made one after the other, as far as the calls of
some clients go. -/
structure Linearizable (clients : Nat → Prop) (log : List Event) : Prop where
  /-- No call is dealt with a second time. -/
  once : ∀ t, clients t.client → log.countP (Event.deals t) ≤ 1
  /-- What is dealt with is the request of a call that was made. -/
  asked : ∀ t request reply, clients t.client → .dispatched t request reply ∈ log →
    Precedes log (.issued t request) (.dispatched t request reply)
  /-- What a call comes to is the reply to its own request. -/
  answered : ∀ t reply, clients t.client → .returned t reply ∈ log →
    ∃ request, Precedes log (.dispatched t request reply) (.returned t reply)
  /-- The replies, to whichever client, are those of one run of the directory. -/
  sequential : replies log = Registry.replies {} (requests log)
  /-- The calls of one client are dealt with in the order in which it made them. -/
  ownOrder : ∀ i m n request reply, clients i → m < n → .dispatched ⟨i, n⟩ request reply ∈ log →
    ∃ request' reply',
      Precedes log (.dispatched ⟨i, m⟩ request' reply') (.dispatched ⟨i, n⟩ request reply)
  /-- A call that came to its end before another was made was dealt with before it. -/
  realTime : ∀ t u result request request' reply, clients t.client → clients u.client →
    Precedes log (.returned t result) (.issued u request) →
    .dispatched u request' reply ∈ log →
    ∃ asked, Precedes log (.dispatched t asked result) (.dispatched u request' reply)

theorem Orderly.precedes_dispatched {t : Ticket} {request reply : List UInt8}
    (h : Orderly t.client log) (hmem : .dispatched t request reply ∈ log) :
    Precedes log (.issued t request) (.dispatched t request reply) := by
  obtain ⟨past, rest, rfl⟩ := List.append_of_mem hmem
  obtain ⟨-, hask⟩ := h.justified rfl
  exact precedes_iff.2 ⟨past, rest, rfl, h.of_append.issued_iff.2 hask⟩

theorem Orderly.precedes_returned {t : Ticket} {reply : List UInt8} (h : Orderly t.client log)
    (hmem : .returned t reply ∈ log) :
    ∃ request, Precedes log (.dispatched t request reply) (.returned t reply) := by
  obtain ⟨past, rest, rfl⟩ := List.append_of_mem hmem
  obtain ⟨-, -, request, hdeal⟩ := h.justified rfl
  exact ⟨request, precedes_iff.2 ⟨past, rest, rfl, h.of_append.dispatched_iff.2 hdeal⟩⟩

theorem Orderly.precedes_of_lt {i m n : Nat} {request reply : List UInt8} (h : Orderly i log)
    (hmn : m < n) (hmem : .dispatched ⟨i, n⟩ request reply ∈ log) :
    ∃ request' reply',
      Precedes log (.dispatched ⟨i, m⟩ request' reply') (.dispatched ⟨i, n⟩ request reply) := by
  obtain ⟨past, rest, rfl⟩ := List.append_of_mem hmem
  have hn : n = (deals past i).length := (h.justified rfl).1
  have hm : m < (deals past i).length := hn ▸ hmn
  exact ⟨_, _, precedes_iff.2 ⟨past, rest, rfl,
    h.of_append.dispatched_iff.2 (List.getElem?_eq_getElem hm)⟩⟩

/-- A call is not dealt with before it is made. -/
theorem Orderly.not_dispatched {past rest : List Event} {u : Ticket}
    {request request' reply : List UInt8} (h : Orderly u.client (past ++ .issued u request :: rest)) :
    .dispatched u request' reply ∉ past := by
  intro hmem
  have hnumber : u.number = (asks past u.client).length := h.justified rfl
  have hasked := h.of_append.precedes_dispatched hmem
  have hissued : .issued u request' ∈ past := hasked.subset List.mem_cons_self
  have hget := h.of_append.issued_iff.1 hissued
  rw [List.getElem?_eq_none (Nat.le_of_eq hnumber.symm)] at hget
  cases hget

theorem Orderly.precedes_of_precedes {t u : Ticket} {result request request' reply : List UInt8}
    (ht : Orderly t.client log) (hu : Orderly u.client log)
    (horder : Precedes log (.returned t result) (.issued u request))
    (hmem : .dispatched u request' reply ∈ log) :
    ∃ asked, Precedes log (.dispatched t asked result) (.dispatched u request' reply) := by
  obtain ⟨past, rest, rfl, hreturned⟩ := precedes_iff.1 horder
  obtain ⟨asked, hdeal⟩ := ht.of_append.precedes_returned hreturned
  have hbefore : .dispatched t asked result ∈ past := hdeal.subset List.mem_cons_self
  have hafter : .dispatched u request' reply ∈ rest := by
    rcases List.mem_append.1 hmem with hpast | hrest
    · exact absurd hpast hu.not_dispatched
    · rcases List.mem_cons.1 hrest with heq | hrest
      · cases heq
      · exact hrest
  obtain ⟨as, bs, rfl⟩ := List.append_of_mem hafter
  exact ⟨asked, precedes_iff.2 ⟨past ++ .issued u request :: as, bs, by simp,
    List.mem_append_left _ hbefore⟩⟩

/-- A log with the replies of one run is linearizable for the clients for which it is orderly. -/
theorem Linearizable.of_orderly {clients : Nat → Prop} (h : ∀ i, clients i → Orderly i log)
    (hreplies : replies log = Registry.replies {} (requests log)) : Linearizable clients log where
  once t ht := by
    rw [(h t.client ht).count_deals t.number]
    split <;> omega
  asked t _ _ ht hmem := (h t.client ht).precedes_dispatched hmem
  answered t _ ht hmem := (h t.client ht).precedes_returned hmem
  sequential := hreplies
  ownOrder i _ _ _ _ hi hmn hmem := (h i hi).precedes_of_lt hmn hmem
  realTime t u _ _ _ _ ht hu horder hmem :=
    (h t.client ht).precedes_of_precedes (h u.client hu) horder hmem

end Service

end TopicDirectory
