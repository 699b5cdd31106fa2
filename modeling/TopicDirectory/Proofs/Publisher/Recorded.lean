import TopicDirectory.Proofs.Publisher.Standing

/-!
# The record of a publisher and the record of the directory

Two copies of a publisher's record, of which the one is changed when the answer to an update comes
and the other when the directory deals with it, are the same unless the answer does not come
(`recorded_after`).  A publisher that has given up waiting goes back to the topics that it had, and
its record is then not always the one that the directory holds (`get?_ne_record?_timedOutMoves`).
-/

namespace TopicDirectory.Enrolment

open Client (Publisher Session)
open Service (Framed Holds Ledger)

variable {e : Enrolment} {i : Nat} {c : Service.Client} {done : List (List UInt8 × List UInt8)}

/-- The requests that were made on a connection and not dealt with. -/
def pending (e : Enrolment) (i : Nat) : List (List UInt8) :=
  (Service.asks e.service.log i).drop (Service.deals e.service.log i).length

theorem pending_eq {ahead : List (List UInt8)} (h : Ledger e.service i c done ahead) :
    e.pending i = ahead := by
  rw [pending, h.asked, h.dealt, ← List.length_map (f := Prod.fst), List.drop_left]

/-- **A publisher's record and the directory's.**  Whatever a publisher, the directory and the other
clients do, and in whatever order, while the publisher is registered and makes no call: if nobody
else has named its id, its record is the one that the directory holds as long as no exchange for
other topics has failed.  After one has failed it still is if the directory has not dealt with the
request, and otherwise the directory's record differs from it in having the topics of that update. -/
theorem recorded_after (c : Config.Server) (config : Config.Client) (bindHost name : String)
    (topics : List String) (ms : List Move) {i : Nat} {id : UInt32}
    (hstage : ((new c config bindHost name topics).run ms).stage = .registered i)
    (hid : ((new c config bindHost name topics).run ms).publisher.id? = some id)
    (hframed : Framed ((new c config bindHost name topics).run ms).service i)
    (halone : ((new c config bindHost name topics).run ms).service.Alone i id) :
    let e := (new c config bindHost name topics).run ms
    ∃ r, e.publisher.record? = some r ∧
      (e.failed? = none → e.pending i = [] ∧ e.service.registry.get? id = some r) ∧
      ∀ topics, e.failed? = some topics →
        (e.pending i ≠ [] → e.service.registry.get? id = some r) ∧
        (e.pending i = [] → e.service.registry.get? id = some { r with topics }) := by
  intro e
  have hsound : Sound e := (sound_new c config bindHost name topics).run ms
  obtain ⟨session, hp, rfl⟩ := Publisher.id?_eq_some.1 hid
  have hsession : ∀ {session' : Session}, e.publisher.stage = .registered session' →
      session = session' := fun hp' => Client.Stage.registered.inj (hp.symm.trans hp')
  cases hsound.at_stage hstage rfl hframed with
  | current hp' hfailed _ _ hledger hholds =>
    obtain rfl := hsession hp'
    refine ⟨_, Publisher.record?_eq hp, fun _ => ?_, fun topics htopics => ?_⟩
    · exact ⟨pending_eq hledger, hholds halone⟩
    · rw [hfailed] at htopics
      cases htopics
  | behind hp' hfailed _ hupdating =>
    obtain rfl := hsession hp'
    refine ⟨_, Publisher.record?_eq hp, fun hnone => ?_, fun topics htopics => ?_⟩
    · rw [hfailed] at hnone
      cases hnone
    · obtain rfl := Option.some.inj (hfailed.symm.trans htopics)
      cases hupdating with
      | ahead hledger hholds =>
        refine ⟨fun _ => hholds halone, fun hnone => ?_⟩
        rw [pending_eq hledger] at hnone
        cases hnone
      | made hledger _ hholds =>
        exact ⟨fun hsome => absurd (pending_eq hledger) hsome, fun _ => hholds halone⟩

/-- The host and the loop deal with the next request on a connection. -/
def served (i : Nat) : List Move :=
  [.others (.read i), .others (.enqueue i), .others .dispatch, .others .broadcast]

/-- Another client registers and declares topics for its own id while a publisher registers and
declares its topics. -/
def declaredMoves : List Move :=
  [.others (.join 300), .others (.accept 0),
    .others (.issue 0 (Wire.Command.register ⟨none, "tcp://h:2", "q", ["a"]⟩).encode)] ++ served 0 ++
  [.dial "tcp://h:1", .others (.write 0), .others (.collect 0), .others (.accept 1), .ask,
    .others (.issue 0 (Wire.Command.setTopics 0 ["z"]).encode)] ++ served 1 ++
  [.others (.write 1), .finish, .update ["b"]] ++ served 0 ++ served 1 ++ [.others (.write 1), .finish]

/-- The publisher declares topics once more, and the answer does not come in time. -/
def timedOutMoves : List Move := declaredMoves ++ [.update ["c"]] ++ served 1 ++ [.giveUp]

theorem recorded_after_declaredMoves :
    ((new {} {} "h" "p" ["a"]).run declaredMoves).service.registry.get? 1
        = some ⟨some 1, "tcp://h:1", "p", ["b"]⟩ ∧
      ((new {} {} "h" "p" ["a"]).run timedOutMoves).service.registry.get? 1
        = some ⟨some 1, "tcp://h:1", "p", ["c"]⟩ := by
  constructor
  · have hrun : let e := (new {} {} "h" "p" ["a"]).run declaredMoves
        e.stage = .registered 1 ∧ e.publisher.id? = some 1 ∧ Framed e.service 1 ∧
          e.service.Alone 1 1 ∧ e.failed? = none ∧
          e.publisher.record? = some ⟨some 1, "tcp://h:1", "p", ["b"]⟩ := by
      decide +kernel
    obtain ⟨hstage, hid, hframed, halone, hfailed, hrecord⟩ := hrun
    obtain ⟨r, hr, hsame, -⟩ :=
      recorded_after {} {} "h" "p" ["a"] declaredMoves hstage hid hframed halone
    obtain rfl := Option.some.inj (hr.symm.trans hrecord)
    exact (hsame hfailed).2
  · have hrun : let e := (new {} {} "h" "p" ["a"]).run timedOutMoves
        e.stage = .registered 1 ∧ e.publisher.id? = some 1 ∧ Framed e.service 1 ∧
          e.service.Alone 1 1 ∧ e.failed? = some ["c"] ∧ e.pending 1 = [] ∧
          e.publisher.record? = some ⟨some 1, "tcp://h:1", "p", ["b"]⟩ := by
      decide +kernel
    obtain ⟨hstage, hid, hframed, halone, hfailed, hpending, hrecord⟩ := hrun
    obtain ⟨r, hr, -, hbehind⟩ :=
      recorded_after {} {} "h" "p" ["a"] timedOutMoves hstage hid hframed halone
    obtain rfl := Option.some.inj (hr.symm.trans hrecord)
    exact (hbehind ["c"] hfailed).2 hpending

/-- The publisher is registered, nobody else has named its id, and the directory has dealt with all
its requests; all the same the two records differ. -/
theorem get?_ne_record?_timedOutMoves :
    let e := (new {} {} "h" "p" ["a"]).run timedOutMoves
    e.stage = .registered 1 ∧ e.publisher.id? = some 1 ∧ Framed e.service 1 ∧
      e.service.Alone 1 1 ∧ e.pending 1 = [] ∧
      e.service.registry.get? 1 ≠ e.publisher.record? := by
  decide +kernel

end TopicDirectory.Enrolment
