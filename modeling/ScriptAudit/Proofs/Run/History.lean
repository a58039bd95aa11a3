import ScriptAudit.Proofs.Fault
import ScriptAudit.Run.Session

/-!
# Histories of sessions

What happens to a session is a row of events: its surroundings change, or it answers a request that
has to do with the runner. Where the current runner comes from can be told from the events alone.

* `Event` and `Session.respond` — one event, its answer and what the session is afterwards.
* `Event.asked?` — the runner that a replacement asks for.
* `Session.found?` — the runner that is found where none is current.
* `Session.respond_snd` — what one event leaves behind.
* `Session.after_eq` — what a history leaves behind: the runner asked for last, else the one there
  was at the start, else the first one that was found when somebody looked for it.
* `Session.recalls_history` — a session that starts without a runner, and the tests in it.
-/

namespace ScriptAudit

/-! ## Events -/

/-- What happens to a session. -/
inductive Event
  /-- The files and the environment become others. -/
  | change (files : Files) (environment : Bindings)
  /-- Somebody asks for the current runner. -/
  | runner
  /-- Somebody asks for the status of the runner. -/
  | status
  /-- A test is to be executed. -/
  | test (t : TestRun)
  /-- The runner is to be replaced. -/
  | configure (path url user password : Text) (timeout : Option Number)

/-- What is answered to an event. -/
inductive Reply
  /-- The surroundings have changed. -/
  | changed
  /-- The current runner. -/
  | runner (r : Option Runner)
  /-- The status of the runner. -/
  | status (s : RunnerStatus)
  /-- What came of a test; nothing where there is no runner. -/
  | test (r : Option TestReview)
  /-- What has to be mended before the new runner can execute tests. -/
  | configured (problems : List Text)

namespace Event

/-- The request that an event makes. -/
def request : Event → Request Reply
  | change files environment => do
    modify fun s => { s with files, environment }
    return .changed
  | runner => return .runner (← Session.runner?)
  | status => return .status (← RunnerStatus.ofSession)
  | test t => return .test (← Session.execute t)
  | configure path url user password timeout =>
    return .configured (← Session.configure (.ofParts path url user password timeout))

/-- How many seconds a test may take: what is given, where zero says nothing, else 600. -/
def secondsOf : Option Number → Number
  | some n => if n.isZero then .int 600 else n
  | none => .int 600

/-- The runner that an event asks for. -/
def asked? : Event → Option Runner
  | configure path url user password timeout =>
    some { path, url, user, password, timeout := secondsOf timeout }
  | _ => none

/-- Whether an event needs the current runner. -/
def looks : Event → Bool
  | runner | status | test _ => true
  | change _ _ | configure _ _ _ _ _ => false

/-- The session with what an event changes around it. -/
def surround (s : Session) : Event → Session
  | change files environment => { s with files, environment }
  | _ => s

end Event

theorem Runner.ofParts_eq (path url user password : Text) (timeout : Option Number) :
    ofParts path url user password timeout =
      { path, url, user, password, timeout := Event.secondsOf timeout } := by
  cases timeout with
  | none => rfl
  | some n =>
    rw [ofParts, Event.secondsOf, Option.filter_some]
    cases n.isZero <;> rfl

namespace Session

variable {s : Session}

/-- The answer to an event, and the session afterwards. -/
def respond (s : Session) (e : Event) : Except Fault Reply × Session := e.request.run.run s

/-- The session after some events. -/
def after (s : Session) (es : List Event) : Session := es.foldl (fun s e => (s.respond e).2) s

/-- The session with what some events change around it. -/
def surrounded (s : Session) (es : List Event) : Session := es.foldl Event.surround s

/-- The runner that is configured at present, if an interpreter and a server are named. -/
def found? (s : Session) : Option Runner := s.configured.toOption.filter Runner.isComplete

/-- The runner that the last replacement asks for. -/
def lastAsked? (es : List Event) : Option Runner := es.reverse.findSome? Event.asked?

/-- The runner that was found when somebody looked for one and found it for the first time. -/
def firstFound? (s : Session) : List Event → Option Runner
  | [] => none
  | e :: es => (if e.looks then s.found? else none).or (firstFound? (e.surround s) es)

/-- The runner that a history accounts for: the one asked for last, else the first one found. -/
def origin? (s : Session) (es : List Event) : Option Runner :=
  (lastAsked? es).or (s.firstFound? es)

/-! ## Requests -/

section Requests

variable {α β : Type}

theorem run_bind (x : Request α) (f : α → Request β) (s : Session) :
    (x >>= f).run.run s =
      match x.run.run s with
      | (.ok a, s') => (f a).run.run s'
      | (.error e, s') => (.error e, s') := by
  rw [ExceptT.run_bind, StateT.run_bind]
  rcases x.run.run s with ⟨e | a, s'⟩ <;> rfl

/-- A request whose answer is put into another form. -/
theorem run_bind_pure (x : Request α) (f : α → β) (s : Session) :
    (x >>= fun a => pure (f a)).run.run s = ((x.run.run s).1.map f, (x.run.run s).2) := by
  rw [run_bind]
  rcases x.run.run s with ⟨e | a, s'⟩ <;> rfl

theorem run_ask (f : Session → Except Fault α) (s : Session) : (ask f).run.run s = (f s, s) := rfl

/-- The current runner, or the one that becomes it when somebody looks for it. -/
def current (s : Session) : Except Fault (Option Runner) :=
  match s.runner with
  | some r => .ok (some r)
  | none => s.configured.map fun r => (some r).filter Runner.isComplete

/-- The session after somebody has looked for the runner. -/
def settled (s : Session) : Session := { s with runner := s.runner.or s.found? }

theorem run_runner? (s : Session) : runner?.run.run s = (s.current, s.settled) := by
  obtain ⟨files, environment, project, runner⟩ := s
  cases runner with
  | some r => rfl
  | none =>
    change (ask configured >>= fun r => if r.isComplete = true then _ else _).run.run _ = _
    rw [run_bind, run_ask, current, settled, found?]
    cases configured _ with
    | error f => rfl
    | ok r =>
      change (if r.isComplete = true then _ else _ : Request (Option Runner)).run.run _ =
        (Except.ok ((some r).filter Runner.isComplete),
          { files, environment, project, runner := (some r).filter Runner.isComplete })
      rw [Option.filter_some]
      cases r.isComplete <;> rfl

/-- A request that looks for the runner and then only at the session. -/
theorem run_runner?_bind {f : Option Runner → Request α} {g : Option Runner → Except Fault α}
    {s : Session} (hf : ∀ r?, (f r?).run.run s.settled = (g r?, s.settled)) :
    (runner? >>= f).run.run s = (s.current >>= g, s.settled) := by
  rw [run_bind, run_runner?]
  cases s.current with
  | error => rfl
  | ok r? => exact hf r?

end Requests

/-! ## One event -/

/-- The status of the runner where the current one is known. -/
def status (s : Session) : Option Runner → Except Fault RunnerStatus
  | some r => (r.problems s.files).map (RunnerStatus.mk r)
  | none => s.configured.map (RunnerStatus.mk · RunnerStatus.noRunner)

/-- What comes of a test where the current runner is known. -/
def review (s : Session) (t : TestRun) : Option Runner → Except Fault (Option TestReview)
  | some r => (TestReview.ofRun s.files r t).map some
  | none => .ok none

/-- What is answered to an event where the current runner is known. -/
def reply (s : Session) (r? : Option Runner) : Event → Except Fault Reply
  | .change _ _ => .ok .changed
  | .runner => .ok (.runner r?)
  | .status => (s.status r?).map .status
  | .test t => (s.review t r?).map .test
  | .configure path url user password timeout =>
    ((Runner.ofParts path url user password timeout).problems s.files).map .configured

theorem run_ofSession (s : Session) : RunnerStatus.ofSession.run.run s =
    (s.current >>= s.settled.status, s.settled) := by
  refine run_runner?_bind fun r? => ?_
  cases r? <;> exact run_bind_pure (ask _) _ s.settled

theorem run_execute (t : TestRun) (s : Session) : (execute t).run.run s =
    (s.current >>= s.settled.review t, s.settled) := by
  refine run_runner?_bind fun r? => ?_
  cases r? with
  | none => rfl
  | some r => exact run_bind_pure (ask _) _ s.settled

/-- Whoever needs the runner is answered with the current one, which stays the current one. -/
theorem respond_of_looks {e : Event} (h : e.looks = true) (s : Session) :
    s.respond e = (s.current >>= fun r? => s.reply r? e, s.settled) := by
  cases e with
  | change => cases h
  | configure => cases h
  | runner => exact run_runner?_bind fun _ => rfl
  | status =>
    refine (run_bind_pure RunnerStatus.ofSession _ s).trans ?_
    rw [run_ofSession]
    cases s.current <;> rfl
  | test t =>
    refine (run_bind_pure (execute t) _ s).trans ?_
    rw [run_execute]
    cases s.current <;> rfl

theorem respond_configure (s : Session) (path url user password : Text) (timeout : Option Number) :
    s.respond (.configure path url user password timeout) =
      (s.reply s.runner (.configure path url user password timeout),
        { s with runner := some (.ofParts path url user password timeout) }) :=
  run_bind_pure (configure _) _ s

/-- **What an event leaves behind**: the runner that it asks for, else the one that there was, else
the one that is found in case somebody looks for it. -/
theorem respond_snd (s : Session) (e : Event) :
    (s.respond e).2 = { e.surround s with
      runner := e.asked?.or (s.runner.or (if e.looks then s.found? else none)) } := by
  cases e with
  | change =>
    obtain ⟨files, environment, project, _ | r⟩ := s <;> rfl
  | configure path url user password timeout =>
    rw [respond_configure, Runner.ofParts_eq]
    rfl
  | runner => rw [respond_of_looks rfl]; rfl
  | status => rw [respond_of_looks rfl]; rfl
  | test t => rw [respond_of_looks rfl]; rfl

/-! ## Histories -/

theorem surround_with_runner (s : Session) (r? : Option Runner) (e : Event) :
    e.surround { s with runner := r? } = { e.surround s with runner := r? } := by
  cases e <;> rfl

theorem surrounded_with_runner (s : Session) (r? : Option Runner) (es : List Event) :
    surrounded { s with runner := r? } es = { surrounded s es with runner := r? } := by
  induction es generalizing s with
  | nil => rfl
  | cons e es ih => exact (congrArg (surrounded · es) (surround_with_runner s r? e)).trans (ih _)

/-- Which runner is the first one to be found does not depend on the current one. -/
theorem firstFound?_with_runner (s : Session) (r? : Option Runner) (es : List Event) :
    firstFound? { s with runner := r? } es = firstFound? s es := by
  induction es generalizing s with
  | nil => rfl
  | cons e es ih =>
    rw [firstFound?, firstFound?, surround_with_runner, ih]
    rfl

theorem lastAsked?_cons (e : Event) (es : List Event) :
    lastAsked? (e :: es) = (lastAsked? es).or e.asked? := by
  rw [lastAsked?, List.reverse_cons, List.findSome?_append, List.findSome?_singleton]
  rfl

/-- **What a history leaves behind**: the runner asked for last, else the one there was at the
start, else the first one that was found. -/
theorem after_eq (s : Session) (es : List Event) :
    s.after es = { s.surrounded es with
      runner := (lastAsked? es).or (s.runner.or (s.firstFound? es)) } := by
  induction es generalizing s with
  | nil => obtain ⟨files, environment, project, _ | r⟩ := s <;> rfl
  | cons e es ih =>
    have hstep : s.after (e :: es) = (s.respond e).2.after es := rfl
    rw [hstep, ih, respond_snd, firstFound?_with_runner, surrounded_with_runner, lastAsked?_cons,
      firstFound?]
    simp only [Option.or_assoc]
    rfl

theorem after_concat (s : Session) (es : List Event) (e : Event) :
    s.after (es ++ [e]) = ((s.after es).respond e).2 :=
  List.foldl_append

/-- The current runner is the one that there is after somebody has looked for it. -/
theorem current_eq (s : Session) : s.current =
    match s.settled.runner with
    | some r => .ok (some r)
    | none => s.configured.map fun _ => none := by
  obtain ⟨files, environment, project, _ | r⟩ := s
  · rw [current, settled, found?]
    cases configured _ with
    | error => rfl
    | ok r =>
      simp only [Except.map, Except.toOption, Option.none_or, Option.filter_some]
      cases r.isComplete <;> rfl
  · rfl

theorem reply_after (s : Session) (es : List Event) (r? : Option Runner) (e : Event) :
    (s.after es).reply r? e = (s.surrounded es).reply r? e := by
  rw [after_eq]
  cases e <;> cases r? <;> rfl

/-- Where the current runner of a session that starts without one comes from. -/
structure Recalls (s : Session) (es : List Event) : Prop where
  /-- It is the one that was asked for last, else the first one that was found. -/
  runner_eq : (s.after es).runner = s.origin? es
  /-- With that one, and nothing else that lasts, every event is answered that needs a runner. -/
  answer_of_some : ∀ e r, e.looks = true → s.origin? (es ++ [e]) = some r →
    ((s.after es).respond e).1 = (s.surrounded es).reply (some r) e
  /-- Where there is none, no test is executed. That this is so can be answered only where it can
  be read what is configured. -/
  test_of_none : ∀ t, s.origin? (es ++ [.test t]) = none →
    ((s.after es).respond (.test t)).1 = (s.surrounded es).configured.map fun _ => .test none

/-- **The runner of a session is the one that its history says**, whatever happens in it. -/
theorem recalls_history (h : s.runner = none) (es : List Event) : s.Recalls es := by
  have horigin : ∀ es, (s.after es).runner = s.origin? es := by
    intro es
    rw [after_eq, h, Option.none_or, origin?]
  -- looking for the runner leaves the same one behind as the event that needs it
  have hsettled : ∀ e, e.looks = true → (s.after es).settled.runner = s.origin? (es ++ [e]) := by
    intro e he
    rw [← horigin, after_concat, respond_of_looks he]
  refine ⟨horigin es, ?_, ?_⟩
  · intro e r he hr
    rw [respond_of_looks he, current_eq, hsettled e he, hr]
    exact reply_after s es (some r) e
  · intro t hnone
    have htest : (Event.test t).looks = true := rfl
    rw [respond_of_looks htest, current_eq, hsettled _ htest, hnone, after_eq]
    change (configured (s.surrounded es)).map _ >>= _ = _
    cases configured _ <;> rfl

/-- A session in whose environment an interpreter and a server are named. -/
def equipped : Session where
  files := {}
  environment := [("SAR_SCRIPT_A_REST_PATH".toList, "/sar".toList),
    ("SAR_SERVER_URL".toList, "http://a".toList)]
  project := "/project".toList

/-- The environment is forgotten, a test replaces the address, and the runner is replaced. -/
def visits : List Event :=
  [.status, .change {} [], .test { file := "a.mkd".toList, url := some "http://b".toList },
    .configure "/other".toList "http://c".toList "u".toList "p".toList (some (.int 0)), .status]

/-- The runner of a session with such visits, before and after it is replaced. -/
theorem recalls_visits : equipped.runner = none ∧ equipped.Recalls visits ∧
    (equipped.after (visits.take 3)).runner.map (fun r => (r.path, r.url)) =
      some ("/sar".toList, "http://a".toList) ∧
    (equipped.after visits).runner = some
      { path := "/other".toList, url := "http://c".toList, user := "u".toList
        password := "p".toList, timeout := .int 600 } := by
  refine ⟨rfl, recalls_history rfl visits, ?_, ?_⟩
  · rw [(recalls_history rfl (visits.take 3)).runner_eq]
    rfl
  · rw [(recalls_history rfl visits).runner_eq]
    rfl

/-- A session whose file of assignments holds a letter that is not encoded as in UTF-8. -/
def illegible : Session where
  files := { root := .directory [(Configuration.fileName, .file
    { content := Utf8.encode "SAR_USERNAME=J".toList ++ 0xfc :: Utf8.encode "rgen".toList })] }
  project := "/project".toList

/-- There is no runner, and yet it is not answered that there is none. -/
theorem test_of_illegible : illegible.runner = none ∧
    illegible.origin? [.test { file := "a.mkd".toList }] = none ∧
    (illegible.respond (.test { file := "a.mkd".toList })).1 =
      .error (.malformedText ⟨14, 1, 0xfc, .start⟩) :=
  ⟨rfl, rfl, rfl⟩

end Session

end ScriptAudit
