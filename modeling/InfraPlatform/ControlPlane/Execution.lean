import InfraPlatform.ControlPlane.Drain

/-!
# Execution of a pod

`internal/worker/executor.go` and `container.go`: `runPod` with its two paths, as programs over the calls they make.
Between any two calls, and while one is under way, the run context may be cancelled and a workload that was started
may finish; `World.happened` has both in the order in which they came.  A call of the Docker client fails under a
cancelled context, and so does `cmd.Start`; a workload whose setup fails otherwise has finished with that error.

`cmd.Run` is `cmd.Start` and `cmd.Wait`.  The select of `runContainerPod` takes any case that is ready.

* `runPod_outcome`: what is reported is `RUNNING` and one outcome that the agent's model allows.
* `Resolved`: where the result and the cancelled context are both at hand at the select, either may be reported.
* `runPod_reports_iff`: when the final status is sure to be the one that the order of events asks for.
-/

namespace ControlPlane.Worker.Execution

open Lib Lib.Prog Api

/-! ## Calls -/

/-- How a workload ended. -/
inductive Finish where
  /-- the error is Docker's, or names the signal that ended a process -/
  | exited (code : Int) (err : Option String)
  /-- it could not be set up, or not be waited for -/
  | failed (err : String)
deriving DecidableEq, Repr

/-- With an error or a non-zero exit code. -/
def Finish.bad : Finish → Bool
  | .exited code err => code != 0 || err.isSome
  | .failed _ => true

/-- An error of `cmd.Run`, with what `exitCodeOf` makes of it. -/
structure RunErr where
  text : String
  exitCode : Option Int
deriving DecidableEq, Repr

def Finish.runErr : Finish → Option RunErr
  | .exited code none => if code = 0 then none else some ⟨"exit status " ++ toString code, some code⟩
  | .exited code (some err) => some ⟨err, some code⟩
  | .failed err => some ⟨err, none⟩

/-- The arguments of `ContainerCreate`. -/
structure ContainerConfig where
  image : String
  cmd : List String
  nanoCPUs : Int
  memory : Int
  name : String
deriving DecidableEq, Repr

/-- The cases of the select. -/
inductive Selected where
  | status (code : Int) (err : Option String)
  | err (err : String)
  | done
deriving DecidableEq, Repr

inductive Call where
  | imagePull (image : String)
  /-- `io.Copy(io.Discard, reader)` -/
  | drain
  | containerCreate (config : ContainerConfig)
  | containerStart
  | select
  | containerStop (timeout : Nat)
  | collectContainerLogs
  | containerRemove
  | cmdStart (command : String) (args : List String)
  | cmdWait
  /-- `buf.String()` -/
  | output
  /-- `ctx.Err() != nil` -/
  | ctxErr
  | reportStatus (body : PodStatusRequest)
  | incFailed
  | incCompleted

abbrev Resp : Call → Type
  | .imagePull _ | .containerCreate _ | .containerStart => Option String
  | .select => Selected
  | .cmdStart .. | .cmdWait => Option RunErr
  | .collectContainerLogs | .output => String
  | .ctxErr => Bool
  | .drain | .containerStop _ | .containerRemove | .reportStatus _ | .incFailed | .incCompleted => Unit

abbrev M := Prog Call Resp

def imagePull (image : String) : M (Option String) := op (Call.imagePull image)
def drain : M Unit := op Call.drain
def containerCreate (config : ContainerConfig) : M (Option String) := op (Call.containerCreate config)
def containerStart : M (Option String) := op Call.containerStart
def select : M Selected := op Call.select
def containerStop (timeout : Nat) : M Unit := op (Call.containerStop timeout)
def collectContainerLogs : M String := op Call.collectContainerLogs
def containerRemove : M Unit := op Call.containerRemove
def cmdStart (command : String) (args : List String) : M (Option RunErr) := op (Call.cmdStart command args)
def cmdWait : M (Option RunErr) := op Call.cmdWait
def output : M String := op Call.output
def ctxErr : M Bool := op Call.ctxErr
def reportStatus (body : PodStatusRequest) : M Unit := op (Call.reportStatus body)
def incFailed : M Unit := op Call.incFailed
def incCompleted : M Unit := op Call.incCompleted

/-! ## The two paths -/

def containerConfig (pod : Pod) : ContainerConfig where
  image := pod.image
  cmd := if pod.command ≠ "" then pod.command :: pod.args else []
  nanoCPUs := if pod.resources.cpu > 0 then (pod.resources.cpu * 10 ^ 9).floor else 0
  memory := if pod.resources.memoryMB > 0 then pod.resources.memoryMB * 1024 * 1024 else 0
  name := "pod-" ++ pod.id

/-- A call of the setup failed. -/
def setupFailed (step err : String) : M Unit := do
  reportStatus { status := .failed, error := step ++ ": " ++ err }
  incFailed

/-- The end of `runContainerPod`, once the container has finished. -/
def conclude (exitCode : Int) (runErr : Option String) : M Unit := do
  let output ← collectContainerLogs
  match runErr with
  | some err =>
    reportStatus { status := .failed, error := err, output }
    incFailed
  | none =>
    if exitCode ≠ 0 then
      reportStatus { status := .failed, exitCode := some exitCode, error := "exit code " ++ toString exitCode, output }
      incFailed
    else
      reportStatus { status := .succeeded, exitCode := some 0, output }
      incCompleted

/-- The cases of the select, with what follows on them. -/
def onSelected : Selected → M Unit
  | .status code err => conclude code err
  | .err err => conclude 0 (some err)
  | .done => do
    containerStop 5
    let output ← collectContainerLogs
    reportStatus { status := .cancelled, error := "node agent shutting down", output }

def awaitContainer : M Unit := do onSelected (← select)

def runContainerPod (pod : Pod) : M Unit := do
  match ← imagePull pod.image with
  | some err => setupFailed "image pull" err
  | none =>
    drain
    match ← containerCreate (containerConfig pod) with
    | some err => setupFailed "container create" err
    | none =>
      match ← containerStart with
      | some err => setupFailed "container start" err
      | none => awaitContainer
      containerRemove

/-- `cmd.Run` -/
def cmdRun (command : String) (args : List String) : M (Option RunErr) := do
  match ← cmdStart command args with
  | some err => pure (some err)
  | none => cmdWait

def runSubprocessPod (pod : Pod) : M Unit := do
  let runErr ← cmdRun pod.command pod.args
  let output ← output
  if ← ctxErr then
    reportStatus { status := .cancelled, error := "node agent shutting down", output }
  else
    match runErr with
    | some err =>
      reportStatus { status := .failed, exitCode := err.exitCode, error := err.text, output }
      incFailed
    | none =>
      reportStatus { status := .succeeded, exitCode := some 0, output }
      incCompleted

def runPod (pod : Pod) : M Unit := do
  reportStatus { status := .running }
  if pod.image ≠ "" then runContainerPod pod else runSubprocessPod pod

/-! ## What the calls do -/

inductive Happening where
  /-- the run context is cancelled -/
  | cancel
  /-- the workload's result is at hand -/
  | finish (f : Finish)
deriving DecidableEq, Repr

def Happening.finish? : Happening → Option Finish
  | .cancel => none
  | .finish f => some f

structure World where
  happened : List Happening := []
  /-- there is a process or a container that runs, or ran -/
  started : Bool := false
  /-- for each Docker call of the setup, whether the context was cancelled -/
  setup : List Bool := []
  /-- what had happened when the select was made, or `ctx.Err()` was checked -/
  seen : Option (List Happening) := none
  reports : List PodStatusRequest := []
  failedJobs : Nat := 0
  completedJobs : Nat := 0
deriving DecidableEq

namespace World

def push (w : World) (x : Happening) : World := { w with happened := w.happened ++ [x] }

def cancelled (w : World) : Bool := w.happened.contains .cancel

/-- The result of the workload. -/
def result (w : World) : Option Finish := w.happened.findSome? Happening.finish?

/-- What happens outside the agent. -/
inductive Moves : World → World → Prop where
  | cancel {w : World} : w.cancelled = false → Moves w (w.push .cancel)
  | finish {w : World} (f : Finish) : w.started = true → w.result = none → Moves w (w.push (.finish f))

/-- The cases of the select that are ready. -/
def Ready (w : World) : Selected → Prop
  | .status code err => w.result = some (.exited code err)
  | .err err => w.result = some (.failed err)
  | .done => w.cancelled = true

/-- The world after a call of the Docker client. -/
def settingUp (w : World) : World := { w with setup := w.setup ++ [w.cancelled] }

/-- A call that sets the workload up fails under a cancelled context; if it fails otherwise, the workload has ended. -/
def SetsUp (w next : World) (err : Option String) (w' : World) : Prop :=
  if w.cancelled then err.isSome = true ∧ w' = w.settingUp
  else err = none ∧ w' = next ∨ ∃ e, err = some e ∧ w' = w.settingUp.push (.finish (.failed e))

end World

/-- A call, when it is decided. -/
def Acts : Effect Call Resp World
  | .imagePull _, w, r, w' => w.SetsUp w.settingUp r w'
  | .containerCreate _, w, r, w' => w.SetsUp w.settingUp r w'
  | .containerStart, w, r, w' => w.SetsUp { w.settingUp with started := true } r w'
  | .select, w, r, w' => w.Ready r ∧ w' = { w with seen := some w.happened }
  | .cmdStart .., w, r, w' =>
    if w.cancelled then r.isSome = true ∧ w' = w
    else r = none ∧ w' = { w with started := true } ∨
      ∃ e, r = some ⟨e, none⟩ ∧ w' = w.push (.finish (.failed e))
  | .cmdWait, w, r, w' => (w.cancelled = true ∨ ∃ f, w.result = some f ∧ r = f.runErr) ∧ w' = w
  | .ctxErr, w, r, w' => r = w.cancelled ∧ w' = { w with seen := some w.happened }
  | .reportStatus body, w, _, w' => w' = { w with reports := w.reports ++ [body] }
  | .incFailed, w, _, w' => w' = { w with failedJobs := w.failedJobs + 1 }
  | .incCompleted, w, _, w' => w' = { w with completedJobs := w.completedJobs + 1 }
  | .drain, w, _, w' | .containerStop _, w, _, w' | .collectContainerLogs, w, _, w' | .containerRemove, w, _, w'
  | .output, w, _, w' => w' = w

/-- A call, with what happens until it is decided. -/
def Exec : Effect Call Resp World := fun c w r w' => ∃ w₁, Relation.ReflTransGen World.Moves w w₁ ∧ Acts c w₁ r w'

/-! ## What should be reported -/

namespace World

/-- The final status that the first event asks for. -/
def expected (w : World) : Option PodStatus :=
  w.happened.head?.map fun
    | .cancel => .cancelled
    | .finish f => if f.bad then .failed else .succeeded

/-- The context is cancelled and the workload has finished. -/
def both (l : List Happening) : Bool := l.contains .cancel && (l.findSome? Happening.finish?).isSome

/-- What happened up to the select or to the check of `ctx.Err()` leaves no doubt: for a container, not both; for a
process, a cancellation only if it came first. -/
def clear (pod : Pod) (l : List Happening) : Bool :=
  if pod.image ≠ "" then !both l else !l.contains .cancel || l.head? = some .cancel

/-- No Docker call of the setup was decided under a cancelled context, and the select or the check came at a clear
moment. -/
structure Timely (pod : Pod) (w : World) : Prop where
  setup : ∀ c ∈ w.setup, c = false
  seen : ∀ l, w.seen = some l → clear pod l = true

/-- The same happened, and at the same calls. -/
structure SameTiming (w w' : World) : Prop where
  happened : w'.happened = w.happened
  setup : w'.setup = w.setup
  seen : w'.seen = w.seen

theorem expected_cancelled {w : World} : some .cancelled = w.expected ↔ w.happened.head? = some .cancel := by
  unfold expected
  cases w.happened.head? with
  | none => simp
  | some x =>
    cases x with
    | cancel => simp
    | finish f => cases h : f.bad <;> simp [h]

theorem expected_finished {w : World} {f : Finish} (h : w.result = some f) :
    some (if f.bad then PodStatus.failed else .succeeded) = w.expected ↔ w.happened.head? ≠ some .cancel := by
  unfold result at h
  unfold expected
  cases hw : w.happened with
  | nil => simp [hw] at h
  | cons x rest =>
    cases x with
    | cancel => cases hf : f.bad <;> simp
    | finish g =>
      rw [hw, List.findSome?_cons_of_isSome (by rfl)] at h
      obtain rfl := Option.some.inj h
      simp

theorem head_of_not_both {l : List Happening} (hc : l.contains .cancel = true) (hb : both l = false) :
    l.head? = some .cancel := by
  rw [both, hc, Bool.true_and, Option.isSome_eq_false_iff, Option.isNone_iff_eq_none] at hb
  cases l with
  | nil => cases hc
  | cons x rest =>
    cases x with
    | cancel => rfl
    | finish f => cases hb

/-! ## Growth -/

/-- From `w` to `w'` nothing is decided. -/
structure Later (w w' : World) : Prop where
  happened : ∃ new, w'.happened = w.happened ++ new
  /-- nothing happens after the two -/
  full : both w.happened = true → w'.happened = w.happened
  setup : w'.setup = w.setup
  seen : w'.seen = w.seen

/-- From `w` to `w'` the agent has learnt and reported nothing. -/
structure Grows (w w' : World) : Prop extends Later w w' where
  calm : w.started = false → ∀ x ∈ w'.happened, x ∈ w.happened ∨ x = .cancel
  started : w'.started = w.started
  reports : w'.reports = w.reports

variable {w w₁ w' : World}

theorem Later.refl (w : World) : Later w w := ⟨⟨[], by simp⟩, fun _ => rfl, rfl, rfl⟩

theorem Later.trans (h : Later w w₁) (h' : Later w₁ w') : Later w w' where
  happened := by
    obtain ⟨new, hnew⟩ := h.happened
    obtain ⟨new', hnew'⟩ := h'.happened
    exact ⟨new ++ new', by rw [hnew', hnew, List.append_assoc]⟩
  full hb := (h'.full (by rw [h.full hb]; exact hb)).trans (h.full hb)
  setup := h'.setup.trans h.setup
  seen := h'.seen.trans h.seen

theorem Later.expected (h : Later w w') (hne : w.happened ≠ []) : w'.expected = w.expected := by
  obtain ⟨new, hnew⟩ := h.happened
  unfold World.expected
  rw [hnew, List.head?_append_of_ne_nil _ hne]

theorem timely_congr {pod : Pod} (hsetup : w'.setup = w.setup) (hseen : w'.seen = w.seen) :
    w'.Timely pod ↔ w.Timely pod := by
  constructor
  · intro ht
    exact ⟨by rw [← hsetup]; exact ht.setup, by rw [← hseen]; exact ht.seen⟩
  · intro ht
    exact ⟨by rw [hsetup]; exact ht.setup, by rw [hseen]; exact ht.seen⟩

theorem Grows.refl (w : World) : Grows w w := ⟨.refl w, fun _ _ hx => .inl hx, rfl, rfl⟩

theorem Grows.trans (h : Grows w w₁) (h' : Grows w₁ w') : Grows w w' where
  toLater := h.toLater.trans h'.toLater
  calm hs x hx := by
    rcases h'.calm (h.started.trans hs) x hx with hx | hx
    · exact h.calm hs x hx
    · exact .inr hx
  started := h'.started.trans h.started
  reports := h'.reports.trans h.reports

theorem Moves.grows (h : Moves w w') : Grows w w' := by
  cases h with
  | cancel hc =>
    refine ⟨⟨⟨_, rfl⟩, ?_, rfl, rfl⟩, ?_, rfl, rfl⟩
    · intro hb
      rw [cancelled] at hc
      rw [both, hc] at hb
      cases hb
    · intro _ x hx
      simpa [push] using hx
  | finish f hs hr =>
    refine ⟨⟨⟨_, rfl⟩, ?_, rfl, rfl⟩, ?_, rfl, rfl⟩
    · intro hb
      rw [result] at hr
      simp [both, hr] at hb
    · intro hs'
      rw [hs] at hs'
      cases hs'

theorem grows_of_moves (h : Relation.ReflTransGen Moves w w') : Grows w w' := by
  induction h with
  | refl => exact .refl w
  | tail _ hm ih => exact ih.trans hm.grows

theorem Grows.cancelled (h : Grows w w') (hc : w.cancelled = true) : w'.cancelled = true := by
  obtain ⟨new, hnew⟩ := h.happened
  simp only [World.cancelled, List.contains_iff_mem] at hc ⊢
  rw [hnew]
  exact List.mem_append_left new hc

end World

/-- Calls that neither decide nor report. -/
def Call.silent : Call → Bool
  | .drain | .containerStop _ | .collectContainerLogs | .containerRemove | .output | .incFailed | .incCompleted => true
  | _ => false

open World

theorem silent_grows {c : Call} {w w' : World} {r : Resp c} (hc : c.silent = true) (h : Exec c w r w') :
    Grows w w' := by
  obtain ⟨w₁, hm, ha⟩ := h
  refine (grows_of_moves hm).trans ?_
  cases c with
  | incFailed =>
    obtain rfl := ha
    exact ⟨⟨⟨[], by simp⟩, fun _ => rfl, rfl, rfl⟩, fun _ _ hx => .inl hx, rfl, rfl⟩
  | incCompleted =>
    obtain rfl := ha
    exact ⟨⟨⟨[], by simp⟩, fun _ => rfl, rfl, rfl⟩, fun _ _ hx => .inl hx, rfl, rfl⟩
  | drain | containerStop _ | collectContainerLogs | containerRemove | output =>
    obtain rfl := ha
    exact .refl _
  | _ => cases hc

/-! ## Stages of an execution -/

/-- The agent has claimed the pod and nothing is decided. -/
structure Claimed (w : World) : Prop where
  started : w.started = false
  happened : ∀ x ∈ w.happened, x = .cancel
  setup : ∀ c ∈ w.setup, c = false
  seen : w.seen = none
  reports : w.reports = [{ status := .running }]

/-- The workload runs, or did. -/
structure Started (w : World) : Prop where
  setup : ∀ c ∈ w.setup, c = false
  reports : w.reports = [{ status := .running }]

/-- After the first event, and with what had happened when it was decided, the process model allows the outcome. -/
def Allowed (pod : Pod) (o : Outcome) (happened : List Happening) : Prop :=
  ∃ l, l ≠ [] ∧ l <+: happened ∧
    (o.refusal (l.contains .cancel) pod = true ∨ o.ending (l.contains .cancel) pod = true)

/-- The select of a container finds both at hand. -/
structure Contested (pod : Pod) (w : World) : Prop where
  image : pod.image ≠ ""
  seen : w.seen = some w.happened
  both : World.both w.happened = true

/-- At `t` it is decided which outcome is reported; `sent` has it once it is. -/
structure Decided (pod : Pod) (o : Outcome) (sent : List PodStatusRequest) (t w : World) : Prop where
  happened : t.happened ≠ []
  right : Contested pod t ∨ (some o.report.status = t.expected ↔ t.Timely pod)
  allowed : Allowed pod o t.happened
  since : Later t w
  reports : w.reports = { status := .running } :: sent

variable {pod : Pod} {o : Outcome} {sent : List PodStatusRequest} {t w w₁ w' : World}

theorem Claimed.grows (h : Claimed w) (hg : Grows w w') : Claimed w' where
  started := hg.started.trans h.started
  happened x hx := by
    rcases hg.calm h.started x hx with hx | hx
    · exact h.happened x hx
    · exact hx
  setup := by rw [hg.setup]; exact h.setup
  seen := hg.seen.trans h.seen
  reports := hg.reports.trans h.reports

theorem Started.grows (h : Started w) (hg : Grows w w') : Started w' where
  setup := by rw [hg.setup]; exact h.setup
  reports := hg.reports.trans h.reports

theorem Decided.grows (h : Decided pod o sent t w) (hg : Grows w w') : Decided pod o sent t w' :=
  { h with
    since := h.since.trans hg.toLater
    reports := hg.reports.trans h.reports }

theorem Decided.silent {c : Call} {r : Resp c} (h : Decided pod o sent t w) (hE : Exec c w r w')
    (hc : c.silent = true) : Decided pod o sent t w' := h.grows (silent_grows hc hE)

/-- The outcome is reported. -/
theorem Decided.report (h : Decided pod o [] t w) (hr : Runs Exec (reportStatus o.report) w () w') :
    Decided pod o [o.report] t w' := by
  obtain ⟨w₁, hm, rfl⟩ := runs_op.mp hr
  have h₁ := h.grows (grows_of_moves hm)
  exact ⟨h₁.happened, h₁.right, h₁.allowed, ⟨h₁.since.happened, h₁.since.full, h₁.since.setup, h₁.since.seen⟩,
    by simp [h₁.reports]⟩

/-- The outcome is reported, and then counted. -/
theorem Decided.reported {c : Call} {r : Resp c} (h : Decided pod o [] t w) (hc : c.silent = true)
    (hr : Runs Exec (reportStatus o.report >>= fun _ => op c) w r w') : Decided pod o [o.report] t w' := by
  simp only [runs_bind] at hr
  obtain ⟨⟨⟩, w₁, hreport, hcount⟩ := hr
  exact (h.report hreport).silent (runs_op.mp hcount) hc

theorem Decided.allowed_later (h : Decided pod o sent t w) : Allowed pod o w.happened := by
  obtain ⟨l, hl, hpre, ho⟩ := h.allowed
  obtain ⟨new, hnew⟩ := h.since.happened
  rw [hnew]
  exact ⟨l, hl, hpre.trans (List.prefix_append _ _), ho⟩

/-- An execution of `p` whose outcome is decided at some moment; if both are at hand then, another execution may
report as well the one as the other. -/
def Resolved (pod : Pod) (p : M Unit) (w w' : World) : Prop :=
  ∃ o t, Decided pod o [o.report] t w' ∧
    (Contested pod t → ∀ done : Bool, ∃ o' v, Runs Exec p w () v ∧ Decided pod o' [o'.report] t v ∧
      (o'.report.status = .cancelled ↔ done = true))

theorem Decided.resolved {p : M Unit} {w₀ : World} (h : Decided pod o [o.report] t w) (hno : ¬ Contested pod t) :
    Resolved pod p w₀ w := ⟨o, t, h, fun hc => absurd hc hno⟩

/-- What comes before makes no difference. -/
theorem Resolved.lift {p p' : M Unit} {w₀ : World} (h : Resolved pod p w w')
    (hp : ∀ v, Runs Exec p w () v → Runs Exec p' w₀ () v) : Resolved pod p' w₀ w' := by
  obtain ⟨o, t, hd, hfree⟩ := h
  refine ⟨o, t, hd, fun hc done => ?_⟩
  obtain ⟨o', v, hv, hd', hst⟩ := hfree hc done
  exact ⟨o', v, hp v hv, hd', hst⟩

/-- The deferred `ContainerRemove`. -/
theorem Resolved.remove {p : M Unit} (h : Resolved pod p w w₁) (hE : Exec .containerRemove w₁ () w') :
    Resolved pod (p >>= fun _ => containerRemove) w w' := by
  obtain ⟨o, t, hd, hfree⟩ := h
  refine ⟨o, t, hd.silent hE rfl, fun hc done => ?_⟩
  obtain ⟨o', v, hv, hd', hst⟩ := hfree hc done
  exact ⟨o', v, runs_bind.mpr ⟨(), v, hv, runs_op.mpr ⟨v, .refl, rfl⟩⟩, hd', hst⟩

/-! ## The steps -/

/-- The context is cancelled before anything else happens. -/
theorem Claimed.head_of_cancelled (h : Claimed w) (hc : w.cancelled = true) : w.happened.head? = some .cancel := by
  simp only [World.cancelled, List.contains_iff_mem] at hc
  cases hw : w.happened with
  | nil => simp [hw] at hc
  | cons x rest =>
    obtain rfl := h.happened x (by simp [hw])
    rfl

theorem Claimed.happened_nil (h : Claimed w) (hc : w.cancelled = false) : w.happened = [] := by
  cases hw : w.happened with
  | nil => rfl
  | cons x rest =>
    obtain rfl := h.happened x (by simp [hw])
    simp [World.cancelled, hw] at hc

theorem Claimed.settingUp (h : Claimed w) (hc : w.cancelled = false) : Claimed w.settingUp where
  started := h.started
  happened := h.happened
  setup c hmem := by
    rcases List.mem_append.mp hmem with hmem | hmem
    · exact h.setup c hmem
    · rw [List.mem_singleton.mp hmem]
      exact hc
  seen := h.seen
  reports := h.reports

/-- A failed call of the setup decides for `FAILED`, which is not what a cancelled context asks for. -/
theorem Claimed.setsUp {next : World} {err : Option String} {e : String} (h : Claimed w) (himage : pod.image ≠ "")
    (hs : w.SetsUp next err w') (he : err = some e) (text : String) :
    Decided pod (.failed none text "") [] w' w' ∧ ¬ Contested pod w' := by
  subst he
  unfold World.SetsUp at hs
  split at hs
  · next hc =>
    obtain ⟨-, rfl⟩ := hs
    have hhead := h.head_of_cancelled hc
    have hne : w.happened ≠ [] := by
      intro hnil
      rw [hnil] at hhead
      cases hhead
    refine ⟨⟨hne, .inr ?_, ⟨w.happened, hne, List.prefix_rfl, .inl (by simp [Outcome.refusal, himage])⟩, .refl _,
      h.reports⟩, fun hcon => ?_⟩
    · constructor
      · intro hexp
        change _ = w.happened.head?.map _ at hexp
        rw [hhead] at hexp
        cases hexp
      · intro ht
        have := ht.setup true (by simp [World.settingUp, hc])
        cases this
    · cases h.seen.symm.trans hcon.seen
  · next hc =>
    rcases hs with ⟨hnone, -⟩ | ⟨e', -, rfl⟩
    · cases hnone
    · have hnil := h.happened_nil (by simpa using hc)
      have hhappened : (w.settingUp.push (.finish (.failed e'))).happened = [.finish (.failed e')] := by
        simp [World.push, World.settingUp, hnil]
      have hunseen : (w.settingUp.push (.finish (.failed e'))).seen = none := h.seen
      refine ⟨⟨by simp [hhappened], .inr (iff_of_true ?_ ?_), ⟨_, by simp [hhappened], List.prefix_rfl, .inl ?_⟩,
        .refl _, h.reports⟩, fun hcon => ?_⟩
      · simp [World.expected, hhappened, Finish.bad, Outcome.report]
      · exact ⟨(h.settingUp (by simpa using hc)).setup, by simp [hunseen]⟩
      · simp [Outcome.refusal, himage]
      · cases hunseen.symm.trans hcon.seen

theorem setsUp_none {next : World} (hs : w.SetsUp next none w') : w.cancelled = false ∧ w' = next := by
  unfold World.SetsUp at hs
  split at hs
  · cases hs.1
  · next hc =>
    rcases hs with ⟨-, rfl⟩ | ⟨e, he, -⟩
    · exact ⟨by simpa using hc, rfl⟩
    · cases he

theorem result_grows {f : Finish} (hg : Grows w w') (h : w.result = some f) : w'.result = some f := by
  obtain ⟨new, hnew⟩ := hg.happened
  unfold World.result at h ⊢
  rw [hnew, List.findSome?_append, h]
  rfl

theorem Started.timely_iff (h : Started w) {l : List Happening} (hl : w.seen = some l) :
    w.Timely pod ↔ clear pod l = true := by
  constructor
  · intro ht
    exact ht.seen l hl
  · intro hclear
    refine ⟨h.setup, ?_⟩
    intro l' hl'
    rw [hl] at hl'
    obtain rfl := Option.some.inj hl'
    exact hclear

/-- At the select or at the check, with a context that is cancelled. -/
theorem Started.shutdown (h : Started w) (hseen : w.seen = some w.happened) (hc : w.cancelled = true)
    (output : String) : Decided pod (.shutdown output) [] w w := by
  have hne : w.happened ≠ [] := by
    intro hnil
    simp [World.cancelled, hnil] at hc
  refine ⟨hne, ?_, ⟨w.happened, hne, List.prefix_rfl, .inr hc⟩, .refl w, h.reports⟩
  by_cases hcontested : Contested pod w
  · exact .inl hcontested
  refine .inr ((expected_cancelled (w := w)).trans ?_)
  rw [h.timely_iff hseen, clear]
  rw [World.cancelled] at hc
  split
  · next himage =>
    -- no result is at hand
    have hnot : both w.happened = false := by
      by_contra hb
      exact hcontested ⟨himage, hseen, by simpa using hb⟩
    rw [hnot]
    exact iff_of_true (head_of_not_both hc hnot) rfl
  · rw [hc, Bool.not_true, Bool.false_or, decide_eq_true_eq]

/-- At the select or at the check, with the result of the workload. -/
theorem Started.finished {f : Finish} (h : Started w) (hseen : w.seen = some w.happened) (hf : w.result = some f)
    (hc : pod.image = "" → w.cancelled = false) (ho : o.report.status = if f.bad then .failed else .succeeded)
    (ha : o.ending w.cancelled pod = true) : Decided pod o [] w w := by
  have hne : w.happened ≠ [] := by
    intro hnil
    simp [World.result, hnil] at hf
  refine ⟨hne, ?_, ⟨w.happened, hne, List.prefix_rfl, .inr ha⟩, .refl w, h.reports⟩
  by_cases hcontested : Contested pod w
  · exact .inl hcontested
  -- the context is not cancelled, so nothing came before the result
  have hlive : w.happened.contains .cancel = false := by
    by_cases himage : pod.image = ""
    · exact hc himage
    · by_contra hcan
      rw [Bool.not_eq_false] at hcan
      rw [World.result] at hf
      exact hcontested ⟨himage, hseen, by rw [both, hcan, hf]; rfl⟩
  have hhead : w.happened.head? ≠ some .cancel := by
    intro hh
    have hmem : Happening.cancel ∈ w.happened := List.mem_of_mem_head? hh
    rw [← List.contains_iff_mem, hlive] at hmem
    cases hmem
  rw [h.timely_iff hseen, ho, expected_finished hf]
  refine .inr (iff_of_true hhead ?_)
  rw [clear, both, hlive]
  split <;> rfl

/-! ## Whole executions -/

/-- The outcome of a container. -/
def concluded (exitCode : Int) (runErr : Option String) (output : String) : Outcome :=
  match runErr with
  | some err => .failed none err output
  | none =>
    if exitCode ≠ 0 then .failed (some exitCode) ("exit code " ++ toString exitCode) output else .succeeded output

theorem concluded_status (exitCode : Int) (runErr : Option String) (output : String) :
    (concluded exitCode runErr output).report.status =
      if (Finish.exited exitCode runErr).bad then .failed else .succeeded := by
  unfold concluded Finish.bad
  cases runErr with
  | some err => simp [Outcome.report]
  | none => by_cases hcode : exitCode = 0 <;> simp [hcode, Outcome.report]

theorem conclude_runs {exitCode : Int} {runErr : Option String}
    (h : ∀ output, Decided pod (concluded exitCode runErr output) [] t w)
    (hr : Runs Exec (conclude exitCode runErr) w () w') :
    ∃ output, Decided pod (concluded exitCode runErr output) [(concluded exitCode runErr output).report] t w' := by
  simp only [conclude, runs_bind] at hr
  obtain ⟨output, w₁, h1, h2⟩ := hr
  have hd := (h output).silent (runs_op.mp h1) rfl
  refine ⟨output, ?_⟩
  cases runErr with
  | some err => exact hd.reported (c := Call.incFailed) rfl h2
  | none =>
    by_cases hcode : exitCode = 0
    · simp only [concluded, hcode, ne_eq, not_true, if_false] at hd ⊢
      simp only [hcode, ne_eq, not_true, if_false] at h2
      exact hd.reported (c := Call.incCompleted) rfl h2
    · simp only [concluded, ne_eq, hcode, not_false_eq_true, if_true] at hd ⊢
      simp only [ne_eq, hcode, not_false_eq_true, if_true] at h2
      exact hd.reported (c := Call.incFailed) rfl h2

/-- A container's result may be taken with the context done or not. -/
theorem concluded_ending (himage : pod.image ≠ "") (runDone : Bool) (code : Int) (err : Option String)
    (output : String) : (concluded code err output).ending runDone pod = true := by
  cases err with
  | some err => simp [concluded, Outcome.ending, himage]
  | none => by_cases hcode : code = 0 <;> simp [concluded, hcode, Outcome.ending, himage]

theorem Started.concludes {code : Int} {err : Option String} {f : Finish} (h : Started w) (himage : pod.image ≠ "")
    (hseen : w.seen = some w.happened) (hf : w.result = some f) (hbad : f.bad = (Finish.exited code err).bad)
    (output : String) : Decided pod (concluded code err output) [] w w :=
  h.finished hseen hf (fun hno => absurd hno himage) (by rw [hbad]; exact concluded_status code err output)
    (concluded_ending himage _ code err output)

theorem concluded_not_cancelled (code : Int) (err : Option String) (output : String) :
    (concluded code err output).report.status ≠ .cancelled := by
  rw [concluded_status]
  split <;> simp

/-- What follows on a case of the select. -/
theorem onSelected_runs {r : Selected} (himage : pod.image ≠ "") (h : Started w) (hseen : w.seen = some w.happened)
    (hready : w.Ready r) (hr : Runs Exec (onSelected r) w () w') :
    ∃ o, Decided pod o [o.report] w w' ∧ (o.report.status = .cancelled ↔ r = .done) := by
  cases r with
  | status code err =>
    obtain ⟨output, hd⟩ := conclude_runs (h.concludes himage hseen hready rfl) hr
    exact ⟨_, hd, by simp [concluded_not_cancelled]⟩
  | err err =>
    have hd₀ : ∀ output, Decided pod (concluded 0 (some err) output) [] w w := h.concludes himage hseen hready rfl
    obtain ⟨output, hd⟩ := conclude_runs hd₀ hr
    exact ⟨_, hd, by simp [concluded_not_cancelled]⟩
  | done =>
    simp only [onSelected, runs_bind] at hr
    obtain ⟨⟨⟩, w₁, h1, output, w₂, h2, h3⟩ := hr
    have hd : Decided pod (.shutdown output) [] w w := h.shutdown hseen hready output
    exact ⟨_, ((hd.silent (runs_op.mp h1) rfl).silent (runs_op.mp h2) rfl).report h3, by simp [Outcome.report]⟩

theorem conclude_possible (code : Int) (err : Option String) (w : World) :
    ∃ v, Runs Exec (conclude code err) w () v := by
  have hcount (body : PodStatusRequest) (c : Call) (r : Resp c) (hc : ∀ w, ∃ v, Acts c w r v) :
      ∃ v, Runs Exec (reportStatus body >>= fun _ => op c) w r v := by
    obtain ⟨v, hv⟩ := hc { w with reports := w.reports ++ [body] }
    exact ⟨v, runs_bind.mpr ⟨(), _, runs_op.mpr ⟨w, .refl, rfl⟩, runs_op.mpr ⟨_, .refl, hv⟩⟩⟩
  have hlogs : Exec .collectContainerLogs w "" w := ⟨w, .refl, rfl⟩
  unfold conclude
  simp only [runs_bind]
  cases err with
  | some err =>
    obtain ⟨v, hv⟩ := hcount { status := .failed, error := err } .incFailed () fun _ => ⟨_, rfl⟩
    exact ⟨v, "", w, runs_op.mpr hlogs, hv⟩
  | none =>
    by_cases hcode : code = 0
    · obtain ⟨v, hv⟩ := hcount { status := .succeeded, exitCode := some 0 } .incCompleted () fun _ => ⟨_, rfl⟩
      exact ⟨v, "", w, runs_op.mpr hlogs, by rw [if_neg (not_not.mpr hcode)]; exact hv⟩
    · obtain ⟨v, hv⟩ := hcount { status := .failed, exitCode := some code, error := "exit code " ++ toString code }
        .incFailed () fun _ => ⟨_, rfl⟩
      exact ⟨v, "", w, runs_op.mpr hlogs, by rw [if_pos hcode]; exact hv⟩

theorem onSelected_possible (r : Selected) (w : World) : ∃ v, Runs Exec (onSelected r) w () v := by
  cases r with
  | status code err => exact conclude_possible code err w
  | err err => exact conclude_possible 0 (some err) w
  | done =>
    simp only [onSelected, runs_bind]
    exact ⟨_, (), w, runs_op.mpr ⟨w, .refl, rfl⟩, "", w, runs_op.mpr ⟨w, .refl, rfl⟩, runs_op.mpr ⟨w, .refl, rfl⟩⟩

/-- With both at hand, the case of the result and that of the context are ready. -/
theorem ready_of_both (hb : both w.happened = true) (done : Bool) : ∃ r, w.Ready r ∧ (r = .done ↔ done = true) := by
  rw [both, Bool.and_eq_true, Option.isSome_iff_exists] at hb
  obtain ⟨hc, f, hf⟩ := hb
  cases done with
  | true => exact ⟨.done, hc, by simp⟩
  | false =>
    cases f with
    | exited code err => exact ⟨.status code err, hf, by simp⟩
    | failed err => exact ⟨.err err, hf, by simp⟩

theorem awaitContainer_runs (himage : pod.image ≠ "") (h : Started w) (hr : Runs Exec awaitContainer w () w') :
    Resolved pod awaitContainer w w' := by
  simp only [awaitContainer, runs_bind] at hr
  obtain ⟨r, t, h1, h2⟩ := hr
  obtain ⟨w₁, hm, hready, rfl⟩ := runs_op.mp h1
  have h₁ := h.grows (grows_of_moves hm)
  have hs : Started { w₁ with seen := some w₁.happened } := ⟨h₁.setup, h₁.reports⟩
  obtain ⟨o, hd, -⟩ := onSelected_runs himage hs rfl hready h2
  refine ⟨o, _, hd, fun hcon done => ?_⟩
  obtain ⟨r', hready', hr'⟩ := ready_of_both (w := w₁) hcon.both done
  obtain ⟨v, hv⟩ := onSelected_possible r' { w₁ with seen := some w₁.happened }
  obtain ⟨o', hd', ho'⟩ := onSelected_runs himage hs rfl hready' hv
  exact ⟨o', v, runs_bind.mpr ⟨r', _, runs_op.mpr ⟨w₁, hm, hready', rfl⟩, hv⟩, hd', ho'.trans hr'⟩

/-- A failed setup is reported. -/
theorem setupFailed_runs {p : M Unit} {w₀ : World} {step err : String}
    (h : Decided pod (.failed none (step ++ ": " ++ err) "") [] w w ∧ ¬ Contested pod w)
    (hr : Runs Exec (setupFailed step err) w () w') : Resolved pod p w₀ w' :=
  (h.1.reported (c := Call.incFailed) rfl hr).resolved h.2

theorem runContainerPod_runs (himage : pod.image ≠ "") (h : Claimed w) (hr : Runs Exec (runContainerPod pod) w () w') :
    Resolved pod (runContainerPod pod) w w' := by
  simp only [runContainerPod, runs_bind] at hr
  obtain ⟨pulled, w₂, h1, hr⟩ := hr
  obtain ⟨w₁, hm, ha⟩ := runs_op.mp h1
  have h₁ := h.grows (grows_of_moves hm)
  cases pulled with
  | some err => exact setupFailed_runs (h₁.setsUp himage ha rfl _) hr
  | none =>
    obtain ⟨hc, rfl⟩ := setsUp_none ha
    simp only [runs_bind] at hr
    obtain ⟨⟨⟩, w₃, h2, created, w₅, h3, hr⟩ := hr
    obtain ⟨w₄, hm', ha'⟩ := runs_op.mp h3
    have h₄ := ((h₁.settingUp hc).grows (silent_grows rfl (runs_op.mp h2))).grows (grows_of_moves hm')
    cases created with
    | some err => exact setupFailed_runs (h₄.setsUp himage ha' rfl _) hr
    | none =>
      obtain ⟨hc', rfl⟩ := setsUp_none ha'
      simp only [runs_bind] at hr
      obtain ⟨start, w₇, h4, hr⟩ := hr
      obtain ⟨w₆, hm'', ha''⟩ := runs_op.mp h4
      have h₆ := (h₄.settingUp hc').grows (grows_of_moves hm'')
      cases start with
      | some err =>
        simp only [runs_bind] at hr
        obtain ⟨⟨⟩, w₈, h5, hremove⟩ := hr
        obtain ⟨hd, hno⟩ := h₆.setsUp himage ha'' rfl _
        exact ((hd.reported (c := Call.incFailed) rfl h5).silent (runs_op.mp hremove) rfl).resolved hno
      | none =>
        simp only [runs_bind] at hr
        obtain ⟨⟨⟩, w₈, h5, hremove⟩ := hr
        obtain ⟨hc'', rfl⟩ := setsUp_none ha''
        have h₇ : Started { w₆.settingUp with started := true } :=
          ⟨(h₆.settingUp hc'').setup, (h₆.settingUp hc'').reports⟩
        refine ((awaitContainer_runs himage h₇ h5).remove (runs_op.mp hremove)).lift fun v hv => ?_
        exact runs_bind.mpr ⟨none, _, h1, runs_bind.mpr ⟨(), _, h2, runs_bind.mpr ⟨none, _, h3,
          runs_bind.mpr ⟨none, _, h4, hv⟩⟩⟩⟩

/-- After `cmd.Run` the context is cancelled, or the error is that of the process. -/
theorem cmdRun_runs {command : String} {args : List String} {r : Option RunErr} (h : Claimed w)
    (hr : Runs Exec (cmdRun command args) w r w') :
    Started w' ∧ (w'.cancelled = true ∨ ∃ f, w'.result = some f ∧ r = f.runErr) := by
  simp only [cmdRun, runs_bind] at hr
  obtain ⟨started, w₂, h1, hr⟩ := hr
  obtain ⟨w₁, hm, ha⟩ := runs_op.mp h1
  have h₁ := h.grows (grows_of_moves hm)
  simp only [Acts] at ha
  split at ha
  · next hc =>
    obtain ⟨hsome, rfl⟩ := ha
    obtain ⟨e, rfl⟩ := Option.isSome_iff_exists.mp hsome
    obtain ⟨-, rfl⟩ := runs_pure.mp hr
    exact ⟨⟨h₁.setup, h₁.reports⟩, .inl hc⟩
  · next hc =>
    rcases ha with ⟨rfl, rfl⟩ | ⟨e, rfl, rfl⟩
    · obtain ⟨w₃, hm', hwait, rfl⟩ := runs_op.mp hr
      have hs : Started { w₁ with started := true } := ⟨h₁.setup, h₁.reports⟩
      exact ⟨hs.grows (grows_of_moves hm'), hwait⟩
    · obtain ⟨rfl, rfl⟩ := runs_pure.mp hr
      refine ⟨⟨h₁.setup, h₁.reports⟩, .inr ⟨.failed e, ?_, rfl⟩⟩
      have hnil := h₁.happened_nil (by simpa using hc)
      simp [World.result, World.push, hnil, Happening.finish?]

theorem runErr_isSome (f : Finish) : f.runErr.isSome = f.bad := by
  cases f with
  | failed err => rfl
  | exited code err =>
    cases err with
    | some err => simp [Finish.runErr, Finish.bad]
    | none => by_cases hcode : code = 0 <;> simp [Finish.runErr, Finish.bad, hcode]

theorem runSubprocessPod_runs (h : Claimed w) (hr : Runs Exec (runSubprocessPod pod) w () w') :
    ∃ o t, Decided pod o [o.report] t w' := by
  simp only [runSubprocessPod, runs_bind] at hr
  obtain ⟨runErr, w₁, h1, output, w₂, h2, done, w₄, h3, hr⟩ := hr
  obtain ⟨hs, hrun⟩ := cmdRun_runs h h1
  obtain ⟨w₃, hm, hdone, rfl⟩ := runs_op.mp h3
  have hg : Grows w₁ w₃ := (silent_grows rfl (runs_op.mp h2)).trans (grows_of_moves hm)
  have hs₃ := hs.grows hg
  have hs₄ : Started { w₃ with seen := some w₃.happened } := ⟨hs₃.setup, hs₃.reports⟩
  cases done with
  | true => exact ⟨_, _, (hs₄.shutdown rfl hdone.symm output).report hr⟩
  | false =>
    -- the context was not cancelled before either
    rcases hrun with hc | ⟨f, hf, rfl⟩
    · have hc₃ := hg.cancelled hc
      rw [← hdone] at hc₃
      cases hc₃
    · have hf₃ : w₃.result = some f := result_grows hg hf
      have hbad := runErr_isSome f
      have hfinished (o : Outcome) (ho : o.report.status = if f.bad then .failed else .succeeded)
          (hend : o.ending false pod = true) : Decided pod o [] { w₃ with seen := some w₃.happened }
            { w₃ with seen := some w₃.happened } := by
        refine hs₄.finished rfl hf₃ (fun _ => hdone.symm) ho ?_
        change o.ending w₃.cancelled pod = true
        rw [← hdone]
        exact hend
      cases herr : f.runErr with
      | some err =>
        rw [herr] at hbad hr
        simp only [Bool.false_eq_true, if_false] at hr
        have hd := hfinished (.failed err.exitCode err.text output) (by rw [← hbad]; rfl) rfl
        exact ⟨_, _, hd.reported (c := Call.incFailed) rfl hr⟩
      | none =>
        rw [herr] at hbad hr
        simp only [Bool.false_eq_true, if_false] at hr
        have hd := hfinished (.succeeded output) (by rw [← hbad]; rfl) rfl
        exact ⟨_, _, hd.reported (c := Call.incCompleted) rfl hr⟩

theorem runPod_runs (hr : Runs Exec (runPod pod) {} () w') : Resolved pod (runPod pod) {} w' := by
  simp only [runPod, runs_bind] at hr
  obtain ⟨⟨⟩, w₂, h1, hr⟩ := hr
  obtain ⟨w₁, hm, rfl⟩ := runs_op.mp h1
  have hg := grows_of_moves hm
  have h : Claimed { w₁ with reports := w₁.reports ++ [{ status := .running }] } := by
    refine ⟨hg.started, ?_, ?_, hg.seen, ?_⟩
    · intro x hx
      simpa using hg.calm rfl x hx
    · intro c hmem
      change c ∈ w₁.setup at hmem
      rw [hg.setup] at hmem
      cases hmem
    · rw [hg.reports]
      rfl
  by_cases himage : pod.image = ""
  · rw [if_neg (by simp [himage])] at hr
    obtain ⟨o, t, hd⟩ := runSubprocessPod_runs h hr
    exact hd.resolved fun hcon => hcon.image himage
  · rw [if_pos himage] at hr
    refine (runContainerPod_runs himage h hr).lift fun v hv => ?_
    exact runs_bind.mpr ⟨(), _, h1, by rw [if_pos himage]; exact hv⟩

/-- **What is reported**: `RUNNING`, and one outcome that the process model allows for this pod. -/
theorem runPod_outcome (hr : Runs Exec (runPod pod) {} () w') :
    ∃ o : Outcome, w'.reports = [{ status := .running }, o.report] ∧ Allowed pod o w'.happened := by
  obtain ⟨o, t, hd, -⟩ := runPod_runs hr
  exact ⟨o, hd.reports, hd.allowed_later⟩

theorem Contested.not_timely (h : Contested pod w) : ¬ w.Timely pod := by
  intro ht
  have hclear := ht.seen w.happened h.seen
  rw [clear, if_pos h.image, h.both] at hclear
  cases hclear

theorem Decided.statuses (h : Decided pod o [o.report] t w) :
    w.reports.map PodStatusRequest.status = [.running, o.report.status] := by
  rw [h.reports]
  rfl

theorem Decided.timely (h : Decided pod o sent t w) : w.Timely pod ↔ t.Timely pod :=
  timely_congr h.since.setup h.since.seen

/-- An execution with the timing of one that is not timely and with a status that the order of events does not
ask for. -/
theorem exists_wrong (hr : Runs Exec (runPod pod) {} () w) (hnot : ¬ w.Timely pod) :
    ∃ v final, Runs Exec (runPod pod) {} () v ∧ w.SameTiming v ∧
      v.reports.map PodStatusRequest.status = [.running, final] ∧ some final ≠ v.expected := by
  obtain ⟨o, t, hd, hfree⟩ := runPod_runs hr
  by_cases hcon : Contested pod t
  · -- the select could have taken the other case
    obtain ⟨o', v, hv, hd', hst⟩ := hfree hcon (decide (t.expected ≠ some .cancelled))
    have htiming : w.SameTiming v :=
      ⟨(hd'.since.full hcon.both).trans (hd.since.full hcon.both).symm, hd'.since.setup.trans hd.since.setup.symm,
        hd'.since.seen.trans hd.since.seen.symm⟩
    refine ⟨v, o'.report.status, hv, htiming, hd'.statuses, ?_⟩
    rw [hd'.since.expected hd'.happened]
    intro heq
    rw [← heq, decide_eq_true_iff, ne_eq, Option.some.injEq] at hst
    by_cases hc : o'.report.status = .cancelled
    · exact hst.mp hc hc
    · exact hc (hst.mpr hc)
  · rcases hd.right with hcon' | hiff
    · exact absurd hcon' hcon
    · refine ⟨w, o.report.status, hr, ⟨rfl, rfl, rfl⟩, hd.statuses, ?_⟩
      rw [hd.since.expected hd.happened]
      exact fun heq => hnot (hd.timely.mpr (hiff.mp heq))

/-- **When the final status is right.**  Each execution that comes to its end reports `RUNNING` and one final status.
All the executions with its timing report the status that the order of events asks for, `CANCELLED` if the run context
was cancelled before the workload finished and otherwise how it finished, exactly if the timing is good: no Docker
call of the setup under a cancelled context, no result and cancelled context at once at a container's select, and no
cancellation between the end of a process and the check of `ctx.Err()`. -/
theorem runPod_reports_iff (pod : Pod) (w' : World) (hr : Runs Exec (runPod pod) {} () w') :
    (∃ final, w'.reports.map PodStatusRequest.status = [.running, final] ∧
      (final = .cancelled ∨ final = .failed ∨ final = .succeeded)) ∧
    ((∀ v, Runs Exec (runPod pod) {} () v → w'.SameTiming v →
      ∃ final, v.reports.map PodStatusRequest.status = [.running, final] ∧ some final = v.expected) ↔
        w'.Timely pod) := by
  constructor
  · obtain ⟨o, t, hd, -⟩ := runPod_runs hr
    refine ⟨o.report.status, hd.statuses, ?_⟩
    cases o with
    | shutdown output => exact .inl rfl
    | failed exitCode err output => exact .inr (.inl rfl)
    | succeeded output => exact .inr (.inr rfl)
  · constructor
    · intro hall
      by_contra hnot
      obtain ⟨v, wrong, hv, htiming, hstatuses, hwrong⟩ := exists_wrong hr hnot
      obtain ⟨final, hfinal, hexp⟩ := hall v hv htiming
      rw [hstatuses] at hfinal
      cases hfinal
      exact hwrong hexp
    · intro ht v hv htiming
      obtain ⟨o, t, hd, -⟩ := runPod_runs hv
      have htimely : t.Timely pod := hd.timely.mp ((timely_congr htiming.setup htiming.seen).mpr ht)
      refine ⟨o.report.status, hd.statuses, ?_⟩
      rw [hd.since.expected hd.happened]
      rcases hd.right with hcon | hiff
      · exact absurd htimely hcon.not_timely
      · exact hiff.mpr htimely

def containerPod : Pod := { id := "pod-1", deploymentID := "dep-1", status := .scheduled, image := "busybox" }

def processPod : Pod := { id := "pod-1", deploymentID := "dep-1", status := .scheduled, command := "true" }

/-- The context is cancelled while the image is pulled. -/
def pullCancelled : World where
  happened := [.cancel]
  setup := [true]
  reports := [{ status := .running }, { status := .failed, error := "image pull: context canceled" }]
  failedJobs := 1

theorem pullCancelled_runs : Runs Exec (runPod containerPod) {} () pullCancelled := by
  refine .call (r := ()) ⟨{}, .refl, rfl⟩ ?_
  refine .call (r := some "context canceled") ⟨_, .single (.cancel rfl), ⟨rfl, rfl⟩⟩ ?_
  refine .call (r := ()) ⟨_, .refl, rfl⟩ ?_
  refine .call (r := ()) ⟨_, .refl, rfl⟩ ?_
  exact .ret

/-- The context is cancelled before the process is started. -/
def startCancelled : World where
  happened := [.cancel]
  seen := some [.cancel]
  reports := [{ status := .running }, { status := .cancelled, error := "node agent shutting down" }]

theorem startCancelled_runs : Runs Exec (runPod processPod) {} () startCancelled := by
  refine .call (r := ()) ⟨{}, .refl, rfl⟩ ?_
  refine .call (r := some ⟨"context canceled", none⟩) ⟨_, .single (.cancel rfl), ⟨rfl, rfl⟩⟩ ?_
  refine .call (r := "") ⟨_, .refl, rfl⟩ ?_
  refine .call (r := true) ⟨_, .refl, ⟨rfl, rfl⟩⟩ ?_
  refine .call (r := ()) ⟨_, .refl, rfl⟩ ?_
  exact .ret

/-- The context is cancelled while the container runs. -/
def containerStopped : World where
  happened := [.cancel]
  started := true
  setup := [false, false, false]
  seen := some [.cancel]
  reports := [{ status := .running }, { status := .cancelled, error := "node agent shutting down", output := "1\n" }]

theorem containerStopped_runs : Runs Exec (runPod containerPod) {} () containerStopped := by
  refine .call (r := ()) ⟨{}, .refl, rfl⟩ ?_
  refine .call (r := none) ⟨_, .refl, .inl ⟨rfl, rfl⟩⟩ ?_
  refine .call (r := ()) ⟨_, .refl, rfl⟩ ?_
  refine .call (r := none) ⟨_, .refl, .inl ⟨rfl, rfl⟩⟩ ?_
  refine .call (r := none) ⟨_, .refl, .inl ⟨rfl, rfl⟩⟩ ?_
  refine .call (r := Selected.done) ⟨_, .single (.cancel rfl), ⟨by exact rfl, rfl⟩⟩ ?_
  refine .call (r := ()) ⟨_, .refl, rfl⟩ ?_
  refine .call (r := "1\n") ⟨_, .refl, rfl⟩ ?_
  refine .call (r := ()) ⟨_, .refl, rfl⟩ ?_
  refine .call (r := ()) ⟨_, .refl, rfl⟩ ?_
  exact .ret

theorem runPod_reports_iff_stopped : Runs Exec (runPod containerPod) {} () containerStopped ∧
    ∃ final, containerStopped.reports.map PodStatusRequest.status = [.running, final] ∧
      some final = containerStopped.expected :=
  ⟨containerStopped_runs, (runPod_reports_iff containerPod containerStopped containerStopped_runs).2.mpr
    ⟨by decide, by decide +kernel⟩ containerStopped containerStopped_runs ⟨rfl, rfl, rfl⟩⟩

/-- A container whose context is cancelled during the pull is reported `FAILED`, where a process is `CANCELLED`. -/
theorem pull_cancelled_reported_failed :
    (Runs Exec (runPod containerPod) {} () pullCancelled ∧ pullCancelled.happened = [.cancel] ∧
      pullCancelled.expected = some .cancelled ∧
      pullCancelled.reports.map PodStatusRequest.status = [.running, .failed]) ∧
    Runs Exec (runPod processPod) {} () startCancelled ∧ startCancelled.happened = [.cancel] ∧
      startCancelled.reports.map PodStatusRequest.status = [.running, .cancelled] :=
  ⟨⟨pullCancelled_runs, rfl, rfl, rfl⟩, startCancelled_runs, rfl, rfl⟩

end ControlPlane.Worker.Execution
