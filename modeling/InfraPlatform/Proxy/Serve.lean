import InfraPlatform.Proxy.Model

/-!
# One response per request

`ServeHTTP` run to its end against any balancer and any upstreams (`Env`), with nothing else in flight.  The
world it runs in has the counters and a log of what this request asked, tried and wrote.

* `History`: what one pass of the retry loop may ask, try and answer; `run_attemptLoop` shows that the program
  follows it and what it does to the counters.
* `one_response`: what a request does, for every retry budget but the largest `int`, where `maxRetries + 1`
  overflows and no attempt is made.
-/

namespace Proxy

open Lib

/-! ## The world of a request -/

structure Response where
  code : Nat
  /-- `none` is the upstream's own body -/
  text : Option String
deriving DecidableEq, Repr

/-- Counters by backend and by name, the state `env` of what is outside the handler, and the log of the request. -/
structure World (E : Type) where
  env : E
  conns : Nat → Int := fun _ => 0
  requests : Nat → Int := fun _ => 0
  errors : Nat → Int := fun _ => 0
  requestsTotal : Int := 0
  retriesTotal : Int := 0
  backendRequests : String → Int := fun _ => 0
  backendErrors : String → Int := fun _ => 0
  backendActive : String → Int := fun _ => 0
  asked : List (Option Backend) := []
  tried : List (Backend × Outcome) := []
  written : List Response := []

/-- A balancer and upstreams: what they answer, and how they go on. -/
structure Env (E : Type) where
  next : World E → Option Backend × E
  clientDo : Backend → World E → Outcome × E

/-- `f` with `d` added at `a`. -/
def bump {α : Type} [DecidableEq α] (f : α → Int) (a : α) (d : Int) : α → Int := Function.update f a (f a + d)

variable {E : Type}

def exec (env : Env E) : (c : Call) → World E → Resp c × World E
  | .next, w => ((env.next w).1, { w with env := (env.next w).2, asked := w.asked ++ [(env.next w).1] })
  | .clientDo b, w =>
    ((env.clientDo b w).1, { w with env := (env.clientDo b w).2, tried := w.tried ++ [(b, (env.clientDo b w).1)] })
  | .writeHeader code, w => ((), { w with written := w.written ++ [⟨code, none⟩] })
  | .error text code, w => ((), { w with written := w.written ++ [⟨code, some text⟩] })
  | .incConnections b, w => ((), { w with conns := bump w.conns b.key 1 })
  | .decConnections b, w => ((), { w with conns := bump w.conns b.key (-1) })
  | .activeConnections b, w => (w.conns b.key, w)
  | .incRequests b, w => ((), { w with requests := bump w.requests b.key 1 })
  | .incErrors b, w => ((), { w with errors := bump w.errors b.key 1 })
  | .observeRequest, w => ((), { w with requestsTotal := w.requestsTotal + 1 })
  | .incRetries, w => ((), { w with retriesTotal := w.retriesTotal + 1 })
  | .incBackendRequests name, w => ((), { w with backendRequests := bump w.backendRequests name 1 })
  | .incBackendErrors name, w => ((), { w with backendErrors := bump w.backendErrors name 1 })
  | .setBackendActiveConnections name n, w => ((), { w with backendActive := Function.update w.backendActive name n })

/-- The world after a request, which starts with an empty log. -/
def serve (env : Env E) (maxRetries : Int64) (method : String) (w : World E) : World E :=
  (Prog.run (exec env) (serveHTTP maxRetries method) { w with asked := [], tried := [], written := [] }).2

/-! ## One attempt -/

/-- The status that a failed attempt is answered with. -/
def Outcome.failed : Outcome → Option Nat
  | .response _ => none
  | .timeout => some 504
  | .failure => some 502

/-- The world that `client.Do` runs in. -/
def World.dialing (w : World E) (b : Backend) : World E :=
  { w with
    conns := bump w.conns b.key 1
    requests := bump w.requests b.key 1
    backendRequests := bump w.backendRequests b.name 1
    backendActive := Function.update w.backendActive b.name (w.conns b.key + 1) }

def Outcome.responses : Outcome → List Response
  | .response status => [⟨status.code, none⟩]
  | .timeout | .failure => []

def Outcome.errorCount (o : Outcome) : Int := if o.failed.isSome then 1 else 0

/-- The world after an attempt: the connection is given back. -/
def World.attempted (w : World E) (b : Backend) (o : Outcome) (env : E) : World E :=
  { w with
    env
    requests := bump w.requests b.key 1
    errors := bump w.errors b.key o.errorCount
    backendRequests := bump w.backendRequests b.name 1
    backendErrors := bump w.backendErrors b.name o.errorCount
    backendActive := Function.update w.backendActive b.name (w.conns b.key)
    tried := w.tried ++ [(b, o)]
    written := w.written ++ o.responses }

theorem bump_zero {α : Type} [DecidableEq α] (f : α → Int) (a : α) : bump f a 0 = f := by
  simp [bump]

theorem bump_bump {α : Type} [DecidableEq α] (f : α → Int) (a : α) (d e : Int) :
    bump (bump f a d) a e = bump f a (d + e) := by
  simp [bump, add_assoc]

@[simp] theorem bump_self {α : Type} [DecidableEq α] (f : α → Int) (a : α) (d : Int) : bump f a d a = f a + d := by
  simp [bump]

theorem run_proxyOnce (env : Env E) (b : Backend) (w : World E) :
    Prog.run (exec env) (proxyOnce b) w =
      ((env.clientDo b (w.dialing b)).1.failed,
        w.attempted b (env.clientDo b (w.dialing b)).1 (env.clientDo b (w.dialing b)).2) := by
  rcases h : env.clientDo b (w.dialing b) with ⟨o, e⟩
  unfold World.dialing at h
  cases o <;>
    simp [proxyOnce, Backend.incConnections, Backend.incRequests, Backend.activeConnections, Backend.incErrors,
      Backend.decConnections, Metrics.incBackendRequests, Metrics.incBackendErrors,
      Metrics.setBackendActiveConnections, clientDo, writeHeader, exec, h, World.attempted, Outcome.failed,
      Outcome.responses, Outcome.errorCount, bump_bump, bump_zero]

/-! ## The log and the counters -/

/-- A part of a request's log, with the retries that it counts. -/
structure Log where
  asked : List (Option Backend) := []
  tried : List (Backend × Outcome) := []
  written : List Response := []
  retries : Nat := 0

instance : Append Log where
  append a b := ⟨a.asked ++ b.asked, a.tried ++ b.tried, a.written ++ b.written, a.retries + b.retries⟩

@[simp] theorem Log.asked_append (a b : Log) : (a ++ b).asked = a.asked ++ b.asked := rfl
@[simp] theorem Log.tried_append (a b : Log) : (a ++ b).tried = a.tried ++ b.tried := rfl
@[simp] theorem Log.written_append (a b : Log) : (a ++ b).written = a.written ++ b.written := rfl
@[simp] theorem Log.retries_append (a b : Log) : (a ++ b).retries = a.retries + b.retries := rfl

/-- From `w` to `w'` the log grew by `l`, and the counters by what it says. -/
structure World.Follows (w w' : World E) (l : Log) : Prop where
  asked : w'.asked = w.asked ++ l.asked
  tried : w'.tried = w.tried ++ l.tried
  written : w'.written = w.written ++ l.written
  conns : w'.conns = w.conns
  requests : ∀ k, w'.requests k = w.requests k + l.tried.countP fun t => t.1.key = k
  errors : ∀ k, w'.errors k = w.errors k + l.tried.countP fun t => t.1.key = k ∧ t.2.failed.isSome
  backendRequests : ∀ name, w'.backendRequests name = w.backendRequests name + l.tried.countP fun t => t.1.name = name
  backendErrors : ∀ name, w'.backendErrors name =
    w.backendErrors name + l.tried.countP fun t => t.1.name = name ∧ t.2.failed.isSome
  retriesTotal : w'.retriesTotal = w.retriesTotal + l.retries

namespace World.Follows

variable {w w₁ w₂ : World E} {a b : Log}

theorem trans (h : w.Follows w₁ a) (h' : w₁.Follows w₂ b) : w.Follows w₂ (a ++ b) where
  asked := by rw [h'.asked, h.asked, List.append_assoc]; rfl
  tried := by rw [h'.tried, h.tried, List.append_assoc]; rfl
  written := by rw [h'.written, h.written, List.append_assoc]; rfl
  conns := h'.conns.trans h.conns
  requests k := by rw [h'.requests, h.requests]; simp [add_assoc]
  errors k := by rw [h'.errors, h.errors]; simp [add_assoc]
  backendRequests k := by rw [h'.backendRequests, h.backendRequests]; simp [add_assoc]
  backendErrors k := by rw [h'.backendErrors, h.backendErrors]; simp [add_assoc]
  retriesTotal := by rw [h'.retriesTotal, h.retriesTotal]; simp [add_assoc]

end World.Follows

theorem bump_eq {α : Type} [DecidableEq α] (f : α → Int) (a : α) (d : Int) (k : α) :
    bump f a d k = f k + if a = k then d else 0 := by
  unfold bump
  by_cases h : k = a
  · subst h
    simp
  · rw [Function.update_of_ne h, if_neg (Ne.symm h), add_zero]

/-- An attempt counts as a request, and as an error if it failed. -/
theorem World.follows_attempted (w : World E) (b : Backend) (o : Outcome) (e : E) :
    w.Follows (w.attempted b o e) { tried := [(b, o)], written := o.responses } where
  asked := (List.append_nil _).symm
  tried := rfl
  written := rfl
  conns := rfl
  requests k := by
    simp only [World.attempted, bump_eq, List.countP_singleton]
    by_cases h : b.key = k <;> simp [h]
  errors k := by
    simp only [World.attempted, bump_eq, List.countP_singleton, Outcome.errorCount]
    by_cases h : b.key = k <;> cases o <;> simp [h, Outcome.failed]
  backendRequests k := by
    simp only [World.attempted, bump_eq, List.countP_singleton]
    by_cases h : b.name = k <;> simp [h]
  backendErrors k := by
    simp only [World.attempted, bump_eq, List.countP_singleton, Outcome.errorCount]
    by_cases h : b.name = k <;> cases o <;> simp [h, Outcome.failed]
  retriesTotal := (add_zero _).symm

theorem World.follows_asked (w : World E) (r : Option Backend) (e : E) :
    w.Follows { w with env := e, asked := w.asked ++ [r] } { asked := [r] } := by
  constructor <;> simp

theorem World.follows_written (w : World E) (r : Response) :
    w.Follows { w with written := w.written ++ [r] } { written := [r] } := by
  constructor <;> simp

theorem World.follows_retry (w : World E) :
    w.Follows { w with retriesTotal := w.retriesTotal + 1 } { retries := 1 } := by
  constructor <;> simp

/-! ## The retry loop -/

/-- The answer when the attempts are used up. -/
def gaveUp (lastStatus : Nat) : Response :=
  if lastStatus ≠ 0 then ⟨lastStatus, some (statusText lastStatus)⟩ else ⟨502, some "502 Bad Gateway"⟩

/-- What the loop does with `n` iterations left. -/
inductive History (canRetry : Bool) : Nat → Nat → Log → Prop where
  | spent (last : Nat) : History canRetry 0 last { written := [gaveUp last] }
  | unavailable (n last : Nat) :
      History canRetry (n + 1) last { asked := [none], written := [⟨503, some "503 Service Unavailable"⟩] }
  | relayed (n last : Nat) (b : Backend) (status : Status) :
      History canRetry (n + 1) last
        { asked := [some b], tried := [(b, .response status)], written := [⟨status.code, none⟩] }
  | stopped (n last : Nat) (b : Backend) (o : Outcome) (status : Nat) :
      o.failed = some status → canRetry = false ∨ n = 0 →
      History canRetry (n + 1) last { asked := [some b], tried := [(b, o)], written := [gaveUp status] }
  | retried (n last : Nat) (b : Backend) (o : Outcome) (status : Nat) (l : Log) :
      o.failed = some status → canRetry = true → n ≠ 0 → History canRetry n status l →
      History canRetry (n + 1) last ({ asked := [some b], tried := [(b, o)], retries := 1 } ++ l)

theorem run_giveUp (env : Env E) (last : Nat) (w : World E) :
    Prog.run (exec env) (giveUp last) w = ((), { w with written := w.written ++ [gaveUp last] }) := by
  unfold giveUp gaveUp
  split <;> rfl

theorem Outcome.responses_of_failed {o : Outcome} {status : Nat} (h : o.failed = some status) : o.responses = [] := by
  cases o with
  | response => cases h
  | timeout | failure => rfl

/-- The world after `Next`. -/
def World.asking (env : Env E) (w : World E) : World E :=
  { w with env := (env.next w).2, asked := w.asked ++ [(env.next w).1] }

/-- The outcome of an attempt and the world after it. -/
def World.outcome (env : Env E) (w : World E) (b : Backend) : Outcome := (env.clientDo b (w.dialing b)).1

def World.trying (env : Env E) (w : World E) (b : Backend) : World E :=
  w.attempted b (w.outcome env b) (env.clientDo b (w.dialing b)).2

/-- One round of the loop. -/
theorem run_round (env : Env E) (canRetry : Bool) (n last : Nat) (w : World E) :
    Prog.run (exec env) (attemptLoop canRetry (n + 1) last) w =
      match (env.next w).1 with
      | none => Prog.run (exec env) (httpError "503 Service Unavailable" 503) (w.asking env)
      | some b =>
        match ((w.asking env).outcome env b).failed with
        | none => ((), (w.asking env).trying env b)
        | some status =>
          if !canRetry || n == 0 then Prog.run (exec env) (giveUp status) ((w.asking env).trying env b)
          else Prog.run (exec env) (Metrics.incRetries >>= fun _ => attemptLoop canRetry n status)
            ((w.asking env).trying env b) := by
  rw [attemptLoop, Prog.run_bind, balancerNext, Prog.run_op]
  change Prog.run (exec env) _ (w.asking env) = _
  cases hnext : (env.next w).1 with
  | none =>
    simp only [exec, hnext]
  | some b =>
    simp only [exec, hnext]
    rw [Prog.run_bind, run_proxyOnce]
    change Prog.run (exec env) _ ((w.asking env).trying env b) = _
    cases hfail : ((w.asking env).outcome env b).failed with
    | none =>
      rw [World.outcome] at hfail
      simp only [hfail]
      rfl
    | some status =>
      rw [World.outcome] at hfail
      simp only [hfail]
      split <;> rfl

/-- **The loop follows the history**, and the counters follow its log. -/
theorem run_attemptLoop (env : Env E) (canRetry : Bool) (n last : Nat) (w : World E) :
    ∃ l, History canRetry n last l ∧ w.Follows (Prog.run (exec env) (attemptLoop canRetry n last) w).2 l := by
  induction n generalizing last w with
  | zero =>
    refine ⟨_, .spent last, ?_⟩
    rw [attemptLoop, run_giveUp]
    exact w.follows_written _
  | succ n ih =>
    have hask : w.Follows (w.asking env) { asked := [(env.next w).1] } := w.follows_asked _ _
    rw [run_round]
    cases hnext : (env.next w).1 with
    | none =>
      rw [hnext] at hask
      exact ⟨_, .unavailable n last, hask.trans (World.follows_written _ _)⟩
    | some b =>
      rw [hnext] at hask
      have htry : w.Follows ((w.asking env).trying env b) _ := hask.trans (World.follows_attempted _ b _ _)
      simp only
      generalize (w.asking env).trying env b = w' at htry
      generalize (w.asking env).outcome env b = o at htry
      cases hfail : o.failed with
      | none =>
        cases o with
        | timeout | failure => cases hfail
        | response status => exact ⟨_, .relayed n last b status, htry⟩
      | some status =>
        rw [Outcome.responses_of_failed hfail] at htry
        simp only
        by_cases hstop : (!canRetry || n == 0) = true
        · rw [if_pos hstop, run_giveUp]
          exact ⟨_, .stopped n last b o status hfail (by simpa using hstop), htry.trans (w'.follows_written _)⟩
        · rw [if_neg hstop, Prog.run_bind]
          have hretry := htry.trans w'.follows_retry
          obtain ⟨l, hist, hfollow⟩ := ih status { w' with retriesTotal := w'.retriesTotal + 1 }
          simp only [Bool.or_eq_true, Bool.not_eq_true', beq_iff_eq, not_or, Bool.not_eq_false] at hstop
          exact ⟨_, .retried n last b o status l hfail hstop.1 hstop.2 hist, hretry.trans hfollow⟩

namespace History

variable {canRetry : Bool} {n last : Nat} {l : Log}

theorem written_one (h : History canRetry n last l) : ∃ r, l.written = [r] := by
  induction h with
  | retried n last b o status l _ _ _ _ ih =>
    obtain ⟨r, hr⟩ := ih
    exact ⟨r, by simp [hr]⟩
  | _ => exact ⟨_, rfl⟩

theorem asked_le (h : History canRetry n last l) : l.asked.length ≤ n := by
  induction h with
  | spent => exact le_rfl
  | retried n last b o status l _ _ _ _ ih =>
    rw [Log.asked_append, List.length_append, List.length_singleton]
    omega
  | _ => simp

theorem asked_once (h : History false (n + 1) last l) : l.asked.length = 1 := by
  cases h with
  | retried _ _ b o status l _ hcan => cases hcan
  | _ => rfl

theorem asked_pos (h : History canRetry (n + 1) last l) : 0 < l.asked.length := by
  cases h <;> simp

theorem retries_eq (h : History canRetry n last l) : l.retries = l.asked.length - 1 := by
  induction h with
  | retried n last b o status l _ _ hn h ih =>
    obtain ⟨m, rfl⟩ := Nat.exists_eq_succ_of_ne_zero hn
    have hpos := h.asked_pos
    rw [Log.retries_append, Log.asked_append, List.length_append, List.length_singleton, ih]
    change 1 + (l.asked.length - 1) = 1 + l.asked.length - 1
    omega
  | _ => rfl

theorem tried_asked (h : History canRetry n last l) : l.tried.map Prod.fst = l.asked.filterMap id := by
  induction h with
  | retried n last b o status l _ _ _ _ ih =>
    rw [Log.tried_append, Log.asked_append, List.map_append, List.filterMap_append, ih]
    rfl
  | _ => rfl

/-- After a response there is no further attempt. -/
theorem stops (h : History canRetry n last l) : ∀ t ∈ l.tried.dropLast, t.2.failed ≠ none := by
  induction h with
  | retried n last b o status l hfail _ _ _ ih =>
    intro t ht
    cases hl : l.tried with
    | nil => simp [hl] at ht
    | cons t' ts =>
      rw [Log.tried_append, hl, List.singleton_append, List.dropLast_cons_cons, List.mem_cons] at ht
      rcases ht with rfl | ht
      · simp [hfail]
      · rw [hl] at ih
        exact ih t ht
  | _ => simp

theorem relays (h : History canRetry n last l) {b : Backend} {status : Status}
    (hlast : l.tried.getLast? = some (b, .response status)) :
    l.written = [⟨status.code, none⟩] ∧ l.asked.length = l.tried.length := by
  induction h with
  | spent | unavailable => simp at hlast
  | relayed n last b' status' =>
    simp at hlast
    simp [hlast.2]
  | stopped n last b' o s hfail =>
    simp at hlast
    rw [hlast.2] at hfail
    cases hfail
  | retried n last b' o s l hfail _ _ _ ih =>
    cases hl : l.tried with
    | nil =>
      simp [hl] at hlast
      rw [hlast.2] at hfail
      cases hfail
    | cons t ts =>
      rw [Log.tried_append, List.getLast?_append_of_ne_nil _ (by simp [hl])] at hlast
      obtain ⟨hw, hlen⟩ := ih hlast
      simp [hw, hlen]

/-- The code when no attempt got a response. -/
theorem gives_up (h : History canRetry n last l) (hn : n ≠ 0) (hfail : ∀ t ∈ l.tried, t.2.failed ≠ none) :
    ∃ text, l.written = [⟨if none ∈ l.asked then 503
      else if l.tried.getLast?.map Prod.snd = some .timeout then 504 else 502, some text⟩] := by
  induction h with
  | spent => exact absurd rfl hn
  | unavailable => exact ⟨_, rfl⟩
  | relayed n last b status => exact absurd rfl (hfail (b, .response status) (by simp))
  | stopped n last b o s hs =>
    cases o with
    | response => cases hs
    | timeout =>
      cases hs
      exact ⟨"Gateway Timeout", by simp [gaveUp, statusText]⟩
    | failure =>
      cases hs
      exact ⟨"Bad Gateway", by simp [gaveUp, statusText]⟩
  | retried n last b o s l _ _ hm h ih =>
    obtain ⟨text, htext⟩ := ih hm fun t ht => hfail t (by simp [ht])
    refine ⟨text, ?_⟩
    rw [Log.written_append, htext]
    by_cases hnone : none ∈ l.asked
    · simp [hnone]
    · -- some attempt followed, so the last one is the last of the rest
      have hne : l.tried ≠ [] := by
        intro hnil
        have hask := h.tried_asked
        rw [hnil] at hask
        obtain ⟨m, rfl⟩ := Nat.exists_eq_succ_of_ne_zero hm
        obtain ⟨r, hr⟩ := List.exists_mem_of_length_pos h.asked_pos
        cases r with
        | none => exact hnone hr
        | some b' =>
          have hmem : b' ∈ l.asked.filterMap id := List.mem_filterMap.mpr ⟨some b', hr, rfl⟩
          rw [← hask] at hmem
          simp at hmem
      rw [Log.tried_append, List.getLast?_append_of_ne_nil _ hne]
      simp [hnone]

end History

/-! ## The request -/

/-- What a request does that started in `w` and ended in `w'`. -/
structure OneResponse (maxRetries : Int64) (method : String) (w w' : World E) : Prop where
  one : ∃ r, w'.written = [r]
  asks : (w'.asked.length : Int) ≤ maxRetries.toInt + 1
  once : idempotentMethods method = false → w'.asked.length = 1
  /-- the attempts go to the backends that the balancer gave -/
  tried : w'.tried.map Prod.fst = w'.asked.filterMap id
  stops : ∀ t ∈ w'.tried.dropLast, t.2.failed ≠ none
  relays : ∀ b status, w'.tried.getLast? = some (b, .response status) →
    w'.written = [⟨status.code, none⟩] ∧ w'.asked.length = w'.tried.length
  gives_up : (∀ t ∈ w'.tried, t.2.failed ≠ none) →
    ∃ text, w'.written = [⟨if none ∈ w'.asked then 503
      else if w'.tried.getLast?.map Prod.snd = some .timeout then 504 else 502, some text⟩]
  retries : w'.retriesTotal = w.retriesTotal + (w'.asked.length - 1)
  requests : ∀ k, w'.requests k = w.requests k + w'.tried.countP fun t => t.1.key = k
  errors : ∀ k, w'.errors k = w.errors k + w'.tried.countP fun t => t.1.key = k ∧ t.2.failed.isSome
  backendRequests : ∀ name, w'.backendRequests name = w.backendRequests name + w'.tried.countP fun t => t.1.name = name
  backendErrors : ∀ name, w'.backendErrors name =
    w.backendErrors name + w'.tried.countP fun t => t.1.name = name ∧ t.2.failed.isSome
  conns : w'.conns = w.conns

theorem run_serveHTTP (env : Env E) (maxRetries : Int64) (method : String) (w : World E) :
    ∃ l, History (idempotentMethods method) (maxRetries + 1).toInt.toNat 0 l ∧
      World.Follows { w with asked := [], tried := [], written := [] } (serve env maxRetries method w) l := by
  obtain ⟨l, hist, hfollow⟩ := run_attemptLoop env (idempotentMethods method) (maxRetries + 1).toInt.toNat 0
    { w with asked := [], tried := [], written := [] }
  refine ⟨l, hist, ?_⟩
  unfold serve serveHTTP
  rw [Prog.run_bind]
  -- the observation that comes last touches nothing the log is about
  generalize (Prog.run (exec env) (attemptLoop _ _ _) _).2 = w₁ at hfollow ⊢
  exact ⟨hfollow.asked, hfollow.tried, hfollow.written, hfollow.conns, hfollow.requests, hfollow.errors,
    hfollow.backendRequests, hfollow.backendErrors, hfollow.retriesTotal⟩

/-- `maxRetries + 1` in `int`. -/
theorem attempts_eq {maxRetries : Int64} (h0 : 0 ≤ maxRetries) (hmax : maxRetries ≠ Int64.maxValue) :
    ∃ n, (maxRetries + 1).toInt.toNat = n + 1 ∧ (n : Int) = maxRetries.toInt := by
  have hlo : 0 ≤ maxRetries.toInt := Int64.le_iff_toInt_le.mp h0
  have hlt : maxRetries.toInt < 2 ^ 63 := maxRetries.toInt_lt
  have hne : maxRetries.toInt ≠ 2 ^ 63 - 1 := fun h => hmax (Int64.toInt_inj.mp h)
  have hadd : (maxRetries + 1).toInt = maxRetries.toInt + 1 := by
    rw [Int64.toInt_add, Int64.toInt_one, Int.bmod_eq_of_le (by omega) (by omega)]
  exact ⟨maxRetries.toInt.toNat, by omega, by omega⟩

/-- **One response per request.** -/
theorem one_response (env : Env E) {maxRetries : Int64} (h0 : 0 ≤ maxRetries) (method : String) (w : World E) :
    OneResponse maxRetries method w (serve env maxRetries method w) ↔ maxRetries ≠ Int64.maxValue := by
  obtain ⟨l, hist, hfollow⟩ := run_serveHTTP env maxRetries method w
  have hasked : (serve env maxRetries method w).asked = l.asked := hfollow.asked
  have htried : (serve env maxRetries method w).tried = l.tried := hfollow.tried
  have hwritten : (serve env maxRetries method w).written = l.written := hfollow.written
  constructor
  · rintro h rfl
    -- the sum overflows, so the balancer is not asked and the retries would have to fall
    have hlen : l.asked.length = 0 := Nat.le_zero.mp hist.asked_le
    have hretries := h.retries
    rw [hfollow.retriesTotal, hist.retries_eq, hasked, hlen] at hretries
    simp at hretries
  · intro hmax
    obtain ⟨n, hn, hn'⟩ := attempts_eq h0 hmax
    rw [hn] at hist
    constructor
    · rw [hwritten]; exact hist.written_one
    · rw [hasked, ← hn']
      have := hist.asked_le
      omega
    · intro hmethod
      rw [hmethod] at hist
      rw [hasked]
      exact hist.asked_once
    · rw [htried, hasked]; exact hist.tried_asked
    · rw [htried]; exact hist.stops
    · intro b status hlast
      rw [htried] at hlast ⊢
      rw [hwritten, hasked]
      exact hist.relays hlast
    · intro hfail
      rw [htried] at hfail ⊢
      rw [hwritten, hasked]
      exact hist.gives_up (by omega) hfail
    · rw [hasked, hfollow.retriesTotal, hist.retries_eq]
      have := hist.asked_pos
      push_cast [this]
      omega
    · rw [htried]; exact hfollow.requests
    · rw [htried]; exact hfollow.errors
    · rw [htried]; exact hfollow.backendRequests
    · rw [htried]; exact hfollow.backendErrors
    · exact hfollow.conns

/-- One backend, which times out at first and then answers 200. -/
def slowStart : Env Nat where
  next w := (some (Backend.new 0 "b1" 1), w.env)
  clientDo _ w := (if w.env = 0 then .timeout else .response ⟨200, by decide⟩, w.env + 1)

/-- Before its first request. -/
def idle : World Nat := { env := 0 }

theorem one_response_retried :
    OneResponse 2 "GET" idle (serve slowStart 2 "GET" idle) ∧
    (serve slowStart 2 "GET" idle).written = [⟨200, none⟩] ∧ (serve slowStart 2 "GET" idle).retriesTotal = 1 :=
  ⟨(one_response slowStart (by decide) "GET" idle).mpr (by decide), by decide +kernel, by decide +kernel⟩

/-- With the largest `int` as the budget the loop is not entered. -/
theorem no_attempt_on_overflow :
    (serve slowStart Int64.maxValue "POST" idle).asked = [] ∧
    (serve slowStart Int64.maxValue "POST" idle).written = [⟨502, some "502 Bad Gateway"⟩] ∧
    ¬ OneResponse Int64.maxValue "POST" idle (serve slowStart Int64.maxValue "POST" idle) := by
  have hasked : (serve slowStart Int64.maxValue "POST" idle).asked = [] := by decide +kernel
  refine ⟨hasked, by decide +kernel, fun h => ?_⟩
  have honce := h.once (by decide)
  rw [hasked] at honce
  cases honce

end Proxy
