import InfraPlatform.Lib.Account
import InfraPlatform.Proxy.Gauge

/-!
# The counters of requests in flight

Every attempt is counted twice, with the backend and in the registry, and every request ends in one response and
one observation; all of these are calls of their own, so that with requests in flight the counters disagree.

* `Phase`: what a request has yet to post, as far as the counters go; `leads_serveHTTP` walks the handler through
  its phases.
* The accounts: pairs of counters whose difference is what the requests in flight owe.
* `counters_agree`: at any moment an error is counted after its request, a retry after its error, an observation
  after its response; and at rest the counters agree with each other and with the responses.
-/

namespace Proxy

open Lib

/-! ## Responses -/

/-- The upstream's own. -/
def Response.relayed (r : Response) : Bool := r.text.isNone

/-- No backend was healthy. -/
def Response.refused (r : Response) : Bool := r == ⟨503, some "503 Service Unavailable"⟩

/-- The last attempt failed. -/
def Response.exhausted (r : Response) : Bool := r == gaveUp 502 || r == gaveUp 504

/-- The attempts that `b` responded to. -/
def World.responded {E : Type} (w : World E) (b : Backend) : Nat :=
  w.tried.countP fun t => t.1 = b && t.2.failed.isNone

/-! ## Phases -/

inductive Phase where
  | asking
  | picked (b : Backend)
  | requested (b : Backend)
  | forwarded (b : Backend)
  | relaying
  | broken (b : Backend)
  | erred (b : Backend)
  | failed
  | refused
  | answered
  | done
deriving DecidableEq

/-- The calls that move connections and the gauge, of which no account speaks. -/
def Call.quiet : Call → Bool
  | .incConnections _ | .decConnections _ | .activeConnections _ | .setBackendActiveConnections _ _ => true
  | _ => false

def Phase.after (g : Phase) : (Σ c : Call, Resp c) → Phase
  | ⟨.next, r⟩ => r.elim .refused .picked
  | ⟨.incRequests b, _⟩ => .requested b
  | ⟨.incBackendRequests _, _⟩ =>
    match g with
    | .requested b => .forwarded b
    | g => g
  | ⟨.clientDo b, o⟩ => if o.failed.isNone then .relaying else .broken b
  | ⟨.incErrors b, _⟩ => .erred b
  | ⟨.incBackendErrors _, _⟩ => .failed
  | ⟨.incRetries, _⟩ => .asking
  | ⟨.writeHeader _, _⟩ | ⟨.error _ _, _⟩ => .answered
  | ⟨.observeRequest, _⟩ => .done
  | _ => g

inductive Phase.Allows (pool : Pool) : Phase → Call → Prop where
  | next : Allows pool .asking .next
  | incRequests {b : Backend} (hb : b ∈ pool.backends) : Allows pool (.picked b) (.incRequests b)
  | incBackendRequests {b : Backend} (hb : b ∈ pool.backends) :
      Allows pool (.requested b) (.incBackendRequests b.name)
  | clientDo {b : Backend} (hb : b ∈ pool.backends) : Allows pool (.forwarded b) (.clientDo b)
  | writeHeader (code : Nat) : Allows pool .relaying (.writeHeader code)
  | incErrors {b : Backend} (hb : b ∈ pool.backends) : Allows pool (.broken b) (.incErrors b)
  | incBackendErrors {b : Backend} (hb : b ∈ pool.backends) : Allows pool (.erred b) (.incBackendErrors b.name)
  | incRetries : Allows pool .failed .incRetries
  | giveUp {status : Nat} (hstatus : status = 502 ∨ status = 504) :
      Allows pool .failed (.error (statusText status) status)
  | refuse : Allows pool .refused (.error "503 Service Unavailable" 503)
  | observeRequest : Allows pool .answered .observeRequest
  | quiet (g : Phase) {c : Call} (hc : c.quiet = true) : Allows pool g c

/-- What `ServeHTTP` posts, in order. -/
def posting (pool : Pool) : Protocol Call Resp where
  Phase := Phase
  first := .asking
  last := .done
  after := Phase.after
  Allows := Phase.Allows pool

theorem Phase.after_quiet (g : Phase) {c : Call} (r : Resp c) (hc : c.quiet = true) : g.after ⟨c, r⟩ = g := by
  cases c <;> first | rfl | cases hc

variable {pool : Pool}

section Requests

variable {b : Backend}

theorem leads_quiet {c : Call} {Q : Phase → Resp c → Prop} {g : Phase} (hc : c.quiet = true) (hq : ∀ r, Q g r) :
    (posting pool).Leads (InPool pool) Q g (Prog.op c) := by
  refine Protocol.leads_op (.quiet g hc) fun r _ => ?_
  change Q (Phase.after g ⟨c, r⟩) r
  rw [Phase.after_quiet g r hc]
  exact hq r

theorem leads_setBackendActiveConnections {Q : Phase → Unit → Prop} {g : Phase} (hq : Q g ()) :
    (posting pool).Leads (InPool pool) Q g (Metrics.setBackendActiveConnections b) :=
  Protocol.leads_bind (leads_quiet rfl fun _ => leads_quiet rfl fun _ => hq)

/-- An attempt ends with a response, or with its error counted. -/
def Attempted (g : Phase) : Option Nat → Prop
  | none => g = .answered
  | some status => g = .failed ∧ (status = 502 ∨ status = 504)

theorem leads_proxyOnce (hb : b ∈ pool.backends) :
    (posting pool).Leads (InPool pool) Attempted (.picked b) (proxyOnce b) := by
  unfold proxyOnce
  -- the deferred function
  have hdeferred (g : Phase) (failed : Option Nat) (hg : Attempted g failed) :
      (posting pool).Leads (InPool pool) Attempted g
        (do b.decConnections; Metrics.setBackendActiveConnections b; pure failed) :=
    Protocol.leads_bind (leads_quiet rfl fun _ => Protocol.leads_bind (leads_setBackendActiveConnections hg))
  have herr (failed : Option Nat) (hg : Attempted .failed failed) :
      (posting pool).Leads (InPool pool) Attempted (.broken b)
        (do b.incErrors; Metrics.incBackendErrors b.name; b.decConnections
            Metrics.setBackendActiveConnections b; pure failed) := by
    refine Protocol.leads_bind (Protocol.leads_op (.incErrors hb) fun _ _ => ?_)
    exact Protocol.leads_bind (Protocol.leads_op (.incBackendErrors hb) fun _ _ => hdeferred _ failed hg)
  refine Protocol.leads_bind (leads_quiet rfl fun _ => ?_)
  refine Protocol.leads_bind (Protocol.leads_op (.incRequests hb) fun _ _ => ?_)
  refine Protocol.leads_bind (Protocol.leads_op (.incBackendRequests hb) fun _ _ => ?_)
  refine Protocol.leads_bind (leads_setBackendActiveConnections ?_)
  refine Protocol.leads_bind (Protocol.leads_op (.clientDo hb) fun o _ => ?_)
  cases o with
  | response status =>
    exact Protocol.leads_bind (Protocol.leads_op (.writeHeader _) fun _ _ => hdeferred .answered none rfl)
  | timeout => exact herr (some 504) ⟨rfl, .inr rfl⟩
  | failure => exact herr (some 502) ⟨rfl, .inl rfl⟩

theorem leads_giveUp {status : Nat} (hstatus : status = 502 ∨ status = 504) :
    (posting pool).Leads (InPool pool) (fun g _ => g = .answered) .failed (giveUp status) := by
  have hne : status ≠ 0 := by omega
  unfold giveUp
  rw [if_pos hne]
  exact Protocol.leads_op (.giveUp hstatus) fun _ _ => rfl

/-- One pass of the loop, which goes on only after an error. -/
theorem leads_attempt (canRetry : Bool) (left lastStatus : Nat)
    (hretry : left ≠ 0 → ∀ status, (posting pool).Leads (InPool pool) (fun g _ => g = .answered) .asking
      (attemptLoop canRetry left status)) :
    (posting pool).Leads (InPool pool) (fun g _ => g = .answered) .asking
      (attemptLoop canRetry (left + 1) lastStatus) := by
  refine Protocol.leads_bind (Protocol.leads_op .next fun picked hpicked => ?_)
  cases picked with
  | none => exact Protocol.leads_op .refuse fun _ _ => rfl
  | some b =>
    refine Protocol.leads_bind ((leads_proxyOnce (hpicked b rfl)).mono fun g failed hg => ?_)
    cases failed with
    | none => exact hg
    | some status =>
      obtain ⟨rfl, hstatus⟩ := hg
      change Protocol.Leads _ _ _ _ (if _ then _ else _)
      split
      · exact leads_giveUp hstatus
      · next hgo =>
        have hleft : left ≠ 0 := fun h => hgo (by simp [h])
        exact Protocol.leads_bind (Protocol.leads_op .incRetries fun _ _ => hretry hleft status)

theorem leads_attemptLoop (canRetry : Bool) (left lastStatus : Nat) :
    (posting pool).Leads (InPool pool) (fun g _ => g = .answered) .asking
      (attemptLoop canRetry (left + 1) lastStatus) := by
  induction left generalizing lastStatus with
  | zero => exact leads_attempt canRetry 0 lastStatus fun h => absurd rfl h
  | succ left ih => exact leads_attempt canRetry (left + 1) lastStatus fun _ => ih

/-- With the largest `int` for a budget the handler would give up with no error counted. -/
theorem leads_serveHTTP {maxRetries : Int64} (h0 : 0 ≤ maxRetries) (hmax : maxRetries ≠ Int64.maxValue)
    (method : String) :
    (posting pool).Leads (InPool pool) (fun g _ => g = .done) .asking (serveHTTP maxRetries method) := by
  obtain ⟨n, hn, -⟩ := attempts_eq h0 hmax
  unfold serveHTTP
  rw [hn]
  refine Protocol.leads_bind ((leads_attemptLoop _ n 0).mono fun g _ hg => ?_)
  subst hg
  exact Protocol.leads_op .observeRequest fun _ _ => rfl

end Requests

/-! ## Meters -/

/-- A meter of the world, read off what a call does to it. -/
def meter (read : World Unit → Int) (entry : (Σ c : Call, Resp c) → Int)
    (h : ∀ env c w, read (exec env c w).2 = read w + entry ⟨c, (exec env c w).1⟩) : Meter (Shared pool) Int where
  read := read
  entry := entry
  posted c w r w' := by
    rintro ⟨env, -, he⟩
    obtain ⟨rfl, rfl⟩ : (exec env c w).1 = r ∧ (exec env c w).2 = w' := by rw [he]; exact ⟨rfl, rfl⟩
    exact h env c w

def requestsOf (k : Nat) : Meter (Shared pool) Int :=
  meter (fun w => w.requests k)
    (fun | ⟨.incRequests b, _⟩ => if b.key = k then 1 else 0 | _ => 0) fun env c w => by
    cases c with
    | incRequests b => exact bump_eq w.requests b.key 1 k
    | _ => exact (add_zero _).symm

def errorsOf (k : Nat) : Meter (Shared pool) Int :=
  meter (fun w => w.errors k)
    (fun | ⟨.incErrors b, _⟩ => if b.key = k then 1 else 0 | _ => 0) fun env c w => by
    cases c with
    | incErrors b => exact bump_eq w.errors b.key 1 k
    | _ => exact (add_zero _).symm

def backendRequestsOf (name : String) : Meter (Shared pool) Int :=
  meter (fun w => w.backendRequests name)
    (fun | ⟨.incBackendRequests name', _⟩ => if name' = name then 1 else 0 | _ => 0) fun env c w => by
    cases c with
    | incBackendRequests name' => exact bump_eq w.backendRequests name' 1 name
    | _ => exact (add_zero _).symm

def backendErrorsOf (name : String) : Meter (Shared pool) Int :=
  meter (fun w => w.backendErrors name)
    (fun | ⟨.incBackendErrors name', _⟩ => if name' = name then 1 else 0 | _ => 0) fun env c w => by
    cases c with
    | incBackendErrors name' => exact bump_eq w.backendErrors name' 1 name
    | _ => exact (add_zero _).symm

def respondedOf (b : Backend) : Meter (Shared pool) Int :=
  meter (fun w => w.responded b)
    (fun | ⟨.clientDo b', o⟩ => if b' = b && o.failed.isNone then 1 else 0 | _ => 0) fun env c w => by
    cases c with
    | clientDo b' =>
      simp only [World.responded, exec, List.countP_append, List.countP_singleton]
      push_cast
      rfl
    | _ => exact (add_zero _).symm

/-- The responses of one kind. -/
def writtenOf (p : Response → Bool) : Meter (Shared pool) Int :=
  meter (fun w => w.written.countP p)
    (fun | ⟨.writeHeader code, _⟩ => if p ⟨code, none⟩ then 1 else 0
         | ⟨.error text code, _⟩ => if p ⟨code, some text⟩ then 1 else 0
         | _ => 0) fun env c w => by
    cases c with
    | writeHeader code =>
      simp only [exec, List.countP_append, List.countP_singleton]
      push_cast
      rfl
    | error text code =>
      simp only [exec, List.countP_append, List.countP_singleton]
      push_cast
      rfl
    | _ => exact (add_zero _).symm

def retries : Meter (Shared pool) Int :=
  meter World.retriesTotal (fun | ⟨.incRetries, _⟩ => 1 | _ => 0) fun env c w => by
    cases c with
    | incRetries => rfl
    | _ => exact (add_zero _).symm

def observed : Meter (Shared pool) Int :=
  meter World.requestsTotal (fun | ⟨.observeRequest, _⟩ => 1 | _ => 0) fun env c w => by
    cases c with
    | observeRequest => rfl
    | _ => exact (add_zero _).symm

/-! ## Accounts -/

theorem Pool.key_inj (pool : Pool) {b b' : Backend} (hb : b ∈ pool.backends) (hb' : b' ∈ pool.backends) :
    b'.key = b.key ↔ b' = b :=
  ⟨List.inj_on_of_nodup_map pool.nodup hb' hb, congrArg Backend.key⟩

theorem Pool.name_inj (hnames : (pool.backends.map Backend.name).Nodup) {b b' : Backend} (hb : b ∈ pool.backends)
    (hb' : b' ∈ pool.backends) : b'.name = b.name ↔ b' = b :=
  ⟨List.inj_on_of_nodup_map hnames hb' hb, congrArg Backend.name⟩

/-- A sum over the pool has one backend once. -/
theorem Pool.sum_eq_one (pool : Pool) {b : Backend} (hb : b ∈ pool.backends) :
    (pool.backends.map fun b' => if b = b' then (1 : Int) else 0).sum = 1 := by
  have hcount : pool.backends.count b = 1 := List.count_eq_one_of_mem (List.Nodup.of_map _ pool.nodup) hb
  simp only [eq_comm (a := b)]
  rw [List.sum_map_ite_eq]
  simp [hcount]

theorem Pool.sum_key_eq_one (pool : Pool) {b : Backend} (hb : b ∈ pool.backends) :
    (pool.backends.map fun b' => if b.key = b'.key then (1 : Int) else 0).sum = 1 := by
  refine (congrArg List.sum (List.map_congr_left fun b' hb' => ?_)).trans (pool.sum_eq_one hb)
  simp only [pool.key_inj hb' hb]

/-- The errors of all backends. -/
def errorsOfAll (pool : Pool) : Meter (Shared pool) Int :=
  meter (fun w => (pool.backends.map fun b => w.errors b.key).sum)
    (fun | ⟨.incErrors b, _⟩ => (pool.backends.map fun b' => if b.key = b'.key then 1 else 0).sum | _ => 0)
    fun env c w => by
    cases c with
    | incErrors b => simp only [exec, bump_eq, List.sum_map_add]
    | _ => exact (add_zero _).symm

/-- The attempts that some backend responded to. -/
def respondedOfAll (pool : Pool) : Meter (Shared pool) Int :=
  meter (fun w => (pool.backends.map fun b => (w.responded b : Int)).sum)
    (fun | ⟨.clientDo b, o⟩ =>
           (pool.backends.map fun b' => if b = b' && o.failed.isNone then 1 else 0).sum
         | _ => 0) fun env c w => by
    cases c with
    | clientDo b =>
      simp only [World.responded, exec, List.countP_append, List.countP_singleton]
      push_cast
      exact List.sum_map_add
    | _ => exact (add_zero _).symm

/-- An account of which a request owes one while it is in one of the phases `owing`. -/
def account (m : Meter (Shared pool) Int) (owing : Phase → Bool) (hfirst : owing .asking = false)
    (hlast : owing .done = false)
    (hcarried : ∀ g c r, Phase.Allows pool g c →
      (if owing (g.after ⟨c, r⟩) then 1 else 0) = (if owing g then 1 else 0) + m.entry ⟨c, r⟩) :
    Account (posting pool) (Shared pool) (InPool pool) Int where
  toMeter := m
  due := fun g : Phase => if owing g then 1 else 0
  due_first := if_neg (by rw [show (posting pool).first = Phase.asking from rfl, hfirst]; decide)
  due_last := if_neg (by rw [show (posting pool).last = Phase.done from rfl, hlast]; decide)
  due_nonneg := fun g : Phase => by
    change 0 ≤ if owing g then (1 : Int) else 0
    split <;> decide
  carried g c r hallow _ := hcarried g c r hallow

section Accounts

variable (hnames : (pool.backends.map Backend.name).Nodup) {b : Backend} (hb : b ∈ pool.backends)

/-- The requests that the backend has counted, and the registry has not. -/
def uncounted : Account (posting pool) (Shared pool) (InPool pool) Int :=
  account ((requestsOf b.key).sub (backendRequestsOf b.name)) (fun | .requested b' => b' = b | _ => false) rfl rfl
    fun g c r hallow => by
    cases hallow with
    | next => cases r <;> rfl
    | incRequests hb' => simp [Phase.after, Meter.sub, requestsOf, backendRequestsOf, meter, pool.key_inj hb hb']
    | incBackendRequests hb' =>
      simp [Phase.after, Meter.sub, requestsOf, backendRequestsOf, meter, Pool.name_inj hnames hb hb']
    | clientDo hb' => cases r <;> rfl
    | quiet g hc => cases c <;> first | exact (add_zero _).symm | cases hc
    | _ => rfl

/-- The requests that have come to nothing yet. -/
def undecided : Account (posting pool) (Shared pool) (InPool pool) Int :=
  account (((backendRequestsOf b.name).sub (errorsOf b.key)).sub (respondedOf b))
    (fun | .forwarded b' | .broken b' => b' = b | _ => false) rfl rfl fun g c r hallow => by
    cases hallow with
    | next => cases r <;> rfl
    | incBackendRequests hb' =>
      simp [Phase.after, Meter.sub, errorsOf, backendRequestsOf, respondedOf, meter, Pool.name_inj hnames hb hb']
    | clientDo hb' =>
      cases r <;> simp [Phase.after, Meter.sub, errorsOf, backendRequestsOf, respondedOf, meter, Outcome.failed]
    | incErrors hb' =>
      simp [Phase.after, Meter.sub, errorsOf, backendRequestsOf, respondedOf, meter, pool.key_inj hb hb']
    | quiet g hc => cases c <;> first | exact (add_zero _).symm | cases hc
    | _ => rfl

/-- The errors that the backend has counted, and the registry has not. -/
def unreported : Account (posting pool) (Shared pool) (InPool pool) Int :=
  account ((errorsOf b.key).sub (backendErrorsOf b.name)) (fun | .erred b' => b' = b | _ => false) rfl rfl
    fun g c r hallow => by
    cases hallow with
    | next => cases r <;> rfl
    | clientDo hb' => cases r <;> rfl
    | incErrors hb' => simp [Phase.after, Meter.sub, errorsOf, backendErrorsOf, meter, pool.key_inj hb hb']
    | incBackendErrors hb' =>
      simp [Phase.after, Meter.sub, errorsOf, backendErrorsOf, meter, Pool.name_inj hnames hb hb']
    | quiet g hc => cases c <;> first | exact (add_zero _).symm | cases hc
    | _ => rfl

variable (pool)

/-- The responses of backends that are yet to be written. -/
def unwritten : Account (posting pool) (Shared pool) (InPool pool) Int :=
  account ((respondedOfAll pool).sub (writtenOf Response.relayed)) (fun | .relaying => true | _ => false) rfl rfl
    fun g c r hallow => by
    cases hallow with
    | next => cases r <;> rfl
    | clientDo hb' =>
      cases r <;> simp [Phase.after, Meter.sub, respondedOfAll, writtenOf, meter, Outcome.failed, pool.sum_eq_one hb']
    | quiet g hc => cases c <;> first | exact (add_zero _).symm | cases hc
    | _ => rfl

/-- The errors that neither another attempt nor the response has followed yet. -/
def unfollowed : Account (posting pool) (Shared pool) (InPool pool) Int :=
  account (((errorsOfAll pool).sub retries).sub (writtenOf Response.exhausted))
    (fun | .failed | .erred _ => true | _ => false) rfl rfl fun g c r hallow => by
    cases hallow with
    | next => cases r <;> rfl
    | clientDo hb' => cases r <;> rfl
    | incErrors hb' => simp [Phase.after, Meter.sub, errorsOfAll, retries, writtenOf, meter, pool.sum_key_eq_one hb']
    | writeHeader code =>
      simp [Phase.after, Meter.sub, errorsOfAll, retries, writtenOf, meter, Response.exhausted, gaveUp]
    | giveUp hstatus => rcases hstatus with rfl | rfl <;> rfl
    | quiet g hc => cases c <;> first | exact (add_zero _).symm | cases hc
    | _ => rfl

/-- The responses of requests that are yet to be observed. -/
def unobserved : Account (posting pool) (Shared pool) (InPool pool) Int :=
  account ((writtenOf fun _ => true).sub observed) (fun | .answered => true | _ => false) rfl rfl
    fun g c r hallow => by
    cases hallow with
    | next => cases r <;> rfl
    | clientDo hb' => cases r <;> rfl
    | quiet g hc => cases c <;> first | exact (add_zero _).symm | cases hc
    | _ => rfl

/-- The responses that are of no known kind. -/
def unclassified : Account (posting pool) (Shared pool) (InPool pool) Int :=
  account ((((writtenOf fun _ => true).sub (writtenOf Response.relayed)).sub (writtenOf Response.refused)).sub
    (writtenOf Response.exhausted)) (fun _ => false) rfl rfl fun g c r hallow => by
    cases hallow with
    | writeHeader code =>
      simp [Meter.sub, writtenOf, meter, Response.relayed, Response.refused, Response.exhausted, gaveUp]
    | giveUp hstatus => rcases hstatus with rfl | rfl <;> rfl
    | quiet g hc => cases c <;> first | exact (add_zero _).symm | cases hc
    | _ => rfl

end Accounts

/-! ## Over every interleaving -/

section Interleaved

variable {ι : Type} [DecidableEq ι] {maxRetries : Int64} {method : ι → String} {tr : List (TrafficStep ι)}
  {cfg : Traffic ι}

/-- An account reads no less than zero at any moment, and zero at rest. -/
theorem account_reads (a : Account (posting pool) (Shared pool) (InPool pool) Int) (hzero : a.read { env := () } = 0)
    (h0 : 0 ≤ maxRetries) (hmax : maxRetries ≠ Int64.maxValue)
    (h : Run (Lib.Config.Next (Shared pool)) (Traffic.start maxRetries method) tr cfg) :
    0 ≤ a.read cfg.state ∧ (cfg.AtRest → a.read cfg.state = 0) := by
  have hans : ∀ c w r w', Shared pool c w r w' → InPool pool c r := fun _ _ _ _ hE => hE.inPool
  have hprog (i : ι) : (posting pool).Leads (InPool pool) (fun g _ => g = .done) .asking
      (serveHTTP maxRetries (method i)) := leads_serveHTTP h0 hmax (method i)
  exact ⟨a.nonneg hans hprog hzero h, fun hrest => a.settled hans hprog hzero h hrest⟩

/-- What the backends and the registry say of one backend. -/
theorem backend_counters (hnames : (pool.backends.map Backend.name).Nodup) (h0 : 0 ≤ maxRetries)
    (hmax : maxRetries ≠ Int64.maxValue)
    (h : Run (Lib.Config.Next (Shared pool)) (Traffic.start maxRetries method) tr cfg) {b : Backend}
    (hb : b ∈ pool.backends) :
    (cfg.state.backendErrors b.name ≤ cfg.state.errors b.key ∧
      cfg.state.errors b.key + cfg.state.responded b ≤ cfg.state.backendRequests b.name ∧
      cfg.state.backendRequests b.name ≤ cfg.state.requests b.key) ∧
    (cfg.AtRest → cfg.state.backendErrors b.name = cfg.state.errors b.key ∧
      cfg.state.backendRequests b.name = cfg.state.requests b.key ∧
      cfg.state.requests b.key = cfg.state.errors b.key + cfg.state.responded b) := by
  have hcounted : 0 ≤ cfg.state.requests b.key - cfg.state.backendRequests b.name ∧
      (cfg.AtRest → cfg.state.requests b.key - cfg.state.backendRequests b.name = 0) :=
    account_reads (uncounted hnames hb) rfl h0 hmax h
  have hdecided : 0 ≤ cfg.state.backendRequests b.name - cfg.state.errors b.key - cfg.state.responded b ∧
      (cfg.AtRest → cfg.state.backendRequests b.name - cfg.state.errors b.key - cfg.state.responded b = 0) :=
    account_reads (undecided hnames hb) rfl h0 hmax h
  have hreported : 0 ≤ cfg.state.errors b.key - cfg.state.backendErrors b.name ∧
      (cfg.AtRest → cfg.state.errors b.key - cfg.state.backendErrors b.name = 0) :=
    account_reads (unreported hnames hb) rfl h0 hmax h
  refine ⟨by omega, fun hrest => ?_⟩
  have hcounted := hcounted.2 hrest
  have hdecided := hdecided.2 hrest
  have hreported := hreported.2 hrest
  omega

/-- **At any moment** an error is counted after its request and reported after it is counted, a retry comes after an
error, and a request is observed after its response.  **At rest** the registry has what the backends have, every
request of a backend was answered or failed, every response of a backend was relayed, and what the backends were
asked for beyond the requests observed are the retries, less the requests that were refused. -/
theorem counters_agree (pool : Pool) (hnames : (pool.backends.map Backend.name).Nodup) {maxRetries : Int64}
    (h0 : 0 ≤ maxRetries) (hmax : maxRetries ≠ Int64.maxValue) (method : ι → String) (tr : List (TrafficStep ι))
    (cfg : Traffic ι) (h : Run (Lib.Config.Next (Shared pool)) (Traffic.start maxRetries method) tr cfg) :
    ((∀ b ∈ pool.backends, cfg.state.backendErrors b.name ≤ cfg.state.errors b.key ∧
        cfg.state.errors b.key + cfg.state.responded b ≤ cfg.state.backendRequests b.name ∧
        cfg.state.backendRequests b.name ≤ cfg.state.requests b.key) ∧
      cfg.state.retriesTotal ≤ (pool.backends.map fun b => cfg.state.errors b.key).sum ∧
      cfg.state.requestsTotal ≤ cfg.state.written.length) ∧
    (cfg.AtRest →
      (∀ b ∈ pool.backends, cfg.state.backendErrors b.name = cfg.state.errors b.key ∧
        cfg.state.backendRequests b.name = cfg.state.requests b.key ∧
        cfg.state.requests b.key = cfg.state.errors b.key + cfg.state.responded b) ∧
      cfg.state.requestsTotal = cfg.state.written.length ∧
      (pool.backends.map fun b => (cfg.state.responded b : Int)).sum = cfg.state.written.countP Response.relayed ∧
      (pool.backends.map fun b => cfg.state.backendRequests b.name).sum + cfg.state.written.countP Response.refused =
        cfg.state.requestsTotal + cfg.state.retriesTotal) := by
  have hbackend (b : Backend) (hb : b ∈ pool.backends) := backend_counters hnames h0 hmax h hb
  have hrelayed := (account_reads (unwritten pool)
    (by simp [unwritten, account, Meter.sub, respondedOfAll, writtenOf, meter, World.responded]) h0 hmax h).2
  have hfollowed := account_reads (unfollowed pool)
    (by simp [unfollowed, account, Meter.sub, errorsOfAll, retries, writtenOf, meter]) h0 hmax h
  have hobserved := account_reads (unobserved pool) rfl h0 hmax h
  have hkinds := (account_reads (unclassified pool) rfl h0 hmax h).2
  simp only [unwritten, unfollowed, unobserved, unclassified, account, Meter.sub, respondedOfAll, errorsOfAll, retries,
    observed, writtenOf, meter, List.countP_true] at hrelayed hfollowed hobserved hkinds
  refine ⟨⟨fun b hb => (hbackend b hb).1, by omega, by omega⟩, fun hrest => ?_⟩
  have hrelayed := hrelayed hrest
  have hfollowed := hfollowed.2 hrest
  have hobserved := hobserved.2 hrest
  have hkinds := hkinds hrest
  -- a backend's requests are its errors and its responses, and so are those of the whole pool
  have hasked : (pool.backends.map fun b => cfg.state.backendRequests b.name).sum =
      (pool.backends.map fun b => cfg.state.errors b.key).sum +
        (pool.backends.map fun b => (cfg.state.responded b : Int)).sum := by
    rw [← List.sum_map_add]
    refine congrArg List.sum (List.map_congr_left fun b hb => ?_)
    obtain ⟨-, hreq, hsplit⟩ := (hbackend b hb).2 hrest
    rw [hreq, hsplit]
  exact ⟨fun b hb => (hbackend b hb).2 hrest, by omega, by omega, by omega⟩

end Interleaved

/-- One backend, which fails the first attempt and answers the others. -/
def failingOnce : Env Unit where
  next _ := (some (Backend.new 0 "b1" 1), ())
  clientDo b w := if w.tried.isEmpty then (.failure, ()) else answering.clientDo b w

theorem failingOnce_shared (c : Call) (w : World Unit) :
    Shared lone c w (exec failingOnce c w).1 (exec failingOnce c w).2 :=
  ⟨failingOnce, fun _ _ hb => List.mem_singleton.mpr (Option.some.inj hb).symm, rfl⟩

/-- Two requests with one retry each, call by call in turn. -/
def twoRetries : Traffic Bool := Traffic.start 1 fun _ => "GET"

def byTurns : List Bool := (List.replicate 26 [true, false]).flatten

theorem counters_agree_retried :
    Traffic.AtRest (twoRetries.applyAll (exec failingOnce) byTurns) ∧
      (twoRetries.applyAll (exec failingOnce) byTurns).state.retriesTotal = 1 ∧
      (twoRetries.applyAll (exec failingOnce) byTurns).state.backendRequests "b1" = 3 ∧
      (twoRetries.applyAll (exec failingOnce) byTurns).state.requestsTotal =
        (twoRetries.applyAll (exec failingOnce) byTurns).state.written.length := by
  have hrest : Traffic.AtRest (twoRetries.applyAll (exec failingOnce) byTurns) := fun i =>
    .inr (by cases i <;> decide +kernel)
  have hrun := Lib.Config.run_trace (exec failingOnce) failingOnce_shared (.nil (s := twoRetries)) byTurns
  have hagree := counters_agree lone (by simp [lone]) (by decide) (by decide) (fun _ => "GET") _ _ hrun
  exact ⟨hrest, by decide +kernel, by decide +kernel, (hagree.2 hrest).2.1⟩

end Proxy
