import InfraPlatform.Lib.Interleave
import InfraPlatform.Proxy.Balance
import InfraPlatform.Proxy.Serve

/-!
# Connections of requests in flight

Any number of requests over one pool, interleaved call by call.  `proxyOnce` counts a connection with the backend
and then publishes the count: it reads `ActiveConnections` and stores the reading in the registry, in two steps.

* `forwarding`: the backend that a request is being forwarded to, read off its history; `conns_eq_zero_iff`: a
  backend counts no connection exactly when no request is being forwarded to it.
* `Published`: the reading that was stored last.  At rest the registry has what that reading was, so a reading
  that was taken while another request was in flight, and stored late, stays.
-/

namespace Proxy

open Lib

/-! ## Requests over one pool -/

/-- What a call may do: `Next` answers with any backend of the pool or none, and an upstream answers as it likes. -/
def Shared (pool : Pool) : Effect Call Resp (World Unit) := fun c w r w' =>
  ∃ env : Env Unit, (∀ w b, (env.next w).1 = some b → b ∈ pool.backends) ∧ exec env c w = (r, w')

/-- Requests in flight, and the counters they share. -/
abbrev Traffic (ι : Type) := Lib.Config ι Call Resp Unit (World Unit)

abbrev TrafficStep (ι : Type) := Step (Traffic ι) (ι × (Σ c : Call, Resp c))

/-- A handler before the first of its requests, request `i` having the method `method i`. -/
def Traffic.start {ι : Type} (maxRetries : Int64) (method : ι → String) : Traffic ι :=
  Lib.Config.start { env := () } fun i => serveHTTP maxRetries (method i)

/-- No request is in flight: each has not begun, or has returned. -/
def Traffic.AtRest {ι : Type} (cfg : Traffic ι) : Prop := ∀ i, cfg.hist i = [] ∨ (cfg.threads i).finished

variable {pool : Pool}

/-- Every strategy picks from the pool. -/
theorem Strategy.next_shared (strategy : Strategy) (pool : Pool) (alive : Nat → Bool) (counter : UInt64)
    (w : World Unit) :
    Shared pool .next w (strategy.next (pool.healthy alive) w.conns counter).1
      { w with asked := w.asked ++ [(strategy.next (pool.healthy alive) w.conns counter).1] } := by
  refine ⟨⟨fun _ => ((strategy.next (pool.healthy alive) w.conns counter).1, ()), fun _ _ => (.failure, ())⟩,
    fun _ b hb => ?_, rfl⟩
  cases hh : pool.healthy alive with
  | nil =>
    rw [hh] at hb
    cases hb
  | cons b₀ rest =>
    obtain ⟨c, hc, hnext⟩ := strategy.next_mem b₀ rest w.conns counter
    rw [hh, hnext] at hb
    obtain rfl := Option.some.inj hb
    rw [← hh] at hc
    exact (List.mem_filter.mp hc).1

/-! ## What a request does -/

/-- `Next` stays in the pool. -/
def InPool (pool : Pool) : (c : Call) → Resp c → Prop
  | .next, picked => ∀ b, picked = some b → b ∈ pool.backends
  | _, _ => True

theorem Shared.inPool {c : Call} {w w' : World Unit} {r : Resp c} (h : Shared pool c w r w') : InPool pool c r := by
  obtain ⟨env, henv, he⟩ := h
  obtain rfl : (exec env c w).1 = r := congrArg Prod.fst he
  cases c with
  | next => exact henv w
  | _ => trivial

/-- Whom a request is being forwarded to, `now` being the answer before the call. -/
def Call.forwarding (now : Option Backend) : Call → Option Backend
  | .incConnections b => some b
  | .decConnections _ => none
  | _ => now

def forwarding (h : Hist Call Resp) : Option Backend := h.foldl (fun now x => x.1.forwarding now) none

theorem forwarding_snoc (h : Hist Call Resp) (x : Σ c : Call, Resp c) :
    forwarding (h ++ [x]) = x.1.forwarding (forwarding h) := by
  unfold forwarding
  rw [List.foldl_append]
  rfl

/-- A request counts one connection at a time, gives back the one that it counted, and stores the reading that
it has just taken. -/
def Careful (pool : Pool) (h : Hist Call Resp) : Call → Prop
  | .incConnections b => forwarding h = none ∧ b ∈ pool.backends
  | .decConnections b => forwarding h = some b
  | .setBackendActiveConnections name n =>
    ∃ b ∈ pool.backends, b.name = name ∧ ∃ h', h = h' ++ [⟨.activeConnections b, n⟩]
  | _ => True

section Requests

variable {α : Type} {h : Hist Call Resp} {b : Backend}

theorem sat_call {c : Call} {Q : Hist Call Resp → Resp c → Prop} (hd : Careful pool h c)
    (hq : ∀ h' r, InPool pool c r → forwarding h' = c.forwarding (forwarding h) → Q h' r) :
    Prog.Sat (InPool pool) (Careful pool) Q h (Prog.op c) :=
  Prog.sat_op hd fun r hr => hq _ r hr (forwarding_snoc h ⟨c, r⟩)

/-- The same for the calls that leave the connections alone. -/
theorem sat_quiet {c : Call} {Q : Hist Call Resp → Resp c → Prop} (hc : ∀ now, c.forwarding now = now)
    (hd : Careful pool h c) (hq : ∀ h' r, InPool pool c r → forwarding h' = forwarding h → Q h' r) :
    Prog.Sat (InPool pool) (Careful pool) Q h (Prog.op c) :=
  sat_call hd fun h' r hr hnow => hq h' r hr (hnow.trans (hc _))

theorem sat_setBackendActiveConnections {Q : Hist Call Resp → Unit → Prop} (hb : b ∈ pool.backends)
    (hq : ∀ h', forwarding h' = forwarding h → Q h' ()) :
    Prog.Sat (InPool pool) (Careful pool) Q h (Metrics.setBackendActiveConnections b) := by
  refine Prog.sat_bind (Prog.sat_op trivial fun n _ => ?_)
  have hread : forwarding (h ++ [⟨.activeConnections b, n⟩]) = forwarding h := forwarding_snoc h _
  exact sat_quiet (fun _ => rfl) ⟨b, hb, rfl, h, rfl⟩ fun h' _ _ hsame => hq h' (hsame.trans hread)

/-- A forward gives back the connection that it counted. -/
theorem sat_proxyOnce (hb : b ∈ pool.backends) (hfree : forwarding h = none) :
    Prog.Sat (InPool pool) (Careful pool) (fun h' _ => forwarding h' = none) h (proxyOnce b) := by
  unfold proxyOnce
  refine Prog.sat_bind (sat_call ⟨hfree, hb⟩ fun h₁ _ _ h1 => ?_)
  refine Prog.sat_bind (sat_quiet (fun _ => rfl) trivial fun h₂ _ _ h2 => ?_)
  refine Prog.sat_bind (sat_quiet (fun _ => rfl) trivial fun h₃ _ _ h3 => ?_)
  refine Prog.sat_bind (sat_setBackendActiveConnections hb fun h₄ h4 => ?_)
  refine Prog.sat_bind (sat_quiet (fun _ => rfl) trivial fun h₅ o _ h5 => ?_)
  have hon : forwarding h₅ = some b := by rw [h5, h4, h3, h2, h1]; rfl
  -- the deferred function, whatever came before it
  have hdeferred (h' : Hist Call Resp) (failed : Option Nat) (hsame : forwarding h' = forwarding h₅) :
      Prog.Sat (InPool pool) (Careful pool) (fun h' _ => forwarding h' = none) h'
        (do b.decConnections; Metrics.setBackendActiveConnections b; pure failed) := by
    refine Prog.sat_bind (sat_call (hsame.trans hon) fun h₆ _ _ h6 => ?_)
    exact Prog.sat_bind (sat_setBackendActiveConnections hb fun h₇ h7 => Prog.sat_pure (h7.trans h6))
  cases o with
  | response status =>
    exact Prog.sat_bind (sat_quiet (fun _ => rfl) trivial fun h₆ _ _ h6 => hdeferred h₆ none h6)
  | timeout =>
    refine Prog.sat_bind (sat_quiet (fun _ => rfl) trivial fun h₆ _ _ h6 => ?_)
    exact Prog.sat_bind (sat_quiet (fun _ => rfl) trivial fun h₇ _ _ h7 => hdeferred h₇ (some 504) (h7.trans h6))
  | failure =>
    refine Prog.sat_bind (sat_quiet (fun _ => rfl) trivial fun h₆ _ _ h6 => ?_)
    exact Prog.sat_bind (sat_quiet (fun _ => rfl) trivial fun h₇ _ _ h7 => hdeferred h₇ (some 502) (h7.trans h6))

theorem sat_giveUp (lastStatus : Nat) (hfree : forwarding h = none) :
    Prog.Sat (InPool pool) (Careful pool) (fun h' _ => forwarding h' = none) h (giveUp lastStatus) := by
  unfold giveUp
  split <;> exact sat_quiet (fun _ => rfl) trivial fun _ _ _ hsame => hsame.trans hfree

theorem sat_attemptLoop (canRetry : Bool) (left lastStatus : Nat) (hfree : forwarding h = none) :
    Prog.Sat (InPool pool) (Careful pool) (fun h' _ => forwarding h' = none) h
      (attemptLoop canRetry left lastStatus) := by
  induction left generalizing h lastStatus with
  | zero => exact sat_giveUp lastStatus hfree
  | succ left ih =>
    refine Prog.sat_bind (sat_quiet (fun _ => rfl) trivial fun h₁ picked hpicked h1 => ?_)
    rw [hfree] at h1
    cases picked with
    | none => exact sat_quiet (fun _ => rfl) trivial fun _ _ _ hsame => hsame.trans h1
    | some b =>
      refine Prog.sat_bind ((sat_proxyOnce (hpicked b rfl) h1).mono (fun _ _ hd => hd) fun h₂ failed h2 => ?_)
      cases failed with
      | none => exact Prog.sat_pure h2
      | some status =>
        change Prog.Sat _ _ _ _ (if _ then _ else _)
        split
        · exact sat_giveUp status h2
        · exact Prog.sat_bind (sat_quiet (fun _ => rfl) trivial fun h₃ _ _ h3 => ih status (h3.trans h2))

theorem sat_serveHTTP (maxRetries : Int64) (method : String) :
    Prog.Sat (InPool pool) (Careful pool) (fun h' _ => forwarding h' = none) [] (serveHTTP maxRetries method) := by
  refine Prog.sat_bind ((sat_attemptLoop _ _ 0 rfl).mono (fun _ _ hd => hd) fun h₁ _ h1 => ?_)
  exact sat_quiet (fun _ => rfl) trivial fun _ _ _ hsame => hsame.trans h1

end Requests

/-! ## Connections -/

/-- What a call adds to the connections of the backend with key `k`. -/
def Call.connects (k : Nat) : Call → Int
  | .incConnections b => if b.key = k then 1 else 0
  | .decConnections b => if b.key = k then -1 else 0
  | _ => 0

theorem Shared.conns {c : Call} {w w' : World Unit} {r : Resp c} (h : Shared pool c w r w') (k : Nat) :
    w'.conns k = w.conns k + c.connects k := by
  obtain ⟨env, -, he⟩ := h
  obtain rfl : (exec env c w).2 = w' := congrArg Prod.snd he
  cases c with
  | incConnections b => exact bump_eq w.conns b.key 1 k
  | decConnections b => exact bump_eq w.conns b.key (-1) k
  | _ => exact (add_zero _).symm

/-- The connection that a request forwarding to `now` has with the backend of key `k`. -/
def connection (k : Nat) (now : Option Backend) : Int := if now.any fun b => b.key = k then 1 else 0

theorem Careful.connects {h : Hist Call Resp} {c : Call} (hd : Careful pool h c) (k : Nat) :
    connection k (forwarding h) + c.connects k = connection k (c.forwarding (forwarding h)) := by
  cases c with
  | incConnections b =>
    rw [hd.1]
    simp [connection, Call.connects, Call.forwarding]
  | decConnections b =>
    have hb : forwarding h = some b := hd
    rw [hb]
    by_cases hk : b.key = k <;> simp [connection, Call.connects, Call.forwarding, hk]
  | _ => exact add_zero _

variable {ι : Type} [DecidableEq ι] {maxRetries : Int64} {method : ι → String} {tr : List (TrafficStep ι)}
  {cfg : Traffic ι}

/-- A request has in its history the connection that it is using, and that one is with a backend of the pool. -/
theorem history_connects (h : Run (Lib.Config.Next (Shared pool)) (Traffic.start maxRetries method) tr cfg) (i : ι) :
    (∀ k, ((cfg.hist i).map fun x => x.1.connects k).sum = connection k (forwarding (cfg.hist i))) ∧
      ∀ b, forwarding (cfg.hist i) = some b → b ∈ pool.backends := by
  refine Run.histories (D := Careful pool) (A := InPool pool)
    (fun h => (∀ k, (h.map fun x => x.1.connects k).sum = connection k (forwarding h)) ∧
      ∀ b, forwarding h = some b → b ∈ pool.backends) ⟨fun _ => rfl, by simp [forwarding]⟩ ?_
    (fun _ _ _ _ hE => hE.inPool) (fun i => sat_serveHTTP maxRetries (method i)) h i
  rintro h c r ⟨hsum, hpool⟩ hd -
  rw [forwarding_snoc]
  refine ⟨fun k => ?_, fun b hb => ?_⟩
  · rw [List.map_append, List.sum_append, hsum, List.map_singleton, List.sum_singleton]
    exact hd.connects k
  · cases c with
    | incConnections b' =>
      obtain rfl : b' = b := Option.some.inj hb
      exact hd.2
    | decConnections b' => cases hb
    | _ => exact hpool b hb

/-- **A backend counts the requests that are being forwarded to it**, so it counts none exactly if there is none. -/
theorem conns_eq_zero_iff (h : Run (Lib.Config.Next (Shared pool)) (Traffic.start maxRetries method) tr cfg)
    {b : Backend} (hb : b ∈ pool.backends) :
    cfg.state.conns b.key = 0 ↔ ∀ i, forwarding (cfg.hist i) ≠ some b := by
  obtain ⟨T, hout, hsum⟩ := Run.total (fun w => w.conns b.key) (fun x => x.1.connects b.key)
    (fun _ _ _ _ hE => hE.conns b.key) h
  have hnone (i : ι) : connection b.key (forwarding (cfg.hist i)) = 0 ↔ forwarding (cfg.hist i) ≠ some b := by
    have hpool := (history_connects h i).2
    cases hf : forwarding (cfg.hist i) with
    | none => simp [connection]
    | some b' =>
      have hkey : b'.key = b.key ↔ b' = b :=
        ⟨List.inj_on_of_nodup_map pool.nodup (hpool b' hf) hb, congrArg Backend.key⟩
      simp [connection, hkey]
  have hconns : cfg.state.conns b.key = ∑ i ∈ T, connection b.key (forwarding (cfg.hist i)) := by
    rw [hsum, Finset.sum_congr rfl fun i _ => (history_connects h i).1 b.key]
    exact zero_add _
  have hpos : ∀ i ∈ T, 0 ≤ connection b.key (forwarding (cfg.hist i)) := fun i _ => by
    unfold connection
    split <;> decide
  rw [hconns, Finset.sum_eq_zero_iff_of_nonneg hpos]
  refine ⟨fun hT i => ?_, fun hall i _ => (hnone i).mpr (hall i)⟩
  by_cases hi : i ∈ T
  · exact (hnone i).mp (hT i hi)
  · rw [hout i hi]
    simp [forwarding]

/-- A request that has not begun, or has returned, is not being forwarded. -/
theorem Traffic.AtRest.forwarding (hrest : cfg.AtRest)
    (h : Run (Lib.Config.Next (Shared pool)) (Traffic.start maxRetries method) tr cfg) (i : ι) :
    forwarding (cfg.hist i) = none := by
  have hsat := (Run.interleave (fun _ => True) (fun _ => True) (fun _ _ _ _ _ _ _ _ _ _ hE _ => ⟨hE.inPool, trivial⟩)
    (fun i => sat_serveHTTP maxRetries (method i)) trivial h fun _ _ => trivial).2 i
  rcases hrest i with hnil | ⟨a, ha⟩
  · rw [hnil]
    rfl
  · rw [ha] at hsat
    exact hsat

/-! ## The gauge -/

/-- The step stores a value in the registry under `name`. -/
def Stores (name : String) (x : TrafficStep ι) : Prop := ∃ n, x.label.2.1 = .setBackendActiveConnections name n

omit [DecidableEq ι] in
theorem Shared.gauge {x : TrafficStep ι} {name : String}
    (h : Shared pool x.label.2.1 x.src.state x.label.2.2 x.dst.state) (hx : ¬ Stores name x) :
    x.dst.state.backendActive name = x.src.state.backendActive name := by
  obtain ⟨src, ⟨i, c, r⟩, dst⟩ := x
  obtain ⟨env, -, he⟩ := h
  have hdst : (exec env c src.state).2 = dst.state := congrArg Prod.snd he
  change dst.state.backendActive name = src.state.backendActive name
  rw [← hdst]
  cases c with
  | setBackendActiveConnections name' n =>
    refine Function.update_of_ne ?_ _ _
    rintro rfl
    exact hx ⟨n, rfl⟩
  | _ => rfl

/-- The reading of `b`'s connections that was stored last: the request that took it stored it with its next step,
and nobody stored another one after that. -/
def Published (b : Backend) (tr : List (TrafficStep ι)) (read : TrafficStep ι) : Prop :=
  ∃ tr₁ tr₂ store tr₃, tr = tr₁ ++ read :: (tr₂ ++ store :: tr₃) ∧
    read.label.2.1 = .activeConnections b ∧ Stores b.name store ∧ store.label.1 = read.label.1 ∧
    (∀ y ∈ tr₂, y.label.1 ≠ read.label.1) ∧ ∀ y ∈ tr₃, ¬ Stores b.name y

/-- The registry has what the reading was, which was what the backend counted then. -/
theorem Published.value {b : Backend} {read : TrafficStep ι} (hp : Published b tr read)
    (h : Run (Lib.Config.Next (Shared pool)) (Traffic.start maxRetries method) tr cfg) :
    cfg.state.backendActive b.name = read.src.state.conns b.key ∧
      ∃ tr₁, Run (Lib.Config.Next (Shared pool)) (Traffic.start maxRetries method) tr₁ read.src := by
  obtain ⟨tr₁, tr₂, store, tr₃, rfl, hread, ⟨n, hn⟩, hsame, hquiet, hlast⟩ := hp
  have hcareful := Run.disciplined (fun _ _ _ _ hE => hE.inPool) (fun i => sat_serveHTTP maxRetries (method i)) h store
    (by simp)
  rw [← List.cons_append, ← List.append_assoc] at h
  obtain ⟨hbefore, hstore, hafter⟩ := h.split
  obtain ⟨hrun, hreads, hbetween⟩ := hbefore.split
  obtain ⟨src, ⟨i, c, m⟩, dst⟩ := read
  obtain ⟨src', ⟨j, c', u⟩, dst'⟩ := store
  obtain rfl : c = .activeConnections b := hread
  obtain rfl : c' = .setBackendActiveConnections b.name n := hn
  obtain rfl : j = i := hsame
  -- the reading is the last thing in the history of the request that stores it
  have hhist : src'.hist j = src.hist j ++ [⟨.activeConnections b, m⟩] :=
    (hbetween.unwritten (fun cfg => cfg.hist j) (fun x => x.label.1 = j) (fun x hx hne => hx.hist_ne hne) hquiet).trans
      hreads.hist_self
  obtain ⟨b', -, -, h', hh'⟩ : Careful pool (src'.hist j) (.setBackendActiveConnections b.name n) := hcareful
  rw [hhist] at hh'
  obtain ⟨-, he⟩ := List.append_singleton_inj.mp hh'
  cases he
  obtain ⟨env, -, hm⟩ := hreads.effect
  obtain ⟨env', -, hset⟩ := hstore.effect
  have hstored : dst'.state.backendActive b.name = n := by
    have hdst : (exec env' (.setBackendActiveConnections b.name n) src'.state).2 = dst'.state := congrArg Prod.snd hset
    rw [← hdst]
    exact Function.update_self ..
  have hkept : cfg.state.backendActive b.name = dst'.state.backendActive b.name :=
    hafter.unwritten (fun cfg => cfg.state.backendActive b.name) (Stores b.name) (fun x hx => hx.effect.gauge) hlast
  exact ⟨(hkept.trans hstored).trans (congrArg Prod.fst hm).symm, tr₁, hrun⟩

/-- Nothing was ever stored for the backend, or a reading of its connections was. -/
theorem unstored_or_published (hnames : (pool.backends.map Backend.name).Nodup)
    (h : Run (Lib.Config.Next (Shared pool)) (Traffic.start maxRetries method) tr cfg) {b : Backend}
    (hb : b ∈ pool.backends) : cfg.state.backendActive b.name = 0 ∨ ∃ read, Published b tr read := by
  rcases h.last_write (fun cfg => cfg.state.backendActive b.name) (Stores b.name) (fun x hx => hx.effect.gauge) with
    ⟨-, hget⟩ | ⟨tr₁, store, tr₂, rfl, ⟨n, hn⟩, hlast, -⟩
  · exact .inl hget
  · have hcareful := Run.disciplined (fun _ _ _ _ hE => hE.inPool) (fun i => sat_serveHTTP maxRetries (method i)) h
      store (by simp)
    rw [hn] at hcareful
    obtain ⟨b', hb', hname, h', hh'⟩ := hcareful
    obtain rfl : b' = b := List.inj_on_of_nodup_map hnames hb' hb hname
    obtain ⟨tr₃, read, tr₄, rfl, hread, hquiet⟩ := h.split.1.last_call hh'
    refine .inr ⟨read, tr₃, tr₄, store, tr₂, by simp, by rw [hread], ⟨n, hn⟩, by rw [hread], ?_, hlast⟩
    rw [hread]
    exact hquiet

/-- **At rest no backend counts a connection**, whatever the interleaving was.  The registry's value is right if
and only if the reading that was stored last was taken with no request being forwarded to the backend. -/
theorem gauge_at_rest_iff (pool : Pool) (hnames : (pool.backends.map Backend.name).Nodup) (maxRetries : Int64)
    (method : ι → String) (tr : List (TrafficStep ι)) (cfg : Traffic ι)
    (h : Run (Lib.Config.Next (Shared pool)) (Traffic.start maxRetries method) tr cfg) (hrest : cfg.AtRest) :
    (∀ b ∈ pool.backends, cfg.state.conns b.key = 0) ∧
      ∀ b ∈ pool.backends, (cfg.state.backendActive b.name = 0 ↔
        ∀ read, Published b tr read → ∀ i, forwarding (read.src.hist i) ≠ some b) := by
  refine ⟨fun b hb => ?_, fun b hb => ⟨fun hzero read hp => ?_, fun hall => ?_⟩⟩
  · refine (conns_eq_zero_iff h hb).mpr fun i => ?_
    rw [hrest.forwarding h i]
    simp
  · obtain ⟨hvalue, tr₁, hrun⟩ := hp.value h
    exact (conns_eq_zero_iff hrun hb).mp (hvalue.symm.trans hzero)
  · rcases unstored_or_published hnames h hb with hzero | ⟨read, hp⟩
    · exact hzero
    · obtain ⟨hvalue, tr₁, hrun⟩ := hp.value h
      exact hvalue.trans ((conns_eq_zero_iff hrun hb).mpr (hall read hp))

/-- One backend, which answers every request. -/
def lone : Pool := ⟨[Backend.new 0 "b1" 1], by simp⟩

def answering : Env Unit where
  next _ := (some (Backend.new 0 "b1" 1), ())
  clientDo _ _ := (.response ⟨206, by decide⟩, ())

theorem answering_shared (c : Call) (w : World Unit) : Shared lone c w (exec answering c w).1 (exec answering c w).2 :=
  ⟨answering, fun _ b hb => by simpa [lone, answering, eq_comm] using hb, rfl⟩

/-- Two requests with the method `GET`, and no retries. -/
def twoGets : Traffic Bool := Traffic.start 0 fun _ => "GET"

/-- Both are answered before either gives its connection back; each stores what it has read at once. -/
def atOnce : List Bool :=
  List.replicate 8 true ++ List.replicate 8 false ++ List.replicate 4 true ++ List.replicate 4 false

theorem gauge_at_rest_iff_overlapping :
    (twoGets.applyAll (exec answering) atOnce).state.backendActive "b1" = 0 ∧
      ∀ read, Published (Backend.new 0 "b1" 1) (twoGets.trace (exec answering) atOnce) read →
        ∀ i, forwarding (read.src.hist i) ≠ some (Backend.new 0 "b1" 1) := by
  have hzero : (twoGets.applyAll (exec answering) atOnce).state.backendActive "b1" = 0 := by decide +kernel
  have hrun := Lib.Config.run_trace (exec answering) answering_shared (.nil (s := twoGets)) atOnce
  have hrest : Traffic.AtRest (twoGets.applyAll (exec answering) atOnce) := fun i =>
    .inr (by cases i <;> decide +kernel)
  have hall := (gauge_at_rest_iff lone (by simp [lone]) 0 (fun _ => "GET") _ _ hrun hrest).2
    (Backend.new 0 "b1" 1) (by simp [lone])
  exact ⟨hzero, hall.mp hzero⟩

/-- Both are answered; the first gives its connection back and reads 1, the second gives its own back, reads 0 and
stores it, and then the first stores what it has read. -/
def lateStore : List Bool :=
  List.replicate 8 true ++ List.replicate 8 false ++ [true, true, false, false, false, true, true, false]

/-- A reading that is stored late stays. -/
theorem gauge_stale_at_rest : ∃ (tr : List (TrafficStep Bool)) (cfg : Traffic Bool),
    Run (Lib.Config.Next (Shared lone)) (Traffic.start 0 fun _ => "GET") tr cfg ∧ cfg.AtRest ∧
      cfg.state.conns 0 = 0 ∧ cfg.state.backendActive "b1" = 1 := by
  refine ⟨_, twoGets.applyAll (exec answering) lateStore,
    Lib.Config.run_trace (exec answering) answering_shared (.nil (s := twoGets)) lateStore, fun i => .inr ?_, ?_, ?_⟩
  · cases i <;> decide +kernel
  · decide +kernel
  · decide +kernel

end Proxy
