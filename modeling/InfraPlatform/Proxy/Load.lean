import InfraPlatform.Proxy.Discovery
import InfraPlatform.Proxy.Serve

/-!
# Configuration files

`internal/config`: what `Load` makes of a parsed file.  `applyDefaults` replaces what is zero or empty, `Validate`
looks at the backends, the control plane's URL and the strategy, and the rest goes to its consumers as it is.

* `load_ok_iff`: what is accepted, in terms of the file.
* `Runnable`: what the consumers rely on; `runnable_iff`: an accepted file provides it if and only if no duration
  and not the number of retries is negative, and no two backends share a name.
* `panics_iff`, `serve_of_negative`: what an accepted file with a negative interval or number of retries does.

A `Duration` is in nanoseconds.  `UnmarshalYAML` hands on every duration that `time.ParseDuration` reads, with its sign.
-/

namespace Proxy.Load

/-! ## The file -/

abbrev Duration := Int64

def millisecond : Duration := 1000000
def second : Duration := 1000 * millisecond

structure ServerConfig where
  listenAddr : String := ""
  readTimeout : Duration := 0
  writeTimeout : Duration := 0
  shutdownTimeout : Duration := 0
deriving DecidableEq

structure LoadBalancerConfig where
  strategy : String := ""
  maxRetries : Int64 := 0
  backendTimeout : Duration := 0
deriving DecidableEq

structure HealthCheckConfig where
  enabled : Bool := false
  path : String := ""
  interval : Duration := 0
  timeout : Duration := 0
  unhealthyThreshold : Int64 := 0
  healthyThreshold : Int64 := 0
deriving DecidableEq

structure DiscoveryConfig where
  enabled : Bool := false
  controlPlaneURL : String := ""
  refreshInterval : Duration := 0
deriving DecidableEq

structure LoggingConfig where
  level : String := ""
  format : String := ""
deriving DecidableEq

structure MetricsConfig where
  enabled : Bool := false
  path : String := ""
deriving DecidableEq

structure Config where
  server : ServerConfig := {}
  loadBalancer : LoadBalancerConfig := {}
  healthCheck : HealthCheckConfig := {}
  backends : List BackendSpec := []
  discovery : DiscoveryConfig := {}
  logging : LoggingConfig := {}
  metrics : MetricsConfig := {}
deriving DecidableEq

/-! ## `Load` -/

/-- `if value == zero { value = default }` -/
def filled {α : Type} [DecidableEq α] (zero value default : α) : α := if value = zero then default else value

def applyDefaults (cfg : Config) : Config where
  server :=
    { listenAddr := filled "" cfg.server.listenAddr ":8080"
      readTimeout := filled 0 cfg.server.readTimeout (5 * second)
      writeTimeout := filled 0 cfg.server.writeTimeout (10 * second)
      shutdownTimeout := filled 0 cfg.server.shutdownTimeout (5 * second) }
  loadBalancer :=
    { cfg.loadBalancer with
      strategy := filled "" cfg.loadBalancer.strategy "round_robin"
      backendTimeout := filled 0 cfg.loadBalancer.backendTimeout (2 * second) }
  healthCheck :=
    { cfg.healthCheck with
      path := filled "" cfg.healthCheck.path "/health"
      interval := filled 0 cfg.healthCheck.interval (2 * second)
      timeout := filled 0 cfg.healthCheck.timeout (500 * millisecond)
      unhealthyThreshold := filled 0 cfg.healthCheck.unhealthyThreshold 2
      healthyThreshold := filled 0 cfg.healthCheck.healthyThreshold 2 }
  backends := cfg.backends.map fun b => { b with weight := filled 0 b.weight 1 }
  discovery := { cfg.discovery with refreshInterval := filled 0 cfg.discovery.refreshInterval (5 * second) }
  logging :=
    { level := filled "" cfg.logging.level "info"
      format := filled "" cfg.logging.format "json" }
  metrics := { cfg.metrics with path := filled "" cfg.metrics.path "/metrics" }

namespace Config

/-- The part that sets up the pool and the checker, and that `Validate` looks at. -/
def fleet (cfg : Config) : Proxy.Config where
  strategy := cfg.loadBalancer.strategy
  healthCheckEnabled := cfg.healthCheck.enabled
  healthCheck := ⟨cfg.healthCheck.unhealthyThreshold.toInt, cfg.healthCheck.healthyThreshold.toInt⟩
  backends := cfg.backends
  discovery := ⟨cfg.discovery.enabled, cfg.discovery.controlPlaneURL⟩

def validate (cfg : Config) : Except ConfigErr Unit := cfg.fleet.validate

end Config

/-- `Load`, after the file is parsed. -/
def load (cfg : Config) : Except ConfigErr Config := do
  let cfg := applyDefaults cfg
  cfg.validate
  pure cfg

theorem filled_filled {α : Type} [DecidableEq α] {zero default : α} (h : default ≠ zero) (value : α) :
    filled zero (filled zero value default) default = filled zero value default := by
  unfold filled
  by_cases hv : value = zero <;> simp [hv, h]

/-- Only an exact zero is replaced, so the sign stays. -/
theorem filled_pos {default : Duration} (h : 0 < default) (value : Duration) :
    0 < filled 0 value default ↔ 0 ≤ value := by
  unfold filled
  by_cases hv : value = 0
  · simp [hv, h]
  · rw [if_neg hv]
    exact ⟨Int64.le_of_lt, fun hle => Int64.lt_of_le_of_ne hle (Ne.symm hv)⟩

/-- No default is a value that a default replaces. -/
theorem applyDefaults_idem (cfg : Config) : applyDefaults (applyDefaults cfg) = applyDefaults cfg := by
  simp (disch := decide +kernel) only [applyDefaults, filled_filled, List.map_map, Function.comp_def]

theorem load_eq_ok_iff (cfg loaded : Config) :
    load cfg = .ok loaded ↔ loaded = applyDefaults cfg ∧ (applyDefaults cfg).validate = .ok () := by
  unfold load
  cases h : (applyDefaults cfg).validate with
  | error err => simp [h, Bind.bind, Except.bind]
  | ok u => simp [h, Bind.bind, Except.bind, Pure.pure, Except.pure, eq_comm]

/-- **What is accepted**: nothing is asked of a duration, a number of retries, a threshold or a weight. -/
theorem load_ok_iff (cfg : Config) : (∃ loaded, load cfg = .ok loaded) ↔
    (cfg.discovery.enabled = false → cfg.backends ≠ []) ∧
    (cfg.discovery.enabled = true → cfg.discovery.controlPlaneURL ≠ "") ∧
    (∀ b ∈ cfg.backends, b.name ≠ "" ∧ b.url ≠ "") ∧
    (cfg.loadBalancer.strategy = "" ∨ cfg.loadBalancer.strategy ∈ strategyNames) := by
  have hstrategy : filled "" cfg.loadBalancer.strategy "round_robin" ∈ strategyNames ↔
      cfg.loadBalancer.strategy = "" ∨ cfg.loadBalancer.strategy ∈ strategyNames := by
    unfold filled
    by_cases hs : cfg.loadBalancer.strategy = "" <;> simp [hs, strategyNames]
  rw [← hstrategy]
  simp only [load_eq_ok_iff, exists_eq_left, Config.validate, Proxy.Config.validate_ok_iff, Config.fleet, applyDefaults,
    List.map_eq_nil_iff, List.forall_mem_map, ne_eq]

/-! ## What the consumers rely on -/

namespace Config

/-- What `time.NewTicker` is called with, by the checker and by the provider. -/
def intervals (cfg : Config) : List Duration := [cfg.healthCheck.interval, cfg.discovery.refreshInterval]

def timeouts (cfg : Config) : List Duration :=
  [cfg.server.readTimeout, cfg.server.writeTimeout, cfg.server.shutdownTimeout, cfg.loadBalancer.backendTimeout,
    cfg.healthCheck.timeout]

structure Runnable (cfg : Config) : Prop where
  intervals : ∀ d ∈ cfg.intervals, 0 < d
  timeouts : ∀ d ∈ cfg.timeouts, 0 < d
  maxRetries : 0 ≤ cfg.loadBalancer.maxRetries
  /-- after `health.New` -/
  thresholds : 1 ≤ (Checker.new cfg.fleet.healthCheck).unhealthyThreshold ∧
    1 ≤ (Checker.new cfg.fleet.healthCheck).healthyThreshold
  /-- after `backend.New` -/
  weights : ∀ b ∈ cfg.backends, ∀ key, 1 ≤ (Backend.new key b.name b.weight).weight
  /-- health counts and metrics are kept by name -/
  names : (cfg.backends.map BackendSpec.name).Nodup

/-- The tickers that `main` starts. -/
def tickers (cfg : Config) : List Duration :=
  (if cfg.discovery.enabled then [cfg.discovery.refreshInterval] else []) ++
    if cfg.healthCheck.enabled then [cfg.healthCheck.interval] else []

/-- `time.NewTicker` panics on an interval that is not positive, which ends the program. -/
def panics (cfg : Config) : Bool := cfg.tickers.any fun d => d ≤ 0

theorem Runnable.not_panics {cfg : Config} (h : cfg.Runnable) : cfg.panics = false := by
  have hinterval := h.intervals
  simp only [Config.intervals, List.forall_mem_cons] at hinterval
  obtain ⟨hcheck, hrefresh, -⟩ := hinterval
  unfold panics tickers
  cases cfg.discovery.enabled <;> cases cfg.healthCheck.enabled <;>
    simp [Int64.not_le.mpr hcheck, Int64.not_le.mpr hrefresh]

end Config

theorem intervals_pos_iff (cfg : Config) :
    (∀ d ∈ (applyDefaults cfg).intervals, 0 < d) ↔ ∀ d ∈ cfg.intervals, 0 ≤ d := by
  simp (disch := decide) only [Config.intervals, applyDefaults, List.forall_mem_cons, filled_pos, List.not_mem_nil,
    false_implies, implies_true]

theorem timeouts_pos_iff (cfg : Config) :
    (∀ d ∈ (applyDefaults cfg).timeouts, 0 < d) ↔ ∀ d ∈ cfg.timeouts, 0 ≤ d := by
  simp (disch := decide) only [Config.timeouts, applyDefaults, List.forall_mem_cons, filled_pos, List.not_mem_nil,
    false_implies, implies_true]

theorem one_le_weight (b : Backend) : 1 ≤ b.weight := by
  have hpos := Int64.lt_iff_toInt_lt.mp b.weight_pos
  rw [Int64.toInt_zero] at hpos
  rw [Int64.le_iff_toInt_le, Int64.toInt_one]
  omega

/-- **Accepted files are runnable if and only if** no duration in them is negative, nor the number of retries, and no
two backends have the same name.  The thresholds and the weights are right in every case. -/
theorem runnable_iff (cfg loaded : Config) (h : load cfg = .ok loaded) :
    loaded.Runnable ↔ (∀ d ∈ cfg.intervals ++ cfg.timeouts, 0 ≤ d) ∧ 0 ≤ cfg.loadBalancer.maxRetries ∧
      (cfg.backends.map BackendSpec.name).Nodup := by
  obtain ⟨rfl, -⟩ := (load_eq_ok_iff cfg loaded).mp h
  have hnames : (applyDefaults cfg).backends.map BackendSpec.name = cfg.backends.map BackendSpec.name := by
    simp [applyDefaults]
  have hthresholds := Checker.new_thresholds (applyDefaults cfg).fleet.healthCheck
  rw [List.forall_mem_append, ← intervals_pos_iff, ← timeouts_pos_iff, ← hnames]
  constructor
  · intro hrun
    exact ⟨⟨hrun.intervals, hrun.timeouts⟩, hrun.maxRetries, hrun.names⟩
  · rintro ⟨⟨hintervals, htimeouts⟩, hretries, hnodup⟩
    exact ⟨hintervals, htimeouts, hretries, ⟨by omega, by omega⟩, fun b _ key => one_le_weight _, hnodup⟩

/-- The file of the repository. -/
def sample : Config where
  server := ⟨":8080", 5 * second, 10 * second, 5 * second⟩
  loadBalancer := ⟨"round_robin", 2, 2 * second⟩
  healthCheck := ⟨true, "/health", 2 * second, 500 * millisecond, 2, 2⟩
  backends := [⟨"backend-1", "http://localhost:9001", 1⟩, ⟨"backend-2", "http://localhost:9002", 1⟩,
    ⟨"backend-3", "http://localhost:9003", 1⟩]
  logging := ⟨"info", "json"⟩
  metrics := ⟨true, "/metrics"⟩

theorem runnable_iff_sample : load sample = .ok (applyDefaults sample) ∧ (applyDefaults sample).Runnable := by
  have hload : load sample = .ok (applyDefaults sample) := by decide +kernel
  have hdurations : ∀ d ∈ sample.intervals ++ sample.timeouts, 0 ≤ d := by
    -- spelled out, since `decide` would try every `Int64`
    simp only [Config.intervals, Config.timeouts, List.forall_mem_append, List.forall_mem_cons, List.not_mem_nil,
      false_implies, implies_true]
    decide +kernel
  exact ⟨hload, (runnable_iff sample (applyDefaults sample) hload).mpr
    ⟨hdurations, by decide +kernel, by decide +kernel⟩⟩

def negativeInterval : Config := { sample with healthCheck.interval := -2 * second }

def negativeRetries : Config := { sample with loadBalancer.maxRetries := -1 }

def sharedNames : Config := { sample with backends := sample.backends ++ sample.backends }

/-- A file with the interval `-2s`, one with `-1` retries and one that gives its names twice are accepted. -/
theorem accepted_not_runnable :
    (∃ loaded, load negativeInterval = .ok loaded ∧ ¬ loaded.Runnable ∧ loaded.panics = true) ∧
    (∃ loaded, load negativeRetries = .ok loaded ∧ ¬ loaded.Runnable) ∧
    ∃ loaded, load sharedNames = .ok loaded ∧ ¬ loaded.Runnable := by
  refine ⟨⟨applyDefaults negativeInterval, by decide +kernel, fun h => ?_, by decide +kernel⟩,
    ⟨applyDefaults negativeRetries, by decide +kernel, fun h => ?_⟩,
    ⟨applyDefaults sharedNames, by decide +kernel, fun h => ?_⟩⟩
  · exact absurd (h.intervals _ List.mem_cons_self) (by decide +kernel)
  · exact absurd h.maxRetries (by decide +kernel)
  · exact absurd h.names (by decide +kernel)

/-! ## Files that are not runnable -/

/-- An accepted file ends the program exactly if an interval that is in use is negative. -/
theorem panics_iff {cfg loaded : Config} (h : load cfg = .ok loaded) : loaded.panics = true ↔
    (cfg.discovery.enabled = true ∧ cfg.discovery.refreshInterval < 0) ∨
      (cfg.healthCheck.enabled = true ∧ cfg.healthCheck.interval < 0) := by
  obtain ⟨rfl, -⟩ := (load_eq_ok_iff cfg loaded).mp h
  have hneg {default : Duration} (hd : 0 < default) (value : Duration) :
      filled 0 value default ≤ 0 ↔ value < 0 := by
    have hpos := not_congr (filled_pos hd value)
    rw [Int64.not_lt, Int64.not_le] at hpos
    exact hpos
  have hrefresh := hneg (show 0 < 5 * second by decide) cfg.discovery.refreshInterval
  have hcheck := hneg (show 0 < 2 * second by decide) cfg.healthCheck.interval
  cases hd : cfg.discovery.enabled <;> cases hc : cfg.healthCheck.enabled <;>
    simp [Config.panics, Config.tickers, applyDefaults, hd, hc, hrefresh, hcheck]

/-- With a negative number of retries nothing is tried: the client gets 502 at once. -/
theorem serve_of_negative {E : Type} (env : Env E) {maxRetries : Int64} (h : maxRetries < 0) (method : String)
    (w : World E) : (serve env maxRetries method w).asked = [] ∧ (serve env maxRetries method w).tried = [] ∧
      (serve env maxRetries method w).written = [⟨502, some "502 Bad Gateway"⟩] := by
  have hneg : maxRetries.toInt < 0 := Int64.lt_iff_toInt_lt.mp h
  have hlo : -2 ^ 63 ≤ maxRetries.toInt := maxRetries.le_toInt
  have hattempts : (maxRetries + 1).toInt.toNat = 0 := by
    rw [Int64.toInt_add, Int64.toInt_one, Int.bmod_eq_of_le (by omega) (by omega)]
    omega
  unfold serve serveHTTP
  rw [hattempts]
  exact ⟨rfl, rfl, rfl⟩

end Proxy.Load
