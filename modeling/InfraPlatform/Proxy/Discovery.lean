import InfraPlatform.Lib.Run
import InfraPlatform.Proxy.Health

/-!
# Backends that come and go

`internal/backend/config_provider.go` and the part of `internal/config` and `cmd/proxy` that sets up the pool: the
provider replaces the pool's slice while the checker probes, in rounds, what the pool held when the round began.

A `Backend` is an object of its own, made once and known by its key.  The provider keeps an object as long as
name, URL and weight stay the same, and makes a new one otherwise.  The checker counts by name, so
objects that share a name share a count: two entries of one configuration, or an object and the one
that replaces it.

* `Fleet.Inv`: the count of a name is the streak of all results recorded under it.
* `evidence_of_ownName`: if every result is recorded under a name that no other object has results
  under, an object goes down exactly after `unhealthyThreshold` failures of its own.
* `replaced_goes_down_early`: a backend that got a new URL goes down on its first failure.

`parse` stands for `url.Parse` followed by `String`, which may give another text than it was given.
-/

namespace Proxy

open Lib

/-! ## Configuration -/

/-- An entry of the YAML list, or of the control plane's answer. -/
structure BackendSpec where
  name : String
  url : String
  weight : Int64 := 0
deriving DecidableEq

structure DiscoveryConfig where
  enabled : Bool := false
  controlPlaneURL : String := ""
deriving DecidableEq

structure Config where
  strategy : String
  healthCheckEnabled : Bool := false
  healthCheck : HealthConfig
  backends : List BackendSpec := []
  discovery : DiscoveryConfig := {}
deriving DecidableEq

inductive ConfigErr where
  | noBackends
  | noControlPlaneURL
  | missingName
  | missingURL (name : String)
  | unsupportedStrategy (strategy : String)
deriving DecidableEq

/-- `quote` is the verb `%q`. -/
def ConfigErr.text (quote : String → String) : ConfigErr → String
  | .noBackends => "at least one backend must be configured (or enable discovery)"
  | .noControlPlaneURL => "discovery.control_plane_url is required when discovery.enabled is true"
  | .missingName => "backend missing name"
  | .missingURL name => "backend " ++ quote name ++ " missing url"
  | .unsupportedStrategy strategy => "unsupported load_balancer.strategy " ++ quote strategy

/-- One round of the loop of `Validate`. -/
def BackendSpec.validate (b : BackendSpec) : Option ConfigErr :=
  if b.name = "" then some .missingName else if b.url = "" then some (.missingURL b.name) else none

def strategyNames : List String := ["round_robin", "least_conn", "weighted_round_robin"]

def Config.validate (c : Config) : Except ConfigErr Unit :=
  if !c.discovery.enabled && c.backends.isEmpty then .error .noBackends
  else if c.discovery.enabled && c.discovery.controlPlaneURL == "" then .error .noControlPlaneURL
  else match c.backends.findSome? BackendSpec.validate with
    | some err => .error err
    | none => if strategyNames.contains c.strategy then .ok () else .error (.unsupportedStrategy c.strategy)

theorem BackendSpec.validate_eq_none (b : BackendSpec) : b.validate = none ↔ b.name ≠ "" ∧ b.url ≠ "" := by
  unfold BackendSpec.validate
  by_cases hname : b.name = "" <;> by_cases hurl : b.url = "" <;> simp [hname, hurl]

theorem Config.validate_ok_iff (c : Config) : c.validate = .ok () ↔
    (c.discovery.enabled = false → c.backends ≠ []) ∧
    (c.discovery.enabled = true → c.discovery.controlPlaneURL ≠ "") ∧
    (∀ b ∈ c.backends, b.name ≠ "" ∧ b.url ≠ "") ∧ c.strategy ∈ strategyNames := by
  have hbackends : c.backends.findSome? BackendSpec.validate = none ↔ ∀ b ∈ c.backends, b.name ≠ "" ∧ b.url ≠ "" := by
    simp only [List.findSome?_eq_none_iff, BackendSpec.validate_eq_none]
  rw [← hbackends]
  unfold Config.validate
  split
  · next hnone =>
    obtain ⟨hoff, hempty⟩ : c.discovery.enabled = false ∧ c.backends = [] := by simpa using hnone
    simp [hoff, hempty]
  · next hsome =>
    split
    · next hnoURL =>
      obtain ⟨hon, hurl⟩ : c.discovery.enabled = true ∧ c.discovery.controlPlaneURL = "" := by simpa using hnoURL
      simp [hon, hurl]
    · next hURL =>
      have hlist : c.discovery.enabled = false → c.backends ≠ [] := by simpa using hsome
      have hurl : c.discovery.enabled = true → c.discovery.controlPlaneURL ≠ "" := by simpa using hURL
      cases hfind : c.backends.findSome? BackendSpec.validate with
      | some err => simp
      | none =>
        by_cases hs : c.strategy ∈ strategyNames
        · simp only [List.contains_eq_mem, hs, decide_true, if_true, true_iff]
          exact ⟨hlist, hurl, trivial, trivial⟩
        · simp [hs]

/-! ## The provider -/

/-- A `Backend` with the text of its URL. -/
structure Upstream where
  backend : Backend
  url : String
deriving DecidableEq

/-- What the loop of `refresh` builds: the map, the slice, and the objects it makes. -/
structure Refresh where
  made : List Backend
  alive : Nat → Bool
  next : List (String × Upstream) := []
  backends : List Upstream := []

namespace Refresh

variable (parse : String → Option String) (acc : Refresh)

def use (name : String) (u : Upstream) : Refresh :=
  { acc with next := (name, u) :: acc.next, backends := acc.backends ++ [u] }

/-- `New`; an entry whose URL does not parse is skipped. -/
def create (spec : BackendSpec) : Refresh :=
  match parse spec.url with
  | none => acc
  | some url =>
    let b := Backend.new acc.made.length spec.name spec.weight
    { acc with made := acc.made ++ [b], alive := Function.update acc.alive b.key true }.use spec.name ⟨b, url⟩

/-- One round of the loop of `refresh`. -/
def add (known : List (String × Upstream)) (spec : BackendSpec) : Refresh :=
  match known.lookup spec.name with
  | none => acc.create parse spec
  | some existing =>
    if existing.url = spec.url ∧ existing.backend.weight = spec.weight then acc.use spec.name existing
    else acc.create parse spec

end Refresh

/-! ## Pool, provider and checker -/

/-- A goroutine of `checkAll`: it waits for its answer, or has counted it and is about to set the flag. `seen` is
what the object's own probes came to, up to this one and the newest first. -/
inductive Probe where
  | asked (b : Backend)
  | counted (b : Backend) (ok : Bool) (consecutive : Int) (seen : List Bool)
  | done
deriving DecidableEq

structure Fleet where
  /-- every object made so far, at the place of its key -/
  made : List Backend := []
  pool : List Upstream := []
  known : List (String × Upstream) := []
  health : Health
  /-- the goroutines of the current round -/
  probes : List Probe := []
  /-- the results in the order in which they were counted -/
  log : List (Backend × Bool) := []

namespace Fleet

variable (parse : String → Option String) (cfg : Config) (σ : Fleet)

/-- `refresh`; without an answer of the control plane that decodes, nothing changes. -/
def refresh : Option (List BackendSpec) → Fleet
  | none => σ
  | some specs =>
    let acc := specs.foldl (Refresh.add parse · σ.known) { made := σ.made, alive := σ.health.alive }
    { σ with
      made := acc.made
      health := { σ.health with alive := acc.alive }
      known := acc.next
      pool := acc.backends }

/-- The locked part of recording a result. -/
def count (i : Nat) (b : Backend) (ok : Bool) : Fleet :=
  { σ with
    health := { σ.health with checker := (σ.health.checker.count b.name ok).2 }
    probes := σ.probes.set i
      (.counted b ok (σ.health.checker.count b.name ok).1 (ok :: resultsOf b σ.log))
    log := σ.log ++ [(b, ok)] }

end Fleet

inductive FleetAct where
  | refresh (answer : Option (List BackendSpec))
  | round
  | answer (i : Nat) (o : Option Outcome)
  | settle (i : Nat)

namespace Fleet

def act (parse : String → Option String) (cfg : Config) (σ : Fleet) : FleetAct → Option Fleet
  | .refresh answer => if cfg.discovery.enabled then some (σ.refresh parse answer) else none
  -- the next round begins when all goroutines of the last one are done
  | .round =>
    if cfg.healthCheckEnabled && σ.probes.all (· = .done) then
      some { σ with probes := σ.pool.map fun u => .asked u.backend }
    else none
  | .answer i o =>
    match σ.probes[i]? with
    | some (.asked b) => some (σ.count i b (passes o))
    | _ => none
  | .settle i =>
    match σ.probes[i]? with
    | some (.counted b ok n _) =>
      some { σ with health := σ.health.settle b ok n, probes := σ.probes.set i .done }
    | _ => none

def Next (parse : String → Option String) (cfg : Config) (σ : Fleet) (a : FleetAct) (σ' : Fleet) : Prop :=
  σ.act parse cfg a = some σ'

/-- One entry of the static list; a URL that does not parse ends the program. -/
def addStatic (parse : String → Option String) (acc : Refresh) (spec : BackendSpec) : Option Refresh :=
  if (parse spec.url).isSome then some (acc.create parse spec) else none

/-- The pool as `main` sets it up: empty for the provider to fill, or with the static list. -/
def start (parse : String → Option String) (cfg : Config) : Option Fleet :=
  if cfg.discovery.enabled then some { health := .start cfg.healthCheck }
  else (cfg.backends.foldlM (addStatic parse) { made := [], alive := fun _ => true }).map fun acc =>
    { made := acc.made, pool := acc.backends, health := { Health.start cfg.healthCheck with alive := acc.alive } }

/-! ## Objects -/

/-- The objects at hand are those that were made. -/
def IsMade (made : List Backend) (b : Backend) : Prop := made[b.key]? = some b

theorem IsMade.append {made : List Backend} {b : Backend} (h : IsMade made b) (l : List Backend) :
    IsMade (made ++ l) b := by
  unfold IsMade at h ⊢
  rw [List.getElem?_append_left (List.getElem?_eq_some_iff.mp h).1]
  exact h

/-- The key tells the object. -/
theorem IsMade.eq {made : List Backend} {a b : Backend} (ha : IsMade made a) (hb : IsMade made b)
    (hkey : a.key = b.key) : a = b := by
  unfold IsMade at ha hb
  rw [hkey, hb] at ha
  exact (Option.some.inj ha).symm

/-- What `refresh` keeps of the objects and flags `made` and `alive` it began with. -/
structure Keeps (made : List Backend) (alive : Nat → Bool) (acc : Refresh) : Prop where
  grown : ∃ new, acc.made = made ++ new
  next : ∀ e ∈ acc.next, IsMade acc.made e.2.backend
  backends : ∀ u ∈ acc.backends, IsMade acc.made u.backend
  alive : ∀ k, alive k = true → acc.alive k = true

theorem Keeps.use {made : List Backend} {alive : Nat → Bool} {acc : Refresh} (h : Keeps made alive acc)
    (name : String) {u : Upstream} (hu : IsMade acc.made u.backend) : Keeps made alive (acc.use name u) := by
  refine ⟨h.grown, fun e he => ?_, fun v hv => ?_, h.alive⟩
  · rcases List.mem_cons.mp he with rfl | he
    · exact hu
    · exact h.next e he
  · rcases List.mem_append.mp hv with hv | hv
    · exact h.backends v hv
    · obtain rfl := List.mem_singleton.mp hv
      exact hu

theorem Keeps.create {parse : String → Option String} {made : List Backend} {alive : Nat → Bool} {acc : Refresh}
    (h : Keeps made alive acc) (spec : BackendSpec) : Keeps made alive (acc.create parse spec) := by
  unfold Refresh.create
  split
  · exact h
  · obtain ⟨new, hnew⟩ := h.grown
    have hmade (b : Backend) : Keeps made alive
        { acc with made := acc.made ++ [b], alive := Function.update acc.alive b.key true } := by
      refine ⟨⟨new ++ [b], by simp [hnew]⟩, fun e he => (h.next e he).append _,
        fun u hu => (h.backends u hu).append _, fun k hk => ?_⟩
      simp only [Function.update_apply]
      split
      · rfl
      · exact h.alive k hk
    exact (hmade _).use spec.name (by simp [IsMade, Backend.new])

theorem Keeps.add {parse : String → Option String} {made : List Backend} {alive : Nat → Bool} {acc : Refresh}
    {known : List (String × Upstream)} (hknown : ∀ e ∈ known, IsMade made e.2.backend) (h : Keeps made alive acc)
    (spec : BackendSpec) : Keeps made alive (acc.add parse known spec) := by
  unfold Refresh.add
  split
  · exact h.create spec
  · next existing hlook =>
    split
    · refine h.use spec.name ?_
      obtain ⟨new, hnew⟩ := h.grown
      rw [hnew]
      obtain ⟨l₁, l₂, hl, -⟩ := List.lookup_eq_some_iff.mp hlook
      exact (hknown (spec.name, existing) (by simp [hl])).append new
    · exact h.create spec

theorem keeps_refresh (parse : String → Option String) {made : List Backend} (alive : Nat → Bool)
    {known : List (String × Upstream)} (hknown : ∀ e ∈ known, IsMade made e.2.backend) (specs : List BackendSpec) :
    Keeps made alive (specs.foldl (Refresh.add parse · known) { made, alive }) := by
  have hstart : Keeps made alive { made, alive } := ⟨⟨[], by simp⟩, by simp, by simp, fun _ hk => hk⟩
  generalize ({ made, alive } : Refresh) = acc at hstart
  induction specs generalizing acc with
  | nil => exact hstart
  | cons spec specs ih => exact ih _ (hstart.add hknown spec)

/-! ## The invariant -/

/-- The results recorded under a name, the newest first. -/
def resultsUnder (name : String) (log : List (Backend × Bool)) : List Bool :=
  ((log.filter fun r => r.1.name = name).map Prod.snd).reverse

theorem resultsUnder_snoc (name : String) (b : Backend) (ok : Bool) (log : List (Backend × Bool)) :
    resultsUnder name (log ++ [(b, ok)]) =
      if b.name = name then ok :: resultsUnder name log else resultsUnder name log := by
  unfold resultsUnder
  by_cases hb : b.name = name <;> simp [hb]

end Fleet

def Probe.backend : Probe → Option Backend
  | .asked b | .counted b _ _ _ => some b
  | .done => none

namespace Fleet

/-- The objects at hand were made, and a count is the streak of what was recorded under its name. -/
structure Inv (cfg : Config) (σ : Fleet) : Prop where
  unhealthyThreshold : σ.health.checker.unhealthyThreshold = (Checker.new cfg.healthCheck).unhealthyThreshold
  pool : ∀ u ∈ σ.pool, IsMade σ.made u.backend
  known : ∀ e ∈ σ.known, IsMade σ.made e.2.backend
  probes : ∀ p ∈ σ.probes, ∀ b ∈ p.backend, IsMade σ.made b
  counts : ∀ name, σ.health.checker.counts name = streak (resultsUnder name σ.log)

variable {parse : String → Option String} {cfg : Config} {σ σ' : Fleet} {a : FleetAct}

theorem Inv.refresh (h : σ.Inv cfg) (answer : Option (List BackendSpec)) : (σ.refresh parse answer).Inv cfg := by
  cases answer with
  | none => exact h
  | some specs =>
    have hkeep := keeps_refresh parse σ.health.alive h.known specs
    obtain ⟨new, hnew⟩ := hkeep.grown
    refine ⟨h.unhealthyThreshold, hkeep.backends, hkeep.next, fun p hp b hb => ?_, h.counts⟩
    have hmade := (h.probes p hp b hb).append new
    rw [← hnew] at hmade
    exact hmade

theorem Inv.count (h : σ.Inv cfg) {i : Nat} {b : Backend} (hi : σ.probes[i]? = some (.asked b)) (ok : Bool) :
    (σ.count i b ok).Inv cfg := by
  have hb : IsMade σ.made b := h.probes _ (List.mem_of_getElem? hi) b rfl
  refine ⟨?_, h.pool, h.known, fun p hp a ha => ?_, fun name => ?_⟩
  · simp only [Fleet.count, Checker.count_snd]
    exact h.unhealthyThreshold
  · rcases List.mem_or_eq_of_mem_set hp with hp | rfl
    · exact h.probes p hp a ha
    · obtain rfl : b = a := Option.some.inj ha
      exact hb
  · simp only [Fleet.count, Checker.count_snd, Checker.setCount, Function.update_apply, resultsUnder_snoc]
    by_cases hname : name = b.name
    · subst hname
      rw [if_pos rfl, if_pos rfl, h.counts, streak_cons]
    · rw [if_neg hname, if_neg (Ne.symm hname), h.counts]

/-- What each action needs and leaves behind. -/
inductive Acted (parse : String → Option String) (σ : Fleet) : FleetAct → Fleet → Prop where
  | refresh (answer : Option (List BackendSpec)) : Acted parse σ (.refresh answer) (σ.refresh parse answer)
  | round : Acted parse σ .round { σ with probes := σ.pool.map fun u => .asked u.backend }
  | answer {i : Nat} {b : Backend} (o : Option Outcome) : σ.probes[i]? = some (.asked b) →
      Acted parse σ (.answer i o) (σ.count i b (passes o))
  | settle {i : Nat} {b : Backend} {ok : Bool} {n : Int} {seen : List Bool} :
      σ.probes[i]? = some (.counted b ok n seen) →
      Acted parse σ (.settle i) { σ with health := σ.health.settle b ok n, probes := σ.probes.set i .done }

theorem Next.acted (h : σ.Next parse cfg a σ') : Acted parse σ a σ' := by
  unfold Next act at h
  cases a with
  | refresh answer =>
    simp only at h
    split at h
    · obtain rfl := Option.some.inj h
      exact .refresh answer
    · cases h
  | round =>
    simp only at h
    split at h
    · obtain rfl := Option.some.inj h
      exact .round
    · cases h
  | answer i o =>
    simp only at h
    split at h
    · next b hi =>
      obtain rfl := Option.some.inj h
      exact .answer o hi
    · cases h
  | settle i =>
    simp only at h
    split at h
    · next hi =>
      obtain rfl := Option.some.inj h
      exact .settle hi
    · cases h

theorem Inv.next (h : σ.Inv cfg) (hn : σ.Next parse cfg a σ') : σ'.Inv cfg := by
  cases hn.acted with
  | refresh answer => exact h.refresh answer
  | round =>
    refine ⟨h.unhealthyThreshold, h.pool, h.known, fun p hp b hb => ?_, h.counts⟩
    obtain ⟨u, hu, rfl⟩ := List.mem_map.mp hp
    obtain rfl : u.backend = b := Option.some.inj hb
    exact h.pool u hu
  | answer o hi => exact h.count hi (passes o)
  | settle hi =>
    refine ⟨?_, h.pool, h.known, fun p hp a ha => ?_, fun name => ?_⟩
    · simp only [Health.settle_checker]
      exact h.unhealthyThreshold
    · rcases List.mem_or_eq_of_mem_set hp with hp | rfl
      · exact h.probes p hp a ha
      · cases ha
    · simp only [Health.settle_checker]
      exact h.counts name

theorem inv_start (h : start parse cfg = some σ) : σ.Inv cfg := by
  unfold start at h
  split at h
  · obtain rfl := Option.some.inj h
    exact ⟨rfl, by simp, by simp, by simp, fun _ => rfl⟩
  · obtain ⟨acc, hacc, rfl⟩ := Option.map_eq_some_iff.mp h
    have hkeep : Keeps [] (fun _ => true) acc := by
      have hnil : Keeps [] (fun _ => true) { made := [], alive := fun _ => true } :=
        ⟨⟨[], rfl⟩, by simp, by simp, fun _ hk => hk⟩
      generalize ({ made := [], alive := fun _ => true } : Refresh) = acc₀ at hacc hnil
      generalize cfg.backends = specs at hacc
      induction specs generalizing acc₀ with
      | nil =>
        obtain rfl := Option.some.inj hacc
        exact hnil
      | cons spec specs ih =>
        rw [List.foldlM_cons] at hacc
        obtain ⟨acc₁, h₁, hacc⟩ := Option.bind_eq_some_iff.mp hacc
        unfold addStatic at h₁
        split at h₁
        · obtain rfl := Option.some.inj h₁
          exact ih _ (hnil.create spec) hacc
        · cases h₁
    exact ⟨rfl, hkeep.backends, by simp, by simp, fun _ => rfl⟩

/-! ## Evidence -/

/-- The backend whose answer an action records. -/
def recorded (σ : Fleet) : FleetAct → Option Backend
  | .answer i _ =>
    match σ.probes[i]? with
    | some (.asked b) => some b
    | _ => none
  | _ => none

/-- A result is recorded under a name that no other object has results under. -/
def OwnName (x : Step Fleet FleetAct) : Prop :=
  ∀ b ∈ x.src.recorded x.label, ∀ r ∈ x.src.log, r.1.name = b.name → r.1 = b

instance (x : Step Fleet FleetAct) : Decidable (OwnName x) :=
  inferInstanceAs (Decidable (∀ b ∈ x.src.recorded x.label, ∀ r ∈ x.src.log, r.1.name = b.name → r.1 = b))

/-- An object of the pool goes from alive to dead only with a failed probe of its own that completes
`unhealthyThreshold` failures in a row, and is dead after each such probe. -/
def Evidence (cfg : Config) (x : Step Fleet FleetAct) : Prop :=
  ∀ u ∈ x.src.pool,
    (x.src.health.alive u.backend.key = true → x.dst.health.alive u.backend.key = false →
      ∃ i n seen, x.label = .settle i ∧ x.src.probes[i]? = some (.counted u.backend false n seen) ∧
        Ends (Checker.new cfg.healthCheck).unhealthyThreshold.toNat false seen) ∧
    ∀ i n seen, x.label = .settle i → x.src.probes[i]? = some (.counted u.backend false n seen) →
      Ends (Checker.new cfg.healthCheck).unhealthyThreshold.toNat false seen →
      x.dst.health.alive u.backend.key = false

/-- The probes that were counted have counted results of their own. -/
def Counted (σ : Fleet) : Prop :=
  ∀ b ok n seen, Probe.counted b ok n seen ∈ σ.probes → n = if ok then streak seen else -streak seen

theorem resultsUnder_of_own {log : List (Backend × Bool)} {b : Backend} (h : ∀ r ∈ log, r.1.name = b.name → r.1 = b) :
    resultsUnder b.name log = resultsOf b log := by
  unfold resultsUnder resultsOf
  congr 2
  refine List.filter_congr fun r hr => ?_
  rw [decide_eq_decide]
  constructor
  · exact h r hr
  · intro hrb
    rw [hrb]

theorem Counted.next {x : Step Fleet FleetAct} (h : x.src.Counted) (hI : x.src.Inv cfg)
    (hn : x.src.Next parse cfg x.label x.dst) (hown : OwnName x) : x.dst.Counted := by
  obtain ⟨src, label, dst⟩ := x
  intro b ok n seen hp
  change src.Next parse cfg label dst at hn
  cases hn.acted with
  | refresh answer =>
    refine h b ok n seen ?_
    cases answer <;> exact hp
  | round =>
    obtain ⟨u, -, hu⟩ := List.mem_map.mp hp
    cases hu
  | @answer i b' o hi =>
    rcases List.mem_or_eq_of_mem_set hp with hp | hp
    · exact h b ok n seen hp
    · have hname := resultsUnder_of_own (hown b' (by simp [recorded, hi]))
      simp only [Probe.counted.injEq] at hp
      obtain ⟨rfl, rfl, rfl, rfl⟩ := hp
      rw [Checker.count_fst, hI.counts, hname, streak_cons]
  | settle hi =>
    rcases List.mem_or_eq_of_mem_set hp with hp | hp
    · exact h b ok n seen hp
    · cases hp

/-- No refresh turns a flag off. -/
theorem refresh_alive (hI : σ.Inv cfg) (answer : Option (List BackendSpec)) {k : Nat} (hk : σ.health.alive k = true) :
    (σ.refresh parse answer).health.alive k = true := by
  cases answer with
  | none => exact hk
  | some specs => exact (keeps_refresh parse _ hI.known specs).alive k hk

theorem evidence_of_counted {x : Step Fleet FleetAct} (hI : x.src.Inv cfg) (hC : x.src.Counted)
    (hn : x.src.Next parse cfg x.label x.dst) : Evidence cfg x := by
  obtain ⟨src, label, dst⟩ := x
  intro u hu
  change src.Next parse cfg label dst at hn
  -- all but the settling of a probe leaves the flags up
  have hquiet (hl : ∀ i, label ≠ .settle i) (hup : src.health.alive u.backend.key = true →
      dst.health.alive u.backend.key = true) : (src.health.alive u.backend.key = true →
      dst.health.alive u.backend.key = false → ∃ i n seen, label = .settle i ∧
        src.probes[i]? = some (.counted u.backend false n seen) ∧
        Ends (Checker.new cfg.healthCheck).unhealthyThreshold.toNat false seen) ∧
      ∀ i n seen, label = .settle i → src.probes[i]? = some (.counted u.backend false n seen) →
        Ends (Checker.new cfg.healthCheck).unhealthyThreshold.toNat false seen →
        dst.health.alive u.backend.key = false := by
    refine ⟨fun halive hdead => ?_, fun i n seen hi => absurd hi (hl i)⟩
    rw [hup halive] at hdead
    cases hdead
  have hpos := (Checker.new_thresholds cfg.healthCheck).1
  cases hn.acted with
  | refresh answer => exact hquiet (by simp) fun halive => refresh_alive hI answer halive
  | round => exact hquiet (by simp) fun halive => halive
  | answer o hi => exact hquiet (by simp) fun halive => halive
  | @settle i b ok n seen hi =>
    have hmem := List.mem_of_getElem? hi
    have hcount := hC b ok n seen hmem
    refine ⟨fun halive hdead => ?_, fun i' n' seen' hl hi' hends => ?_⟩
    · obtain ⟨hkey, rfl, hle⟩ := Health.down_of_settle halive hdead
      -- the key tells the object that was probed
      have hb : u.backend = b := (hI.pool u hu).eq (hI.probes _ hmem b rfl) hkey
      refine ⟨i, n, seen, rfl, by rw [hb]; exact hi, ?_⟩
      simp only [Bool.false_eq_true, if_false] at hcount
      rw [hI.unhealthyThreshold, hcount] at hle
      exact (le_neg_streak_iff hpos).mp hle
    · obtain rfl : i = i' := FleetAct.settle.inj hl
      obtain h := hi.symm.trans hi'
      simp only [Option.some.injEq, Probe.counted.injEq] at h
      obtain ⟨rfl, rfl, rfl, rfl⟩ := h
      simp only [Bool.false_eq_true, if_false] at hcount
      have hle := (le_neg_streak_iff hpos).mpr hends
      rw [← hcount, ← hI.unhealthyThreshold] at hle
      show (src.health.settle u.backend false n).alive u.backend.key = false
      rw [Health.settle_alive]
      exact if_pos ⟨rfl, hle⟩

/-- **Health evidence belongs to one object**, in every interleaving of refreshes and probe rounds in which each
result is recorded under a name of the object's own. -/
theorem evidence_of_ownName {σ₀ : Fleet} {tr : List (Step Fleet FleetAct)} (hstart : start parse cfg = some σ₀)
    (h : Run (Next parse cfg) σ₀ tr σ) (hown : ∀ x ∈ tr, OwnName x) : ∀ x ∈ tr, Evidence cfg x := by
  intro x hx
  obtain ⟨tr₁, tr₂, rfl, hrun, hn⟩ := h.before hx
  have hinv : x.src.Inv cfg ∧ x.src.Counted := by
    refine Run.inv (fun σ => σ.Inv cfg ∧ σ.Counted) OwnName
      (fun y hy hown hI => ⟨hI.1.next hy, hI.2.next hI.1 hy hown⟩) ⟨inv_start hstart, ?_⟩ hrun
      fun y hy => hown y (List.mem_append_left _ hy)
    have hnone : σ₀.probes = [] := by
      unfold start at hstart
      split at hstart
      · obtain rfl := Option.some.inj hstart
        rfl
      · obtain ⟨acc, -, rfl⟩ := Option.map_eq_some_iff.mp hstart
        rfl
    intro b ok n seen hp
    rw [hnone] at hp
    cases hp
  exact evidence_of_counted hinv.1 hinv.2 hn

/-! ## Two objects under one name -/

def discovering : Config :=
  { strategy := "round_robin", healthCheckEnabled := true, healthCheck := ⟨2, 2⟩,
    discovery := { enabled := true, controlPlaneURL := "http://cp:9000/api/v1/proxy/backends" } }

/-- A round in which the only backend does not answer. -/
def failedRound : List FleetAct := [.round, .answer 0 none, .settle 0]

/-- The backend gets another URL before it is probed, stays the same over the next refresh and fails twice. -/
def failingTwice : List FleetAct :=
  .refresh (some [⟨"b1", "http://a:1", 1⟩]) :: .refresh (some [⟨"b1", "http://a:2", 1⟩]) :: failedRound ++
    .refresh (some [⟨"b1", "http://a:2", 1⟩]) :: failedRound

theorem evidence_of_ownName_failingTwice :
    ((stateAfter (act some discovering) { health := .start ⟨2, 2⟩ } failingTwice).health.alive 0 = true ∧
      (stateAfter (act some discovering) { health := .start ⟨2, 2⟩ } failingTwice).health.alive 1 = false) ∧
    ∀ x ∈ stepsOf (act some discovering) { health := .start ⟨2, 2⟩ } failingTwice, Evidence discovering x :=
  ⟨by decide +kernel, evidence_of_ownName rfl (run_stepsOf _ (fun _ _ _ h => h) .nil failingTwice)
    (by decide +kernel)⟩

/-- The backend gets another URL after its first failure. -/
def movedBackend : List FleetAct :=
  .refresh (some [⟨"b1", "http://a:1", 1⟩]) :: failedRound ++ .refresh (some [⟨"b1", "http://a:2", 1⟩]) :: failedRound

theorem replaced_goes_down_early : ¬ ∀ (parse : String → Option String) (cfg : Config) (σ₀ σ : Fleet)
    (tr : List (Step Fleet FleetAct)), cfg.validate = .ok () → start parse cfg = some σ₀ →
    Run (Next parse cfg) σ₀ tr σ → ∀ x ∈ tr, Evidence cfg x := by
  intro h
  have hrun : Run (Next some discovering) { health := .start ⟨2, 2⟩ } _ _ :=
    run_stepsOf (act some discovering) (fun _ _ _ h => h) .nil movedBackend
  have hev := h some discovering _ _ _ (by decide) rfl hrun
  -- the last step takes the new object down, which has one result
  have hlast : ((stepsOf (act some discovering) { health := .start ⟨2, 2⟩ } movedBackend).map fun x =>
      (x.src.pool, x.src.health.alive 1, x.dst.health.alive 1, x.src.probes)).getLast? =
      some ([⟨.new 1 "b1" 1, "http://a:2"⟩], true, false, [.counted (.new 1 "b1" 1) false 2 [false]]) := by
    decide +kernel
  obtain ⟨x, hx, hxe⟩ := List.mem_map.mp (List.mem_of_getLast? hlast)
  simp only [Prod.mk.injEq] at hxe
  obtain ⟨hpool, halive, hdead, hprobes⟩ := hxe
  obtain ⟨i, n, seen, -, hi, hends⟩ := (hev x (by simpa using hx) ⟨.new 1 "b1" 1, "http://a:2"⟩ (by simp [hpool])).1
    halive hdead
  rw [hprobes, List.getElem?_singleton] at hi
  split at hi
  · simp only [Option.some.injEq, Probe.counted.injEq] at hi
    obtain ⟨-, -, -, rfl⟩ := hi
    revert hends
    decide
  · cases hi

end Fleet

end Proxy
