import InfraPlatform.Proxy.Reuse
import InfraPlatform.ControlPlane.Backends

/-!
# From the control plane to the proxy's pool

The reverse proxy's `ConfigProvider` asks the control plane for backends and swaps the pool.  The control plane goes on
meanwhile: its handlers and loops run call by call next to each other, a request for backends reads the store
with calls of its own, and its answer arrives later or not at all.

* `accepted_backends`: what the handler writes is what the provider decodes.
* `pool_follows`: the pool is, name for name, the healthy nodes with a URL that parses, as they were at one moment: the
  listing of the last answer that arrived.
* `names_are_addresses`: the backend of a name always is the node registered under that ID, and it stays the same object
  from one answer to the next, as long as its address is spelled as `url.Parse` spells it.
-/

namespace Platform

open Lib
open ControlPlane (Concurrent CallStep Reply Reader Node Store Labels SpecsKept)
open Proxy (Upstream Fleet FleetAct)

/-! ## The wire -/

def readInt64 (j : Option Json) : Option Int64 :=
  (Json.readInt j).bind fun n => if -2 ^ 63 ≤ n ∧ n < 2 ^ 63 then some (Int64.ofInt n) else none

def readSpec (j : Json) : Option Proxy.BackendSpec :=
  Json.readObj (fun m => do
    pure { name := ← Json.readStr (m "name"), url := ← Json.readStr (m "url"), weight := ← readInt64 (m "weight") })
    (some j)

/-- The body of an answer that `refresh` goes on with. -/
def accepted (r : Reply) : Option (List Proxy.BackendSpec) :=
  if r.code = 200 then Json.readObj (fun m => Json.readArr readSpec (m "backends")) (some r.body) else none

/-- The entry of a node. -/
def entry (n : Node) : Proxy.BackendSpec := { name := n.id, url := n.address, weight := 1 }

def entries (nodes : List Node) : List Proxy.BackendSpec := (nodes.filter fun n => n.status = .healthy).map entry

theorem readSpec_json (name url : String) :
    readSpec (ControlPlane.Api.BackendSpec.json ⟨name, url, 1⟩) = some ⟨name, url, 1⟩ := by
  unfold readSpec ControlPlane.Api.BackendSpec.json
  rw [Json.readObj_object _ (by simp)]
  rfl

/-- **What is written is what is decoded.** -/
theorem accepted_backends (nodes : List Node) :
    accepted ⟨200, .object [("backends", some (ControlPlane.Api.backendsJSON
      (ControlPlane.Api.healthyBackends nodes)))]⟩ = some (entries nodes) := by
  unfold accepted
  rw [if_pos rfl, Json.readObj_object _ (by simp)]
  change Json.readArr readSpec (some (.arr _)) = _
  unfold ControlPlane.Api.healthyBackends entries
  rw [List.map_map]
  exact Json.readArr_map (fun n : Node => readSpec_json n.id n.address) _

theorem accepted_error {code : Nat} (hcode : code ≠ 200) (msg : String) :
    accepted (ControlPlane.Api.replyError code msg) = none := if_neg hcode

/-! ## The system -/

/-- The control plane with what it has under way, the request of the provider if there is one, and the proxy. -/
structure State (ι : Type) where
  control : Concurrent ι
  fetch : Option (Reader Reply) := none
  fleet : Fleet

inductive Action (ι : Type) where
  /-- a call of a handler or loop of the control plane -/
  | call (l : ι × (Σ c : ControlPlane.Call, ControlPlane.Resp c))
  /-- the provider sends its request -/
  | fetch
  /-- a call of the handler of that request -/
  | read (r : Σ c : ControlPlane.Read, ControlPlane.ReadResp c)
  /-- the answer arrives -/
  | deliver
  /-- the request fails -/
  | drop
  /-- the health checker goes on -/
  | check (a : FleetAct)

def Checks : FleetAct → Prop
  | .refresh _ => False
  | _ => True

section

variable {ι : Type} [DecidableEq ι] (parse : String → Option String) (cfg : Proxy.Config) (service : String)

inductive Next : State ι → Action ι → State ι → Prop where
  | call {π : State ι} {l : ι × (Σ c : ControlPlane.Call, ControlPlane.Resp c)} {κ : Concurrent ι} :
      Config.Next ControlPlane.Exec π.control l κ → Next π (.call l) { π with control := κ }
  | fetch {π : State ι} : π.fetch = none →
      Next π .fetch { π with fetch := some (ControlPlane.Api.proxyBackends service) }
  | read {π : State ι} {c : ControlPlane.Read} {k : ControlPlane.ReadResp c → Reader Reply}
      {r : ControlPlane.ReadResp c} : π.fetch = some (.call c k) → ControlPlane.ReadAnswer π.control.state c r →
      Next π (.read ⟨c, r⟩) { π with fetch := some (k r) }
  | deliver {π : State ι} {reply : Reply} : π.fetch = some (.ret reply) →
      Next π .deliver { π with fetch := none, fleet := π.fleet.refresh parse (accepted reply) }
  | drop {π : State ι} : Next π .drop { π with fetch := none }
  | check {π : State ι} {a : FleetAct} {φ : Fleet} : Checks a → π.fleet.Next parse cfg a φ →
      Next π (.check a) { π with fleet := φ }

/-- The control plane at its beginning, and a pool that the provider has not filled. -/
def start (timeout : ControlPlane.Duration) (s : Store) (e : ι → ControlPlane.Event) : State ι where
  control := ControlPlane.launch timeout s e
  fleet := { health := .start cfg.healthCheck }

end

/-! ## What a refresh makes of nodes -/

/-- The address under which a node is registered. -/
def addressOf (s : Store) (id : String) : Option String := (s.nodes.get id).map Node.address

/-- The backend is the node that is registered under the name. -/
structure Owns (parse : String → Option String) (s : Store) (id : String) (u : Upstream) : Prop where
  name : u.backend.name = id
  weight : u.backend.weight = 1
  url : ∃ address, addressOf s id = some address ∧ parse address = some u.url

/-- The entry tells of a node. -/
def Tells (s : Store) (spec : Proxy.BackendSpec) : Prop := addressOf s spec.name = some spec.url ∧ spec.weight = 1

theorem addressOf_kept {s s' : Store} (h : SpecsKept s s') {id address : String} (ha : addressOf s id = some address) :
    addressOf s' id = some address := by
  unfold addressOf at ha ⊢
  obtain ⟨n, hn, rfl⟩ := Option.map_eq_some_iff.mp ha
  obtain ⟨n', hn', hspec⟩ := h.nodes id n hn
  have haddr := congrArg Node.address hspec
  change n'.address = n.address at haddr
  rw [hn', Option.map_some, haddr]

theorem Owns.later {parse : String → Option String} {s s' : Store} {id : String} {u : Upstream}
    (h : Owns parse s id u) (hk : SpecsKept s s') : Owns parse s' id u := by
  obtain ⟨address, haddr, hparse⟩ := h.url
  exact ⟨h.name, h.weight, address, addressOf_kept hk haddr, hparse⟩

theorem Tells.later {s s' : Store} {spec : Proxy.BackendSpec} (h : Tells s spec) (hk : SpecsKept s s') :
    Tells s' spec := ⟨addressOf_kept hk h.1, h.2⟩

/-- Name, URL and weight. -/
def face (u : Upstream) : String × String × Int64 := (u.backend.name, u.url, u.backend.weight)

section Refresh

variable {parse : String → Option String} {s : Store} {known : List (String × Upstream)}
  {specs : List Proxy.BackendSpec}

theorem owns_place (hknown : ∀ e ∈ known, Owns parse s e.1 e.2) {spec : Proxy.BackendSpec} (hspec : Tells s spec)
    {key : Nat} {u : Upstream} (h : Proxy.place parse known key spec = some u) :
    Owns parse s spec.name u ∧ parse spec.url = some u.url := by
  rcases Proxy.place_eq_some h with ⟨-, hkept⟩ | ⟨-, url, hurl, rfl⟩
  · obtain ⟨hlook, -, -⟩ := Proxy.reusable_eq_some.mp hkept
    obtain ⟨l₁, l₂, hl, -⟩ := List.lookup_eq_some_iff.mp hlook
    have howns := hknown (spec.name, u) (by simp [hl])
    obtain ⟨address, haddr, hparse⟩ := howns.url
    obtain rfl : address = spec.url := Option.some.inj (haddr.symm.trans hspec.1)
    exact ⟨howns, hparse⟩
  · have hweight : (Proxy.Backend.new key spec.name spec.weight).weight = 1 := by
      rw [hspec.2]
      exact Proxy.new_weight_eq.mpr (by decide)
    exact ⟨⟨rfl, hweight, spec.url, hspec.1, hurl⟩, hurl⟩

theorem place_face (hknown : ∀ e ∈ known, Owns parse s e.1 e.2) {spec : Proxy.BackendSpec} (hspec : Tells s spec)
    (key : Nat) :
    (Proxy.place parse known key spec).map face = (parse spec.url).map fun url => (spec.name, url, 1) := by
  cases hplace : Proxy.place parse known key spec with
  | none =>
    rw [(Proxy.place_eq_none hplace).2]
    rfl
  | some u =>
    obtain ⟨howns, hurl⟩ := owns_place hknown hspec hplace
    rw [hurl, Option.map_some, Option.map_some, face, howns.name, howns.weight]

/-- What the pool is, does not depend on what was known. -/
theorem pool_faces {φ : Fleet} (hknown : ∀ e ∈ φ.known, Owns parse s e.1 e.2) (hspecs : ∀ spec ∈ specs, Tells s spec) :
    (φ.refresh parse (some specs)).pool.map face =
      specs.filterMap fun spec => (parse spec.url).map fun url => (spec.name, url, 1) := by
  rw [Fleet.refresh_pool]
  generalize φ.made.length = key
  induction specs generalizing key with
  | nil => rfl
  | cons spec specs ih =>
    rw [List.forall_mem_cons] at hspecs
    have hface := place_face hknown hspecs.1 key
    rw [Proxy.places, List.filterMap_cons, ← hface]
    cases Proxy.place parse φ.known key spec with
    | none =>
      rw [List.reduceOption_cons_of_none]
      exact ih hspecs.2 _
    | some u =>
      rw [List.reduceOption_cons_of_some, List.map_cons]
      exact congrArg (face u :: ·) (ih hspecs.2 _)

/-- A backend of the pool has its place in the answer. -/
theorem place_of_pool {φ : Fleet} {u : Upstream} (hu : u ∈ (φ.refresh parse (some specs)).pool) :
    ∃ (i : Nat) (spec : Proxy.BackendSpec) (key : Nat), specs[i]? = some spec ∧
      (Proxy.places parse φ.known φ.made.length specs)[i]? = some (some u) ∧
      Proxy.place parse φ.known key spec = some u := by
  rw [Fleet.refresh_pool, List.reduceOption_mem_iff] at hu
  obtain ⟨i, hi⟩ := List.mem_iff_getElem?.mp hu
  have hplace := hi
  rw [Proxy.getElem?_places] at hplace
  obtain ⟨spec, hspec, hplace⟩ := Option.map_eq_some_iff.mp hplace
  exact ⟨i, spec, _, hspec, hi, hplace⟩

theorem owns_refresh {φ : Fleet} (hknown : ∀ e ∈ φ.known, Owns parse s e.1 e.2)
    (hspecs : ∀ spec ∈ specs, Tells s spec) :
    ∀ e ∈ (φ.refresh parse (some specs)).known, Owns parse s e.1 e.2 := by
  rintro ⟨name, u⟩ he
  rw [Fleet.refresh_known, List.mem_reverse] at he
  obtain ⟨i, spec, hspec, rfl, hi⟩ := Proxy.mem_named.mp he
  rw [Proxy.getElem?_places, hspec, Option.map_some, Option.some.injEq] at hi
  exact (owns_place hknown (hspecs spec (List.mem_of_getElem? hspec)) hi).1

/-- Entries with different names: every backend of the pool is known under its name. -/
theorem lookup_of_pool {φ : Fleet} (hknown : ∀ e ∈ φ.known, Owns parse s e.1 e.2)
    (hspecs : ∀ spec ∈ specs, Tells s spec) (hnodup : (specs.map Proxy.BackendSpec.name).Nodup) {u : Upstream}
    (hu : u ∈ (φ.refresh parse (some specs)).pool) :
    (φ.refresh parse (some specs)).known.lookup u.backend.name = some u := by
  obtain ⟨i, spec, key, hspec, hi, hplace⟩ := place_of_pool hu
  rw [(owns_place hknown (hspecs spec (List.mem_of_getElem? hspec)) hplace).1.name, Fleet.refresh_known]
  obtain ⟨v, hv⟩ := Proxy.knownThen_of_listed hspec hi
  obtain ⟨j, spec', hspec', hname, hj⟩ := Proxy.lookup_knownThen hv
  have hij : i = j := by
    have hlt : i < (specs.map Proxy.BackendSpec.name).length := by
      rw [List.length_map]
      exact (List.getElem?_eq_some_iff.mp hspec).1
    refine (List.getElem?_inj hlt hnodup).mp ?_
    rw [List.getElem?_map, List.getElem?_map, hspec, hspec', Option.map_some, Option.map_some, hname]
  subst hij
  rw [hi] at hj
  obtain rfl : u = v := Option.some.inj (Option.some.inj hj)
  exact hv

/-- An address that `url.Parse` spells the same keeps its object. -/
theorem same_object {φ : Fleet} (hknown : ∀ e ∈ φ.known, Owns parse s e.1 e.2) (hspecs : ∀ spec ∈ specs, Tells s spec)
    {u u' : Upstream} (hold : φ.known.lookup u.backend.name = some u)
    (hu' : u' ∈ (φ.refresh parse (some specs)).pool) (hname : u'.backend.name = u.backend.name) {address : String}
    (haddr : addressOf s u.backend.name = some address) (hnormal : parse address = some address) : u' = u := by
  obtain ⟨i, spec, key, hspec, -, hplace⟩ := place_of_pool hu'
  have htells := hspecs spec (List.mem_of_getElem? hspec)
  have hid : spec.name = u.backend.name := by
    rw [← (owns_place hknown htells hplace).1.name, hname]
  obtain ⟨l₁, l₂, hl, -⟩ := List.lookup_eq_some_iff.mp hold
  have howns := hknown (u.backend.name, u) (by simp [hl])
  obtain ⟨address', haddr', hparse⟩ := howns.url
  obtain rfl : address' = address := Option.some.inj (haddr'.symm.trans haddr)
  have hurl : spec.url = address' := by
    have htold := htells.1
    rw [hid, haddr] at htold
    exact (Option.some.inj htold).symm
  have hkept : Proxy.reusable φ.known spec = some u := by
    refine Proxy.reusable_eq_some.mpr ⟨hid ▸ hold, ?_, ?_⟩
    · rw [hurl]
      exact Option.some.inj (hparse.symm.trans hnormal)
    · rw [howns.weight, htells.2]
  rw [Proxy.place, hkept] at hplace
  exact (Option.some.inj hplace).symm

end Refresh

/-! ## The request -/

/-- What is left of `ProxyBackends` once it has the service. -/
def listBackends (svc : ControlPlane.Service) : Reader Reply := do
  match ← ControlPlane.Api.resolveServiceBackends svc with
  | .error err => pure (ControlPlane.Api.replyError 500 err.text)
  | .ok backends => pure ⟨200, .object [("backends", some (ControlPlane.Api.backendsJSON backends))]⟩

def okReply (nodes : List Node) : Reply :=
  ⟨200, .object [("backends", some (ControlPlane.Api.backendsJSON (ControlPlane.Api.healthyBackends nodes)))]⟩

section Trace

variable {ι : Type}

/-- A step of the others: the request stays where it is. -/
def Action.bystands : Action ι → Prop
  | .call _ | .check _ => True
  | _ => False

/-- The selector that the request goes by, as the service had it at the request's own `GetService`; only the others
have moved since. -/
def SelectorOf (service : String) (tr : List (Step (State ι) (Action ι))) (selector : Labels) : Prop :=
  if service = "" then selector = none
  else ∃ tr₀ y mid svc, tr = tr₀ ++ y :: mid ∧ (∃ r, y.label = .read ⟨.getService service, r⟩) ∧
    (∀ z ∈ mid, z.label.bystands) ∧ y.src.control.state.services.get service = some svc ∧ svc.selector = selector

/-- After `tr₁`, the handler lists the nodes that match the selector; then only the others move. -/
structure ListedAt (service : String) (tr₁ : List (Step (State ι) (Action ι))) (x : Step (State ι) (Action ι))
    (mid : List (Step (State ι) (Action ι))) (selector : Labels) (nodes : List Node) : Prop where
  selects : SelectorOf service tr₁ selector
  reads : ∃ r, x.label = .read r
  listing : nodes.Perm (x.src.control.state.nodes.rows.filter fun n => ControlPlane.matchesSelector n.labels selector)
  quiet : ∀ y ∈ mid, y.label.bystands

/-- How far the request has come. -/
inductive Pending (service : String) (tr : List (Step (State ι) (Action ι))) : Reader Reply → Prop where
  | asked : Pending service tr (ControlPlane.Api.proxyBackends service)
  | selected {svc : ControlPlane.Service} : service ≠ "" → SelectorOf service tr svc.selector →
      Pending service tr (listBackends svc)
  | refused {reply : Reply} : accepted reply = none → Pending service tr (.ret reply)
  | listed {tr₁ mid : List (Step (State ι) (Action ι))} {x : Step (State ι) (Action ι)} {selector : Labels}
      {nodes : List Node} : tr = tr₁ ++ x :: mid → ListedAt service tr₁ x mid selector nodes →
      Pending service tr (.ret (okReply nodes))

variable {service : String} {tr : List (Step (State ι) (Action ι))}

theorem SelectorOf.bystand {x : Step (State ι) (Action ι)} {selector : Labels} (h : SelectorOf service tr selector)
    (hx : x.label.bystands) : SelectorOf service (tr ++ [x]) selector := by
  unfold SelectorOf at h ⊢
  split at h
  · next hs =>
    rw [if_pos hs]
    exact h
  · next hs =>
    rw [if_neg hs]
    obtain ⟨tr₀, y, mid, svc, htr, hread, hmid, hsvc⟩ := h
    exact ⟨tr₀, y, mid ++ [x], svc, by rw [htr, List.append_assoc, List.cons_append], hread,
      Run.forall_snoc.mpr ⟨hmid, hx⟩, hsvc⟩

/-- The others go on. -/
theorem Pending.bystand {p : Reader Reply} {x : Step (State ι) (Action ι)} (h : Pending service tr p)
    (hx : x.label.bystands) : Pending service (tr ++ [x]) p := by
  cases h with
  | asked => exact .asked
  | selected hne hsel => exact .selected hne (hsel.bystand hx)
  | refused hno => exact .refused hno
  | @listed tr₁ mid y selector nodes htr hlist =>
    refine .listed (by rw [htr, List.append_assoc, List.cons_append]) ⟨hlist.selects, hlist.reads, hlist.listing, ?_⟩
    exact Run.forall_snoc.mpr ⟨hlist.quiet, hx⟩

/-- A call of the handler. -/
theorem Pending.read {c : ControlPlane.Read} {k : ControlPlane.ReadResp c → Reader Reply} {r : ControlPlane.ReadResp c}
    {π π' : State ι} (h : Pending service tr (.call c k)) (hr : ControlPlane.ReadAnswer π.control.state c r) :
    Pending service (tr ++ [⟨π, .read ⟨c, r⟩, π'⟩]) (k r) := by
  generalize hp : Prog.call c k = p at h
  cases h with
  | asked =>
    unfold ControlPlane.Api.proxyBackends at hp
    split at hp
    · next hne =>
      change Prog.call c k = Prog.call (.getService service) _ at hp
      cases hp
      change r = π.control.state.getService service at hr
      cases hsvc : π.control.state.services.get service with
      | none =>
        rw [hr, ControlPlane.Store.getService, hsvc]
        exact .refused (accepted_error (by decide) _)
      | some svc =>
        rw [hr, ControlPlane.Store.getService, hsvc]
        refine .selected hne ?_
        rw [SelectorOf, if_neg hne]
        exact ⟨tr, _, [], svc, rfl, ⟨_, rfl⟩, by simp, hsvc, rfl⟩
    · next he =>
      change Prog.call c k = Prog.call .listNodes _ at hp
      cases hp
      obtain ⟨nodes, rfl, hperm⟩ := hr
      have hsel : SelectorOf service tr none := by
        rw [SelectorOf, if_pos (not_not.mp he)]
      refine .listed rfl ⟨hsel, ⟨_, rfl⟩, ?_, by simp⟩
      exact hperm
  | @selected svc hne hsel =>
    change Prog.call c k = Prog.call (.listNodesByLabels svc.selector) _ at hp
    cases hp
    obtain ⟨nodes, rfl, hperm⟩ := hr
    exact .listed rfl ⟨hsel, ⟨_, rfl⟩, hperm, by simp⟩
  | refused hno => cases hp
  | listed htr hlist => cases hp

/-- An answer arrives that the provider can use. -/
def Arrives (y : Step (State ι) (Action ι)) : Prop :=
  y.label = .deliver ∧ ∃ reply specs, y.src.fetch = some (.ret reply) ∧ accepted reply = some specs

/-- The healthy nodes that match, with the URLs that parse. -/
def expected (parse : String → Option String) (s : Store) (selector : Labels) : List (String × String × Int64) :=
  (s.nodes.rows.filter fun n =>
    ControlPlane.matchesSelector n.labels selector && n.status = .healthy).filterMap fun n =>
      (parse n.address).map fun url => (n.id, url, 1)

/-- The pool is what the nodes were when the last answer that arrived was made. -/
def Followed (parse : String → Option String) (service : String) (tr : List (Step (State ι) (Action ι)))
    (pool : List Upstream) : Prop :=
  (pool = [] ∧ ∀ y ∈ tr, ¬ Arrives y) ∨
    ∃ tr₁ x mid d tr₂ selector nodes, tr = tr₁ ++ x :: mid ++ d :: tr₂ ∧ ListedAt service tr₁ x mid selector nodes ∧
      Arrives d ∧ (∀ y ∈ tr₂, ¬ Arrives y) ∧ (pool.map face).Perm (expected parse x.src.control.state selector)

theorem Followed.snoc {parse : String → Option String} {pool : List Upstream} {y : Step (State ι) (Action ι)}
    (h : Followed parse service tr pool) (hy : ¬ Arrives y) : Followed parse service (tr ++ [y]) pool := by
  rcases h with ⟨hnil, hno⟩ | ⟨tr₁, x, mid, d, tr₂, selector, nodes, htr, hlist, hd, hno, hpool⟩
  · exact .inl ⟨hnil, Run.forall_snoc.mpr ⟨hno, hy⟩⟩
  · refine .inr ⟨tr₁, x, mid, d, tr₂ ++ [y], selector, nodes, ?_, hlist, hd, Run.forall_snoc.mpr ⟨hno, hy⟩, hpool⟩
    rw [htr, List.append_assoc, List.cons_append]

theorem entries_filterMap (parse : String → Option String) (nodes : List Node) :
    ((entries nodes).filterMap fun spec => (parse spec.url).map fun url => (spec.name, url, (1 : Int64))) =
      (nodes.filter fun n => n.status = .healthy).filterMap fun n =>
        (parse n.address).map fun url => (n.id, url, 1) := by
  unfold entries
  rw [List.filterMap_map]
  rfl

theorem expected_of_listing {parse : String → Option String} {s : Store} {selector : Labels} {nodes : List Node}
    (h : nodes.Perm (s.nodes.rows.filter fun n => ControlPlane.matchesSelector n.labels selector)) :
    ((entries nodes).filterMap fun spec => (parse spec.url).map fun url => (spec.name, url, (1 : Int64))).Perm
      (expected parse s selector) := by
  have hfilter := (h.filter fun n => n.status = .healthy).filterMap fun n =>
    (parse n.address).map fun url => (n.id, url, (1 : Int64))
  rw [List.filter_filter] at hfilter
  rw [entries_filterMap]
  unfold expected
  simpa only [Bool.and_comm] using hfilter

/-! ## The invariant -/

/-- The entries of a listing tell of nodes, each under its own name. -/
theorem tells_of_listing {s : Store} {f : Node → Bool} {nodes : List Node} (h : nodes.Perm (s.nodes.rows.filter f)) :
    ((entries nodes).map Proxy.BackendSpec.name).Nodup ∧ ∀ spec ∈ entries nodes, Tells s spec := by
  have hnames : (entries nodes).map Proxy.BackendSpec.name =
      (nodes.filter fun n => n.status = .healthy).map Node.id := by
    unfold entries
    rw [List.map_map]
    rfl
  refine ⟨?_, fun spec hspec => ?_⟩
  · rw [hnames]
    exact (List.Sublist.map Node.id List.filter_sublist).nodup (ControlPlane.nodup_of_perm_filter h)
  · obtain ⟨n, hn, rfl⟩ := List.mem_map.mp hspec
    have hget := ((ControlPlane.mem_of_perm_filter h).mp (List.mem_of_mem_filter hn)).1
    exact ⟨by rw [addressOf]; exact congrArg (Option.map Node.address) hget, rfl⟩

structure Inv (parse : String → Option String) (service : String) (tr : List (Step (State ι) (Action ι)))
    (π : State ι) : Prop where
  kept : ∀ x ∈ tr, SpecsKept x.src.control.state π.control.state
  known : ∀ e ∈ π.fleet.known, Owns parse π.control.state e.1 e.2
  pool : ∀ u ∈ π.fleet.pool, π.fleet.known.lookup u.backend.name = some u
  fetch : ∀ p, π.fetch = some p → Pending service tr p
  follows : Followed parse service tr π.fleet.pool

/-- What an answer that arrives tells of the nodes. -/
theorem Inv.answer {parse : String → Option String} {π : State ι} (h : Inv parse service tr π) {reply : Reply}
    {specs : List Proxy.BackendSpec} (hf : π.fetch = some (.ret reply)) (hacc : accepted reply = some specs) :
    ∃ tr₁ x mid selector nodes, tr = tr₁ ++ x :: mid ∧ ListedAt service tr₁ x mid selector nodes ∧
      specs = entries nodes ∧ (specs.map Proxy.BackendSpec.name).Nodup ∧
      ∀ spec ∈ specs, Tells π.control.state spec := by
  generalize hp : (Prog.ret reply : Reader Reply) = p at hf
  cases h.fetch p hf with
  | asked =>
    unfold ControlPlane.Api.proxyBackends at hp
    split at hp <;> cases hp
  | selected hne hsel => cases hp
  | refused hno =>
    cases hp
    rw [hno] at hacc
    cases hacc
  | @listed tr₁ mid x selector nodes htr hlist =>
    cases hp
    obtain rfl : entries nodes = specs := Option.some.inj ((accepted_backends nodes).symm.trans hacc)
    obtain ⟨hnodup, htells⟩ := tells_of_listing hlist.listing
    have hkept := h.kept x (by rw [htr]; simp)
    exact ⟨tr₁, x, mid, selector, nodes, htr, hlist, rfl, hnodup, fun spec hspec => (htells spec hspec).later hkept⟩

end Trace

section Step

variable {ι : Type} [DecidableEq ι] {parse : String → Option String} {cfg : Proxy.Config} {service : String}
  {tr : List (Step (State ι) (Action ι))} {x : Step (State ι) (Action ι)}

/-- The health checker leaves the pool and what is known of it alone. -/
theorem check_pool {φ φ' : Fleet} {a : FleetAct} (ha : Checks a) (h : φ.Next parse cfg a φ') :
    φ'.pool = φ.pool ∧ φ'.known = φ.known := by
  cases h.acted with
  | refresh answer => exact ha.elim
  | round => exact ⟨rfl, rfl⟩
  | answer => exact ⟨rfl, rfl⟩
  | settle => exact ⟨rfl, rfl⟩

omit [DecidableEq ι] in
theorem Inv.deliver {π : State ι} {reply : Reply} (h : Inv parse service tr π) (hf : π.fetch = some (.ret reply)) :
    Inv parse service
      (tr ++ [⟨π, .deliver, { π with fetch := none, fleet := π.fleet.refresh parse (accepted reply) }⟩])
      { π with fetch := none, fleet := π.fleet.refresh parse (accepted reply) } := by
  have hkept : ∀ y ∈ tr ++ [⟨π, .deliver, { π with fetch := none, fleet := π.fleet.refresh parse (accepted reply) }⟩],
      SpecsKept y.src.control.state π.control.state := Run.forall_snoc.mpr ⟨h.kept, .refl _⟩
  cases hacc : accepted reply with
  | none =>
    rw [hacc] at hkept
    refine ⟨hkept, h.known, h.pool, (fun p hp => by cases hp), h.follows.snoc ?_⟩
    rintro ⟨-, reply', specs, hf', hacc'⟩
    rw [show π.fetch = some (.ret reply') from hf', Option.some.injEq, Prog.ret.injEq] at hf
    rw [hf, hacc] at hacc'
    cases hacc'
  | some specs =>
    rw [hacc] at hkept
    obtain ⟨tr₁, y, mid, selector, nodes, htr, hlist, rfl, hnodup, htells⟩ := h.answer hf hacc
    refine ⟨hkept, owns_refresh h.known htells, fun u hu => lookup_of_pool h.known htells hnodup hu,
      (fun p hp => by cases hp), ?_⟩
    refine .inr ⟨tr₁, y, mid, _, [], selector, nodes, by rw [htr], hlist, ⟨rfl, reply, _, hf, hacc⟩, by simp, ?_⟩
    rw [pool_faces h.known htells]
    exact expected_of_listing hlist.listing

theorem Inv.step (h : Inv parse service tr x.src) (hn : Next parse cfg service x.src x.label x.dst)
    (hk : SpecsKept x.src.control.state x.dst.control.state) : Inv parse service (tr ++ [x]) x.dst := by
  obtain ⟨π, a, π'⟩ := x
  have hkept : ∀ y ∈ tr ++ [⟨π, a, π'⟩], SpecsKept y.src.control.state π'.control.state :=
    Run.forall_snoc.mpr ⟨fun y hy => (h.kept y hy).trans hk, hk⟩
  change Next parse cfg service π a π' at hn
  cases hn with
  | call hc =>
    exact ⟨hkept, fun e he => (h.known e he).later hk, h.pool, fun p hp => (h.fetch p hp).bystand trivial,
      h.follows.snoc fun hy => by cases hy.1⟩
  | fetch hf =>
    refine ⟨hkept, h.known, h.pool, fun p hp => ?_, h.follows.snoc fun hy => by cases hy.1⟩
    obtain rfl := Option.some.inj hp
    exact .asked
  | read hf hr =>
    refine ⟨hkept, h.known, h.pool, fun p hp => ?_, h.follows.snoc fun hy => by cases hy.1⟩
    obtain rfl := Option.some.inj hp
    exact (h.fetch _ hf).read hr
  | deliver hf => exact h.deliver hf
  | drop =>
    refine ⟨hkept, h.known, h.pool, fun p hp => ?_, h.follows.snoc fun hy => by cases hy.1⟩
    cases hp
  | @check _ φ ha hc =>
    obtain ⟨hpool, hknown⟩ := check_pool ha hc
    refine ⟨hkept, ?_, ?_, fun p hp => (h.fetch p hp).bystand trivial, ?_⟩
    · change ∀ e ∈ φ.known, Owns parse π.control.state e.1 e.2
      rw [hknown]
      exact h.known
    · change ∀ u ∈ φ.pool, φ.known.lookup u.backend.name = some u
      rw [hpool, hknown]
      exact h.pool
    · change Followed parse service _ φ.pool
      rw [hpool]
      exact h.follows.snoc fun hy => by cases hy.1

end Step

/-! ## Every run -/

section Runs

variable {ι : Type} [DecidableEq ι] {parse : String → Option String} {cfg : Proxy.Config} {service : String}
  {timeout : ControlPlane.Duration} {s : Store} {e : ι → ControlPlane.Event} {tr : List (Step (State ι) (Action ι))}
  {π : State ι}

/-- The control plane's part of a run. -/
def Action.control : Action ι → Option (ι × (Σ c : ControlPlane.Call, ControlPlane.Resp c))
  | .call l => some l
  | _ => none

theorem control_run (h : Run (Next parse cfg service) (start cfg timeout s e) tr π) :
    Run (Config.Next ControlPlane.Exec) (ControlPlane.launch timeout s e)
      (tr.filterMap fun x => x.label.control.map fun l => ⟨x.src.control, l, x.dst.control⟩) π.control := by
  refine Run.project State.control Action.control (fun π a π' l hn hl => ?_) (fun π a π' hn hl => ?_) h
  · cases hn with
    | call hc =>
      obtain rfl := Option.some.inj hl
      exact hc
    | _ => cases hl
  · cases hn with
    | call hc => cases hl
    | _ => rfl

/-- The control plane goes on for a while. -/
theorem run_calls {π₀ : State ι} {κ : Concurrent ι} {calls : List (CallStep ι)}
    (h : Run (Next parse cfg service) π₀ tr π) (hc : Run (Config.Next ControlPlane.Exec) π.control calls κ) :
    ∃ tr', Run (Next parse cfg service) π₀ tr' { π with control := κ } := by
  induction hc with
  | nil => exact ⟨tr, h⟩
  | @snoc _ κ₁ κ₂ l _ hn ih =>
    obtain ⟨tr', hrun⟩ := ih
    have hcall : Next parse cfg service { π with control := κ₁ } (.call l) { π with control := κ₂ } := .call hn
    exact ⟨_, hrun.snoc _ hcall⟩

theorem steps_kept (hs : ControlPlane.Sound s) (h : Run (Next parse cfg service) (start cfg timeout s e) tr π) :
    ∀ x ∈ tr, SpecsKept x.src.control.state x.dst.control.state := by
  intro x hx
  obtain ⟨-, hkept⟩ := ControlPlane.consistent_steps hs (control_run h)
  obtain ⟨-, -, -, -, hn⟩ := h.before hx
  cases hl : x.label.control with
  | none =>
    obtain ⟨π, a, π'⟩ := x
    change Next parse cfg service π a π' at hn
    cases hn with
    | call hc => cases hl
    | _ => exact .refl _
  | some l => exact hkept _ (List.mem_filterMap.mpr ⟨x, hx, by rw [hl]; rfl⟩)

theorem inv_of_run (hs : ControlPlane.Sound s) (h : Run (Next parse cfg service) (start cfg timeout s e) tr π) :
    Inv parse service tr π := by
  refine Run.inv_hist (Inv parse service) (fun x => SpecsKept x.src.control.state x.dst.control.state)
    (fun tr x hn hk hI => hI.step hn hk) ?_ h (steps_kept hs h)
  refine ⟨by simp, ?_, ?_, (fun p hp => by cases hp), .inl ⟨rfl, by simp⟩⟩
  · simp [start]
  · simp [start]

/-- **The pool follows the nodes.**  Whatever the control plane does meanwhile, the pool is empty as long as no answer
has arrived, and from then on it holds exactly the nodes that were healthy, and selected, when the handler of the last
answer listed them, as far as their addresses parse; a node that is gone from that listing is gone from the pool. -/
theorem pool_follows (hs : ControlPlane.Sound s) (h : Run (Next parse cfg service) (start cfg timeout s e) tr π) :
    Followed parse service tr π.fleet.pool := (inv_of_run hs h).follows

omit [DecidableEq ι] in
theorem names_nodup {pool : List Upstream} (h : Followed parse service tr pool) :
    (pool.map fun u => u.backend.name).Nodup := by
  rcases h with ⟨rfl, -⟩ | ⟨tr₁, x, mid, d, tr₂, selector, nodes, -, -, -, -, hpool⟩
  · exact List.nodup_nil
  · have hnames := hpool.map Prod.fst
    rw [List.map_map] at hnames
    refine hnames.nodup_iff.mpr ?_
    have hids := ControlPlane.nodup_of_perm_filter (List.Perm.refl (x.src.control.state.nodes.rows.filter fun n =>
      ControlPlane.matchesSelector n.labels selector && n.status = .healthy))
    rw [List.Nodup, List.pairwise_map] at hids ⊢
    refine List.pairwise_filterMap.mpr (hids.imp fun {n n'} hne => ?_)
    -- an entry has the ID of its node
    intro f hf f' hf' hid
    obtain ⟨_, _, rfl⟩ := Option.map_eq_some_iff.mp hf
    obtain ⟨_, _, rfl⟩ := Option.map_eq_some_iff.mp hf'
    exact hne hid

/-- **Names are addresses.**  At every moment the backend of a name is the node registered under that ID, with the
address it registered; and the same backend, with its health and its counts, goes on from one answer to the
next if `url.Parse` spells the address the same. -/
theorem names_are_addresses (hs : ControlPlane.Sound s)
    (h : Run (Next parse cfg service) (start cfg timeout s e) tr π) :
    (∀ u ∈ π.fleet.pool, Owns parse π.control.state u.backend.name u) ∧
    (π.fleet.pool.map fun u => u.backend.name).Nodup ∧
    ∀ a π', Next parse cfg service π a π' → ∀ u ∈ π.fleet.pool, ∀ u' ∈ π'.fleet.pool,
      u'.backend.name = u.backend.name →
      (∀ address, addressOf π.control.state u.backend.name = some address → parse address = some address) → u' = u := by
  have hI := inv_of_run hs h
  have howns : ∀ u ∈ π.fleet.pool, Owns parse π.control.state u.backend.name u := by
    intro u hu
    obtain ⟨l₁, l₂, hl, -⟩ := List.lookup_eq_some_iff.mp (hI.pool u hu)
    exact hI.known (u.backend.name, u) (by simp [hl])
  refine ⟨howns, names_nodup hI.follows, fun a π' hn u hu u' hu' hname hnormal => ?_⟩
  obtain ⟨address, haddr, -⟩ := (howns u hu).url
  -- a step that leaves the pool as it is
  have hsame (hu' : u' ∈ π.fleet.pool) : u' = u := by
    have hlook := hI.pool u' hu'
    rw [hname, hI.pool u hu] at hlook
    exact (Option.some.inj hlook).symm
  cases hn with
  | @deliver reply hf =>
    cases hacc : accepted reply with
    | none =>
      rw [hacc] at hu'
      exact hsame hu'
    | some specs =>
      rw [hacc] at hu'
      obtain ⟨-, -, -, -, -, -, -, -, -, htells⟩ := hI.answer hf hacc
      exact same_object hI.known htells (hI.pool u hu) hu' hname haddr (hnormal address haddr)
  | check ha hc => exact hsame ((check_pool ha hc).1 ▸ hu')
  | _ => exact hsame hu'

end Runs

/-! Two nodes register; the provider asks in between, and the answer arrives after both. -/

def joining (b : Bool) : ControlPlane.Event := .register (some { address := if b then "http://a:1" else "http://b:1" })

def polling : Proxy.Config := { strategy := "round_robin", healthCheck := ⟨3, 2⟩ }

def begun : State Bool := start polling (15 * ControlPlane.second) {} joining

def oneJoined : Concurrent Bool := ControlPlane.interleaved 7 begun.control (List.replicate 8 false)

def lateAnswer : State Bool where
  control := ControlPlane.interleaved 7 oneJoined (List.replicate 8 true)
  fleet := begun.fleet.refresh some (accepted (okReply oneJoined.state.nodes.rows))

theorem run_lateAnswer : ∃ tr, Run (Next some polling "") begun tr lateAnswer := by
  have hnil : Run (Next some polling "") begun [] begun := .nil
  obtain ⟨tr₁, h₁⟩ := run_calls hnil (ControlPlane.run_interleaving 7 begun.control (List.replicate 8 false))
  have hfetch := h₁.snoc _ (.fetch rfl)
  have hread := hfetch.snoc _ (.read rfl (ControlPlane.read_allowed _ .listNodes))
  obtain ⟨tr₂, h₂⟩ := run_calls hread (ControlPlane.run_interleaving 7 oneJoined (List.replicate 8 true))
  exact ⟨_, h₂.snoc _ (.deliver rfl)⟩

theorem pool_follows_late :
    lateAnswer.control.state.nodes.rows.length = 2 ∧
    lateAnswer.fleet.pool.map face = [("node_00000000", "http://b:1", 1)] ∧
    ∃ tr, Run (Next some polling "") begun tr lateAnswer ∧ Followed some "" tr lateAnswer.fleet.pool := by
  refine ⟨by decide +kernel, by decide +kernel, ?_⟩
  obtain ⟨tr, h⟩ := run_lateAnswer
  exact ⟨tr, h, pool_follows ControlPlane.sound_empty h⟩

theorem names_are_addresses_late :
    (∀ u ∈ lateAnswer.fleet.pool, Owns some lateAnswer.control.state u.backend.name u) ∧
    (lateAnswer.fleet.pool.map fun u => u.backend.name) = ["node_00000000"] ∧
    ∀ a π', Next some polling "" lateAnswer a π' → ∀ u ∈ lateAnswer.fleet.pool, ∀ u' ∈ π'.fleet.pool,
      u'.backend.name = u.backend.name → u' = u := by
  obtain ⟨tr, h⟩ := run_lateAnswer
  obtain ⟨howns, -, hsame⟩ := names_are_addresses ControlPlane.sound_empty h
  exact ⟨howns, by decide +kernel, fun a π' hn u hu u' hu' hname => hsame a π' hn u hu u' hu' hname fun _ _ => rfl⟩

end Platform
