import InfraPlatform.ControlPlane.Interface
import InfraPlatform.ControlPlane.Identity

/-!
# Backends of a service

`internal/api/handlers_proxy.go` and `service_resolve.go`: what the control plane tells the reverse proxy.  The handlers
only read the store, with one call for the service and one for the nodes, so a node may come and go between the two
calls and after them.

`selectors_all_or_nothing`: no request gives a node labels, so a selector selects every node or none.
-/

namespace ControlPlane

open Lib Lib.Prog

/-! ## The calls -/

inductive Read where
  | getService (id : String)
  | listNodes
  | listNodesByLabels (selector : Labels)

@[reducible] def ReadResp : Read → Type
  | .getService _ => Except StoreErr Service
  | .listNodes | .listNodesByLabels _ => Except StoreErr (List Node)

/-- What `MemoryStore` may answer. -/
def ReadAnswer (s : Store) : (c : Read) → ReadResp c → Prop
  | .getService id, r => r = s.getService id
  | .listNodes, r => Lists s.nodes.rows (fun _ => true) r
  | .listNodesByLabels selector, r => Lists s.nodes.rows (fun n => matchesSelector n.labels selector) r

def ReadExec : Effect Read ReadResp Store := fun c s r s' => ReadAnswer s c r ∧ s' = s

/-- One choice of the listing's order. -/
def Store.read (s : Store) : (c : Read) → ReadResp c
  | .getService id => s.getService id
  | .listNodes => .ok s.nodes.rows
  | .listNodesByLabels selector => .ok (s.nodes.rows.filter fun n => matchesSelector n.labels selector)

theorem read_allowed (s : Store) (c : Read) : ReadAnswer s c (s.read c) := by
  cases c with
  | getService id => rfl
  | listNodes => exact ⟨_, rfl, by simp⟩
  | listNodesByLabels selector => exact ⟨_, rfl, .refl _⟩

abbrev Reader := Prog Read ReadResp

namespace Reader

def getService (id : String) : Reader (Except StoreErr Service) := Prog.op (Read.getService id)

def listNodes : Reader (Except StoreErr (List Node)) := Prog.op Read.listNodes

def listNodesByLabels (selector : Labels) : Reader (Except StoreErr (List Node)) :=
  Prog.op (Read.listNodesByLabels selector)

end Reader

/-! ## The handlers -/

/-- A descriptor for the reverse proxy. -/
structure BackendSpec where
  name : String
  url : String
  weight : Int
deriving DecidableEq, Repr

structure Reply where
  code : Nat
  body : Json

namespace Api

def BackendSpec.json (b : BackendSpec) : Json :=
  .object [("name", some (.str b.name)), ("url", some (.str b.url)), ("weight", some (.int b.weight))]

def backendsJSON (backends : List BackendSpec) : Json := .arr (backends.map BackendSpec.json)

def replyError (code : Nat) (msg : String) : Reply := ⟨code, .object [("error", some (.str msg))]⟩

/-- The loop over the nodes of a listing. -/
def healthyBackends (nodes : List Node) : List BackendSpec :=
  (nodes.filter fun n => n.status = .healthy).map fun n => { name := n.id, url := n.address, weight := 1 }

/-- The healthy nodes whose labels match the service's selector. -/
def resolveServiceBackends (svc : Service) : Reader (Except StoreErr (List BackendSpec)) := do
  match ← Reader.listNodesByLabels svc.selector with
  | .error err => pure (.error err)
  | .ok nodes => pure (.ok (healthyBackends nodes))

def getServiceBackends (id : String) : Reader Reply := do
  match ← Reader.getService id with
  | .error _ => pure (replyError 404 "service not found")
  | .ok svc =>
    match ← resolveServiceBackends svc with
    | .error err => pure (replyError 500 err.text)
    | .ok backends =>
      pure ⟨200, .object [("backends", some (backendsJSON backends)), ("total", some (.int backends.length))]⟩

/-- `service` is the query parameter, empty where there is none. -/
def proxyBackends (service : String) : Reader Reply :=
  if service ≠ "" then do
    match ← Reader.getService service with
    | .error _ => pure (replyError 404 "service not found")
    | .ok svc =>
      match ← resolveServiceBackends svc with
      | .error err => pure (replyError 500 err.text)
      | .ok backends => pure ⟨200, .object [("backends", some (backendsJSON backends))]⟩
  else do
    match ← Reader.listNodes with
    | .error err => pure (replyError 500 err.text)
    | .ok nodes => pure ⟨200, .object [("backends", some (backendsJSON (healthyBackends nodes)))]⟩

theorem healthyBackends_perm {nodes nodes' : List Node} (h : nodes.Perm nodes') :
    (healthyBackends nodes).Perm (healthyBackends nodes') := (h.filter _).map _

end Api

/-! ## Selectors -/

/-- Without labels, a selector matches if it asks for nothing but empty values. -/
theorem matchesSelector_none (selector : Labels) :
    matchesSelector none selector = true ↔ ∀ e ∈ Json.entries selector, e.2 = "" := by
  have hempty (k : String) : labelAt none k = "" := rfl
  simp only [matchesSelector, hempty, List.all_eq_true, beq_iff_eq]
  exact forall₂_congr fun e _ => eq_comm

/-- **Selectors take all or nothing.**  In every state that an interleaving of requests and passes reaches, the backends
of a service are all healthy nodes, if its selector has no value other than the empty string, and none at all
otherwise. -/
theorem selectors_all_or_nothing {ι : Type} [DecidableEq ι] {timeout : Duration} {s s' : Store} {e : ι → Event}
    {tr : List (CallStep ι)} {cfg : Concurrent ι} (hs : Sound s)
    (h : Run (Config.Next Exec) (launch timeout s e) tr cfg) {svc : Service} {r : Except StoreErr (List BackendSpec)}
    (hr : Runs ReadExec (Api.resolveServiceBackends svc) cfg.state r s') :
    ∃ backends, r = .ok backends ∧
      ((∀ e ∈ Json.entries svc.selector, e.2 = "") ∧ backends.Perm (Api.healthyBackends cfg.state.nodes.rows) ∨
        (∃ e ∈ Json.entries svc.selector, e.2 ≠ "") ∧ backends = []) := by
  obtain ⟨_, s₁, hlist, hend⟩ := runs_bind.mp hr
  obtain ⟨⟨nodes, rfl, hperm⟩, rfl⟩ := runs_op.mp hlist
  obtain ⟨rfl, -⟩ := runs_pure.mp hend
  refine ⟨_, rfl, ?_⟩
  have hlabels : ∀ n ∈ cfg.state.nodes.rows, n.labels = none := fun n hn =>
    ((consistent_steps hs h).1.sound.nodes _ n (Table.get_of_mem hn)).2
  by_cases hall : ∀ e ∈ Json.entries svc.selector, e.2 = ""
  · have hkeep : cfg.state.nodes.rows.filter (fun n => matchesSelector n.labels svc.selector) = cfg.state.nodes.rows :=
      List.filter_eq_self.mpr fun n hn => by rw [hlabels n hn]; exact (matchesSelector_none _).mpr hall
    rw [hkeep] at hperm
    exact .inl ⟨hall, Api.healthyBackends_perm hperm⟩
  · have hdrop : cfg.state.nodes.rows.filter (fun n => matchesSelector n.labels svc.selector) = [] :=
      List.filter_eq_nil_iff.mpr fun n hn => by
        rw [hlabels n hn]
        exact fun hm => hall ((matchesSelector_none _).mp hm)
    rw [hdrop, List.perm_nil] at hperm
    subst hperm
    exact .inr ⟨by simpa using hall, rfl⟩

/-- Two nodes register at once; the first IDs they draw are the same. -/
def registeredStore : Store :=
  (interleaved 7 (launch (15 * second) {} fun b : Bool =>
    .register (some { address := if b then "http://a:1" else "http://b:1" }))
    ((List.replicate 8 [true, false]).flatten)).state

theorem selectors_all_or_nothing_registered :
    registeredStore.nodes.rows.map (fun n => (n.address, n.status)) =
      [("http://a:1", .healthy), ("http://b:1", .healthy)] ∧
    ∃ backends, ((Api.resolveServiceBackends { id := "web", selector := some [("app", "web")] }).run
        (fun c s => (s.read c, s)) registeredStore).1 = .ok backends ∧
      ((∀ e ∈ [("app", "web")], e.2 = "") ∧ backends.Perm (Api.healthyBackends registeredStore.nodes.rows) ∨
        (∃ e ∈ [("app", "web")], e.2 ≠ "") ∧ backends = []) :=
  ⟨by decide +kernel, selectors_all_or_nothing sound_empty (run_interleaving 7 _ _)
    (run_runs _ (fun c s => ⟨read_allowed s c, rfl⟩) _ _)⟩

end ControlPlane
