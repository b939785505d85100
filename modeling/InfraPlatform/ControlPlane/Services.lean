import InfraPlatform.ControlPlane.System

/-!
# Stored services

Two handlers write services.  `CreateService` refuses a body without a path prefix and fills in an ID, a strategy
and a namespace where they are missing; `UpdateService` stores the body of a `PUT` as it is, under the ID of
the path.

* `Served`: what a service request does to the table of services.
* `services_wellFormed_iff`: over any sequence of service requests, the stored services are as `CreateService`
  would have them exactly if the bodies of the `PUT`s that hit a stored service are.
-/

namespace ControlPlane

open Lib Lib.Prog Api

/-! ## What a service has -/

/-- What `CreateService` asks for or fills in, the ID apart. -/
def Service.Complete (svc : Service) : Prop := svc.pathPrefix ≠ "" ∧ svc.strategy ≠ .other "" ∧ svc.ns ≠ ""

instance (svc : Service) : Decidable svc.Complete := inferInstanceAs (Decidable (_ ∧ _ ∧ _))

/-- Every stored service has its key as its ID and nothing missing. -/
def ServicesWellFormed (s : Store) : Prop :=
  ∀ k svc, s.services.get k = some svc → svc.id = k ∧ svc.id ≠ "" ∧ svc.Complete

theorem servicesWellFormed_iff {s : Store} :
    ServicesWellFormed s ↔ ∀ svc ∈ s.services.rows, svc.id ≠ "" ∧ svc.Complete := by
  constructor
  · intro h svc hsvc
    exact (h svc.id svc (Table.get_of_mem hsvc)).2
  · intro h k svc hsvc
    exact ⟨Table.key_of_get hsvc, h svc (Table.mem_of_get hsvc)⟩

instance (s : Store) : Decidable (ServicesWellFormed s) := decidable_of_iff _ servicesWellFormed_iff.symm

theorem ServicesWellFormed.empty : ServicesWellFormed {} := by
  intro k svc h
  cases h

theorem serviceWithDefaults_complete {svc : Service} (h : svc.pathPrefix ≠ "") :
    (serviceWithDefaults svc).Complete := by
  refine ⟨h, ?_, ?_⟩
  · unfold serviceWithDefaults
    dsimp only
    split
    · simp
    · next hne => exact hne
  · unfold serviceWithDefaults
    dsimp only
    split
    · simp
    · next hne => exact hne

/-! ## What a request does to the table -/

/-- The record that a `PUT` writes over a stored service. -/
def Event.overwrites (s : Store) : Event → Option Service
  | .updateService id (some svc) => if (s.services.get id).isSome then some { svc with id } else none
  | _ => none

inductive Served (e : Event) (s s' : Store) : Prop where
  | kept : e.overwrites s = none → s'.services = s.services → Served e s s'
  | created (svc : Service) (now : Time) : e.overwrites s = none → svc.id ≠ "" → svc.Complete →
      s'.services = s.services.put { svc with updatedAt := now } → Served e s s'
  | replaced (svc : Service) (now : Time) : e.overwrites s = some svc → (s.services.get svc.id).isSome →
      s'.services = s.services.put { svc with updatedAt := now } → Served e s s'
  | deleted (id : String) : e.overwrites s = none → s'.services = s.services.erase id → Served e s s'

section Spec

variable {timeout : Duration} {s s' : Store} {r : Response}

theorem idOf_ne_empty (kind : String) (b : UInt8 × UInt8 × UInt8 × UInt8) : idOf kind b ≠ "" := by
  intro h
  have hlen := congrArg String.length h
  simp [idOf, String.length_append] at hlen

theorem createService_serves {body : Option Service} (h : Runs Exec (Api.createService body) s r s') :
    Served (.createService body) s s' := by
  cases body with
  | none =>
    obtain ⟨-, rfl⟩ := runs_pure.mp h
    exact .kept rfl rfl
  | some svc =>
    simp only [Api.createService] at h
    split at h
    · obtain ⟨-, rfl⟩ := runs_pure.mp h
      exact .kept rfl rfl
    · next hprefix =>
      split at h
      · simp only [runs_bind, runs_generateID] at h
        obtain ⟨_, s₁, ⟨⟨b, rfl⟩, rfl⟩, h⟩ := h
        cases b with
        | none =>
          obtain ⟨-, rfl⟩ := runs_pure.mp h
          exact .kept rfl rfl
        | some b =>
          obtain ⟨now, rfl⟩ := storeService_stores h
          exact .created (serviceWithDefaults { svc with id := idOf "svc" b }) now rfl (idOf_ne_empty "svc" b)
            (serviceWithDefaults_complete hprefix) rfl
      · next hid =>
        obtain ⟨now, rfl⟩ := storeService_stores h
        exact .created (serviceWithDefaults svc) now rfl hid (serviceWithDefaults_complete hprefix) rfl

theorem updateService_serves {id : String} {body : Option Service}
    (h : Runs Exec (Api.updateService id body) s r s') : Served (.updateService id body) s s' := by
  simp only [Api.updateService, runs_bind, runs_getService, Store.getService] at h
  obtain ⟨_, s₁, ⟨rfl, rfl⟩, h⟩ := h
  cases hget : s₁.services.get id with
  | none =>
    simp only [hget] at h
    obtain ⟨-, rfl⟩ := runs_pure.mp h
    refine .kept ?_ rfl
    cases body with
    | none => rfl
    | some svc => simp [Event.overwrites, hget]
  | some old =>
    simp only [hget] at h
    cases body with
    | none =>
      obtain ⟨-, rfl⟩ := runs_pure.mp h
      exact .kept rfl rfl
    | some svc =>
      obtain ⟨now, rfl⟩ := upsertService_spec rfl h
      exact .replaced { svc with id } now (by simp [Event.overwrites, hget]) (by simp [hget]) rfl

theorem deleteService_serves {id : String} (h : Runs Exec (Api.deleteService id) s r s') :
    Served (.deleteService id) s s' := by
  simp only [Api.deleteService, runs_bind, runs_deleteService, Store.deleteService] at h
  obtain ⟨_, s₁, hdel, h⟩ := h
  split at hdel
  · obtain ⟨rfl, rfl⟩ := Prod.mk.inj hdel
    obtain ⟨-, rfl⟩ := runs_pure.mp h
    exact .deleted id rfl rfl
  · obtain ⟨rfl, rfl⟩ := Prod.mk.inj hdel
    obtain ⟨-, rfl⟩ := runs_pure.mp h
    exact .kept rfl rfl

/-- **What a service request does.** -/
theorem Event.serves {e : Event} (he : e.onServices = true) {resp : Option Response}
    (h : Runs Exec (e.prog timeout) s resp s') : Served e s s' := by
  cases e with
  | createService body =>
    obtain ⟨r, -, h⟩ := runs_answer h
    exact createService_serves h
  | updateService id body =>
    obtain ⟨r, -, h⟩ := runs_answer h
    exact updateService_serves h
  | deleteService id =>
    obtain ⟨r, -, h⟩ := runs_answer h
    exact deleteService_serves h
  | _ => cases he

end Spec

/-! ## One request -/

section Step

variable {s s' : Store} {e : Event}

theorem ServicesWellFormed.put {svc : Service} {now : Time} (h : ServicesWellFormed s) (hid : svc.id ≠ "")
    (hc : svc.Complete) (hs : s'.services = s.services.put { svc with updatedAt := now }) : ServicesWellFormed s' := by
  intro k svc' hget
  refine ⟨Table.key_of_get hget, ?_⟩
  rw [hs, Table.get_put] at hget
  split at hget
  · obtain rfl := Option.some.inj hget
    exact ⟨hid, hc⟩
  · exact (h k svc' hget).2

theorem ServicesWellFormed.erase {id : String} (h : ServicesWellFormed s) (hs : s'.services = s.services.erase id) :
    ServicesWellFormed s' := by
  intro k svc hget
  rw [hs, Table.get_erase] at hget
  split at hget
  · cases hget
  · exact h k svc hget

/-- **One request**: the services stay well-formed exactly if what it writes over a service is complete. -/
theorem Served.wellFormed_iff (hserved : Served e s s') (h : ServicesWellFormed s) :
    ServicesWellFormed s' ↔ ∀ svc ∈ e.overwrites s, svc.Complete := by
  cases hserved with
  | kept hno hs =>
    simp only [hno, Option.mem_def, reduceCtorEq, false_imp_iff, implies_true, iff_true]
    intro k svc hget
    rw [hs] at hget
    exact h k svc hget
  | created svc now hno hid hc hs =>
    simp only [hno, Option.mem_def, reduceCtorEq, false_imp_iff, implies_true, iff_true]
    exact h.put hid hc hs
  | replaced svc now hover hstored hs =>
    obtain ⟨old, hold⟩ := Option.isSome_iff_exists.mp hstored
    obtain ⟨hkey, hid, -⟩ := h svc.id old hold
    rw [hkey] at hid
    simp only [hover, Option.mem_def, Option.some.injEq, forall_eq']
    constructor
    · intro hwf
      have hget : s'.services.get svc.id = some { svc with updatedAt := now } := by
        rw [hs]
        exact Table.get_put_self s.services { svc with updatedAt := now }
      exact (hwf svc.id _ hget).2.2
    · exact fun hc => h.put hid hc hs
  | deleted id hno hs =>
    simp only [hno, Option.mem_def, reduceCtorEq, false_imp_iff, implies_true, iff_true]
    exact h.erase hs

end Step

/-! ## Sequences of requests -/

/-- **When the stored services are well-formed**: from the empty store, over any sequence of service requests, every
service in the store has its key as its non-empty ID, a path prefix, a strategy and a namespace, exactly if each
`PUT` that hits a stored service carries the last three. -/
theorem services_wellFormed_iff {timeout : Duration} {tr : List (Step Sys Event)} {σ : Sys}
    (h : Run (Sys.Next timeout) Sys.init tr σ) (he : ∀ x ∈ tr, x.label.onServices = true) :
    (∀ x ∈ tr, ServicesWellFormed x.dst.store) ↔
      ∀ x ∈ tr, ∀ svc ∈ x.label.overwrites x.src.store, svc.Complete := by
  refine Run.forall_iff (fun σ => ServicesWellFormed σ.store) (fun x => x.label.onServices = true)
    (fun x => ServicesWellFormed x.dst.store) (fun x => ∀ svc ∈ x.label.overwrites x.src.store, svc.Complete) ?_
    ServicesWellFormed.empty h he
  rintro ⟨σ, e, σ'⟩ ⟨r, hr, -⟩ he hσ
  have hiff := (e.serves he hr).wellFormed_iff hσ
  exact ⟨hiff, hiff.mpr⟩

/-- A service is created with defaults, and then replaced by the body of a `PUT`. -/
def createdAndPut (svc : Service) : List (Time × Event) :=
  [(1, .createService (some { id := "svc-1", pathPrefix := "/shop" })), (2, .updateService "svc-1" (some svc))]

/-- The body has all that a service needs. -/
def completeService : Service := { id := "", pathPrefix := "/cart", strategy := .leastConn, ns := "shop" }

theorem services_wellFormed_iff_complete : (Sys.init.trace 0 (createdAndPut completeService)).length = 2 ∧
    ∀ x ∈ Sys.init.trace 0 (createdAndPut completeService), ServicesWellFormed x.dst.store :=
  ⟨by decide +kernel, (services_wellFormed_iff (Sys.run_init 0 _) (by decide +kernel)).mpr (by decide +kernel)⟩

theorem malformed_after_put : ¬ ∀ (timeout : Duration) (tr : List (Step Sys Event)) (σ : Sys),
    Run (Sys.Next timeout) Sys.init tr σ → (∀ x ∈ tr, x.label.onServices = true) → ServicesWellFormed σ.store := by
  intro h
  have hwf := h 0 _ _ (Sys.run_init 0 (createdAndPut { id := "" })) (by decide +kernel)
  revert hwf
  decide +kernel

end ControlPlane
