import InfraPlatform.ControlPlane.System

/-!
# Stale agents

`UpdatePodStatus` takes a report from any node on any pod: it does not compare the
pod's assignment with the node in the request path.  `fenced_iff` says which
reports are harmless nevertheless, and `late_report_unfenced` is a run in which a node that lost
its pod to another node ends the other node's run.
-/

namespace ControlPlane

open Lib Lib.Prog Api

variable {s s' : Store} {timeout : Duration} {e : Event}

/-- What a report may change of a pod. -/
def podFace (s : Store) (pod : String) : Option (PodStatus × Option Int × String) :=
  (s.pods.get pod).map fun p => (p.status, p.exitCode, p.output)

/-- What a report may change of a node. -/
def nodeFace (s : Store) (node : String) : Option (Int × ResourceCapacity) :=
  (s.nodes.get node).map fun n => (n.runningJobs, n.available)

def assignedTo (s : Store) (pod node : String) : Prop := (s.pods.get pod).map Pod.nodeID = some node

/-- A report that changes its pod or some node's account comes from the node the pod is assigned to. -/
def Fenced (s s' : Store) : Event → Prop
  | .report node pod _ => assignedTo s pod node ∨
      (podFace s' pod = podFace s pod ∧ ∀ k, nodeFace s' k = nodeFace s k)
  | _ => True

/-- The report comes from the assigned node, or repeats what is stored and asks for no legal move. -/
def Event.harmless (s : Store) : Event → Prop
  | .report node pod (some req) => ∀ p ∈ s.pods.rows, p.id = pod → p.nodeID = node ∨
      (transitionPod p.status req.status = false ∧ req.exitCode = p.exitCode ∧ req.output = p.output)
  | _ => True

instance : (e : Event) → Decidable (e.harmless s)
  | .report node pod (some req) => inferInstanceAs (Decidable (∀ p ∈ s.pods.rows, p.id = pod → p.nodeID = node ∨
      (transitionPod p.status req.status = false ∧ req.exitCode = p.exitCode ∧ req.output = p.output)))
  | .report _ _ none | .register _ | .heartbeat .. | .poll _ | .drain _ | .submit _ | .cancel _ | .createService _
  | .updateService .. | .deleteService _ | .schedulerTick _ | .reconcilerTick _ => .isTrue trivial

theorem assignedTo_iff {pod node : String} {p : Pod} (hp : s.pods.get pod = some p) :
    assignedTo s pod node ↔ p.nodeID = node := by
  unfold assignedTo
  simp [hp]

/-- The condition, read at the pod the report is about. -/
theorem harmless_report_iff {node pod : String} {req : PodStatusRequest} {p : Pod} (hp : s.pods.get pod = some p) :
    (Event.report node pod (some req)).harmless s ↔ p.nodeID = node ∨
      (transitionPod p.status req.status = false ∧ req.exitCode = p.exitCode ∧ req.output = p.output) := by
  have hid : p.id = pod := Table.key_of_get hp
  constructor
  · intro h
    exact h p (Table.mem_of_get hp) hid
  · intro h q hq hqid
    rw [← hqid, Table.get_of_mem hq] at hp
    obtain rfl : q = p := by simpa using hp
    exact h

/-- A refused report still overwrites exit code and output. -/
theorem podFace_rejected {pod : String} {req : PodStatusRequest} {p : Pod} (hp : s.pods.get pod = some p) :
    podFace (s.putPod (reported p req)) pod = podFace s pod ↔ req.exitCode = p.exitCode ∧ req.output = p.output := by
  have hid : p.id = pod := Table.key_of_get hp
  unfold podFace
  rw [hp, Store.putPod_pods, Table.get_put, if_pos (show pod = (reported p req).id from hid.symm)]
  simp [reported]

/-- An accepted report moves the pod to another status. -/
theorem podFace_accepted {node pod : String} {req : PodStatusRequest} {p : Pod} {t : Time}
    (hp : s.pods.get pod = some p) (ht : transitionPod p.status req.status = true) :
    podFace (afterReport s node p req t) pod ≠ podFace s pod := by
  have hid : p.id = pod := Table.key_of_get hp
  unfold podFace
  rw [hp, afterReport_pods, Table.get_put, if_pos (show pod = (accepted p req t).id from hid.symm)]
  intro h
  have hst : req.status = p.status := by
    simp only [Option.map_some, Option.some.injEq, Prod.mk.injEq] at h
    exact h.1
  exact transitionPod_ne ht hst

/-- One step is fenced exactly if its report is harmless. -/
theorem fenced_step (hc : Change timeout e s s') : Fenced s s' e ↔ e.harmless s := by
  cases e with
  | report node pod body =>
    simp only [Fenced]
    cases hc with
    | none hr => cases hr
    | service hr _ => cases hr
    | ignored _ _ _ hno =>
      refine iff_of_true (.inr ⟨rfl, fun _ => rfl⟩) ?_
      cases body with
      | none => trivial
      | some req =>
        intro p hp hid
        rw [← hid, Table.get_of_mem hp] at hno
        simp at hno
    | rejected _ _ req p hp hst =>
      rw [harmless_report_iff hp, assignedTo_iff hp, podFace_rejected hp]
      simp only [hst, true_and]
      exact or_congr_right (and_iff_left fun _ => rfl)
    | accepted _ _ req p t hp ht =>
      rw [harmless_report_iff hp, assignedTo_iff hp]
      constructor
      · rintro (h | h)
        · exact .inl h
        · exact absurd h.1 (podFace_accepted hp ht)
      · rintro (h | h)
        · exact .inl h
        · rw [ht] at h
          cases h.1
  | _ => exact Iff.rfl

/-- **Fencing.**  The reports of a run are fenced exactly if each of them is harmless
when it is handled. -/
theorem fenced_iff {tr : List (Step Sys Event)} {σ₀ σ : Sys} (h : Run (Sys.Next timeout) σ₀ tr σ) :
    (∀ x ∈ tr, Fenced x.src.store x.dst.store x.label) ↔ ∀ x ∈ tr, x.label.harmless x.src.store := by
  refine Run.forall_iff (fun _ => True) (fun _ => True) (fun x => Fenced x.src.store x.dst.store x.label)
    (fun x => x.label.harmless x.src.store) ?_ trivial h (fun _ _ => trivial)
  rintro x ⟨r, hr, -⟩ - -
  exact ⟨fenced_step (Event.prog_spec hr), fun _ => trivial⟩

theorem fenced_iff_started :
    (∀ x ∈ Sys.init.trace (15 * second) startedRun, x.label.harmless x.src.store) ∧
    ∀ x ∈ Sys.init.trace (15 * second) startedRun, Fenced x.src.store x.dst.store x.label :=
  ⟨by decide +kernel, (fenced_iff (Sys.run_init _ startedRun)).mpr (by decide +kernel)⟩

/-- The first node times out, and its pod runs on a second one. -/
def movedRun : List (Time × Event) :=
  startedRun ++
    [(100 * second, .register (some { address := "b:1", capacity := { cpu := 4, memoryMB := 100 } })),
     (101 * second, .reconcilerTick (101 * second)), (200 * second, .schedulerTick (200 * second)),
     (201 * second, .poll "node_00000003"),
     (202 * second, .report "node_00000003" "pod_00000002" (some { status := .running }))]

/-- A late report of the node that lost the pod. -/
def lateReport : Event := .report "node_00000000" "pod_00000002" (some { status := .failed, exitCode := some 1 })

theorem late_report_unfenced :
    ¬ ∀ (timeout : Duration) (tr : List (Step Sys Event)) (σ : Sys), Run (Sys.Next timeout) Sys.init tr σ →
      ∀ x ∈ tr, Fenced x.src.store x.dst.store x.label := by
  intro h
  have hrun := (Sys.run_init (15 * second) movedRun).snoc lateReport (Sys.next_apply _ (203 * second) _ lateReport)
  rcases h _ _ _ hrun _ (List.mem_append_right _ List.mem_cons_self) with hfence | ⟨hpod, -⟩
  · revert hfence
    unfold assignedTo
    decide +kernel
  · revert hpod
    decide +kernel

end ControlPlane
