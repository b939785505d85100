import InfraPlatform.ControlPlane.System

/-!
# Rejected reports

`UpdatePodStatus` writes exit code and output into the pod first and asks for the
transition after that, in a second store call.  A report that is refused with 409 has
changed the pod by then.

* `rejected_keeps_iff`: an error answer leaves the pods and nodes alone exactly if the transition is legal or
  the report repeats the recorded exit code and output.
* `refused_report_overwrites`: a duplicate report that is refused empties the recorded output.
-/

namespace ControlPlane

open Lib Lib.Prog Api

variable {s s' : Store}

/-- An answer other than 200 leaves every pod and every node as it was. -/
def KeepsOnError (s s' : Store) (r : Response) : Prop := r.code ≠ 200 → s'.pods = s.pods ∧ s'.nodes = s.nodes

/-- The transition that the report asks for is legal, or the report has nothing new to record. -/
def Recordable (s : Store) (pod : String) (req : PodStatusRequest) : Prop :=
  ∀ p, s.pods.get pod = some p →
    transitionPod p.status req.status = true ∨ (req.exitCode = p.exitCode ∧ req.output = p.output)

/-- The write before the transition is one that changes nothing. -/
theorem putPod_reported_iff {pod : String} {p : Pod} {req : PodStatusRequest} (hp : s.pods.get pod = some p) :
    (s.putPod (reported p req)).pods = s.pods ↔ req.exitCode = p.exitCode ∧ req.output = p.output := by
  have hid : p.id = pod := Table.key_of_get hp
  constructor
  · intro h
    have hget : (s.pods.put (reported p req)).get p.id = some (reported p req) :=
      Table.get_put_self s.pods (reported p req)
    rw [show s.pods.put (reported p req) = s.pods from h, hid, hp] at hget
    have heq : p = reported p req := Option.some.inj hget
    exact ⟨(congrArg Pod.exitCode heq).symm, (congrArg Pod.output heq).symm⟩
  · rintro ⟨hexit, hout⟩
    have heq : reported p req = p := by
      unfold reported
      rw [hexit, hout]
    rw [heq]
    exact Table.put_self (hid ▸ hp)

/-- **Rejected reports.** -/
theorem rejected_keeps_iff {node pod : String} {body : Option PodStatusRequest} {r : Response}
    (h : Runs Exec (updatePodStatus node pod body) s r s') :
    KeepsOnError s s' r ↔ ∀ req, body = some req → Recordable s pod req := by
  unfold KeepsOnError Recordable
  rcases updatePodStatus_spec h with ⟨hno, rfl⟩ | ⟨req, p, rfl, hp, ⟨ht, hcode, rfl⟩ | ⟨ht, hcode, t, rfl⟩⟩
  · refine iff_of_true (fun _ => ⟨rfl, rfl⟩) ?_
    rintro req rfl p hp
    rcases hno with hno | hno
    · cases hno
    · rw [hno] at hp
      cases hp
  · -- refused, with the record written already
    have herror : r.code ≠ 200 := by rw [hcode]; decide
    constructor
    · rintro hkeep _ ⟨⟩ q hq
      rw [hp] at hq
      cases hq
      exact .inr ((putPod_reported_iff hp).mp (hkeep herror).1)
    · intro hrec _
      rcases hrec req rfl p hp with hlegal | hsame
      · rw [ht] at hlegal
        cases hlegal
      · exact ⟨(putPod_reported_iff hp).mpr hsame, rfl⟩
  · refine iff_of_true (fun hne => absurd hcode hne) ?_
    rintro _ ⟨⟩ q hq
    rw [hp] at hq
    cases hq
    exact .inl ht

/-- The pod that runs after `startedRun` succeeds and leaves an output. -/
def succeededRun : List (Time × Event) :=
  startedRun ++ [(7, .report "node_00000000" "pod_00000002"
    (some { status := .succeeded, exitCode := some 0, output := "done" }))]

def succeededStore : Store := (Sys.init.applyAll (15 * second) succeededRun).store

/-- The handler on a request, with the clock at `clock`. -/
def answerReport (clock : Time) (s : Store) (node pod : String) (req : PodStatusRequest) : Response × Store :=
  (updatePodStatus node pod (some req)).run (fun c s => s.exec clock c) s

theorem runs_answerReport (clock : Time) (s : Store) (node pod : String) (req : PodStatusRequest) :
    Runs Exec (updatePodStatus node pod (some req)) s (answerReport clock s node pod req).1
      (answerReport clock s node pod req).2 :=
  run_runs _ (fun c s => exec_allowed clock c s) _ s

/-- The same report once more. -/
def repeatedReport : PodStatusRequest := { status := .succeeded, exitCode := some 0, output := "done" }

theorem rejected_keeps_iff_repeated :
    (answerReport 8 succeededStore "node_00000000" "pod_00000002" repeatedReport).1.code = 409 ∧
    (answerReport 8 succeededStore "node_00000000" "pod_00000002" repeatedReport).2.pods = succeededStore.pods := by
  have hcode : (answerReport 8 succeededStore "node_00000000" "pod_00000002" repeatedReport).1.code = 409 := by
    decide +kernel
  have hrec : Recordable succeededStore "pod_00000002" repeatedReport := by
    intro p hp
    have hsame : (succeededStore.pods.get "pod_00000002").map (fun p => (p.exitCode, p.output)) =
        some (some 0, "done") := by decide +kernel
    rw [hp] at hsame
    simp only [Option.map_some, Option.some.injEq, Prod.mk.injEq] at hsame
    exact .inr ⟨hsame.1.symm, hsame.2.symm⟩
  refine ⟨hcode, ?_⟩
  have hkeep := (rejected_keeps_iff (runs_answerReport 8 succeededStore "node_00000000" "pod_00000002"
    repeatedReport)).mpr (by rintro req ⟨⟩; exact hrec)
  exact (hkeep (by rw [hcode]; decide)).1

/-- A late report of another outcome is refused, and its exit code and output stand in the pod. -/
theorem refused_report_overwrites :
    ¬ ∀ (s s' : Store) (node pod : String) (body : Option PodStatusRequest) (r : Response),
      Runs Exec (updatePodStatus node pod body) s r s' → KeepsOnError s s' r := by
  intro h
  have hkeep := h _ _ _ _ _ _ (runs_answerReport 8 succeededStore "node_00000000" "pod_00000002" { status := .failed })
  have hcode : (answerReport 8 succeededStore "node_00000000" "pod_00000002" { status := .failed }).1.code = 409 := by
    decide +kernel
  have hpods := (hkeep (by rw [hcode]; decide)).1
  have hout := congrArg (fun t : Table Pod.id => (t.get "pod_00000002").map Pod.output) hpods
  revert hout
  decide +kernel

end ControlPlane
