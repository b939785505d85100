import InfraPlatform.Lib.Run

/-!
# Runs without end

* `Endless`: the states and the labels of an endless run.
* `Endless.upTo`: what only steps of one kind can end holds up to the first of them.
* `Endless.ends`: the steps that lower a rank which no step raises come to an end.
-/

namespace Lib

structure Endless {S L : Type} (next : S → L → S → Prop) where
  state : Nat → S
  label : Nat → L
  step : ∀ t, next (state t) (label t) (state (t + 1))

namespace Endless

variable {S L : Type} {next : S → L → S → Prop} (ρ : Endless next)

/-- Up to any moment the run is a run. -/
theorem run (t : Nat) : ∃ tr, Run next (ρ.state 0) tr (ρ.state t) := by
  induction t with
  | zero => exact ⟨[], .nil⟩
  | succ t ih =>
    obtain ⟨tr, h⟩ := ih
    exact ⟨_, h.snoc (ρ.label t) (ρ.step t)⟩

variable {ρ} {t : Nat}

theorem stays {P : S → Prop} (hP : P (ρ.state t)) (hkeep : ∀ u, t ≤ u → P (ρ.state u) → P (ρ.state (u + 1)))
    {u : Nat} (hu : t ≤ u) : P (ρ.state u) := by
  induction u, hu using Nat.le_induction with
  | base => exact hP
  | succ u hu ih => exact hkeep u hu ih

theorem upTo {P : S → Prop} {M : L → Prop} (hM : ∃ u, t ≤ u ∧ M (ρ.label u)) (hP : P (ρ.state t))
    (hkeep : ∀ u, t ≤ u → ¬ M (ρ.label u) → P (ρ.state u) → P (ρ.state (u + 1))) :
    ∃ u, t ≤ u ∧ M (ρ.label u) ∧ P (ρ.state u) := by
  classical
  obtain ⟨hu, hMu⟩ := Nat.find_spec hM
  refine ⟨Nat.find hM, hu, hMu, ?_⟩
  have hbefore (v : Nat) (hv : t ≤ v) : v ≤ Nat.find hM → P (ρ.state v) := by
    induction v, hv using Nat.le_induction with
    | base => exact fun _ => hP
    | succ v hv ih =>
      intro hlt
      have hnot : ¬ M (ρ.label v) := fun hMv => Nat.find_min hM hlt ⟨hv, hMv⟩
      exact hkeep v hv hnot (ih (by omega))
  exact hbefore _ hu (le_refl _)

theorem ends (rank : S → Nat) (M : Nat → Prop) (hkeep : ∀ u, t ≤ u → rank (ρ.state (u + 1)) ≤ rank (ρ.state u))
    (hdrop : ∀ u, t ≤ u → M u → rank (ρ.state (u + 1)) < rank (ρ.state u)) : ∃ N, t ≤ N ∧ ∀ u, N ≤ u → ¬ M u := by
  have hle {v : Nat} (hv : t ≤ v) {u : Nat} (hu : v ≤ u) : rank (ρ.state u) ≤ rank (ρ.state v) :=
    stays (P := fun s => rank s ≤ rank (ρ.state v)) le_rfl (fun w hw h => (hkeep w (hv.trans hw)).trans h) hu
  -- on the rank: a step that lowers it leaves a run of smaller rank
  generalize hr : rank (ρ.state t) = r
  induction r using Nat.strong_induction_on generalizing t with
  | _ r ih =>
    by_cases hM : ∃ u, t ≤ u ∧ M u
    · obtain ⟨u, hu, hMu⟩ := hM
      have hlt : rank (ρ.state (u + 1)) < r := hr ▸ (hdrop u hu hMu).trans_le (hle le_rfl hu)
      obtain ⟨N, hN, hnever⟩ := ih _ hlt (fun v hv => hkeep v (by omega)) (fun v hv => hdrop v (by omega))
        (fun hv _ hu => hle (by omega) hu) rfl
      exact ⟨N, by omega, hnever⟩
    · exact ⟨t, le_rfl, fun u hu hMu => hM ⟨u, hu, hMu⟩⟩

/-- One step before an endless run. -/
def before (ρ : Endless next) {s : S} (l : L) (h : next s l (ρ.state 0)) : Endless next where
  state t := if t = 0 then s else ρ.state (t - 1)
  label t := if t = 0 then l else ρ.label (t - 1)
  step t := by
    rcases t with _ | t
    · exact h
    · exact ρ.step t

/-- A run goes on as any endless run from where it has come to. -/
theorem extends_run {s s' : S} {tr : List (Step S L)} (h : Run next s tr s') (ρ : Endless next) (hρ : ρ.state 0 = s') :
    ∃ ρ' : Endless next, ρ'.state 0 = s ∧
      ∀ t, ρ'.state (tr.length + t) = ρ.state t ∧ ρ'.label (tr.length + t) = ρ.label t := by
  induction h generalizing ρ with
  | nil => exact ⟨ρ, hρ, fun t => by simp⟩
  | @snoc tr u u' l _ hn ih =>
    obtain ⟨ρ', h0, hlater⟩ := ih (ρ.before l (hρ ▸ hn)) rfl
    refine ⟨ρ', h0, fun t => ?_⟩
    have hnext := hlater (t + 1)
    rw [List.length_append, List.length_singleton, Nat.add_assoc, Nat.add_comm 1 t]
    exact hnext

end Endless

end Lib
