import InfraPlatform.Lib.Interleave

/-!
# Quantities that programs open and settle

Programs that share counters and post to several of them, one call at a time, leave the counters in disagreement
while they run.  How much they disagree is what the programs in flight still owe.

* `Protocol`: the phases that a program goes through, and the calls that each phase allows.  `Protocol.Leads` is
  `Sat` for a discipline of this kind, walked phase by phase.
* `Meter`: a quantity of the state that every call changes by an amount of its own.
* `Account`: a meter whose reading every program owes by its phase alone, and nothing at its beginning and its end.
* `Account.nonneg`, `Account.settled`: over every interleaving the meter never falls below zero, and reads zero
  when no program is in flight.
-/

namespace Lib

variable {ι C S α β : Type} {R : C → Type}

/-! ## Phases -/

structure Protocol (C : Type) (R : C → Type) where
  Phase : Type
  first : Phase
  last : Phase
  after : Phase → (Σ c : C, R c) → Phase
  Allows : Phase → C → Prop

namespace Protocol

variable (P : Protocol C R)

def phase (h : Hist C R) : P.Phase := h.foldl P.after P.first

theorem phase_snoc (h : Hist C R) (x : Σ c : C, R c) : P.phase (h ++ [x]) = P.after (P.phase h) x := by
  unfold phase
  rw [List.foldl_append]
  rfl

/-- From phase `g` the program makes only calls that are allowed, and it returns in `Q`. -/
def Leads (A : (c : C) → R c → Prop) (Q : P.Phase → α → Prop) : P.Phase → Prog C R α → Prop
  | g, .ret a => Q g a
  | g, .call c k => P.Allows g c ∧ ∀ r, A c r → Leads A Q (P.after g ⟨c, r⟩) (k r)

variable {P} {A : (c : C) → R c → Prop} {g : P.Phase}

theorem leads_op {c : C} {Q : P.Phase → R c → Prop} (hc : P.Allows g c)
    (hq : ∀ r, A c r → Q (P.after g ⟨c, r⟩) r) : P.Leads A Q g (Prog.op c) := ⟨hc, hq⟩

theorem leads_bind {p : Prog C R α} {f : α → Prog C R β} {Q : P.Phase → β → Prop}
    (hp : P.Leads A (fun g a => P.Leads A Q g (f a)) g p) : P.Leads A Q g (p >>= f) := by
  induction p generalizing g with
  | ret a => exact hp
  | call c k ih => exact ⟨hp.1, fun r hr => ih r (hp.2 r hr)⟩

theorem Leads.mono {p : Prog C R α} {Q Q' : P.Phase → α → Prop} (hp : P.Leads A Q g p)
    (hQ : ∀ g a, Q g a → Q' g a) : P.Leads A Q' g p := by
  induction p generalizing g with
  | ret a => exact hQ g a hp
  | call c k ih => exact ⟨hp.1, fun r hr => ih r (hp.2 r hr)⟩

theorem Leads.sat {p : Prog C R α} {Q : P.Phase → α → Prop} {h : Hist C R} (hp : P.Leads A Q (P.phase h) p) :
    Prog.Sat A (fun h c => P.Allows (P.phase h) c) (fun h a => Q (P.phase h) a) h p := by
  induction p generalizing h with
  | ret a => exact hp
  | call c k ih =>
    refine ⟨hp.1, fun r hr => ih r ?_⟩
    rw [P.phase_snoc]
    exact hp.2 r hr

end Protocol

/-! ## Meters -/

structure Meter (E : Effect C R S) (M : Type) [AddCommGroup M] where
  read : S → M
  entry : (Σ c : C, R c) → M
  posted : ∀ c s r s', E c s r s' → read s' = read s + entry ⟨c, r⟩

namespace Meter

variable {E : Effect C R S} {M : Type} [AddCommGroup M]

/-- What the first reads above the second. -/
def sub (m n : Meter E M) : Meter E M where
  read s := m.read s - n.read s
  entry x := m.entry x - n.entry x
  posted c s r s' h := by
    rw [m.posted c s r s' h, n.posted c s r s' h]
    abel

end Meter

/-! ## Accounts -/

structure Account (P : Protocol C R) (E : Effect C R S) (A : (c : C) → R c → Prop) (M : Type) [AddCommGroup M]
    [PartialOrder M] extends Meter E M where
  /-- what a program in this phase has still to post -/
  due : P.Phase → M
  due_first : due P.first = 0
  due_last : due P.last = 0
  due_nonneg : ∀ g, 0 ≤ due g
  carried : ∀ g c r, P.Allows g c → A c r → due (P.after g ⟨c, r⟩) = due g + entry ⟨c, r⟩

namespace Account

variable [DecidableEq ι] {P : Protocol C R} {E : Effect C R S} {A : (c : C) → R c → Prop} {M : Type}
  [AddCommGroup M] [PartialOrder M] {s : S} {prog : ι → Prog C R α}
  {tr : List (Step (Config ι C R α S) (ι × (Σ c : C, R c)))} {cfg : Config ι C R α S}

/-- A program has posted what its phase says that it owes. -/
theorem entries_eq_due (a : Account P E A M) (hans : ∀ c s r s', E c s r s' → A c r)
    (hprog : ∀ i, P.Leads A (fun g _ => g = P.last) P.first (prog i))
    (h : Run (Config.Next E) (Config.start s prog) tr cfg) (i : ι) :
    ((cfg.hist i).map a.entry).sum = a.due (P.phase (cfg.hist i)) := by
  refine Run.histories (fun h => (h.map a.entry).sum = a.due (P.phase h)) a.due_first.symm ?_ hans
    (fun i => (hprog i).sat (h := [])) h i
  intro h c r hsum hc hA
  rw [P.phase_snoc, a.carried _ c r hc hA, List.map_append, List.sum_append, hsum, List.map_singleton,
    List.sum_singleton]

/-- The meter has moved by what the programs owe together. -/
theorem read_eq (a : Account P E A M) (hans : ∀ c s r s', E c s r s' → A c r)
    (hprog : ∀ i, P.Leads A (fun g _ => g = P.last) P.first (prog i))
    (h : Run (Config.Next E) (Config.start s prog) tr cfg) :
    ∃ T : Finset ι, a.read cfg.state = a.read s + ∑ i ∈ T, a.due (P.phase (cfg.hist i)) := by
  obtain ⟨T, -, hsum⟩ := Run.total a.read a.entry a.posted h
  refine ⟨T, ?_⟩
  rw [hsum, Finset.sum_congr rfl fun i _ => a.entries_eq_due hans hprog h i]

theorem nonneg [IsOrderedAddMonoid M] (a : Account P E A M) (hans : ∀ c s r s', E c s r s' → A c r)
    (hprog : ∀ i, P.Leads A (fun g _ => g = P.last) P.first (prog i)) (h0 : a.read s = 0)
    (h : Run (Config.Next E) (Config.start s prog) tr cfg) : 0 ≤ a.read cfg.state := by
  obtain ⟨T, hread⟩ := a.read_eq hans hprog h
  rw [hread, h0, zero_add]
  exact Finset.sum_nonneg fun i _ => a.due_nonneg _

/-- A program that has not begun, or has returned, owes nothing. -/
theorem settled (a : Account P E A M) (hans : ∀ c s r s', E c s r s' → A c r)
    (hprog : ∀ i, P.Leads A (fun g _ => g = P.last) P.first (prog i)) (h0 : a.read s = 0)
    (h : Run (Config.Next E) (Config.start s prog) tr cfg)
    (hrest : ∀ i, cfg.hist i = [] ∨ (cfg.threads i).finished) : a.read cfg.state = 0 := by
  obtain ⟨T, hread⟩ := a.read_eq hans hprog h
  have hsat := (Run.interleave (fun _ => True) (fun _ => True)
    (fun cfg _ c _ _ r s' _ _ _ hE _ => ⟨hans c cfg.state r s' hE, trivial⟩) (fun i => (hprog i).sat (h := []))
    trivial h fun _ _ => trivial).2
  have hdue (i : ι) : a.due (P.phase (cfg.hist i)) = 0 := by
    rcases hrest i with hnil | ⟨x, hx⟩
    · rw [hnil]
      exact a.due_first
    · have hend := hsat i
      rw [hx] at hend
      have hlast : P.phase (cfg.hist i) = P.last := hend
      rw [hlast]
      exact a.due_last
  rw [hread, h0, zero_add]
  exact Finset.sum_eq_zero fun i _ => hdue i

end Account

end Lib
