import Mathlib.Tactic

/-!
# Permits

A fixed number of permits is shared by holders that come and go: a holder takes a permit, may hand it to another one,
and somebody gives it back.  Permits are told apart here by a number, the order in which they were taken, so that one
that is lost or given back twice shows.

* `Ledger`: how many permits were taken, and which were given back, in order.
* `Ledger.Accounts`: each permit that was taken is either held or was given back, once.
* `Accounts.take`, `Accounts.give`, `Accounts.pass`: the three things that can happen to a permit.
-/

namespace Lib

structure Ledger where
  taken : Nat := 0
  given : List Nat := []
deriving DecidableEq, Repr

namespace Ledger

variable {g : Ledger} {held held' : List Nat} {n : Nat}

/-- One more permit, with the number `taken`. -/
def take (g : Ledger) : Ledger := { g with taken := g.taken + 1 }

def give (g : Ledger) (n : Nat) : Ledger := { g with given := g.given ++ [n] }

def Accounts (g : Ledger) (held : List Nat) : Prop := (g.given ++ held).Perm (List.range g.taken)

namespace Accounts

theorem start : Accounts {} [] := List.Perm.refl []

theorem take (h : g.Accounts held) : g.take.Accounts (g.taken :: held) := by
  unfold Accounts Ledger.take
  rw [List.range_succ]
  have hfront : (g.given ++ g.taken :: held).Perm (g.taken :: (g.given ++ held)) := List.perm_middle
  have hnew : (g.taken :: (g.given ++ held)).Perm (g.taken :: List.range g.taken) := h.cons g.taken
  exact (hfront.trans hnew).trans (List.perm_append_singleton g.taken _).symm

/-- The permits change hands. -/
theorem pass (h : g.Accounts held) (hperm : held'.Perm held) : g.Accounts held' :=
  (hperm.append_left g.given).trans h

theorem give (h : g.Accounts held) (hperm : held.Perm (n :: held')) : (g.give n).Accounts held' := by
  have hn : g.Accounts (n :: held') := h.pass hperm.symm
  unfold Accounts Ledger.give
  rw [List.append_assoc]
  exact hn

end Accounts

end Ledger

end Lib
