import Mathlib.Data.List.Induction

namespace SocketIoRust.Library

variable {ι : Type}

/-- Tasks that wait to be notified, of which a call of `notify` wakes the first. If there is
none, the next one need not wait: at most one permit is kept for it. -/
structure Notify (ι : Type) where
  permit : Bool
  waiters : List ι
  notified : List ι

namespace Notify

def new : Notify ι := ⟨false, [], []⟩

def notify (n : Notify ι) : Notify ι :=
  match n.waiters with
  | [] => { n with permit := true }
  | i :: waiters => { n with waiters := waiters, notified := n.notified ++ [i] }

/-- The task `i` waits. -/
def wait (n : Notify ι) (i : ι) : Notify ι :=
  if n.permit then { n with permit := false, notified := n.notified ++ [i] }
  else { n with waiters := n.waiters ++ [i] }

inductive Call (ι : Type) where
  | notify
  | wait : ι → Call ι

def Call.waiter : Call ι → Option ι
  | .notify => none
  | .wait i => some i

def call (n : Notify ι) : Call ι → Notify ι
  | .notify => n.notify
  | .wait i => n.wait i

def run (calls : List (Call ι)) : Notify ι := calls.foldl call new

/-- The tasks that have waited, in the order in which they began to. -/
def waited (calls : List (Call ι)) : List ι := calls.filterMap Call.waiter

def notifies (calls : List (Call ι)) : ℕ := calls.countP (fun c ↦ c.waiter.isNone)

theorem run_concat (calls : List (Call ι)) (c : Call ι) : run (calls ++ [c]) = (run calls).call c :=
  by
  rw [run, List.foldl_append]
  rfl

/-- What calls leave behind. -/
structure After (calls : List (Call ι)) (n : Notify ι) : Prop where
  fifo : n.notified ++ n.waiters = waited calls
  permit : n.permit = true → n.waiters = []
  spent : n.notified.length + n.permit.toNat ≤ notifies calls
  kept : 0 < notifies calls → n.permit = true ∨ n.notified ≠ []

theorem After.notify {calls : List (Call ι)} {n : Notify ι} (h : After calls n) :
    After (calls ++ [.notify]) n.notify := by
  have hwaited : waited (calls ++ [.notify]) = waited calls := by simp [waited, Call.waiter]
  have hnotifies : notifies (calls ++ [.notify]) = notifies calls + 1 := by
    simp [notifies, Call.waiter]
  have hspent := h.spent
  rw [Notify.notify]
  split
  · rename_i hnone
    refine ⟨?_, fun _ ↦ hnone, ?_, fun _ ↦ .inl rfl⟩
    · rw [hwaited, ← h.fifo]
    · rw [hnotifies]
      exact Nat.add_le_add_right (Nat.le_trans (Nat.le_add_right ..) hspent) 1
  · rename_i i waiters hsome
    have hpermit : n.permit = false := by
      refine Bool.eq_false_iff.mpr fun hp ↦ ?_
      have hnil := h.permit hp
      rw [hsome] at hnil
      cases hnil
    refine ⟨?_, ?_, ?_, fun _ ↦ .inr (by simp)⟩
    · rw [hwaited, ← h.fifo, hsome, List.append_assoc]
      rfl
    · intro hp
      rw [hpermit] at hp
      cases hp
    · rw [hpermit, Bool.toNat_false] at hspent
      rw [hnotifies, List.length_append, hpermit, Bool.toNat_false]
      exact Nat.add_le_add_right hspent 1

theorem After.wait {calls : List (Call ι)} {n : Notify ι} (h : After calls n) (i : ι) :
    After (calls ++ [.wait i]) (n.wait i) := by
  have hwaited : waited (calls ++ [.wait i]) = waited calls ++ [i] := by
    simp [waited, Call.waiter]
  have hnotifies : notifies (calls ++ [.wait i]) = notifies calls := by
    simp [notifies, Call.waiter]
  have hspent := h.spent
  rw [Notify.wait]
  split
  · rename_i hpermit
    have hnil := h.permit hpermit
    refine ⟨?_, nofun, ?_, fun _ ↦ .inr (by simp)⟩
    · rw [hwaited, ← h.fifo, hnil, List.append_nil, List.append_nil]
    · rw [hpermit, Bool.toNat_true] at hspent
      rw [hnotifies, List.length_append]
      exact hspent
  · rename_i hpermit
    refine ⟨?_, fun hp ↦ absurd hp hpermit, ?_, ?_⟩
    · rw [hwaited, ← h.fifo, List.append_assoc]
    · rw [hnotifies]
      exact hspent
    · intro hpos
      rw [hnotifies] at hpos
      exact h.kept hpos

/-- Tasks are notified in the order in which they began to wait, never more of them than there
were calls of `notify`, and at least one if there was such a call and anyone has waited. -/
theorem after_run (calls : List (Call ι)) : After calls (run calls) := by
  induction calls using List.reverseRecOn with
  | nil => exact ⟨rfl, fun _ ↦ rfl, Nat.zero_le _, fun h ↦ absurd h (Nat.lt_irrefl 0)⟩
  | append_singleton calls c ih =>
    rw [run_concat]
    cases c with
    | notify => exact ih.notify
    | wait i => exact ih.wait i

end Notify

end SocketIoRust.Library
