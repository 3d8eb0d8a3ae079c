import Mathlib.Data.List.Basic
import Mathlib.Tactic.Common

/-!
# Receivers that deduplicate by key

A receiver executes every request it gets, except one whose key it has accepted before. The
file says how often a batch of requests of one sender is executed: at most once when all of
them carry the same key, and each time when none carries one.
-/

/-- A receiver with the keys it has accepted and the requests it has executed, in order. -/
structure Receiver (K R : Type*) where
  accepted : List K
  executed : List R

namespace Receiver

variable {K R : Type*} [DecidableEq K] (key : R → Option K)

/-- Execute a request unless its key has been accepted before. -/
def receive (s : Receiver K R) (r : R) : Receiver K R :=
  match key r with
  | none => { s with executed := s.executed ++ [r] }
  | some k => if k ∈ s.accepted then s else ⟨k :: s.accepted, s.executed ++ [r]⟩

/-- Receive the requests of a list in order. -/
def receiveAll (s : Receiver K R) (rs : List R) : Receiver K R := rs.foldl (receive key) s

@[simp] theorem receiveAll_nil (s : Receiver K R) : s.receiveAll key [] = s := rfl

/-- Requests are received one by one, in order. -/
theorem receiveAll_cons (s : Receiver K R) (r : R) (rs : List R) :
    s.receiveAll key (r :: rs) = (s.receive key r).receiveAll key rs := rfl

/-- Requests without a key are all executed. -/
theorem receiveAll_of_key_none (s : Receiver K R) {rs : List R} (h : ∀ r ∈ rs, key r = none) :
    (s.receiveAll key rs).executed = s.executed ++ rs := by
  induction rs generalizing s with
  | nil => rw [receiveAll_nil, List.append_nil]
  | cons r rs ih =>
    have hr : s.receive key r = { s with executed := s.executed ++ [r] } := by
      rw [receive, h r List.mem_cons_self]
    rw [receiveAll_cons, ih _ fun r' hr' => h r' (List.mem_cons_of_mem _ hr'), hr,
      List.append_assoc, List.singleton_append]

/-- Requests under a key that has been accepted change nothing. -/
theorem receiveAll_of_accepted (s : Receiver K R) {k : K} {rs : List R} (hk : k ∈ s.accepted)
    (h : ∀ r ∈ rs, key r = some k) : s.receiveAll key rs = s := by
  induction rs with
  | nil => rfl
  | cons r rs ih =>
    have hr : s.receive key r = s := by
      rw [receive, h r List.mem_cons_self]
      exact if_pos hk
    rw [receiveAll_cons, hr]
    exact ih fun r' hr' => h r' (List.mem_cons_of_mem _ hr')

/-- Of requests under one key at most one is executed: the first, if the key is new. -/
theorem receiveAll_of_key_some (s : Receiver K R) {k : K} {rs : List R}
    (h : ∀ r ∈ rs, key r = some k) :
    (s.receiveAll key rs).executed = s.executed ++ if k ∈ s.accepted then [] else rs.take 1 := by
  by_cases hk : k ∈ s.accepted
  · rw [receiveAll_of_accepted key s hk h, if_pos hk, List.append_nil]
  · rw [if_neg hk]
    cases rs with
    | nil => rw [receiveAll_nil, List.take_nil, List.append_nil]
    | cons r rs =>
      have hr : s.receive key r = ⟨k :: s.accepted, s.executed ++ [r]⟩ := by
        rw [receive, h r List.mem_cons_self]
        exact if_neg hk
      have hrest := receiveAll_of_accepted key (s.receive key r) (k := k)
        (by rw [hr]; exact List.mem_cons_self) fun r' hr' => h r' (List.mem_cons_of_mem _ hr')
      rw [receiveAll_cons, hrest, hr]
      rfl

end Receiver
