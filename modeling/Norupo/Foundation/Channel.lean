import Mathlib.Algebra.Order.Ring.Nat
import Mathlib.Data.List.Basic
import Mathlib.Tactic.Common

/-!
# Bounded channels and counting semaphores

The two synchronisation primitives an asynchronous program waits on: a bounded multi-producer
single-consumer queue, and a semaphore whose permits are consumed for good. A waiting operation is
polled: it is ready, it has to wait, or it fails because the other end is gone. Which task is polled
next is left to the system that uses the primitives.
-/

namespace Async

/-- The answer to polling an operation that may have to wait. -/
inductive Poll
  | ready
  | pending
  | closed
  deriving DecidableEq, Repr

/-- A bounded queue with one receiver. Dropping the receiver closes it for senders. -/
structure Channel (α : Type*) where
  /-- Number of slots. -/
  capacity : Nat
  /-- Sent and not yet received, oldest first. -/
  queue : List α
  /-- The receiver has not been dropped. -/
  rxOpen : Bool

namespace Channel

variable {α : Type*}

/-- An empty channel with a live receiver. -/
def new (capacity : Nat) : Channel α := ⟨capacity, [], true⟩

/-- Poll a send: it fails without a receiver and waits without a free slot. -/
def poll (c : Channel α) : Poll :=
  if c.rxOpen then (if c.queue.length < c.capacity then .ready else .pending) else .closed

/-- Complete a send. -/
def push (c : Channel α) (a : α) : Channel α := { c with queue := c.queue ++ [a] }

/-- Remove the oldest element. -/
def pop (c : Channel α) : Channel α := { c with queue := c.queue.tail }

/-- Drop the receiver. -/
def dropRx (c : Channel α) : Channel α := { c with rxOpen := false }

@[simp] theorem queue_new (n : Nat) : (new n : Channel α).queue = [] := rfl
@[simp] theorem rxOpen_new (n : Nat) : (new n : Channel α).rxOpen = true := rfl
@[simp] theorem capacity_new (n : Nat) : (new n : Channel α).capacity = n := rfl
@[simp] theorem queue_push (c : Channel α) (a : α) : (c.push a).queue = c.queue ++ [a] := rfl
@[simp] theorem rxOpen_push (c : Channel α) (a : α) : (c.push a).rxOpen = c.rxOpen := rfl
@[simp] theorem capacity_push (c : Channel α) (a : α) : (c.push a).capacity = c.capacity := rfl
@[simp] theorem queue_pop (c : Channel α) : c.pop.queue = c.queue.tail := rfl
@[simp] theorem rxOpen_pop (c : Channel α) : c.pop.rxOpen = c.rxOpen := rfl
@[simp] theorem capacity_pop (c : Channel α) : c.pop.capacity = c.capacity := rfl
@[simp] theorem queue_dropRx (c : Channel α) : c.dropRx.queue = c.queue := rfl
@[simp] theorem rxOpen_dropRx (c : Channel α) : c.dropRx.rxOpen = false := rfl
@[simp] theorem capacity_dropRx (c : Channel α) : c.dropRx.capacity = c.capacity := rfl

/-- A send completes exactly when there is a receiver and a free slot. -/
theorem poll_eq_ready {c : Channel α} :
    c.poll = .ready ↔ c.rxOpen = true ∧ c.queue.length < c.capacity := by
  unfold poll
  split <;> rename_i h
  · split <;> simp_all
  · simp [h]

/-- A send fails exactly when the receiver is gone. -/
theorem poll_eq_closed {c : Channel α} : c.poll = .closed ↔ c.rxOpen = false := by
  unfold poll
  split <;> rename_i h
  · split <;> simp_all
  · simp [h]

/-- A send waits exactly when there is a receiver and every slot is taken. -/
theorem poll_eq_pending {c : Channel α} :
    c.poll = .pending ↔ c.rxOpen = true ∧ c.capacity ≤ c.queue.length := by
  unfold poll
  split <;> rename_i h
  · split <;> simp_all
  · simp [h]

@[simp] theorem poll_dropRx (c : Channel α) : c.dropRx.poll = .closed := rfl

/-- Taking an element makes no sender wait. -/
theorem poll_pop {c : Channel α} (h : c.poll ≠ .pending) : c.pop.poll ≠ .pending := by
  rw [ne_eq, poll_eq_pending] at h ⊢
  rintro ⟨hx, hfull⟩
  simp only [queue_pop, capacity_pop, List.length_tail] at hfull
  exact h ⟨hx, by omega⟩

/-- A channel with slots that are not overfilled. -/
structure Bounded (c : Channel α) : Prop where
  pos : 0 < c.capacity
  room : c.queue.length ≤ c.capacity

theorem Bounded.new {n : Nat} (h : 0 < n) : Bounded (new n : Channel α) := ⟨h, Nat.zero_le n⟩

/-- A completed send has found a slot. -/
theorem Bounded.push {c : Channel α} (hb : Bounded c) (h : c.poll = .ready) (a : α) :
    Bounded (c.push a) := by
  refine ⟨hb.pos, ?_⟩
  simp only [queue_push, List.length_append, List.length_singleton, capacity_push]
  exact (poll_eq_ready.mp h).2

theorem Bounded.pop {c : Channel α} (hb : Bounded c) : Bounded c.pop := by
  refine ⟨hb.pos, ?_⟩
  have := hb.room
  simp only [queue_pop, List.length_tail, capacity_pop]
  omega

theorem Bounded.dropRx {c : Channel α} (hb : Bounded c) : Bounded c.dropRx := ⟨hb.pos, hb.room⟩

/-- Taking an element frees a slot. -/
theorem Bounded.poll_pop {c : Channel α} (hb : Bounded c) (hq : c.queue ≠ []) :
    c.pop.poll ≠ .pending := by
  have hpos := List.length_pos_of_ne_nil hq
  have hroom := hb.room
  rw [ne_eq, poll_eq_pending]
  rintro ⟨-, hfull⟩
  simp only [queue_pop, capacity_pop, List.length_tail] at hfull
  omega

/-- A channel whose senders wait is not empty. -/
theorem Bounded.ne_nil_of_pending {c : Channel α} (hb : Bounded c) (h : c.poll = .pending) :
    c.queue ≠ [] := by
  have hfull := (poll_eq_pending.mp h).2
  have hpos := hb.pos
  exact List.ne_nil_of_length_pos (by omega)

/-- A sender waits after a send exactly when it has taken the last slot. -/
theorem poll_push_eq_pending {c : Channel α} (h : c.poll = .ready) (a : α) :
    (c.push a).poll = .pending ↔ c.queue.length + 1 = c.capacity := by
  obtain ⟨hx, hlt⟩ := poll_eq_ready.mp h
  rw [poll_eq_pending]
  simp only [rxOpen_push, hx, capacity_push, queue_push, List.length_append, List.length_singleton,
    true_and]
  omega

end Channel

/-- A counting semaphore whose permits are consumed; closing it fails every acquisition. -/
structure Semaphore where
  /-- Permits that can be acquired now. -/
  permits : Nat
  /-- No acquisition can succeed any more. -/
  isClosed : Bool
  deriving DecidableEq, Repr

/-- The most permits a semaphore may hold; adding past it panics. -/
def maxPermits : Nat := 2 ^ 61 - 1

namespace Semaphore

/-- An open semaphore. -/
def new (permits : Nat) : Semaphore := ⟨permits, false⟩

/-- Poll an acquisition of `n` permits. A closed semaphore fails whatever it holds. -/
def poll (s : Semaphore) (n : Nat) : Poll :=
  if s.isClosed then .closed else (if n ≤ s.permits then .ready else .pending)

/-- An acquisition succeeds exactly when the semaphore is open and holds enough. -/
theorem poll_eq_ready {s : Semaphore} {n : Nat} :
    s.poll n = .ready ↔ s.isClosed = false ∧ n ≤ s.permits := by
  unfold poll
  split <;> rename_i h
  · simp [h]
  · split <;> simp_all

/-- An acquisition fails exactly when the semaphore is closed. -/
theorem poll_eq_closed {s : Semaphore} {n : Nat} : s.poll n = .closed ↔ s.isClosed = true := by
  unfold poll
  split <;> rename_i h
  · simp [h]
  · split <;> simp_all

/-- An acquisition waits exactly when the semaphore is open and holds too little. -/
theorem poll_eq_pending {s : Semaphore} {n : Nat} :
    s.poll n = .pending ↔ s.isClosed = false ∧ s.permits < n := by
  unfold poll
  split <;> rename_i h
  · simp [h]
  · split <;> simp_all

/-- Complete an acquisition and forget the permits. -/
def take (s : Semaphore) (n : Nat) : Semaphore := { s with permits := s.permits - n }

/-- Add permits. -/
def add (s : Semaphore) (n : Nat) : Semaphore := { s with permits := s.permits + n }

/-- Close the semaphore. -/
def close (s : Semaphore) : Semaphore := { s with isClosed := true }

end Semaphore

end Async
