import Mathlib.Data.List.DropRight
import AcousticNode.FrameQueue

/-!
# What a queue keeps

Of items that are added one after another a queue keeps the newest ones, as many as it has room
for, in the order in which they came.  Whatever else is done with it, an item that was added either
waits or has left, and items leave in the order in which they were added.

* `items_pushAll` : the items that are left after any number of additions;
* `run_replicate_pop` : items taken one by one and all at once;
* `Conserved.perform` : what one action does to the account of a queue;
* `run_conserved` : every run of additions and removals.
-/

set_option autoImplicit false

namespace AcousticNode.FrameQueue

variable {α : Type}

/-- Adds one item after another. -/
def pushAll (q : FrameQueue α) (as : List α) : FrameQueue α := as.foldl (fun q a => (q.push a).2) q

@[simp] theorem capacity_push (q : FrameQueue α) (a : α) : (q.push a).2.capacity = q.capacity := by
  unfold push
  split <;> rfl

theorem items_push_of_room {q : FrameQueue α} (h : q.items.length < q.capacity) (a : α) :
    (q.push a).2.items = q.items ++ [a] := by
  rw [push, if_pos h]

theorem items_push_of_full {q : FrameQueue α} (h : q.capacity ≤ q.items.length) (a : α) :
    (q.push a).2.items = q.items.drop 1 ++ [a] := by
  rw [push, if_neg (Nat.not_lt.mpr h)]

theorem length_items_push_le {q : FrameQueue α} (hroom : 0 < q.capacity)
    (h : q.items.length ≤ q.capacity) (a : α) : (q.push a).2.items.length ≤ q.capacity := by
  rcases Nat.lt_or_ge q.items.length q.capacity with hlt | hge
  · rw [items_push_of_room hlt, List.length_append, List.length_singleton]
    omega
  · rw [items_push_of_full hge, List.length_append, List.length_drop, List.length_singleton]
    omega

theorem items_pushAll {q : FrameQueue α} (hroom : 0 < q.capacity)
    (h : q.items.length ≤ q.capacity) (as : List α) :
    (q.pushAll as).items = (q.items ++ as).rtake q.capacity := by
  induction as generalizing q with
  | nil =>
    have hall : q.items.length - q.capacity = 0 := by omega
    rw [List.append_nil, List.rtake, hall]
    rfl
  | cons a as ih =>
    have hstep : (q.pushAll (a :: as)).items = ((q.push a).2.items ++ as).rtake q.capacity := by
      rw [← q.capacity_push a]
      refine ih (by rwa [capacity_push]) ?_
      rw [capacity_push]
      exact length_items_push_le hroom h a
    rw [hstep]
    rcases Nat.lt_or_ge q.items.length q.capacity with hlt | hge
    · rw [items_push_of_room hlt, List.append_assoc, List.singleton_append]
    · -- the oldest item makes room, and would not be among the newest ones anyway
      have hdrop : q.items.drop 1 ++ [a] ++ as = (q.items ++ a :: as).drop 1 := by
        rw [List.drop_append_of_le_length (by omega), List.append_assoc, List.singleton_append]
      rw [items_push_of_full hge, hdrop, List.rtake, List.rtake, List.drop_drop, List.length_drop,
        List.length_append, List.length_cons]
      congr 1
      omega

/-! ## Runs -/

/-- What is done with a queue. -/
inductive Action (α : Type) where
  | push (a : α)
  | pop
  | takeAll

/-- The items that an action adds. -/
def Action.added : Action α → List α
  | push a => [a]
  | pop => []
  | takeAll => []

/-- An item that left a queue, and why it did. -/
inductive Departure (α : Type) where
  | evicted (a : α)
  | popped (a : α)
  | taken (a : α)
  deriving DecidableEq

namespace Departure

def item : Departure α → α
  | evicted a => a
  | popped a => a
  | taken a => a

def isEviction : Departure α → Bool
  | evicted _ => true
  | popped _ => false
  | taken _ => false

end Departure

/-- The items that an action makes leave, one after another, and the queue behind it. -/
def perform (q : FrameQueue α) : Action α → List (Departure α) × FrameQueue α
  | .push a => ((q.push a).1.toList.map .evicted, (q.push a).2)
  | .pop => (q.pop.1.toList.map .popped, q.pop.2)
  | .takeAll => (q.takeAll.1.map .taken, q.takeAll.2)

/-- The items that leave in the course of many actions, and the queue behind the last one. -/
def run (q : FrameQueue α) : List (Action α) → List (Departure α) × FrameQueue α
  | [] => ([], q)
  | x :: xs => ((q.perform x).1 ++ ((q.perform x).2.run xs).1, ((q.perform x).2.run xs).2)

/-- Items that are taken one by one, as many as wait, are those that are taken all at once, and
leave the same queue. -/
theorem run_replicate_pop (q : FrameQueue α) :
    q.run (List.replicate q.size .pop) = (q.takeAll.1.map .popped, q.takeAll.2) := by
  obtain ⟨items, capacity, dropped⟩ := q
  induction items with
  | nil => rfl
  | cons a as ih =>
    rw [size, List.length_cons, List.replicate_succ, run, perform, pop_of_cons rfl]
    simp only [size] at ih
    rw [ih]
    rfl

/-- The account of a queue: nothing that was added is lost, repeated or out of order, there is no
more than there is room for, and evictions are counted. -/
structure Conserved (room : Nat) (actions : List (Action α)) (left : List (Departure α))
    (q : FrameQueue α) : Prop where
  items_eq : left.map Departure.item ++ q.items = actions.flatMap Action.added
  capacity_eq : q.capacity = max 1 room
  size_le : q.size ≤ q.capacity
  dropped_eq : q.dropped = left.countP Departure.isEviction

theorem conserved_nil (room : Nat) : Conserved room [] [] (ofCapacity room : FrameQueue α) where
  items_eq := rfl
  capacity_eq := Nat.max_comm room 1
  size_le := Nat.zero_le _
  dropped_eq := rfl

theorem Conserved.capacity_pos {room : Nat} {actions : List (Action α)}
    {left : List (Departure α)} {q : FrameQueue α} (h : Conserved room actions left q) :
    0 < q.capacity := by
  rw [h.capacity_eq]
  omega

/-- The oldest item makes room, and only if there is none. -/
theorem fst_push_eq (q : FrameQueue α) (a : α) :
    (q.push a).1 = if q.size < q.capacity then none else q.items.head? := by
  unfold push size
  split <;> rfl

theorem dropped_push (q : FrameQueue α) (a : α) :
    (q.push a).2.dropped = if q.size < q.capacity then q.dropped else q.dropped + 1 := by
  unfold push size
  split <;> rfl

theorem fst_push_append (q : FrameQueue α) (a : α) :
    (q.push a).1.toList ++ (q.push a).2.items = q.items ++ [a] := by
  unfold push
  split
  · rfl
  · cases q.items <;> rfl

theorem Conserved.isSome_push_iff {room : Nat} {actions : List (Action α)}
    {left : List (Departure α)} {q : FrameQueue α} (h : Conserved room actions left q) (a : α) :
    (q.push a).1.isSome ↔ q.size = q.capacity := by
  have hpos := h.capacity_pos
  have hle := h.size_le
  rw [fst_push_eq]
  split
  · rename_i hlt
    exact iff_of_false Bool.false_ne_true (Nat.ne_of_lt hlt)
  · rename_i hge
    have hfull : q.size = q.capacity := by omega
    have hne : q.items ≠ [] := List.ne_nil_of_length_pos (show 0 < q.size by omega)
    exact iff_of_true (List.isSome_head?.mpr hne) hfull

theorem Conserved.push {room : Nat} {actions : List (Action α)} {left : List (Departure α)}
    {q : FrameQueue α} (h : Conserved room actions left q) (a : α) :
    Conserved room (actions ++ [.push a]) (left ++ (q.push a).1.toList.map .evicted)
      (q.push a).2 where
  items_eq := by
    have hitem : (Departure.item ∘ Departure.evicted : α → α) = id := rfl
    rw [List.flatMap_append, ← h.items_eq, List.map_append, List.map_map, hitem, List.map_id,
      List.append_assoc, fst_push_append, List.append_assoc]
    rfl
  capacity_eq := (q.capacity_push a).trans h.capacity_eq
  size_le := by
    rw [capacity_push]
    exact length_items_push_le h.capacity_pos h.size_le a
  dropped_eq := by
    have hevicted : ∀ o : Option α,
        (o.toList.map Departure.evicted).countP Departure.isEviction =
          if o.isSome then 1 else 0 := by
      rintro (_ | _) <;> rfl
    have hle := h.size_le
    rw [List.countP_append, ← h.dropped_eq, hevicted, dropped_push]
    simp only [h.isSome_push_iff a]
    split <;> split <;> omega

/-- Items that are taken from the front leave in order, and not because of a full queue. -/
theorem Conserved.remove {room : Nat} {actions : List (Action α)} {left : List (Departure α)}
    {q : FrameQueue α} (h : Conserved room actions left q) {x : Action α} (hx : x.added = [])
    {depart : α → Departure α} (hitem : ∀ a, (depart a).item = a)
    (hdepart : ∀ a, (depart a).isEviction = false) {out rest : List α}
    (hsplit : out ++ rest = q.items) :
    Conserved room (actions ++ [x]) (left ++ out.map depart) { q with items := rest } where
  items_eq := by
    have hout : (out.map depart).map Departure.item = out := by simp [Function.comp_def, hitem]
    rw [List.flatMap_append, ← h.items_eq, List.map_append, hout, List.append_assoc, hsplit,
      List.flatMap_singleton, hx, List.append_nil]
  capacity_eq := h.capacity_eq
  size_le := by
    have hle : (out ++ rest).length ≤ q.capacity := hsplit ▸ h.size_le
    rw [List.length_append] at hle
    exact Nat.le_trans (Nat.le_add_left _ _) hle
  dropped_eq := by
    have hnone : (out.map depart).countP Departure.isEviction = 0 := by
      simp [List.countP_eq_zero, hdepart]
    rw [List.countP_append, hnone, Nat.add_zero]
    exact h.dropped_eq

theorem Conserved.perform {room : Nat} {actions : List (Action α)} {left : List (Departure α)}
    {q : FrameQueue α} (h : Conserved room actions left q) (x : Action α) :
    Conserved room (actions ++ [x]) (left ++ (q.perform x).1) (q.perform x).2 := by
  cases x with
  | push a => exact h.push a
  | pop => exact h.remove rfl (fun _ => rfl) (fun _ => rfl) q.fst_pop_append
  | takeAll => exact h.remove rfl (fun _ => rfl) (fun _ => rfl) q.fst_takeAll_append

theorem Conserved.run {room : Nat} {actions : List (Action α)} {left : List (Departure α)}
    {q : FrameQueue α} (h : Conserved room actions left q) (xs : List (Action α)) :
    Conserved room (actions ++ xs) (left ++ (q.run xs).1) (q.run xs).2 := by
  induction xs generalizing actions left q with
  | nil =>
    rw [List.append_nil]
    exact (List.append_nil left).symm ▸ h
  | cons x xs ih =>
    have hrest := ih (h.perform x)
    rw [List.append_assoc, List.append_assoc] at hrest
    exact hrest

/-- **A queue loses, repeats and reorders nothing.**  Whatever is added to a queue and taken from
it, the items that have left, by whichever way, and behind them those that still wait are the items
that were added.  The queue, which has room for one item at least, never holds more than it has room
for; the next addition evicts an item exactly if there is no room left, and as many items as were
evicted are counted. -/
theorem run_conserved (room : Nat) (actions : List (Action α)) :
    let left := ((ofCapacity room).run actions).1
    let q := ((ofCapacity room).run actions).2
    left.map Departure.item ++ q.items = actions.flatMap Action.added ∧
      q.size ≤ q.capacity ∧ q.capacity = max 1 room ∧
      (∀ a, (q.push a).1.isSome ↔ q.size = q.capacity) ∧
      q.dropped = left.countP Departure.isEviction := by
  have h := (conserved_nil (α := α) room).run actions
  exact ⟨h.items_eq, h.size_le, h.capacity_eq, h.isSome_push_iff, h.dropped_eq⟩

example : (run (ofCapacity 0) [.push 1, .pop, .pop, .push 2, .push 3, .takeAll]).1 =
    [.popped 1, .evicted 2, .taken 3] := rfl

end AcousticNode.FrameQueue
