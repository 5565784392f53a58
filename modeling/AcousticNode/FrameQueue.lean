import AcousticNode.Wire.Limits

/-!
# Frame queues

Frames wait in the order in which they came.  A full queue makes room by dropping its oldest
frame, and counts what it drops.

* `pop_of_nil`, `pop_of_cons` : the oldest item is the one that is taken;
* `fst_takeAll_append`, `isEmpty_takeAll` : taking every item leaves none.
-/

set_option autoImplicit false

namespace AcousticNode

/-- Waiting items, oldest first. -/
structure FrameQueue (α : Type) where
  items : List α
  capacity : Nat
  /-- The items dropped so far.  The count has no upper end; a counter of 64 bits shows the same
  for as long as it has not gone all the way round. -/
  dropped : Nat
  deriving DecidableEq, Repr

namespace FrameQueue

variable {α : Type}

/-- An empty queue with room for `capacity` items, one at least.  No room is too large here; that
there is memory for it is up to whoever asks. -/
def ofCapacity (capacity : Nat) : FrameQueue α := ⟨[], max capacity 1, 0⟩

/-- An empty queue of the usual capacity. -/
def empty : FrameQueue α := ofCapacity Limits.queueCapacity

def size (q : FrameQueue α) : Nat := q.items.length

def isEmpty (q : FrameQueue α) : Bool := q.items.isEmpty

/-- Adds an item, and returns the one that had to make room. -/
def push (q : FrameQueue α) (a : α) : Option α × FrameQueue α :=
  if q.items.length < q.capacity then (none, { q with items := q.items ++ [a] })
  else (q.items.head?, { q with items := q.items.drop 1 ++ [a], dropped := q.dropped + 1 })

/-- Takes the oldest item. -/
def pop (q : FrameQueue α) : Option α × FrameQueue α :=
  (q.items.head?, { q with items := q.items.drop 1 })

/-- Takes every item. -/
def takeAll (q : FrameQueue α) : List α × FrameQueue α := (q.items, { q with items := [] })

theorem pop_of_nil {q : FrameQueue α} (h : q.items = []) : q.pop = (none, q) := by
  obtain ⟨items, capacity, dropped⟩ := q
  cases h
  rfl

theorem pop_of_cons {q : FrameQueue α} {a : α} {as : List α} (h : q.items = a :: as) :
    q.pop = (some a, { q with items := as }) := by
  rw [pop, h]
  rfl

/-- The item that is taken stood in front of those that are left. -/
theorem fst_pop_append (q : FrameQueue α) : q.pop.1.toList ++ q.pop.2.items = q.items := by
  cases h : q.items with
  | nil => rw [pop_of_nil h, h]; rfl
  | cons a as => rw [pop_of_cons h]; rfl

theorem isEmpty_takeAll (q : FrameQueue α) : q.takeAll.2.isEmpty = true := rfl

/-- Nothing that waited is left out. -/
theorem fst_takeAll_append (q : FrameQueue α) : q.takeAll.1 ++ q.takeAll.2.items = q.items :=
  List.append_nil q.items

end FrameQueue

end AcousticNode
