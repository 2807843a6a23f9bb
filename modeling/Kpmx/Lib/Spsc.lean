import Mathlib.Data.List.Basic

/-!
# The bounded single-producer single-consumer queue

`Spsc α cap` holds at most `cap` elements, oldest first; the bound is a field, so a queue over its
capacity cannot be built. `push` drops its argument when the queue is full and says so, `consumeAll`
hands over everything that is in the queue.

`Spsc.Consuming` takes `consumeAll` apart into steps, for a consumer that others interleave with: the
elements keep their places in the queue until the last of them has been handled. `pending` is what has
not been handled; starting and finishing leave it alone.
-/

/-- A bounded queue, oldest element first. -/
structure Spsc (α : Type*) (cap : Nat) where
  items : List α
  bounded : items.length ≤ cap

namespace Spsc

variable {α : Type*} {cap : Nat}

theorem ext_items {q r : Spsc α cap} (h : q.items = r.items) : q = r := by
  cases q; cases r; cases h; rfl

instance [DecidableEq α] : DecidableEq (Spsc α cap) := fun q r =>
  decidable_of_iff (q.items = r.items) ⟨ext_items, congrArg items⟩

def empty : Spsc α cap := ⟨[], Nat.zero_le _⟩

def readAvailable (q : Spsc α cap) : Nat := q.items.length

def full (q : Spsc α cap) : Bool := decide (cap ≤ q.items.length)

/-- Append `x` and answer `true`; a full queue is left as it is and the answer is `false`. -/
def push (q : Spsc α cap) (x : α) : Bool × Spsc α cap :=
  if h : q.items.length < cap then
    (true, ⟨q.items ++ [x], by simpa using Nat.succ_le_of_lt h⟩)
  else (false, q)

/-- Take everything: the elements in the order they were pushed, and the empty queue. -/
def consumeAll (q : Spsc α cap) : List α × Spsc α cap := (q.items, empty)

/-- Push the elements in order, ignoring the answers. -/
def pushAll (q : Spsc α cap) (xs : List α) : Spsc α cap := xs.foldl (fun q x => (q.push x).2) q

@[simp] theorem pushAll_nil (q : Spsc α cap) : q.pushAll [] = q := rfl

@[simp] theorem pushAll_singleton (q : Spsc α cap) (x : α) : q.pushAll [x] = (q.push x).2 := rfl

@[simp] theorem items_empty : (empty : Spsc α cap).items = [] := rfl

@[simp] theorem consumeAll_fst (q : Spsc α cap) : q.consumeAll.1 = q.items := rfl

@[simp] theorem consumeAll_snd (q : Spsc α cap) : q.consumeAll.2 = empty := rfl

theorem full_eq_false {q : Spsc α cap} : q.full = false ↔ q.items.length < cap := by
  simp [full]

theorem full_eq_true {q : Spsc α cap} : q.full = true ↔ q.items.length = cap := by
  have := q.bounded
  simp only [full, decide_eq_true_eq]
  omega

theorem push_of_not_full {q : Spsc α cap} (h : q.full = false) (x : α) :
    (q.push x).1 = true ∧ (q.push x).2.items = q.items ++ [x] := by
  have hlt := full_eq_false.mp h
  simp [push, hlt]

theorem push_of_full {q : Spsc α cap} (h : q.full = true) (x : α) : q.push x = (false, q) := by
  have heq := full_eq_true.mp h
  simp [push, heq]

theorem push_items_ne_nil (hcap : 0 < cap) (q : Spsc α cap) (x : α) : (q.push x).2.items ≠ [] := by
  cases h : q.full with
  | false => simp [(push_of_not_full h x).2]
  | true =>
    rw [push_of_full h]
    have heq : q.items.length = cap := full_eq_true.mp h
    exact List.ne_nil_of_length_pos (by rw [heq]; exact hcap)

/-! ## A consumer in the middle of `consumeAll` -/

/-- Of the `size` elements that the consumer found in the queue it has handled the first `handled`. -/
structure Consuming (α : Type*) (cap : Nat) where
  queue : Spsc α cap
  handled : Nat
  size : Nat
  handled_le : handled ≤ size
  size_le : size ≤ queue.items.length

namespace Consuming

def empty : Consuming α cap := ⟨Spsc.empty, 0, 0, Nat.le_refl _, Nat.le_refl _⟩

/-- What has not been handled, oldest first. -/
def pending (c : Consuming α cap) : List α := c.queue.items.drop c.handled

def full (c : Consuming α cap) : Bool := c.queue.full

theorem length_le_length_push (q : Spsc α cap) (x : α) :
    q.items.length ≤ (q.push x).2.items.length := by
  cases h : q.full with
  | false => simp [(push_of_not_full h x).2]
  | true => simp only [push_of_full h, Nat.le_refl]

def push (c : Consuming α cap) (x : α) : Consuming α cap :=
  { c with
    queue := (c.queue.push x).2
    size_le := Nat.le_trans c.size_le (length_le_length_push c.queue x) }

/-- Find out how many elements there are. -/
def start (c : Consuming α cap) : Option (Consuming α cap) :=
  if h : c.size = 0 then
    some { c with
      size := c.queue.items.length
      handled_le := Nat.le_trans c.handled_le (h ▸ Nat.zero_le _)
      size_le := Nat.le_refl _ }
  else none

/-- Handle the next of them. -/
def next (c : Consuming α cap) : Option (α × Consuming α cap) :=
  if h : c.handled < c.size then
    some (c.queue.items.get ⟨c.handled, Nat.lt_of_lt_of_le h c.size_le⟩,
      { c with handled := c.handled + 1, handled_le := h })
  else none

/-- All are handled: free their places. -/
def finish (c : Consuming α cap) : Option (Consuming α cap) :=
  if c.handled = c.size then
    some {
      queue := ⟨c.queue.items.drop c.size, Nat.le_trans (by simp) c.queue.bounded⟩
      handled := 0
      size := 0
      handled_le := Nat.le_refl _
      size_le := Nat.zero_le _ }
  else none

@[simp] theorem pending_empty : (empty : Consuming α cap).pending = [] := rfl

theorem pending_push_of_not_full {c : Consuming α cap} (h : c.full = false) (x : α) :
    (c.push x).pending = c.pending ++ [x] := by
  have hle := Nat.le_trans c.handled_le c.size_le
  simp only [pending, push, (push_of_not_full h x).2]
  rw [List.drop_append_of_le_length hle]

theorem pending_push_of_full {c : Consuming α cap} (h : c.full = true) (x : α) :
    (c.push x).pending = c.pending := by
  simp only [pending, push, push_of_full h]

theorem mem_pending_push {c : Consuming α cap} {x y : α} (h : y ∈ (c.push x).pending) :
    y ∈ c.pending ∨ y = x := by
  cases hf : c.full with
  | false => simpa [pending_push_of_not_full hf] using h
  | true => exact .inl (by simpa [pending_push_of_full hf] using h)

theorem pending_start {c d : Consuming α cap} (h : c.start = some d) : d.pending = c.pending := by
  unfold start at h
  split at h
  · cases h; rfl
  · cases h

theorem pending_next {c d : Consuming α cap} {x : α} (h : c.next = some (x, d)) :
    c.pending = x :: d.pending := by
  unfold next at h
  split at h
  · cases h; exact List.drop_eq_getElem_cons _
  · cases h

theorem pending_finish {c d : Consuming α cap} (h : c.finish = some d) : d.pending = c.pending := by
  unfold finish at h
  split at h
  · next hsize => cases h; simp [pending, hsize]
  · cases h

end Consuming

end Spsc
