import Mathlib.Data.List.Induction
import Mathlib.Data.List.Perm.Basic
import Mathlib.Data.Tree.Basic

/-!
# Search trees with any comparison

A set that is kept as a search tree descends from the root to the place of a new element, and gives the
element up when the node before that place does not compare less. Nothing is assumed of the comparison,
and what a new element compares with need not be what it will be compared by once it is in the tree.

* `exists_inorder_attach` : the neighbour is the node before the place;
* `below_neighbour` : the descent has found that the new element is not below its neighbour;
* `inorder_insertAll_perm` : so nothing is given up when of a new element and a node one is always less.
-/

namespace SearchTree

variable {α β : Type*}

def inorder : BinaryTree α → List α
  | .nil => []
  | .node b left right => inorder left ++ b :: inorder right

/-- A new node at the place that the descent comes to; `below b` when the new element is less than `b`. -/
def attach (below : α → Bool) (a : α) : BinaryTree α → BinaryTree α
  | .nil => .node a .nil .nil
  | .node b left right =>
    if below b then .node b (attach below a left) right else .node b left (attach below a right)

/-- The node before this place, if there is one. -/
def neighbour (below : α → Bool) : BinaryTree α → Option α
  | .nil => none
  | .node b left right =>
    if below b then neighbour below left else (neighbour below right).or (some b)

theorem exists_inorder_attach (below : α → Bool) (a : α) (t : BinaryTree α) :
    ∃ before after, inorder t = before ++ after ∧ inorder (attach below a t) = before ++ a :: after ∧
      neighbour below t = before.getLast? := by
  induction t with
  | nil => exact ⟨[], [], rfl, rfl, rfl⟩
  | node b left right ihl ihr =>
    cases hb : below b with
    | true =>
      obtain ⟨before, after, ht, hattach, hneighbour⟩ := ihl
      refine ⟨before, after ++ b :: inorder right, ?_, ?_, ?_⟩
      · rw [inorder, ht, List.append_assoc]
      · rw [attach, if_pos hb, inorder, hattach, List.append_assoc, List.cons_append]
      · rw [neighbour, if_pos hb, hneighbour]
    | false =>
      obtain ⟨before, after, ht, hattach, hneighbour⟩ := ihr
      refine ⟨inorder left ++ b :: before, after, ?_, ?_, ?_⟩
      · rw [inorder, ht, List.append_assoc, List.cons_append]
      · rw [attach, if_neg (by simp [hb]), inorder, hattach, List.append_assoc, List.cons_append]
      · rw [neighbour, if_neg (by simp [hb]), hneighbour, List.getLast?_append, List.getLast?_cons]
        cases before.getLast? <;> rfl

/-- The neighbour is the last node at which the descent went to the right. -/
theorem below_neighbour {below : α → Bool} {b : α} {t : BinaryTree α}
    (h : neighbour below t = some b) : b ∈ inorder t ∧ below b = false := by
  induction t with
  | nil => cases h
  | node c left right ihl ihr =>
    rw [neighbour] at h
    rw [inorder, List.mem_append, List.mem_cons]
    cases hc : below c with
    | true =>
      rw [if_pos hc] at h
      exact ⟨.inl (ihl h).1, (ihl h).2⟩
    | false =>
      rw [if_neg (by simp [hc])] at h
      rcases Option.or_eq_some_iff.mp h with h | ⟨-, h⟩
      · exact ⟨.inr (.inr (ihr h).1), (ihr h).2⟩
      · obtain rfl := Option.some.inj h
        exact ⟨.inr (.inl rfl), hc⟩

/-- Rebalancing may give a tree any shape, but keeps the order of its nodes. -/
structure Rebalancing (α : Type*) where
  rebalance : BinaryTree α → BinaryTree α
  inorder_rebalance : ∀ t, inorder (rebalance t) = inorder t

/-- Rebalancing that does nothing. -/
def Rebalancing.none : Rebalancing α := ⟨id, fun _ => rfl⟩

variable (rebalancing : Rebalancing α)

/-- Insert an element unless its neighbour is not less: `above b` when `b` is less than the element. -/
def insertUnique (below above : α → Bool) (a : α) (t : BinaryTree α) : BinaryTree α :=
  match neighbour below t with
  | some b => if above b then rebalancing.rebalance (attach below a t) else t
  | none => rebalancing.rebalance (attach below a t)

theorem inorder_insertUnique_perm {below above : α → Bool} {t : BinaryTree α}
    (h : ∀ b ∈ inorder t, below b = false → above b = true) (a : α) :
    (inorder (insertUnique rebalancing below above a t)).Perm (a :: inorder t) := by
  have hattach : (inorder (rebalancing.rebalance (attach below a t))).Perm (a :: inorder t) := by
    obtain ⟨before, after, ht, hafter, -⟩ := exists_inorder_attach below a t
    rw [rebalancing.inorder_rebalance, hafter, ht]
    exact List.perm_middle
  unfold insertUnique
  split
  · next b hb =>
    obtain ⟨hmem, hbelow⟩ := below_neighbour hb
    rw [if_pos (h b hmem hbelow)]
    exact hattach
  · exact hattach

/-- Insert elements in order, each with the node it is stored in. -/
def insertAll (below above : β → α → Bool) (store : β → α) (elements : List β) : BinaryTree α :=
  elements.foldl (fun t a => insertUnique rebalancing (below a) (above a) (store a) t) .nil

/-- **No element is given up** when each is less or greater than every node. -/
theorem inorder_insertAll_perm {below above : β → α → Bool} {store : β → α} {elements : List β}
    (h : ∀ a ∈ elements, ∀ b ∈ elements, below a (store b) = false → above a (store b) = true) :
    (inorder (insertAll rebalancing below above store elements)).Perm (elements.map store) := by
  induction elements using List.reverseRecOn with
  | nil => exact .refl _
  | append_singleton elements a ih =>
    have hmem : ∀ {c}, c ∈ elements → c ∈ elements ++ [a] := List.mem_append_left _
    have hold := ih fun c hc b hb => h c (hmem hc) b (hmem hb)
    rw [insertAll, List.foldl_append, List.foldl_cons, List.foldl_nil, List.map_append]
    refine (inorder_insertUnique_perm rebalancing (fun b hb => ?_) (store a)).trans
      ((hold.cons _).trans (List.perm_append_singleton _ _).symm)
    obtain ⟨c, hc, rfl⟩ := List.mem_map.mp (hold.mem_iff.mp hb)
    exact h a (List.mem_append_right _ (List.mem_singleton_self a)) c (hmem hc)

end SearchTree
