import Kpmx.Lib.SearchTree
import Kpmx.Model.Branches
import Mathlib.Data.List.Nodup

/-!
# The signals that a message emits

`signals_to_emit` is a `std::set` of functions that compares the addresses of the objects that hold
them: the address of the temporary while it is inserted, that of the tree's node afterwards. After the
loop over the parameters the set is run through in order.

* `emitted_perm` : every insertion is emitted, in some order, wherever the objects are;
* `no_change_goes_unannounced` : so every change is announced, after the last assignment;
* `notifies_once_iff` : and a property twice when it is assigned twice.
-/

namespace Kpmx

open LastWrite

/-! ## The set -/

/-- The addresses of the temporary of each insertion and of the node that it becomes. Temporaries may
come one after another in the same place, but none lies where a node is. -/
structure Layout where
  temporary : Nat → Nat
  node : Nat → Nat
  apart : ∀ i j, temporary i ≠ node j

/-- A node of the set. -/
structure SetNode where
  address : Nat
  signal : Signal

/-- `cmp` on the temporary and a node. -/
def Layout.below (layout : Layout) (inserted : Signal × Nat) (node : SetNode) : Bool :=
  layout.temporary inserted.2 < node.address

/-- `cmp` on a node and the temporary. -/
def Layout.above (layout : Layout) (inserted : Signal × Nat) (node : SetNode) : Bool :=
  node.address < layout.temporary inserted.2

def Layout.store (layout : Layout) (inserted : Signal × Nat) : SetNode where
  address := layout.node inserted.2
  signal := inserted.1

variable (layout : Layout) (rebalancing : SearchTree.Rebalancing SetNode)

/-- `signals_to_emit` after the insertions, which are numbered in order. -/
def signalsToEmit (inserted : List Signal) : BinaryTree SetNode :=
  SearchTree.insertAll rebalancing layout.below layout.above layout.store inserted.zipIdx

/-- The emissions, in order. -/
def emitted (inserted : List Signal) : List Signal :=
  (SearchTree.inorder (signalsToEmit layout rebalancing inserted)).map SetNode.signal

/-- **Every insertion is emitted.** The address of a temporary is never that of a node, so the set takes
no function for one that it has. -/
theorem emitted_perm (inserted : List Signal) :
    (emitted layout rebalancing inserted).Perm inserted := by
  have hall : (SearchTree.inorder (signalsToEmit layout rebalancing inserted)).Perm
      (inserted.zipIdx.map layout.store) := by
    refine SearchTree.inorder_insertAll_perm rebalancing fun a _ b _ hbelow => ?_
    have hle := of_decide_eq_false hbelow
    have hapart := layout.apart a.2 b.2
    exact decide_eq_true (show layout.node b.2 < layout.temporary a.2 by
      simp only [Layout.store] at hle
      omega)
  have hsignals : (inserted.zipIdx.map layout.store).map SetNode.signal = inserted := by
    rw [List.map_map]
    exact List.zipIdx_map_fst 0 inserted
  exact (hall.map SetNode.signal).trans (.of_eq hsignals)

theorem mem_emitted_iff {inserted : List Signal} {signal : Signal} :
    signal ∈ emitted layout rebalancing inserted ↔ signal ∈ inserted :=
  (emitted_perm layout rebalancing inserted).mem_iff

theorem emitted_eq_nil_iff {inserted : List Signal} :
    emitted layout rebalancing inserted = [] ↔ inserted = [] := by
  have hperm := emitted_perm layout rebalancing inserted
  constructor
  · intro h
    exact (List.nil_perm.mp (h ▸ hperm))
  · rintro rfl
    exact List.perm_nil.mp hperm

section
variable [CastUndefined]

/-! ## Every change is announced -/

inductive ParseEvent where
  | operation (operation : Operation)
  | emitted (signal : Signal)

/-- What `parse_spa_prop_params` does, in order: the operations of the loop over the parameters, then the
emissions of the loop over the set. -/
def parseTrace (params : List DecodedParam) (s : ChannelStripModel) : List ParseEvent :=
  (operations params s).map .operation ++
    (emitted layout rebalancing (parseParams params s).2).map .emitted

namespace ParseEvent

def operation? : ParseEvent → Option Operation
  | .operation o => some o
  | .emitted _ => none

/-- The property that is assigned. -/
def assigned (event : ParseEvent) : Option Property := event.operation?.bind Operation.property

end ParseEvent

/-- The operations make the strip and the insertions; every property with a new value has its signal
emitted; nothing is assigned after an emission; and a signal is emitted only for a property that was
assigned. -/
structure Announced (params : List DecodedParam) (s : ChannelStripModel) (trace : List ParseEvent) :
    Prop where
  performed : runOperations (trace.filterMap ParseEvent.operation?) s = parseParams params s
  changed : ∀ property : Property, ¬ property.Same s (parseParams params s).1 →
    .emitted property.changed ∈ trace
  last : trace.Pairwise fun earlier later =>
    later.assigned.isSome = true → ∀ signal, earlier ≠ .emitted signal
  assigned : ∀ signal, .emitted signal ∈ trace →
    ∃ event ∈ trace, event.assigned.map Property.changed = some signal

omit [CastUndefined] in
theorem operation?_map_append (operations : List Operation) (signals : List Signal) :
    (operations.map ParseEvent.operation ++ signals.map ParseEvent.emitted).filterMap
      ParseEvent.operation? = operations := by
  have hoperations : (operations.map ParseEvent.operation).filterMap ParseEvent.operation? =
      operations := by
    rw [List.filterMap_map]
    exact List.filterMap_some
  have hsignals : (signals.map ParseEvent.emitted).filterMap ParseEvent.operation? = [] := by
    rw [List.filterMap_map]
    exact List.filterMap_eq_nil_iff.mpr fun _ _ => rfl
  rw [List.filterMap_append, hoperations, hsignals, List.append_nil]

/-- **No change goes unannounced**, wherever the objects are. -/
theorem no_change_goes_unannounced (params : List DecodedParam) (s : ChannelStripModel) :
    Announced params s (parseTrace layout rebalancing params s) where
  performed := by
    rw [parseTrace, operation?_map_append, runOperations_operations]
  changed := fun property hchange => by
    refine List.mem_append_right _ (List.mem_map_of_mem ((mem_emitted_iff _ _).mpr ?_))
    rw [parseParams_snd]
    by_contra hnot
    exact hchange (same_of_not_mem_assigned fun hmem => hnot (List.mem_map_of_mem hmem))
  last := by
    refine List.pairwise_append.mpr ⟨?_, ?_, fun earlier hearlier later _ _ signal => ?_⟩
    · exact List.pairwise_map.mpr (List.pairwise_of_forall fun _ _ => by simp)
    · exact List.pairwise_map.mpr (List.pairwise_of_forall fun _ _ => by
        simp [ParseEvent.assigned, ParseEvent.operation?])
    · obtain ⟨_, -, rfl⟩ := List.mem_map.mp hearlier
      simp
  assigned := fun signal hmem => by
    rcases List.mem_append.mp hmem with hmem | hmem
    · obtain ⟨_, -, heq⟩ := List.mem_map.mp hmem
      cases heq
    · obtain ⟨_, hsignal, heq⟩ := List.mem_map.mp hmem
      obtain rfl := ParseEvent.emitted.inj heq
      rw [mem_emitted_iff, parseParams_snd] at hsignal
      obtain ⟨property, hproperty, hchanged⟩ := List.mem_map.mp hsignal
      obtain ⟨operation, hoperation, hassigns⟩ := List.mem_filterMap.mp hproperty
      refine ⟨.operation operation, List.mem_append_left _ (List.mem_map_of_mem hoperation), ?_⟩
      rw [← hchanged]
      exact congrArg (Option.map Property.changed) hassigns

/-! ## What is announced twice -/

omit [CastUndefined] in
theorem loopNumber_parameterName (p : Param) : loopNumber p.parameterName = none := by
  cases p <;> rfl

theorem assignedBy_parameterName {p : Param} (hp : p ≠ .volume) (value : ParamVariant)
    (s : ChannelStripModel) : assignedBy (p.parameterName, value) s =
      if p.type.ne (p.type.decode value) (p.get s) then some (.param p) else none := by
  rw [assignedBy_eq]
  simp only [loopNumber_parameterName, Param.ofName_parameterName hp]

theorem of_assignedBy_eq_param {param : DecodedParam} {s : ChannelStripModel} {p : Param}
    (h : assignedBy param s = some (.param p)) : p ≠ .volume ∧ param.1 = p.parameterName := by
  rw [assignedBy_eq] at h
  split at h
  · split at h <;> cases h
  · next q hname =>
    split at h
    · obtain rfl := Property.param.inj (Option.some.inj h)
      exact (Param.ofName_eq_some_iff.mp hname).imp id Eq.symm
    · cases h
  · cases h

theorem assignedBy_eq_selectedLoop_iff {param : DecodedParam} {s : ChannelStripModel} :
    assignedBy param s = some .selectedLoop ↔
      (loopCalled param).isSome = true ∧ s.selectedLoop ≠ 1 := by
  rw [assignedBy_eq, loopCalled]
  cases loopNumber param.1 with
  | some n => by_cases hvalue : param.2.toInt = n <;> simp [hvalue]
  | none => cases Param.ofName param.1 <;> simp

theorem of_assignedBy_eq_some {param : DecodedParam} {s : ChannelStripModel} {property : Property}
    (h : assignedBy param s = some property) :
    (∃ p, p ≠ .volume ∧ property = .param p) ∨ property = .selectedLoop := by
  rw [assignedBy_eq] at h
  split at h
  · split at h
    · exact .inr (Option.some.inj h).symm
    · cases h
  · next p _ hname =>
    split at h
    · exact .inl ⟨p, (Param.ofName_eq_some_iff.mp hname).1, (Option.some.inj h).symm⟩
    · cases h
  · cases h

theorem of_mem_assigned {params : List DecodedParam} {s : ChannelStripModel} {property : Property}
    (h : property ∈ assigned params s) :
    (∃ p, p ≠ .volume ∧ property = .param p) ∨ property = .selectedLoop := by
  induction params generalizing s with
  | nil => cases h
  | cons param params ih =>
    rw [assigned_cons, List.mem_append] at h
    rcases h with h | h
    · exact of_assignedBy_eq_some (Option.mem_toList.mp h)
    · exact ih h

theorem count_assigned_cons (property : Property) (param : DecodedParam) (params : List DecodedParam)
    (s : ChannelStripModel) : (assigned (param :: params) s).count property =
      (assigned params (dispatch param s).1).count property +
        if assignedBy param s = some property then 1 else 0 := by
  rw [assigned_cons, List.count_append, Nat.add_comm]
  congr 1
  cases hassigned : assignedBy param s with
  | none => rfl
  | some q =>
    rw [Option.toList_some, List.count_singleton]
    simp [beq_iff_eq]

/-- The values that the parameters give for a field, in order. -/
def Param.values (p : Param) (params : List DecodedParam) : List p.type.Value :=
  params.filterMap fun param =>
    if param.1 = p.parameterName then some (p.type.decode param.2) else none

theorem Param.values_cons_self (p : Param) (value : ParamVariant) (params : List DecodedParam) :
    p.values ((p.parameterName, value) :: params) = p.type.decode value :: p.values params := by
  simp only [values, List.filterMap_cons, if_true]

theorem Param.values_cons_of_ne {p : Param} {param : DecodedParam} (h : param.1 ≠ p.parameterName)
    (params : List DecodedParam) : p.values (param :: params) = p.values params := by
  simp only [values, List.filterMap_cons, if_neg h]

/-- A field is assigned each value that differs from the one before it. -/
theorem count_param_assigned {p : Param} (hp : p ≠ .volume) (params : List DecodedParam)
    (s : ChannelStripModel) : (assigned params s).count (.param p) =
      acceptedWrites (fun c v => p.type.ne v c) (p.get s) (p.values params) := by
  induction params generalizing s with
  | nil => rfl
  | cons param params ih =>
    obtain ⟨name, value⟩ := param
    rw [count_assigned_cons, ih]
    by_cases hname : name = p.parameterName
    · subst hname
      have hget : p.get (dispatch (p.parameterName, value) s).1 = p.type.decode value := by
        rw [dispatch_param hp, get_assign]
      rw [Param.values_cons_self, acceptedWrites, hget, assignedBy_parameterName hp]
      by_cases hne : p.type.ne (p.type.decode value) (p.get s) = true
      · simp only [hne, if_true]
      · have hsame : p.type.decode value = p.get s :=
          ParamType.eq_of_ne_eq_false (Bool.eq_false_iff.mpr hne)
        simp only [if_neg hne, reduceCtorEq, if_false, Nat.add_zero]
        rw [hsame]
    · have hother : assignedBy (name, value) s ≠ some (.param p) := fun h =>
        hname (of_assignedBy_eq_param h).2
      rw [if_neg hother, Param.values_cons_of_ne hname, get_dispatch_of_ne hname, Nat.add_zero]

theorem count_selectedLoop_assigned (params : List DecodedParam) (s : ChannelStripModel) :
    (assigned params s).count .selectedLoop =
      acceptedWrites (fun c _ => decide (c ≠ 1)) s.selectedLoop (loopsCalled params) := by
  induction params generalizing s with
  | nil => rfl
  | cons param params ih =>
    rw [count_assigned_cons, ih, selectedLoop_dispatch]
    cases hcalled : loopCalled param with
    | none =>
      have hother : assignedBy param s ≠ some .selectedLoop := fun h => by
        simpa [hcalled] using (assignedBy_eq_selectedLoop_iff.mp h).1
      have hloops : loopsCalled (param :: params) = loopsCalled params :=
        List.filterMap_cons_none hcalled
      rw [if_neg hother, hloops, Nat.add_zero]
    | some n =>
      have hloops : loopsCalled (param :: params) = n :: loopsCalled params :=
        List.filterMap_cons_some hcalled
      rw [hloops, acceptedWrites]
      by_cases hfirst : s.selectedLoop = 1
      · have hother : assignedBy param s ≠ some .selectedLoop := fun h =>
          (assignedBy_eq_selectedLoop_iff.mp h).2 hfirst
        simp [hother, writeUnless, hfirst]
      · have hassigned : assignedBy param s = some .selectedLoop :=
          assignedBy_eq_selectedLoop_iff.mpr ⟨by rw [hcalled]; rfl, hfirst⟩
        simp [hassigned, writeUnless, hfirst]

/-- For each field, at most one of the values given for it differs from the value before it; and one loop
is called for at most, up to the first call for loop 1, unless loop 1 is selected. -/
structure ChangesOnce (params : List DecodedParam) (s : ChannelStripModel) : Prop where
  fields : ∀ p : Param, p ≠ .volume →
    acceptedWrites (fun c v => p.type.ne v c) (p.get s) (p.values params) ≤ 1
  loop : acceptedWrites (fun c _ => decide (c ≠ 1)) s.selectedLoop (loopsCalled params) ≤ 1

theorem nodup_assigned_iff (params : List DecodedParam) (s : ChannelStripModel) :
    (assigned params s).Nodup ↔ ChangesOnce params s := by
  rw [List.nodup_iff_count_le_one]
  constructor
  · intro h
    refine ⟨fun p hp => ?_, ?_⟩
    · rw [← count_param_assigned hp]
      exact h (.param p)
    · rw [← count_selectedLoop_assigned]
      exact h .selectedLoop
  · intro h property
    by_cases hmem : property ∈ assigned params s
    · rcases of_mem_assigned hmem with ⟨p, hp, rfl⟩ | rfl
      · rw [count_param_assigned hp]
        exact h.fields p hp
      · rw [count_selectedLoop_assigned]
        exact h.loop
    · rw [List.count_eq_zero.mpr hmem]
      exact Nat.zero_le 1

/-- **A message notifies each property once at most**, wherever the objects are, exactly when it changes
each property once at most. -/
theorem notifies_once_iff (params : List DecodedParam) (s : ChannelStripModel) :
    (emitted layout rebalancing (parseParams params s).2).Nodup ↔ ChangesOnce params s := by
  rw [(emitted_perm layout rebalancing _).nodup_iff, parseParams_snd,
    List.nodup_map_iff Property.changed_injective, nodup_assigned_iff]

end

/-- Each temporary directly before its node. -/
def Layout.interleaved : Layout where
  temporary := fun i => 2 * i
  node := fun i => 2 * i + 1
  apart := fun i j => by omega

/-- Two values for the mix in one message. -/
theorem mix_notified_twice : ¬ ∀ [CastUndefined] (layout : Layout)
    (rebalancing : SearchTree.Rebalancing SetNode) (params : List DecodedParam)
    (s : ChannelStripModel), (emitted layout rebalancing (parseParams params s).2).Nodup := by
  intro h
  have hnodup := @h .x86 .interleaved .none
    [("Looper:mix", .double (.finite 1)), ("Looper:mix", .double (.finite 2))] {}
  exact absurd ((emitted_perm _ _ _).nodup_iff.mp hnodup) (by decide)

end Kpmx
