import Kpmx.Lib.Runs
import Kpmx.Wireplumber.Objects

/-!
# The metadata object and its pointers

`impl.metadata` points to the metadata object named `default`; each idle callback holds a copy of the
pointer. Objects are numbered in the order they are added, and a pointer is a number.
`node_removed_callback` leaves the pointer as it is.

* `metadata_is_live` : when no object is removed that a pointer leads to, every write goes to a live
  object;
* `exists_not_valid_of_referenced` : any other removal leads to a dangling pointer or to a write to a
  dead object.
-/

namespace Kpmx

open Runs

/-- `my_data`. -/
structure MyData where
  metadata : Nat
  update : WireplumberMetadataUpdate
  deriving DecidableEq

/-- The number of objects `added` so far, the live ones by their numbers, the pointer `metadata`, the
scheduled `idle` callbacks with the oldest first, and the calls of `wp_metadata_set`, each with
whether its object was live. -/
structure MetadataState where
  added : Nat
  live : List (Nat × WpObject)
  metadata : Option Nat
  idle : List MyData
  metadataSet : List (MyData × Bool)

/-- A metadata object with the name that `node_added_callback` looks for. -/
def WpObject.isDefault : WpObject → Bool
  | .metadata (some name) => name = "default"
  | _ => false

namespace MetadataState

inductive Action where
  | objectAdded (object : WpObject)
  | objectRemoved (pointer : Nat)
  | metadataUpdate (update : WireplumberMetadataUpdate)
  | idleCallback

def start : MetadataState where
  added := 0
  live := []
  metadata := none
  idle := []
  metadataSet := []

def isLive (st : MetadataState) (pointer : Nat) : Bool :=
  st.live.any fun entry => entry.1 = pointer

/-- `none` when there is no such object or no callback. -/
def step (st : MetadataState) : Action → Option MetadataState
  | .objectAdded object => some { st with
      added := st.added + 1
      live := st.live ++ [(st.added, object)]
      metadata := if object.isDefault then some st.added else st.metadata }
  | .objectRemoved pointer =>
    if st.isLive pointer then some { st with live := st.live.filter fun entry => entry.1 ≠ pointer }
    else none
  | .metadataUpdate update =>
    match st.metadata with
    | some pointer => some { st with idle := st.idle ++ [{ metadata := pointer, update := update }] }
    | none => some st
  | .idleCallback =>
    match st.idle with
    | [] => none
    | data :: rest => some { st with
        idle := rest
        metadataSet := st.metadataSet ++ [(data, st.isLive data.metadata)] }

/-- The pointer leads to a metadata object named `default` that is live. -/
def LiveDefault (st : MetadataState) (pointer : Nat) : Prop :=
  ∃ object, (pointer, object) ∈ st.live ∧ object.isDefault = true

/-- `impl.metadata` is null or leads to a live default object, and every write went to a live one. -/
structure Valid (st : MetadataState) : Prop where
  metadata : ∀ pointer, st.metadata = some pointer → st.LiveDefault pointer
  metadataSet : ∀ call ∈ st.metadataSet, call.2 = true

/-- No pointer leads to the removed object. -/
def Unreferenced (st : MetadataState) : Action → Prop
  | .objectRemoved pointer =>
    st.metadata ≠ some pointer ∧ ∀ data ∈ st.idle, data.metadata ≠ pointer
  | _ => True

instance (st : MetadataState) : (l : Action) → Decidable (Unreferenced st l)
  | .objectRemoved _ => inferInstanceAs (Decidable (_ ∧ _))
  | .objectAdded _ => .isTrue trivial
  | .metadataUpdate _ => .isTrue trivial
  | .idleCallback => .isTrue trivial

/-! ## Pointers that stay live -/

/-- Also the copies in the scheduled callbacks lead to live default objects. -/
structure Inv (st : MetadataState) : Prop where
  valid : Valid st
  idle : ∀ data ∈ st.idle, st.LiveDefault data.metadata

theorem LiveDefault.isLive {st : MetadataState} {pointer : Nat} (h : st.LiveDefault pointer) :
    st.isLive pointer = true := by
  obtain ⟨object, hmem, -⟩ := h
  exact List.any_eq_true.mpr ⟨_, hmem, decide_eq_true rfl⟩

theorem LiveDefault.of_subset {st st' : MetadataState} {pointer : Nat} (h : st.LiveDefault pointer)
    (hsub : st.live ⊆ st'.live) : st'.LiveDefault pointer := by
  obtain ⟨object, hmem, hdefault⟩ := h
  exact ⟨object, hsub hmem, hdefault⟩

theorem LiveDefault.of_ne {st : MetadataState} {pointer removed : Nat} (h : st.LiveDefault pointer)
    (hne : pointer ≠ removed) : ({ st with
      live := st.live.filter fun entry => entry.1 ≠ removed } : MetadataState).LiveDefault pointer := by
  obtain ⟨object, hmem, hdefault⟩ := h
  exact ⟨object, List.mem_filter.mpr ⟨hmem, decide_eq_true hne⟩, hdefault⟩

/-- **A step** that removes no object a pointer leads to keeps the pointers live. -/
theorem Inv.step {a b : MetadataState} {l : Action} (h : Inv a) (hl : Unreferenced a l)
    (hstep : step a l = some b) : Inv b := by
  cases l with
  | objectAdded object =>
    obtain rfl := Option.some.inj hstep
    have hsub : a.live ⊆ a.live ++ [(a.added, object)] := List.subset_append_left _ _
    refine ⟨⟨fun pointer hpointer => ?_, h.valid.metadataSet⟩,
      fun data hdata => (h.idle data hdata).of_subset hsub⟩
    simp only at hpointer
    split at hpointer
    · next hdefault =>
      obtain rfl := Option.some.inj hpointer
      exact ⟨object, List.mem_append_right _ (List.mem_singleton_self _), hdefault⟩
    · exact (h.valid.metadata pointer hpointer).of_subset hsub
  | objectRemoved removed =>
    obtain ⟨-, hstep⟩ := Option.ite_none_right_eq_some.mp hstep
    obtain rfl := Option.some.inj hstep
    obtain ⟨hmetadata, hidle⟩ := hl
    refine ⟨⟨fun pointer hpointer => ?_, h.valid.metadataSet⟩,
      fun data hdata => (h.idle data hdata).of_ne (hidle data hdata)⟩
    refine (h.valid.metadata pointer hpointer).of_ne ?_
    rintro rfl
    exact hmetadata hpointer
  | metadataUpdate update =>
    rw [MetadataState.step] at hstep
    split at hstep
    · next pointer hpointer =>
      obtain rfl := Option.some.inj hstep
      refine ⟨⟨h.valid.metadata, h.valid.metadataSet⟩, fun data hdata => ?_⟩
      rcases List.mem_append.mp hdata with hdata | hdata
      · exact h.idle data hdata
      · rw [List.mem_singleton.mp hdata]
        exact h.valid.metadata pointer hpointer
    · obtain rfl := Option.some.inj hstep
      exact h
  | idleCallback =>
    rw [MetadataState.step] at hstep
    split at hstep
    · cases hstep
    · next data rest hidle =>
      obtain rfl := Option.some.inj hstep
      have hhead : a.LiveDefault data.metadata := h.idle data (by rw [hidle]; exact List.mem_cons_self)
      refine ⟨⟨h.valid.metadata, fun call hcall => ?_⟩,
        fun data' hdata' => h.idle data' (by rw [hidle]; exact List.mem_cons_of_mem _ hdata')⟩
      rcases List.mem_append.mp hcall with hcall | hcall
      · exact h.valid.metadataSet call hcall
      · rw [List.mem_singleton.mp hcall]
        exact hhead.isLive

theorem inv_start : Inv start :=
  ⟨⟨fun _ h => absurd h (by simp [start]), fun _ h => absurd h (by simp [start])⟩,
    fun _ h => absurd h (by simp [start])⟩

theorem inv_of_run {ls : List Action} {st : MetadataState}
    (hrun : run (guarded Unreferenced step) start ls = some st) : Inv st := by
  refine run_invariant (I := Inv) (fun a l b h hl => ?_) hrun inv_start
  obtain ⟨hunreferenced, hstep⟩ := (guarded_eq_some Unreferenced).mp hl
  exact h.step hunreferenced hstep

/-- **Metadata writes only go to a live object**, in every run that removes no object a pointer leads
to. -/
theorem metadata_is_live (ls : List Action) (st : MetadataState)
    (hrun : run (guarded Unreferenced step) start ls = some st) : Valid st := (inv_of_run hrun).valid

/-- Two default objects: the first is removed once the second has replaced it. -/
def replacedRun : List Action :=
  [.objectAdded (.metadata (some "default")), .metadataUpdate ⟨42, "target_object", some "7"⟩,
    .idleCallback, .objectAdded (.metadata (some "default")), .objectRemoved 0,
    .metadataUpdate ⟨42, "target_object", none⟩, .idleCallback]

theorem metadata_is_live_replaced : ∃ st,
    run (guarded Unreferenced step) start replacedRun = some st ∧ st.metadata = some 1 ∧
      Valid st := by
  have hmetadata : (run (guarded Unreferenced step) start replacedRun).map metadata =
      some (some 1) := by decide
  obtain ⟨st, hrun, hst⟩ := Option.map_eq_some_iff.mp hmetadata
  exact ⟨st, hrun, hst, metadata_is_live replacedRun st hrun⟩

/-! ## Other removals -/

theorem run_idleCallbacks (st : MetadataState) :
    run step st (st.idle.map fun _ => .idleCallback) = some { st with
      idle := []
      metadataSet := st.metadataSet ++ st.idle.map fun data => (data, st.isLive data.metadata) } := by
  obtain ⟨added, live, metadata, idle, metadataSet⟩ := st
  induction idle generalizing metadataSet with
  | nil => simp
  | cons data rest ih =>
    rw [List.map_cons, run_cons, step, Option.bind_some]
    refine (ih (metadataSet ++ [(data, isLive ⟨added, live, metadata, data :: rest, metadataSet⟩
      data.metadata)])).trans ?_
    simp [isLive]

/-- **A removal of an object that a pointer leads to** leads to a state that is not valid. -/
theorem exists_not_valid_of_referenced {a b : MetadataState} {removed : Nat}
    (hreferenced : ¬ Unreferenced a (.objectRemoved removed))
    (hstep : step a (.objectRemoved removed) = some b) :
    ∃ ls c, run step b ls = some c ∧ ¬ Valid c := by
  obtain ⟨-, hstep⟩ := Option.ite_none_right_eq_some.mp hstep
  obtain rfl := Option.some.inj hstep
  have hdead : ∀ object, (removed, object) ∉ a.live.filter fun entry => entry.1 ≠ removed := by
    intro object hmem
    simpa using (List.mem_filter.mp hmem).2
  by_cases hmetadata : a.metadata = some removed
  · refine ⟨[], _, rfl, fun hvalid => ?_⟩
    obtain ⟨object, hmem, -⟩ := hvalid.metadata removed hmetadata
    exact hdead object hmem
  · obtain ⟨data, hdata, rfl⟩ : ∃ data ∈ a.idle, data.metadata = removed := by
      by_contra hnone
      exact hreferenced ⟨hmetadata, fun data hdata heq => hnone ⟨data, hdata, heq⟩⟩
    -- the callback's write comes after the removal
    refine ⟨_, _, run_idleCallbacks _, fun hvalid => ?_⟩
    have hlive := hvalid.metadataSet (data, _)
      (List.mem_append_right _ (List.mem_map.mpr ⟨data, hdata, rfl⟩))
    obtain ⟨⟨pointer, object⟩, hmem, heq⟩ := List.any_eq_true.mp hlive
    obtain rfl := of_decide_eq_true heq
    exact hdead object hmem

theorem removed_default_is_kept : ¬ ∀ (ls : List Action) (st : MetadataState),
    run step start ls = some st → Valid st := by
  intro h
  have hvalid := h [.objectAdded (.metadata (some "default")), .objectRemoved 0] _ rfl
  obtain ⟨object, hmem, -⟩ := hvalid.metadata 0 rfl
  exact absurd hmem (by simp)

end MetadataState

end Kpmx
