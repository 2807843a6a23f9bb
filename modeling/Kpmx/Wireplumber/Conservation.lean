import Kpmx.Wireplumber.Session
import Mathlib.Data.List.Perm.Basic

/-!
# No routing update is reordered or duplicated

Every update for which a setter changed a target is passed to `wp_metadata_set`, scheduled, queued or
lost, and those that are not lost keep their order (`updates_accounted`). Lost are the updates that
met a full queue and those handled before the metadata object appeared, as read off the states of the
run (`issuedIn`, `lostIn`); the second kind does occur (`update_before_metadata_lost`).
-/

namespace Kpmx.Session

open Runs Spsc

/-! ## What a run issues and loses -/

/-- The update for a target that is another one after a setter than before it, on a strip with an object
id. -/
def issuedBy (a : Session) (l : Action) (b : Session) : List WireplumberMetadataUpdate :=
  match l with
  | .setTargetObject r _ =>
    match a.models.layers.strip? r, b.models.layers.strip? r with
    | some before, some after =>
      if after.targetObject ≠ before.targetObject then
        (before.objectId.map fun id =>
          WireplumberMetadataUpdate.mk id "target.object" after.targetObject).toList
      else []
    | _, _ => []
  | _ => []

/-- What is issued while the queue holds 1024 updates, and what the metadata thread takes up while there
is no metadata object. -/
def lostBy (a : Session) (l : Action) (b : Session) : List WireplumberMetadataUpdate :=
  match l with
  | .setTargetObject _ _ =>
    if a.metadataUpdatesQueue.queue.items.length = 1024 then issuedBy a l b else []
  | .metadataUpdateThread .next =>
    if a.metadata = false then a.metadataUpdatesQueue.pending.head?.toList else []
  | _ => []

/-- The updates for which a setter of the run changed a target, in order. -/
def issuedIn : Session → List Action → List WireplumberMetadataUpdate := collect step issuedBy

/-- The updates that the run lost, in order. -/
def lostIn : Session → List Action → List WireplumberMetadataUpdate := collect step lostBy

theorem issuedBy_setTargetObject {a b : Session} {r : StripRef} {targetObject : QVariant}
    {strip : ChannelStripModel} (hstrip : a.models.layers.strip? r = some strip)
    (hb : a.setTargetObject r targetObject = some b) :
    issuedBy a (.setTargetObject r targetObject) b = (strip.setTargetObject targetObject).pushed := by
  obtain ⟨strip', hstrip', rfl⟩ := setTargetObject_eq_some.mp hb
  obtain rfl := Option.some.inj (hstrip.symm.trans hstrip')
  have hafter : (a.models.layers.modifyStrip r fun strip =>
      (strip.setTargetObject targetObject).strip).strip? r =
        some (strip.setTargetObject targetObject).strip := by
    rw [LayersListModel.strip?_modifyStrip, if_pos rfl, hstrip, Option.map_some]
  simp only [issuedBy, hstrip, hafter]
  exact (strip.setTargetObject_pushed_eq targetObject).symm

theorem full_iff (q : Consuming WireplumberMetadataUpdate queueCapacity) :
    q.full = true ↔ q.queue.items.length = 1024 := Spsc.full_eq_true

theorem histories_step {a b : Session} {l : Action} (hb : step a l = some b) :
    b.issued = a.issued ++ issuedBy a l b ∧ b.lost = a.lost ++ lostBy a l b := by
  cases l with
  | setTargetObject r targetObject =>
    obtain ⟨strip, hstrip, heq⟩ := setTargetObject_eq_some.mp hb
    have hissued := issuedBy_setTargetObject hstrip hb
    simp only [lostBy, hissued, ← full_iff]
    rw [heq]
    refine ⟨rfl, ?_⟩
    cases a.metadataUpdatesQueue.full <;> simp
  | metadataUpdateThread s =>
    cases s with
    | next =>
      obtain ⟨⟨update, queue⟩, hqueue, rfl⟩ := Option.map_eq_some_iff.mp hb
      simp only [issuedBy, lostBy, Consuming.pending_next hqueue]
      cases a.metadata <;> simp
    | start =>
      obtain ⟨queue, -, rfl⟩ := Option.map_eq_some_iff.mp hb
      simp [issuedBy, lostBy]
    | finish =>
      obtain ⟨queue, -, rfl⟩ := Option.map_eq_some_iff.mp hb
      simp [issuedBy, lostBy]
  | idleCallback =>
    obtain ⟨update, rest, -, rfl⟩ := step_idleCallback hb
    simp [issuedBy, lostBy]
  | metadataChangedCallback =>
    obtain ⟨update, rest, -, rfl⟩ := step_metadataChangedCallback hb
    simp [issuedBy, lostBy]
  | foreignChange update =>
    obtain rfl := step_foreignChange hb
    simp [issuedBy, lostBy]
  | metadataAdded =>
    obtain rfl := Option.some.inj hb
    simp [issuedBy, lostBy]
  | nodeAddedCallback node =>
    obtain rfl := Option.some.inj hb
    simp [issuedBy, lostBy, pushMessage]
  | nodeRemovedCallback node =>
    obtain rfl := Option.some.inj hb
    simp [issuedBy, lostBy, pushMessage]
  | nodesModelThread s =>
    obtain ⟨queue, -, rfl⟩ | ⟨message, queue, calls, -, -, -, rfl⟩ := nodesModelThread_cases hb
    · simp [issuedBy, lostBy]
    · simp [issuedBy, lostBy]
  | post =>
    obtain ⟨call, rest, -, rfl⟩ := step_post hb
    simp [issuedBy, lostBy]
  | postedCall =>
    obtain ⟨call, rest, models, -, -, rfl⟩ := step_postedCall hb
    simp [issuedBy, lostBy]

theorem histories_run {setup : List LayerSetup} {ls : List Action} {st : Session}
    (hrun : run step (start setup) ls = some st) :
    st.issued = issuedIn (start setup) ls ∧ st.lost = lostIn (start setup) ls := by
  refine run_induction (I := fun ls st =>
    st.issued = issuedIn (start setup) ls ∧ st.lost = lostIn (start setup) ls) ⟨rfl, rfl⟩ ?_ hrun
  intro ls a l b ha ⟨hissued, hlost⟩ hb
  obtain ⟨hissued', hlost'⟩ := histories_step hb
  rw [issuedIn, lostIn, collect_concat ha hb, collect_concat ha hb, hissued', hlost', hissued, hlost]
  exact ⟨rfl, rfl⟩

/-! ## Every update is accounted for -/

/-- The updates that are not lost, in the order of their stages. -/
def kept (st : Session) : List WireplumberMetadataUpdate :=
  st.metadataSet ++ st.idle ++ st.metadataUpdatesQueue.pending

structure Accounted (st : Session) : Prop where
  ordered : st.kept.Sublist st.issued
  complete : (st.kept ++ st.lost).Perm st.issued

/-- A step that only moves updates along. -/
theorem Accounted.of_kept_eq {a b : Session} (h : Accounted a) (hkept : b.kept = a.kept)
    (hissued : b.issued = a.issued) (hlost : b.lost = a.lost) : Accounted b where
  ordered := by rw [hkept, hissued]; exact h.ordered
  complete := by rw [hkept, hissued, hlost]; exact h.complete

theorem Accounted.of_queued {a b : Session} {u : WireplumberMetadataUpdate} (h : Accounted a)
    (hkept : b.kept = a.kept ++ [u]) (hissued : b.issued = a.issued ++ [u])
    (hlost : b.lost = a.lost) : Accounted b where
  ordered := by rw [hkept, hissued]; exact h.ordered.append (List.Sublist.refl _)
  complete := by
    rw [hkept, hissued, hlost, List.append_assoc]
    refine (List.perm_append_comm.append_left a.kept).trans ?_
    rw [← List.append_assoc]
    exact h.complete.append_right [u]

theorem Accounted.of_refused {a b : Session} {u : WireplumberMetadataUpdate} (h : Accounted a)
    (hkept : b.kept = a.kept) (hissued : b.issued = a.issued ++ [u])
    (hlost : b.lost = a.lost ++ [u]) : Accounted b where
  ordered := by rw [hkept, hissued]; exact h.ordered.trans (List.sublist_append_left _ _)
  complete := by
    rw [hkept, hissued, hlost, ← List.append_assoc]
    exact h.complete.append_right [u]

theorem Accounted.of_dropped {a b : Session} {u : WireplumberMetadataUpdate}
    {p q : List WireplumberMetadataUpdate} (h : Accounted a) (hkept : a.kept = p ++ u :: q)
    (hkept' : b.kept = p ++ q) (hissued : b.issued = a.issued) (hlost : b.lost = a.lost ++ [u]) :
    Accounted b where
  ordered := by
    rw [hkept', hissued]
    refine List.Sublist.trans ?_ (hkept ▸ h.ordered)
    exact (List.Sublist.refl p).append (List.sublist_cons_self u q)
  complete := by
    rw [hkept', hissued, hlost]
    refine List.Perm.trans ?_ (hkept ▸ h.complete)
    rw [← List.append_assoc, List.append_assoc p (u :: q) a.lost, List.append_assoc p q a.lost,
      List.append_assoc]
    exact List.perm_append_comm.append_left p

theorem Accounted.setTargetObject {a b : Session} {r : StripRef} {targetObject : QVariant}
    (h : Accounted a) (hb : a.setTargetObject r targetObject = some b) : Accounted b := by
  obtain ⟨strip, -, rfl⟩ := setTargetObject_eq_some.mp hb
  rcases strip.setTargetObject_pushed targetObject with hpushed | ⟨update, hpushed⟩
  · refine h.of_kept_eq ?_ ?_ ?_ <;> simp [hpushed, kept]
  · by_cases hfull : a.metadataUpdatesQueue.full = true
    · have hpending := Consuming.pending_push_of_full hfull update
      refine h.of_refused (u := update) ?_ ?_ ?_ <;> simp [hpushed, kept, hpending, hfull]
    · have hroom : a.metadataUpdatesQueue.full = false := by simpa using hfull
      have hpending := Consuming.pending_push_of_not_full hroom update
      refine h.of_queued (u := update) ?_ ?_ ?_ <;> simp [hpushed, kept, hpending, hroom]

theorem Accounted.metadataUpdateThread {a b : Session} {s : DrainStep} (h : Accounted a)
    (hb : a.metadataUpdateThread s = some b) : Accounted b := by
  obtain ⟨queue, hpending, rfl⟩ | ⟨update, queue, hpending, rfl⟩ := metadataUpdateThread_cases hb
  · refine h.of_kept_eq ?_ rfl rfl
    simp only [kept, hpending]
  · by_cases hmetadata : a.metadata = true
    · rw [if_pos hmetadata]
      refine h.of_kept_eq ?_ rfl rfl
      simp only [kept, hpending, List.append_assoc, List.singleton_append]
    · rw [if_neg hmetadata]
      refine h.of_dropped (p := a.metadataSet ++ a.idle) (q := queue.pending) ?_ rfl rfl rfl
      rw [kept, hpending]

/-- Only the setters and the metadata thread do more than move updates along. -/
theorem Accounted.step {a b : Session} {l : Action} (h : Accounted a) (hb : step a l = some b) :
    Accounted b := by
  cases l with
  | setTargetObject r targetObject => exact h.setTargetObject hb
  | metadataUpdateThread s => exact h.metadataUpdateThread hb
  | idleCallback =>
    obtain ⟨update, rest, hidle, rfl⟩ := step_idleCallback hb
    refine h.of_kept_eq ?_ rfl rfl
    simp only [kept, hidle, List.append_assoc, List.cons_append, List.nil_append]
  | metadataChangedCallback =>
    obtain ⟨update, rest, -, rfl⟩ := step_metadataChangedCallback hb
    exact h.of_kept_eq rfl rfl rfl
  | foreignChange update =>
    obtain rfl := step_foreignChange hb
    exact h.of_kept_eq rfl rfl rfl
  | metadataAdded =>
    obtain rfl := Option.some.inj hb
    exact h.of_kept_eq rfl rfl rfl
  | nodeAddedCallback node =>
    obtain rfl := Option.some.inj hb
    exact h.of_kept_eq rfl rfl rfl
  | nodeRemovedCallback node =>
    obtain rfl := Option.some.inj hb
    exact h.of_kept_eq rfl rfl rfl
  | nodesModelThread s =>
    obtain ⟨queue, -, rfl⟩ | ⟨message, queue, calls, -, -, -, rfl⟩ := nodesModelThread_cases hb
    · exact h.of_kept_eq rfl rfl rfl
    · exact h.of_kept_eq rfl rfl rfl
  | post =>
    obtain ⟨call, rest, -, rfl⟩ := step_post hb
    exact h.of_kept_eq rfl rfl rfl
  | postedCall =>
    obtain ⟨call, rest, models, -, -, rfl⟩ := step_postedCall hb
    exact h.of_kept_eq rfl rfl rfl

/-- **Every issued update is accounted for** in every state: passed to `wp_metadata_set`, scheduled,
queued or lost, and those not lost are in the order they were issued. -/
theorem updates_accounted (setup : List LayerSetup) (ls : List Action) (st : Session)
    (hrun : run step (start setup) ls = some st) :
    (st.metadataSet ++ st.idle ++ st.metadataUpdatesQueue.pending).Sublist
        (issuedIn (start setup) ls) ∧
      (st.metadataSet ++ st.idle ++ st.metadataUpdatesQueue.pending ++
        lostIn (start setup) ls).Perm (issuedIn (start setup) ls) := by
  have hstart : Accounted (start setup) := ⟨List.Sublist.refl _, List.Perm.refl _⟩
  have h : Accounted st := run_invariant (fun _ _ _ ha hl => ha.step hl) hrun hstart
  obtain ⟨hissued, hlost⟩ := histories_run hrun
  rw [← hissued, ← hlost]
  exact ⟨h.ordered, h.complete⟩

/-- A node for the first input strip is added, and its target is set and handled before the metadata
object appears. -/
def earlyUpdateRun : List Action :=
  insertRun firstInput ++
  [.setTargetObject ⟨0, .input, 0⟩ (some "sink"), .metadataUpdateThread .start,
    .metadataUpdateThread .next, .metadataUpdateThread .finish, .metadataAdded]

theorem update_before_metadata_lost : ¬ ∀ (setup : List LayerSetup) (ls : List Action) (st : Session),
    run step (start setup) ls = some st →
      issuedIn (start setup) ls = st.metadataSet ++ st.idle ++ st.metadataUpdatesQueue.pending := by
  intro h
  have hview : (run step (start [⟨["Channel 1"], []⟩]) earlyUpdateRun).map (fun st =>
      (st.issued, st.metadataSet ++ st.idle ++ st.metadataUpdatesQueue.pending)) =
      some ([⟨42, "target.object", some "sink"⟩], []) := by decide
  obtain ⟨st, hrun, hst⟩ := Option.map_eq_some_iff.mp hview
  simp only [Prod.mk.injEq] at hst
  have heq := h _ _ st hrun
  rw [← (histories_run hrun).1, hst.1, hst.2] at heq
  cases heq

/-- In that run the update is the one lost. -/
theorem updates_accounted_early_metadata : ∃ st,
    run step (start [⟨["Channel 1"], []⟩]) earlyUpdateRun = some st ∧
      lostIn (start [⟨["Channel 1"], []⟩]) earlyUpdateRun = [⟨42, "target.object", some "sink"⟩] ∧
      (st.metadataSet ++ st.idle ++ st.metadataUpdatesQueue.pending ++
        lostIn (start [⟨["Channel 1"], []⟩]) earlyUpdateRun).Perm
          (issuedIn (start [⟨["Channel 1"], []⟩]) earlyUpdateRun) := by
  have hview : (run step (start [⟨["Channel 1"], []⟩]) earlyUpdateRun).map lost =
      some [⟨42, "target.object", some "sink"⟩] := by decide
  obtain ⟨st, hrun, hst⟩ := Option.map_eq_some_iff.mp hview
  refine ⟨st, hrun, ?_, (updates_accounted _ _ st hrun).2⟩
  rw [← (histories_run hrun).2, hst]

end Kpmx.Session
