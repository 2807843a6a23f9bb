import Kpmx.Lib.Runs
import Kpmx.Model.Emission

/-!
# Bindings to the properties of a strip

Every property of `ChannelStripModel` names the signal that announces its change; a binding reads the
property again when that signal is emitted and at no other time. A `View` is what bindings to all the
properties show. It is right as long as no setter, and no decoded message, changes a field without
the field's own signal: `Announces`.

* `rereadAll_eq` : when every change is announced, the view is right after the last signal, in whatever
  order they come and however often;
* `announces_*` : one lemma for each way to change a strip;
* `view_shows_strip` : so the view is right between any two calls, wherever the sets of signals lie in
  memory.
-/

namespace Kpmx
open Runs

/-! ## Reading a property again -/

/-- What bindings to the properties of a strip show. -/
abbrev View := ChannelStripModel

namespace Property

/-- The view after the bindings to a property have read it from `source`. -/
def reread (source : ChannelStripModel) : Property → View → View
  | .param p, view => p.set (p.get source) view
  | .selectedLoop, view => { view with selectedLoop := source.selectedLoop }
  | .looperPlaying, view => { view with looperPlaying := source.looperPlaying }
  | .looperRecording, view => { view with looperRecording := source.looperRecording }
  | .name, view => { view with name := source.name }
  | .pan, view => { view with pan := source.pan }
  | .targetObject, view => { view with targetObject := source.targetObject }
  | .objectId, view => { view with objectId := source.objectId }

theorem same_reread (property : Property) (source : ChannelStripModel) (view : View) :
    property.Same source (property.reread source view) := by
  cases property with
  | param p => exact p.get_set _ view
  | _ => rfl

theorem same_set {p : Param} {other : Property} (h : other ≠ .param p) (v : p.type.Value)
    (s : ChannelStripModel) : other.Same s (p.set v s) := by
  have hunsent := p.unsent_set v s
  cases other with
  | param q =>
    have hqp : q ≠ p := fun heq => h (congrArg Property.param heq)
    exact Param.get_set_of_ne hqp v s
  | selectedLoop => exact p.selectedLoop_set v s
  | looperPlaying => exact congrArg UnsentFields.looperPlaying hunsent
  | looperRecording => exact congrArg UnsentFields.looperRecording hunsent
  | name => exact congrArg UnsentFields.name hunsent
  | pan => exact congrArg UnsentFields.pan hunsent
  | targetObject => exact congrArg UnsentFields.targetObject hunsent
  | objectId => exact congrArg UnsentFields.objectId hunsent

theorem same_reread_of_ne {property other : Property} (h : other ≠ property)
    (source : ChannelStripModel) (view : View) : other.Same view (property.reread source view) := by
  cases property with
  | param p => exact same_set h _ view
  | _ =>
    cases other with
    | param q => cases q <;> rfl
    | _ => first | rfl | exact absurd rfl h

theorem Same.symm {s t : ChannelStripModel} {property : Property} (h : property.Same s t) :
    property.Same t s := by
  cases property <;> exact Eq.symm h

theorem eq_of_same {s t : ChannelStripModel} (h : ∀ property : Property, property.Same s t) : t = s := by
  have hunsent : t.unsent = s.unsent := by
    rw [ChannelStripModel.unsent, h .targetObject, h .objectId, h .looperPlaying, h .looperRecording,
      h .name, h .pan]
    rfl
  exact ChannelStripModel.ext_params (fun p => h (.param p)) hunsent (h .selectedLoop)

end Property

/-- The view after the signals of a strip that no longer changes. -/
def rereadAll (source : ChannelStripModel) (signals : List Signal) (view : View) : View :=
  signals.foldl (fun view signal => (Property.ofSignal signal).reread source view) view

theorem same_rereadAll {source : ChannelStripModel} {signals : List Signal} {view : View}
    {property : Property} (h : property.Same source view ∨ property.changed ∈ signals) :
    property.Same source (rereadAll source signals view) := by
  induction signals generalizing view with
  | nil => exact h.resolve_right List.not_mem_nil
  | cons signal signals ih =>
    refine ih ?_
    by_cases heq : property = Property.ofSignal signal
    · exact .inl (heq ▸ property.same_reread source view)
    · rcases h with hsame | hmem
      · exact .inl (hsame.trans (Property.same_reread_of_ne heq source view))
      · rcases List.mem_cons.mp hmem with rfl | hmem
        · exact absurd property.ofSignal_changed.symm heq
        · exact .inr hmem

/-! ## Announced changes -/

/-- Every property in which the strips differ has its signal among `signals`. -/
def Announces (s t : ChannelStripModel) (signals : List Signal) : Prop :=
  ∀ property : Property, ¬ property.Same s t → property.changed ∈ signals

/-- **The order of the signals is of no account.** -/
theorem rereadAll_eq {s t : ChannelStripModel} {signals : List Signal} (h : Announces s t signals) :
    rereadAll t signals s = t := by
  refine Property.eq_of_same fun property => same_rereadAll ?_
  by_cases hmem : property.changed ∈ signals
  · exact .inr hmem
  · have hsame : property.Same s t := by_contra fun hdiff => hmem (h property hdiff)
    exact .inl hsame.symm

theorem announces_refl (s : ChannelStripModel) (signals : List Signal) : Announces s s signals :=
  fun property hdiff => absurd (.refl s property) hdiff

theorem announces_reread (property : Property) (source : ChannelStripModel) (s : ChannelStripModel) :
    Announces s (property.reread source s) [property.changed] := by
  intro other hdiff
  by_cases heq : other = property
  · exact List.mem_singleton.mpr (congrArg Property.changed heq)
  · exact absurd (Property.same_reread_of_ne heq source s) hdiff

/-- What a call assigns, it announces. -/
abbrev Call.Announced {μ : Type} (s : ChannelStripModel) (call : Call μ) : Prop :=
  Announces s call.strip call.emitted

theorem announced_assign {μ : Type} {guard : Prop} [Decidable guard] (property : Property)
    (source s : ChannelStripModel) (pushed : List μ) :
    Call.Announced s (if guard then
      { strip := property.reread source s, pushed := pushed, emitted := [property.changed] }
      else { strip := s }) := by
  by_cases h : guard
  · rw [if_pos h]
    exact announces_reread property source s
  · rw [if_neg h]
    exact announces_refl s []

theorem SetterCall.announced (c : SetterCall) (s : ChannelStripModel) : (c.perform s).Announced s := by
  cases h : c.param.type.ne (c.param.get s) c.value with
  | false =>
    rw [perform_of_eq h]
    exact announces_refl s []
  | true =>
    rw [perform_of_ne h]
    have hone := announces_reread (.param c.param) (c.param.set c.value s) s
    rwa [Property.reread, Param.get_set] at hone

theorem LocalCall.announced (c : LocalCall) (s : ChannelStripModel) : (c.perform s).Announced s := by
  cases c with
  | setSelectedLoop selectedLoop =>
    exact announced_assign .selectedLoop { s with selectedLoop := selectedLoop } s []
  | setLooperPlaying looperPlaying =>
    exact announced_assign .looperPlaying { s with looperPlaying := looperPlaying } s []
  | setLooperRecording looperRecording =>
    exact announced_assign .looperRecording { s with looperRecording := looperRecording } s []
  | setPan pan => exact announced_assign .pan { s with pan := pan } s []

namespace ChannelStripModel

theorem announced_setName (s : ChannelStripModel) (name : String) : (s.setName name).Announced s :=
  announced_assign .name { s with name := name } s []

theorem announced_setTargetObject (s : ChannelStripModel) (targetObject : QVariant) :
    (s.setTargetObject targetObject).Announced s := by
  unfold setTargetObject
  split
  · exact announced_assign .targetObject { s with targetObject := some _ } s _
  · exact announced_assign .targetObject { s with targetObject := none } s _
  · exact announces_refl s []

theorem announced_setTargetObjectOptional (s : ChannelStripModel) (targetObject : Option String) :
    (s.setTargetObjectOptional targetObject).Announced s :=
  announced_assign .targetObject { s with targetObject := targetObject } s []

theorem announced_setObjectId (s : ChannelStripModel) (objectId : Option Int32) :
    (s.setObjectId objectId).Announced s :=
  announced_assign .objectId { s with objectId := objectId } s []

/-- The overload that compares nothing announces an assignment of the value that is there too. -/
theorem announced_setObjectIdVariant (s : ChannelStripModel) (objectId : Option Int32) :
    (s.setObjectIdVariant objectId).Announced s := by
  cases objectId with
  | some id => exact announces_reread .objectId { s with objectId := some id } s
  | none => exact announces_refl s []

end ChannelStripModel

/-! ## A strip and its view -/

/-- Where the set of signals of one params property lies, and how its tree is rebalanced. -/
structure Memory where
  layout : Layout
  rebalancing : SearchTree.Rebalancing SetNode

/-- A strip, and what bindings to its properties show. -/
structure Watched where
  strip : ChannelStripModel
  view : View

/-- The ways to change a strip; a pod comes with the memory of each of its properties, by position. -/
inductive StripCall where
  | control (call : SetterCall)
  | setLocal (call : LocalCall)
  | setName (name : String)
  | setTargetObject (targetObject : QVariant)
  | setTargetObjectOptional (targetObject : Option String)
  | setObjectId (objectId : Option Int32)
  | setObjectIdVariant (objectId : Option Int32)
  | apply (controlPod : SpaPod) (memory : Nat → Memory)

namespace Watched

/-- The emissions at the end of a setter, or of a loop over parameters, find the strip as it is
then. -/
def emit (w : Watched) (strip : ChannelStripModel) (signals : List Signal) : Watched where
  strip := strip
  view := rereadAll strip signals w.view

def perform {μ : Type} (w : Watched) (call : Call μ) : Watched := w.emit call.strip call.emitted

section
variable [CastUndefined]

/-- The switch in `apply` on one property, with its emissions. -/
def applyProperty (memory : Nat → Memory) (w : Watched) (property : (SpaProp × SpaPod) × Nat) :
    Watched :=
  match property.1.1 with
  | .params =>
    let result := parseSpaPropParams property.1.2 w.strip
    let place := memory property.2
    w.emit result.1 (emitted place.layout place.rebalancing result.2)
  | .other _ => w

def apply (w : Watched) (controlPod : SpaPod) (memory : Nat → Memory) : Option Watched :=
  match controlPod with
  | .object props => some (props.zipIdx.foldl (applyProperty memory) w)
  | _ => none

def step (w : Watched) : StripCall → Option Watched
  | .control call => some (w.perform (call.perform w.strip))
  | .setLocal call => some (w.perform (call.perform w.strip))
  | .setName name => some (w.perform (w.strip.setName name))
  | .setTargetObject targetObject => some (w.perform (w.strip.setTargetObject targetObject))
  | .setTargetObjectOptional targetObject =>
    some (w.perform (w.strip.setTargetObjectOptional targetObject))
  | .setObjectId objectId => some (w.perform (w.strip.setObjectId objectId))
  | .setObjectIdVariant objectId => some (w.perform (w.strip.setObjectIdVariant objectId))
  | .apply controlPod memory => w.apply controlPod memory

/-! ## The view is right -/

theorem strip_foldl_applyProperty (memory : Nat → Memory) (props : List (SpaProp × SpaPod)) (k : Nat)
    (w : Watched) (signals : List (List Signal)) :
    ((props.zipIdx k).foldl (applyProperty memory) w).strip =
      (props.foldl Kpmx.applyProperty (w.strip, signals)).1 := by
  induction props generalizing k w signals with
  | nil => rfl
  | cons property props ih =>
    simp only [List.zipIdx_cons, List.foldl_cons]
    rcases property with ⟨_ | key, pod⟩
    · exact ih _ _ _
    · exact ih _ _ _

/-- The watched strip is the one that `ChannelStripModel.apply` leaves. -/
theorem strip_apply (w : Watched) (controlPod : SpaPod) (memory : Nat → Memory) :
    (w.apply controlPod memory).map Watched.strip = (w.strip.apply controlPod).map Prod.fst := by
  cases controlPod with
  | object props => exact congrArg some (strip_foldl_applyProperty memory props 0 w [])
  | _ => rfl

/-- The view shows the strip. -/
def Right (w : Watched) : Prop := w.view = w.strip

omit [CastUndefined] in
theorem Right.emit {w : Watched} (h : w.Right) {strip : ChannelStripModel} {signals : List Signal}
    (hannounced : Announces w.strip strip signals) : (w.emit strip signals).Right := by
  rw [Right] at h
  rw [Right, Watched.emit, h]
  exact rereadAll_eq hannounced

end

end Watched

section
variable [CastUndefined]

/-- The set hands out every signal that the loop over the parameters inserted, and that loop inserted
one for every assignment. -/
theorem announces_parseSpaPropParams (pod : SpaPod) (s : ChannelStripModel) (place : Memory) :
    Announces s (parseSpaPropParams pod s).1
      (emitted place.layout place.rebalancing (parseSpaPropParams pod s).2) := by
  cases pod with
  | struct fields =>
    intro property hdiff
    rw [mem_emitted_iff, parseSpaPropParams, parseParams_snd]
    by_contra hnot
    exact hdiff (same_of_not_mem_assigned fun hmem => hnot (List.mem_map_of_mem hmem))
  | _ => exact announces_refl s _

namespace Watched

theorem Right.applyProperty {w : Watched} (h : w.Right) (memory : Nat → Memory)
    (property : (SpaProp × SpaPod) × Nat) : (w.applyProperty memory property).Right := by
  obtain ⟨⟨_ | key, pod⟩, index⟩ := property
  · exact h.emit (announces_parseSpaPropParams pod w.strip (memory index))
  · exact h

theorem Right.step {w w' : Watched} {call : StripCall} (h : w.Right)
    (hstep : w.step call = some w') : w'.Right := by
  cases call with
  | apply controlPod memory =>
    cases controlPod with
    | object props =>
      obtain rfl := Option.some.inj hstep
      exact List.foldlRecOn _ _ h fun w h property _ => h.applyProperty memory property
    | _ => cases hstep
  | control call =>
    obtain rfl := Option.some.inj hstep
    exact h.emit (call.announced w.strip)
  | setLocal call =>
    obtain rfl := Option.some.inj hstep
    exact h.emit (call.announced w.strip)
  | setName name =>
    obtain rfl := Option.some.inj hstep
    exact h.emit (w.strip.announced_setName name)
  | setTargetObject targetObject =>
    obtain rfl := Option.some.inj hstep
    exact h.emit (w.strip.announced_setTargetObject targetObject)
  | setTargetObjectOptional targetObject =>
    obtain rfl := Option.some.inj hstep
    exact h.emit (w.strip.announced_setTargetObjectOptional targetObject)
  | setObjectId objectId =>
    obtain rfl := Option.some.inj hstep
    exact h.emit (w.strip.announced_setObjectId objectId)
  | setObjectIdVariant objectId =>
    obtain rfl := Option.some.inj hstep
    exact h.emit (w.strip.announced_setObjectIdVariant objectId)

end Watched

/-- **A view is never stale.** Bindings that show the strip at first show it after every sequence of
calls, from the user, from the lists and from feedback. -/
theorem view_shows_strip {s : ChannelStripModel} {calls : List StripCall} {w : Watched}
    (hrun : run Watched.step ⟨s, s⟩ calls = some w) : w.view = w.strip :=
  run_invariant (I := Watched.Right) (fun _ _ _ h hstep => h.step hstep) hrun rfl

end

/-- A name, a new mix, and feedback with another mix and a gain. -/
theorem view_shows_strip_feedback : ∃ w,
    run (@Watched.step .x86) ⟨{}, {}⟩
      [.setName "Mic", .control (.setLooperMix (.finite 30)),
        .apply (.object [(.params, .struct [.string "Looper:mix", .float (.finite 40),
          .string "Equalizer:high", .float (.finite 3)])]) fun _ => ⟨.interleaved, .none⟩] = some w ∧
      w.view.looperMix = .finite 40 ∧ w.view = w.strip := by
  have hstrip : (run (@Watched.step .x86) ⟨{}, {}⟩
      [.setName "Mic", .control (.setLooperMix (.finite 30)),
        .apply (.object [(.params, .struct [.string "Looper:mix", .float (.finite 40),
          .string "Equalizer:high", .float (.finite 3)])]) fun _ => ⟨.interleaved, .none⟩]).map
      (fun w => w.strip.looperMix) = some (.finite 40) := by decide +kernel
  obtain ⟨w, hrun, hmix⟩ := Option.map_eq_some_iff.mp hstrip
  have hview := @view_shows_strip .x86 _ _ _ hrun
  exact ⟨w, hrun, hview ▸ hmix, hview⟩

end Kpmx
