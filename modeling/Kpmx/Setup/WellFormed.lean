import Kpmx.Setup.MixerSetup
import Mathlib.Data.List.Nodup

/-!
# Well-formed setups

A setup is well formed when the groups that its inputs name are there, its inputs have numbers of their
own and its nodes prefixes of their own.

* `format02_injective` : numbers have texts of their own, whatever their length;
* `createDefaultMixerSetup_wellFormed_iff` : the counts that give a well-formed default setup.
-/

namespace Kpmx.Setup

/-- The prefixes of all nodes: the channels of the layers and the outputs. -/
def MixerSetup.pipewirePrefixes (setup : MixerSetup) : List String :=
  setup.nodePrefixes ++ setup.outputChannels.map (·.pipewireNodeNamePerfix)

structure MixerSetup.WellFormed (setup : MixerSetup) : Prop where
  groups : ∀ layer ∈ setup.layers, ∀ c ∈ layer.inputChannels, ∃ g ∈ layer.groupChannels,
    c.connectToGroupIndex = some g.channelIndex
  indices : (setup.layers.flatMap fun layer => layer.inputChannels.map (·.channelIndex)).Nodup
  prefixes : setup.pipewirePrefixes.Nodup

/-! ## Numbers and their texts -/

theorem ofDigitChars_format02 (i : Nat) : Nat.ofDigitChars 10 (format02 i).toList 0 = i := by
  unfold format02
  split
  · rw [String.toList_append, Nat.ofDigitChars_append]
    show Nat.ofDigitChars 10 i.repr.toList 0 = i
    rw [Nat.toList_repr, Nat.ofDigitChars_ten_toDigits]
  · show Nat.ofDigitChars 10 i.repr.toList 0 = i
    rw [Nat.toList_repr, Nat.ofDigitChars_ten_toDigits]

theorem format02_injective {i j : Nat} (h : format02 i = format02 j) : i = j := by
  rw [← ofDigitChars_format02 i, h, ofDigitChars_format02]

theorem numbered_injective {start ending : String} {i j : Nat}
    (h : start ++ format02 i ++ ending = start ++ format02 j ++ ending) : i = j := by
  apply format02_injective
  rw [String.append_left_inj] at h
  exact (String.append_right_inj _).mp h

theorem nodup_numbered (start middle ending : String) (n : Nat) :
    ((List.range n).map fun i => start ++ format02 i ++ middle ++ ending).Nodup := by
  refine List.Nodup.map ?_ List.nodup_range
  intro i j hij
  exact numbered_injective (by simpa only [String.append_assoc] using hij)

/-! ## The channels of a default layer -/

theorem map_mapIdx_eq_range {α β γ : Type} (f : Nat → γ) (g : Nat → α → β) (h : β → γ)
    (hfg : ∀ i a, h (g i a) = f i) (l : List α) :
    (l.mapIdx g).map h = (List.range l.length).map f := by
  apply List.ext_getElem
  · rw [List.length_map, List.length_mapIdx, List.length_map, List.length_range]
  · intro i hi hi'
    rw [List.getElem_map, List.getElem_mapIdx, List.getElem_map, List.getElem_range, hfg]

theorem length_take_groupNames {g : Nat} (h : g ≤ 4) : (groupNames.take g).length = g := by
  rw [List.length_take]
  show min g 4 = g
  omega

section DefaultLayer

variable {name layer : String} {firstIndex n g : Nat} {l : LayerSetup}

theorem le_of_defaultLayer (h : defaultLayer name layer firstIndex n g = some l) : g ≤ 4 := by
  obtain ⟨groups, hgroups, -⟩ := Option.map_eq_some_iff.mp h
  exact (Option.ite_none_right_eq_some.mp hgroups).1

theorem inputChannels_defaultLayer (h : defaultLayer name layer firstIndex n g = some l) :
    l.inputChannels = defaultInputChannels n firstIndex layer := by
  obtain ⟨groups, -, rfl⟩ := Option.map_eq_some_iff.mp h
  rfl

theorem groupChannels_defaultLayer (h : defaultLayer name layer firstIndex n g = some l) :
    l.groupChannels = (groupNames.take g).mapIdx fun i name =>
      { channelIndex := i
        name := name
        pipewireNodeNamePerfix := "pmx-group-" ++ format02 i ++ "-" ++ layer } := by
  obtain ⟨groups, hgroups, rfl⟩ := Option.map_eq_some_iff.mp h
  exact (Option.some.inj (Option.ite_none_right_eq_some.mp hgroups).2).symm

theorem groupIndices_defaultLayer (h : defaultLayer name layer firstIndex n g = some l) :
    l.groupChannels.map (·.channelIndex) = List.range g := by
  rw [groupChannels_defaultLayer h]
  refine (map_mapIdx_eq_range id _ _ ?_ _).trans ?_
  · intro i name
    rfl
  · rw [length_take_groupNames (le_of_defaultLayer h), List.map_id]

theorem inputIndices_defaultLayer (h : defaultLayer name layer firstIndex n g = some l) :
    l.inputChannels.map (·.channelIndex) = (List.range n).map (· + firstIndex) := by
  rw [inputChannels_defaultLayer h, defaultInputChannels, List.map_map]
  rfl

theorem nodePrefixes_defaultLayer (h : defaultLayer name layer firstIndex n g = some l) :
    l.nodePrefixes =
      (List.range n).map (fun i => "pmx-input-" ++ format02 i ++ "-" ++ layer) ++
        (List.range g).map (fun i => "pmx-group-" ++ format02 i ++ "-" ++ layer) ++
        ["pmx-layer-" ++ layer] := by
  have hinputs : l.inputs.map Prod.snd =
      (List.range n).map fun i => "pmx-input-" ++ format02 i ++ "-" ++ layer := by
    rw [LayerSetup.inputs, inputChannels_defaultLayer h, defaultInputChannels, List.map_map,
      List.map_map]
    rfl
  have hgroups : l.groups.map Prod.snd =
      (List.range g).map fun i => "pmx-group-" ++ format02 i ++ "-" ++ layer := by
    rw [LayerSetup.groups, groupChannels_defaultLayer h, List.map_map]
    refine (map_mapIdx_eq_range (fun i => "pmx-group-" ++ format02 i ++ "-" ++ layer) _ _ ?_ _).trans ?_
    · intro i name
      rfl
    · rw [length_take_groupNames (le_of_defaultLayer h)]
  have hlayer : l.layerChannel.pipewireNodeNamePrefix = "pmx-layer-" ++ layer := by
    obtain ⟨groups, -, rfl⟩ := Option.map_eq_some_iff.mp h
    rfl
  rw [LayerSetup.nodePrefixes, hinputs, hgroups, hlayer]

theorem linked_defaultLayer_iff (h : defaultLayer name layer firstIndex n g = some l) :
    (∀ c ∈ l.inputChannels, ∃ group ∈ l.groupChannels,
      c.connectToGroupIndex = some group.channelIndex) ↔ n ≤ 4 * g := by
  have hgroup : ∀ i, (∃ group ∈ l.groupChannels, some (i / 4) = some group.channelIndex) ↔ i / 4 < g := by
    intro i
    rw [← List.mem_range, ← groupIndices_defaultLayer h, List.mem_map]
    simp only [Option.some.injEq, eq_comm]
  rw [inputChannels_defaultLayer h, defaultInputChannels]
  simp only [List.forall_mem_map, hgroup, List.mem_range]
  constructor
  · intro hall
    by_contra hlt
    have := hall (n - 1) (by omega)
    omega
  · intro hle i hi
    omega

/-- What a prefix tells of its node: the first letter of the kind of channel, and the layer's letter. -/
def kindLetter (nodePrefix : String) : Option Char := nodePrefix.toList[4]?

def layerLetter (nodePrefix : String) : Option Char := nodePrefix.toList.getLast?

theorem kindLetter_append {start : String} (hstart : 4 < start.length) (ending : String) :
    kindLetter (start ++ ending) = kindLetter start := by
  unfold kindLetter
  rw [String.toList_append, List.getElem?_append_left (by rwa [String.length_toList])]

theorem layerLetter_append (start : String) (c : Char) :
    layerLetter (start ++ String.singleton c) = some c := by
  unfold layerLetter
  rw [String.toList_append, String.toList_singleton, List.getLast?_concat]

theorem kindLetter_input (i : Nat) :
    kindLetter ("pmx-input-" ++ format02 i ++ "-" ++ layer) = some 'i' := by
  rw [String.append_assoc, String.append_assoc, kindLetter_append (by decide)]
  rfl

theorem kindLetter_group (i : Nat) :
    kindLetter ("pmx-group-" ++ format02 i ++ "-" ++ layer) = some 'g' := by
  rw [String.append_assoc, String.append_assoc, kindLetter_append (by decide)]
  rfl

theorem kindLetter_layer : kindLetter ("pmx-layer-" ++ layer) = some 'l' := by
  rw [kindLetter_append (by decide)]
  rfl

theorem nodePrefix_cases (h : defaultLayer name layer firstIndex n g = some l) {p : String}
    (hp : p ∈ l.nodePrefixes) :
    (∃ i, p = "pmx-input-" ++ format02 i ++ "-" ++ layer) ∨
      (∃ i, p = "pmx-group-" ++ format02 i ++ "-" ++ layer) ∨ p = "pmx-layer-" ++ layer := by
  rw [nodePrefixes_defaultLayer h, List.mem_append, List.mem_append, List.mem_singleton] at hp
  rcases hp with (hp | hp) | hp
  · obtain ⟨i, -, rfl⟩ := List.mem_map.mp hp
    exact .inl ⟨i, rfl⟩
  · obtain ⟨i, -, rfl⟩ := List.mem_map.mp hp
    exact .inr (.inl ⟨i, rfl⟩)
  · exact .inr (.inr hp)

theorem nodup_nodePrefixes_defaultLayer (h : defaultLayer name layer firstIndex n g = some l) :
    l.nodePrefixes.Nodup := by
  rw [nodePrefixes_defaultLayer h, List.nodup_append, List.nodup_append]
  refine ⟨⟨nodup_numbered .., nodup_numbered .., ?_⟩, List.nodup_singleton _, ?_⟩
  · intro p hp q hq heq
    obtain ⟨i, -, rfl⟩ := List.mem_map.mp hp
    obtain ⟨j, -, rfl⟩ := List.mem_map.mp hq
    have hkind := congrArg kindLetter heq
    rw [kindLetter_input, kindLetter_group] at hkind
    exact absurd hkind (by decide)
  · intro p hp q hq heq
    obtain rfl := List.mem_singleton.mp hq
    have hkind := congrArg kindLetter heq
    rw [kindLetter_layer] at hkind
    rcases List.mem_append.mp hp with hp | hp
    · obtain ⟨i, -, rfl⟩ := List.mem_map.mp hp
      rw [kindLetter_input] at hkind
      exact absurd hkind (by decide)
    · obtain ⟨i, -, rfl⟩ := List.mem_map.mp hp
      rw [kindLetter_group] at hkind
      exact absurd hkind (by decide)

theorem kindLetter_ne_output (h : defaultLayer name layer firstIndex n g = some l) {p : String}
    (hp : p ∈ l.nodePrefixes) : kindLetter p ≠ some 'o' := by
  rcases nodePrefix_cases h hp with ⟨i, rfl⟩ | ⟨i, rfl⟩ | rfl
  · rw [kindLetter_input]
    decide
  · rw [kindLetter_group]
    decide
  · rw [kindLetter_layer]
    decide

theorem layerLetter_of_mem {c : Char}
    (h : defaultLayer name (String.singleton c) firstIndex n g = some l) {p : String}
    (hp : p ∈ l.nodePrefixes) : layerLetter p = some c := by
  rcases nodePrefix_cases h hp with ⟨i, rfl⟩ | ⟨i, rfl⟩ | rfl
  all_goals exact layerLetter_append _ c

end DefaultLayer

/-! ## The default setup -/

/-- The layers of a default setup: the left one, or both with inputs numbered from 0 and from 16. -/
theorem defaultLayers_cases {both : Bool} {n g : Nat} {setup : MixerSetup}
    (h : createDefaultMixerSetup both n g = some setup) :
    setup.outputChannels.map (·.pipewireNodeNamePerfix) = ["pmx-output-00"] ∧
    ∃ left, defaultLayer "Left Layer" (String.singleton 'a') 0 n g = some left ∧
      (setup.layers = [left] ∨
        ∃ right, defaultLayer "Right Layer" (String.singleton 'b') 16 n g = some right ∧
          setup.layers = [left, right]) := by
  obtain ⟨layers, hlayers, rfl⟩ := Option.map_eq_some_iff.mp h
  obtain ⟨left, hleft, hlayers⟩ := Option.bind_eq_some_iff.mp hlayers
  refine ⟨rfl, left, hleft, ?_⟩
  cases both with
  | false =>
    obtain rfl := Option.some.inj hlayers
    exact .inl rfl
  | true =>
    obtain ⟨right, hright, rfl⟩ := Option.map_eq_some_iff.mp hlayers
    exact .inr ⟨right, hright, rfl⟩

theorem exists_defaultSetup {both : Bool} {n g : Nat} (h : g ≤ 4) :
    ∃ setup, createDefaultMixerSetup both n g = some setup := by
  have hgroups : g ≤ groupNames.length := h
  unfold createDefaultMixerSetup defaultLayers defaultLayer defaultGroupChannels
  rw [if_pos hgroups, if_pos hgroups]
  cases both
  · exact ⟨_, rfl⟩
  · exact ⟨_, rfl⟩

theorem indices_nodup {both : Bool} {n g : Nat} {setup : MixerSetup}
    (h : createDefaultMixerSetup both n g = some setup) (hn : n ≤ 16) :
    (setup.layers.flatMap fun layer => layer.inputChannels.map (·.channelIndex)).Nodup := by
  have hnodup : ∀ first, ((List.range n).map (· + first)).Nodup := fun first =>
    List.nodup_range.map fun i j hij => Nat.add_right_cancel hij
  obtain ⟨-, left, hleft, hlayers | ⟨right, hright, hlayers⟩⟩ := defaultLayers_cases h
  · rw [hlayers, List.flatMap_singleton, inputIndices_defaultLayer hleft]
    exact hnodup 0
  · rw [hlayers, List.flatMap_cons, List.flatMap_singleton, inputIndices_defaultLayer hleft,
      inputIndices_defaultLayer hright, List.nodup_append]
    refine ⟨hnodup 0, hnodup 16, ?_⟩
    intro i hi j hj
    obtain ⟨k, hk, rfl⟩ := List.mem_map.mp hi
    obtain ⟨m, -, rfl⟩ := List.mem_map.mp hj
    rw [List.mem_range] at hk
    omega

theorem prefixes_nodup {both : Bool} {n g : Nat} {setup : MixerSetup}
    (h : createDefaultMixerSetup both n g = some setup) : setup.pipewirePrefixes.Nodup := by
  obtain ⟨houtputs, left, hleft, hlayers⟩ := defaultLayers_cases h
  unfold MixerSetup.pipewirePrefixes MixerSetup.nodePrefixes
  rw [houtputs, List.nodup_append]
  refine ⟨?_, List.nodup_singleton _, ?_⟩
  · rcases hlayers with hlayers | ⟨right, hright, hlayers⟩
    · rw [hlayers, List.flatMap_singleton]
      exact nodup_nodePrefixes_defaultLayer hleft
    · rw [hlayers, List.flatMap_cons, List.flatMap_singleton, List.nodup_append]
      refine ⟨nodup_nodePrefixes_defaultLayer hleft, nodup_nodePrefixes_defaultLayer hright, ?_⟩
      intro p hp q hq heq
      have hletter := congrArg layerLetter heq
      rw [layerLetter_of_mem hleft hp, layerLetter_of_mem hright hq] at hletter
      exact absurd hletter (by decide)
  · intro p hp q hq heq
    have hkind : kindLetter p = some 'o' := by
      rw [heq, List.mem_singleton.mp hq]
      rfl
    obtain ⟨layer, hlayer, hp⟩ := List.mem_flatMap.mp hp
    rcases hlayers with hlayers | ⟨right, hright, hlayers⟩
    · rw [hlayers, List.mem_singleton] at hlayer
      exact kindLetter_ne_output hleft (hlayer ▸ hp) hkind
    · rw [hlayers, List.mem_cons, List.mem_singleton] at hlayer
      rcases hlayer with rfl | rfl
      · exact kindLetter_ne_output hleft hp hkind
      · exact kindLetter_ne_output hright hp hkind

theorem groups_iff {both : Bool} {n g : Nat} {setup : MixerSetup}
    (h : createDefaultMixerSetup both n g = some setup) :
    (∀ layer ∈ setup.layers, ∀ c ∈ layer.inputChannels, ∃ group ∈ layer.groupChannels,
      c.connectToGroupIndex = some group.channelIndex) ↔ n ≤ 4 * g := by
  obtain ⟨-, left, hleft, hlayers | ⟨right, hright, hlayers⟩⟩ := defaultLayers_cases h
  · rw [hlayers, List.forall_mem_singleton]
    exact linked_defaultLayer_iff hleft
  · rw [hlayers, List.forall_mem_cons, List.forall_mem_singleton, linked_defaultLayer_iff hleft,
      linked_defaultLayer_iff hright, and_self]

/-- **The default setup is well formed**, with every name that it reads in the table, exactly when
there are at most four groups and a group for every four inputs. -/
theorem createDefaultMixerSetup_wellFormed_iff (createBothLayers : Bool)
    (numberOfInputChannels numberOfGroupsChannels : Nat) :
    (∃ setup, createDefaultMixerSetup createBothLayers numberOfInputChannels
      numberOfGroupsChannels = some setup ∧ setup.WellFormed) ↔
      numberOfGroupsChannels ≤ 4 ∧ numberOfInputChannels ≤ 4 * numberOfGroupsChannels := by
  constructor
  · rintro ⟨setup, h, hwell⟩
    obtain ⟨-, left, hleft, -⟩ := defaultLayers_cases h
    exact ⟨le_of_defaultLayer hleft, (groups_iff h).mp hwell.groups⟩
  · rintro ⟨hgroups, hinputs⟩
    obtain ⟨setup, h⟩ := exists_defaultSetup (n := numberOfInputChannels) hgroups
    exact ⟨setup, h, (groups_iff h).mpr hinputs, indices_nodup h (by omega), prefixes_nodup h⟩

/-- Five inputs and one group: the fifth input names a second group. -/
theorem five_inputs_one_group :
    ¬ ∃ setup, createDefaultMixerSetup false 5 1 = some setup ∧ setup.WellFormed := by
  rintro ⟨setup, hsetup, hwell⟩
  have hle := (groups_iff hsetup).mp hwell.groups
  omega

end Kpmx.Setup
