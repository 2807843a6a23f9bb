import Kpmx.Mixer.Routes
import Kpmx.Wireplumber.LiveNodes
import Kpmx.Wireplumber.Routing

/-!
# The rows and the strips

The node list and the strips each keep a node's id and target: the list by the node's row, the mixer by
the strip that the node's name addresses.

* `Shows` : the strip has the id of the row and, if it is an input, the row's target or the one that the
  user has requested last;
* `metadataUpdate_cases` : what a change of target does to the rows and the strips;
* `Shown.step` : when no two rows share an id or a strip, every row is shown by its strip, but for the
  row that was added last, as long as the update of its strip is still to come.
-/

namespace Kpmx

open Runs Spsc LastWrite

namespace WireplumberNode

/-- The strip that the node's name addresses. -/
def addressed (node : WireplumberNode) : Option StripRef :=
  node.name.bind LayersListModel.addressed

/-- Two nodes with different ids, if they have one, whose names address different strips, if any. -/
def Apart (a b : WireplumberNode) : Prop :=
  (a.id = b.id → a.id = none) ∧ (a.addressed = b.addressed → a.addressed = none)

instance (a b : WireplumberNode) : Decidable (a.Apart b) :=
  inferInstanceAs (Decidable (_ ∧ _))

theorem Apart.symm {a b : WireplumberNode} (h : a.Apart b) : b.Apart a :=
  ⟨fun hid => hid.trans (h.1 hid.symm), fun hname => hname.trans (h.2 hname.symm)⟩

theorem Apart.addressed_ne {a b : WireplumberNode} {r : StripRef} (h : a.Apart b)
    (ha : a.addressed = some r) : b.addressed ≠ some r := fun hb => by
  have hnone := h.2 (ha.trans hb.symm)
  rw [ha] at hnone
  cases hnone

end WireplumberNode

/-! ## One change of target -/

namespace NodesListModel

theorem exists_row {l : NodesListModel} {id : Int32} (targetObject : Option String) :
    (l.nodeByObjectId id = none ∧ (l.updateNodeTargetObject id targetObject).1 = l) ∨
      ∃ before row after, l.nodes = before ++ row :: after ∧ row.id = some id ∧
        l.nodeByObjectId id = some row ∧
        (l.updateNodeTargetObject id targetObject).1.nodes =
          before ++ { row with targetObject := targetObject } :: after := by
  unfold updateNodeTargetObject nodeByObjectId
  cases hfind : l.nodes.findIdx? fun node => decide (node.id = some id) with
  | none =>
    rw [List.findIdx?_eq_none_iff] at hfind
    exact .inl ⟨List.find?_eq_none.mpr (by simpa using hfind), rfl⟩
  | some i =>
    obtain ⟨hlt, hid, hfirst⟩ := List.findIdx?_eq_some_iff_getElem.mp hfind
    refine .inr ⟨l.nodes.take i, l.nodes[i], l.nodes.drop (i + 1), ?_, of_decide_eq_true hid, ?_, ?_⟩
    · rw [List.getElem_cons_drop, List.take_append_drop]
    · exact List.find?_eq_some_iff_getElem.mpr ⟨hid, i, hlt, rfl, fun j hj => by simpa using hfirst j hj⟩
    · exact List.modify_eq_take_cons_drop hlt

end NodesListModel

namespace LayersListModel

theorem strip?_updateTargetObjectForNodeName {l l' : LayersListModel} {name : String}
    {targetObject : Option String}
    (h : l.updateTargetObjectForNodeName name targetObject = .ok l') (r : StripRef) :
    l'.strip? r = if addressed name = some r ∧ r.kind = .input then
      (l.strip? r).map fun strip => { strip with targetObject := targetObject } else l.strip? r := by
  rw [updateTargetObjectForNodeName_ok h]
  cases hp : parsePmxInputName name with
  | none =>
    refine (if_neg fun hr => ?_).symm
    exact kind_ne_input_of_addressed hr.1 hp hr.2
  | some p =>
    have haddressed : addressed name = some ⟨(layerIndex p.2).toNat, .input, p.1⟩ := by
      rw [addressed_eq, family_of_parsed hp, hp]
      rfl
    simp only [strip?_modifyStrip, haddressed, Option.some.injEq]
    by_cases hr : r = ⟨(layerIndex p.2).toNat, .input, p.1⟩
    · subst hr
      rw [if_pos rfl, if_pos ⟨rfl, rfl⟩]
    · rw [if_neg hr, if_neg fun h => hr h.1.symm]

end LayersListModel

namespace QtModels

/-- A strip that a row's name addresses stands as the row does, but for the target that the user has
requested for it. -/
def Shows (m : QtModels) (requested : Option QVariant) (row : WireplumberNode) (r : StripRef) : Prop :=
  ∀ strip, m.layers.strip? r = some strip → strip.objectId = row.id ∧
    (r.kind = .input → strip.targetObject = row.targetObject ∨
      row.id ≠ none ∧ requested = some strip.targetObject)

theorem Shows.of_strip_eq {m m' : QtModels} {requested requested' : Option QVariant}
    {row : WireplumberNode} {r : StripRef} (h : m.Shows requested row r)
    (hstrip : m'.layers.strip? r = m.layers.strip? r) (hrequested : requested' = requested) :
    m'.Shows requested' row r := by
  subst hrequested
  exact fun strip hr => h strip (hstrip ▸ hr)

/-- A change of target leaves the models alone, or changes one row and, if the row's name is that of an
input, the strip of that input. -/
theorem metadataUpdate_cases {m m' : QtModels} {update : WireplumberMetadataUpdate}
    (h : (PostedCall.metadataUpdate update).run m = .ok m') :
    m' = m ∨ ∃ before row after name, m.nodes.nodes = before ++ row :: after ∧ row.name = some name ∧
      m'.nodes.nodes = before ++ { row with targetObject := update.value } :: after ∧
      m.layers.updateTargetObjectForNodeName name update.value = .ok m'.layers := by
  simp only [PostedCall.run] at h
  split at h
  · rcases NodesListModel.exists_row (l := m.nodes) update.value with ⟨hnone, hsame⟩ |
      ⟨before, row, after, hrows, -, hrow, hrows'⟩
    · rw [hsame, hnone] at h
      exact .inl (Except.ok.inj h).symm
    · rw [NodesListModel.nodeByObjectId_updateNodeTargetObject, hrow] at h
      simp only [Option.map_some] at h
      cases hname : row.name with
      | none => rw [hname] at h; cases h
      | some name =>
        rw [hname] at h
        cases hlayers : m.layers.updateTargetObjectForNodeName name update.value with
        | error e => simp only [hlayers] at h; cases h
        | ok layers =>
          simp only [hlayers] at h
          obtain rfl := Except.ok.inj h
          exact .inr ⟨before, row, after, name, hrows, hname, hrows', hlayers⟩
  · exact .inl (Except.ok.inj h).symm

theorem shows_initialChannelUpdate {m : QtModels} {layers : LayersListModel} {node row : WireplumberNode}
    {requested : Option QVariant} {r : StripRef} (hlayers : m.layers.initialChannelUpdate node = .ok layers)
    (hr : row.addressed = some r) (hrow : row = node ∨ row.Apart node ∧ m.Shows requested row r) :
    Shows { m with layers := layers } requested row r := by
  have heq := LayersListModel.initialChannelUpdate_ok hlayers
  rcases hrow with rfl | ⟨hapart, hshows⟩
  · rw [show row.name.bind LayersListModel.addressed = some r from hr] at heq
    rintro strip hstrip
    rw [heq, LayersListModel.strip?_updateFromNode, if_pos rfl] at hstrip
    obtain ⟨strip, -, rfl⟩ := Option.map_eq_some_iff.mp hstrip
    exact ⟨rfl, fun _ => .inl rfl⟩
  · refine hshows.of_strip_eq ?_ rfl
    have hne := hapart.addressed_ne hr
    cases hq : node.addressed with
    | none => rw [heq, show node.name.bind LayersListModel.addressed = none from hq]
    | some q =>
      rw [heq, show node.name.bind LayersListModel.addressed = some q from hq]
      refine (LayersListModel.strip?_updateFromNode ..).trans (if_neg fun hrq => hne ?_)
      rw [hq, hrq]

theorem shows_metadataUpdate {m m' : QtModels} {update : WireplumberMetadataUpdate}
    {requested : StripRef → Option QVariant} (hrun : (PostedCall.metadataUpdate update).run m = .ok m')
    (hapart : m.nodes.nodes.Pairwise WireplumberNode.Apart)
    (hshows : ∀ row ∈ m.nodes.nodes, ∀ r, row.addressed = some r → m.Shows (requested r) row r) :
    m'.nodes.nodes.Pairwise WireplumberNode.Apart ∧
      ∀ row ∈ m'.nodes.nodes, ∀ r, row.addressed = some r → m'.Shows (requested r) row r := by
  obtain rfl | ⟨before, row, after, name, hrows, hname, hrows', hlayers⟩ := metadataUpdate_cases hrun
  · exact ⟨hapart, hshows⟩
  · rw [hrows, List.pairwise_append, List.pairwise_cons] at hapart
    simp only [List.forall_mem_cons] at hapart
    obtain ⟨hbefore, ⟨hrowafter, hafter⟩, hacross⟩ := hapart
    have hstrip := LayersListModel.strip?_updateTargetObjectForNodeName hlayers
    have haddressed : row.addressed = LayersListModel.addressed name := by
      rw [WireplumberNode.addressed, hname, Option.bind_some]
    rw [← haddressed] at hstrip
    -- the rows apart from the changed one keep their strips
    have hother : ∀ other ∈ m.nodes.nodes, other.Apart row → ∀ r, other.addressed = some r →
        m'.Shows (requested r) other r := fun other hmem hother r hr =>
      (hshows other hmem r hr).of_strip_eq
        ((hstrip r).trans (if_neg fun h => hother.addressed_ne hr h.1)) rfl
    rw [hrows']
    refine ⟨?_, fun other hmem r hr => ?_⟩
    · rw [List.pairwise_append, List.pairwise_cons]
      simp only [List.forall_mem_cons]
      exact ⟨hbefore, ⟨hrowafter, hafter⟩, hacross⟩
    · rcases List.mem_append.mp hmem with hmem | hmem
      · exact hother other (by rw [hrows]; exact List.mem_append_left _ hmem) (hacross other hmem).1 r hr
      · rcases List.mem_cons.mp hmem with rfl | hmem
        · intro strip hr'
          have hrow := hshows row (by rw [hrows]; exact List.mem_append_right _ List.mem_cons_self) r hr
          rw [hstrip r] at hr'
          split at hr'
          · obtain ⟨strip, hold, rfl⟩ := Option.map_eq_some_iff.mp hr'
            exact ⟨(hrow strip hold).1, fun _ => .inl rfl⟩
          · next hkind =>
            exact ⟨(hrow strip hr').1, fun hinput => absurd ⟨hr, hinput⟩ hkind⟩
        · exact hother other (by rw [hrows]; exact List.mem_append_right _ (List.mem_cons_of_mem _ hmem))
            (hrowafter other hmem).symm r hr

theorem sublist_deleteNodeByObjectSerial (l : NodesListModel) (objectSerial : Int32) :
    (l.deleteNodeByObjectSerial objectSerial).1.nodes.Sublist l.nodes := by
  unfold NodesListModel.deleteNodeByObjectSerial
  split
  · exact List.eraseIdx_sublist ..
  · exact List.Sublist.refl _

end QtModels

/-! ## Runs -/

namespace Session

/-- The node that the next posted call adds, if it adds one. -/
def addedNode (st : Session) : Option WireplumberNode :=
  match st.posted with
  | .addNode node :: _ => some node
  | _ => none

/-- A posted call adds no node that has its id or its strip in common with a row. -/
def AddsApart (st : Session) : Action → Prop
  | .postedCall => ∀ node ∈ st.addedNode, ∀ row ∈ st.models.nodes.nodes, row.Apart node
  | _ => True

instance (st : Session) (a : Action) : Decidable (st.AddsApart a) :=
  match a with
  | .postedCall =>
    inferInstanceAs (Decidable (∀ node ∈ st.addedNode, ∀ row ∈ st.models.nodes.nodes, row.Apart node))
  | .setTargetObject .. | .metadataUpdateThread _ | .idleCallback | .metadataAdded |
    .metadataChangedCallback | .foreignChange _ | .nodeAddedCallback _ | .nodeRemovedCallback _ |
    .nodesModelThread _ | .post => isTrue trivial

/-- The rows are apart, and shown by their strips but for the last one while the update of its strip
comes next. -/
structure Shown (requests : List (StripRef × QVariant)) (st : Session) : Prop where
  apart : st.models.nodes.nodes.Pairwise WireplumberNode.Apart
  rows : ∃ rows, ∃ new : Option WireplumberNode, ∃ rest,
    st.models.nodes.nodes = rows ++ new.toList ∧
    (∀ row ∈ rows, ∀ r, row.addressed = some r → st.models.Shows (lastValue r requests) row r) ∧
    st.calls = new.toList.map PostedCall.initialChannelUpdate ++ rest ∧ Paired rest

theorem shown_start (setup : List LayerSetup) : Shown [] (start setup) where
  apart := .nil
  rows := ⟨[], none, [], rfl, fun _ h => absurd h List.not_mem_nil, rfl, .nil⟩

theorem Shown.of_eq {requests : List (StripRef × QVariant)} {a b : Session} (h : Shown requests a)
    (hmodels : b.models = a.models) (hcalls : b.calls = a.calls) : Shown requests b where
  apart := hmodels ▸ h.apart
  rows := by rw [hmodels, hcalls]; exact h.rows

theorem Shown.setTargetObject {requests : List (StripRef × QVariant)} {a b : Session} {q : StripRef}
    {targetObject : QVariant} (h : Shown requests a) (hb : a.setTargetObject q targetObject = some b) :
    Shown (requests ++ [(q, targetObject)]) b := by
  obtain ⟨_, -, rfl⟩ := setTargetObject_eq_some.mp hb
  obtain ⟨rows, new, rest, hrows, hshows, hcalls, hpaired⟩ := h.rows
  refine ⟨h.apart, rows, new, rest, hrows, fun row hrow r hr => ?_, hcalls, hpaired⟩
  have hold := hshows row hrow r hr
  rw [lastValue_concat]
  by_cases hq : q = r
  · subst hq
    intro changed hchanged
    simp only [LayersListModel.strip?_modifyStrip, if_true] at hchanged
    obtain ⟨strip, hstrip, rfl⟩ := Option.map_eq_some_iff.mp hchanged
    obtain ⟨hid, htarget⟩ := hold strip hstrip
    rw [if_pos rfl, ChannelStripModel.setTargetObject_objectId]
    refine ⟨hid, fun hkind => ?_⟩
    cases hobject : strip.objectId with
    | some id =>
      rw [ChannelStripModel.setTargetObject_strip hobject]
      exact .inr ⟨by rw [← hid, hobject]; exact Option.some_ne_none id, rfl⟩
    | none =>
      -- without an id the strip keeps its target
      have hsame : (strip.setTargetObject targetObject).strip = strip := by
        cases targetObject <;> simp [ChannelStripModel.setTargetObject, hobject]
      rw [hsame]
      rcases htarget hkind with htarget | ⟨hsome, -⟩
      · exact .inl htarget
      · exact absurd (hid.symm.trans hobject) hsome
  · rw [if_neg hq]
    exact hold.of_strip_eq ((LayersListModel.strip?_modifyStrip ..).trans (if_neg (Ne.symm hq))) rfl

theorem Shown.nodesModelThread {requests : List (StripRef × QVariant)} {a b : Session} {s : DrainStep}
    (h : Shown requests a) (hb : a.nodesModelThread s = some b) : Shown requests b := by
  obtain ⟨queue, -, rfl⟩ | ⟨message, queue, added, hnil, -, hadded, rfl⟩ := nodesModelThread_cases hb
  · exact h.of_eq rfl rfl
  · obtain ⟨rows, new, rest, hrows, hshows, hcalls, hpaired⟩ := h.rows
    refine ⟨h.apart, rows, new, rest ++ added, hrows, hshows, ?_,
      hpaired.append (paired_updateModel hadded)⟩
    have hposted : a.calls = a.posted := by rw [calls, hnil, List.append_nil]
    rw [← List.append_assoc, ← hcalls, hposted]
    rfl

theorem Shown.postedCall {requests : List (StripRef × QVariant)} {a b : Session} (h : Shown requests a)
    (hb : guarded AddsApart step a .postedCall = some b) : Shown requests b := by
  obtain ⟨hadds, hb⟩ := (guarded_eq_some AddsApart).mp hb
  obtain ⟨call, posted, models, hposted, hrun, rfl⟩ := step_postedCall hb
  obtain ⟨rows, new, rest, hrows, hshows, hcalls, hpaired⟩ := h.rows
  rw [calls, hposted, List.cons_append] at hcalls
  have hapart := h.apart
  rw [hrows] at hapart
  cases new with
  | some node =>
    obtain ⟨rfl, hrest⟩ := List.cons.inj hcalls
    rw [PostedCall.run] at hrun
    cases hlayers : a.models.layers.initialChannelUpdate node with
    | error e => rw [hlayers] at hrun; cases hrun
    | ok layers =>
      rw [hlayers] at hrun
      obtain rfl := Except.ok.inj hrun
      refine ⟨h.apart, rows ++ [node], none, rest, by simpa using hrows, fun row hrow r hr => ?_,
        hrest, hpaired⟩
      refine QtModels.shows_initialChannelUpdate hlayers hr ?_
      rcases List.mem_append.mp hrow with hrow | hrow
      · exact .inr ⟨(List.pairwise_append.mp hapart).2.2 row hrow node (by simp), hshows row hrow r hr⟩
      · exact .inl (List.mem_singleton.mp hrow)
  | none =>
    rw [Option.toList_none, List.append_nil] at hrows hapart
    rw [← hrows] at hshows hapart
    rw [← show call :: (posted ++ a.toPost) = rest from hcalls] at hpaired
    obtain ⟨node, rest', rfl, hrest, hp⟩ | ⟨node, rfl, hp⟩ | ⟨update, rfl, hp⟩ := hpaired.cases_cons
    · obtain rfl := Except.ok.inj hrun
      refine ⟨List.pairwise_append.mpr ⟨hapart, List.pairwise_singleton .., fun row hrow other hmem => ?_⟩,
        _, some node, rest', rfl, hshows, hrest, hp⟩
      rw [List.mem_singleton.mp hmem]
      exact hadds node (by rw [addedNode, hposted]; rfl) row hrow
    · rw [PostedCall.run] at hrun
      split at hrun
      · next objectSerial hserial =>
        obtain rfl := Except.ok.inj hrun
        have hsub := QtModels.sublist_deleteNodeByObjectSerial a.models.nodes objectSerial
        exact ⟨hapart.sublist hsub, _, none, _, (List.append_nil _).symm,
          fun row hrow => hshows row (hsub.subset hrow), rfl, hp⟩
      · cases hrun
    · obtain ⟨hapart', hshows'⟩ := QtModels.shows_metadataUpdate hrun hapart hshows
      exact ⟨hapart', _, none, _, (List.append_nil _).symm, hshows', rfl, hp⟩

theorem Shown.step {requests : List (StripRef × QVariant)} {l : Action} {a b : Session}
    (h : Shown requests a) (hb : guarded AddsApart step a l = some b) :
    Shown (requests ++ Session.requests [l]) b := by
  have hstep := ((guarded_eq_some AddsApart).mp hb).2
  cases l with
  | setTargetObject r targetObject => exact h.setTargetObject hstep
  | metadataUpdateThread s =>
    rw [show Session.requests [.metadataUpdateThread s] = [] from rfl, List.append_nil]
    obtain ⟨queue, -, rfl⟩ | ⟨update, queue, -, rfl⟩ := metadataUpdateThread_cases hstep
    · exact h.of_eq rfl rfl
    · split_ifs
      · exact h.of_eq rfl rfl
      · exact h.of_eq rfl rfl
  | idleCallback =>
    obtain ⟨update, rest, -, rfl⟩ := step_idleCallback hstep
    exact (List.append_nil requests).symm ▸ h.of_eq rfl rfl
  | metadataChangedCallback =>
    obtain ⟨update, rest, -, rfl⟩ := step_metadataChangedCallback hstep
    exact (List.append_nil requests).symm ▸ h.of_eq rfl rfl
  | foreignChange update =>
    obtain rfl := step_foreignChange hstep
    exact (List.append_nil requests).symm ▸ h.of_eq rfl rfl
  | metadataAdded =>
    obtain rfl := Option.some.inj hstep
    exact (List.append_nil requests).symm ▸ h.of_eq rfl rfl
  | nodeAddedCallback node =>
    obtain rfl := Option.some.inj hstep
    exact (List.append_nil requests).symm ▸ h.of_eq rfl rfl
  | nodeRemovedCallback node =>
    obtain rfl := Option.some.inj hstep
    exact (List.append_nil requests).symm ▸ h.of_eq rfl rfl
  | nodesModelThread s => exact (List.append_nil requests).symm ▸ h.nodesModelThread hstep
  | post =>
    obtain ⟨call, rest, htoPost, rfl⟩ := step_post hstep
    refine (List.append_nil requests).symm ▸ h.of_eq rfl ?_
    simp only [calls, htoPost, List.append_assoc, List.singleton_append]
  | postedCall => exact (List.append_nil requests).symm ▸ h.postedCall hb

end Session

end Kpmx
