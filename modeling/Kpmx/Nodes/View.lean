import Kpmx.Nodes.NodesList
import Mathlib.Data.List.Induction

/-!
# Views of the list of nodes

What a view sees of `NodesListModel`: `rowCount`, `index` and `data`, and the signals of each call
with the list as it stands when they are sent. A mirror replays the signals and looks at nothing else.

* `follows_signals_of_rowsFit` : the mirror has the rows of the list, as long as an `int` counts them.
-/

namespace Kpmx

/-! ## What a view can read -/

/-- `NodesListModel::Roles`. -/
inductive NodesRole where
  | nameRole
  | idRole
  | objectSerialRole
  | nameDescription
  | deviceId
  | targetObject
  | mediaRole
  | mediaClass
  | mediaCategory
  | mediaType
  | linkGroup
  deriving DecidableEq

/-- The variants that `data` answers with. -/
inductive DataVariant where
  | invalid
  | int (value : Int32)
  | string (value : String)
  deriving DecidableEq

namespace DataVariant

def ofInt? : Option Int32 → DataVariant
  | some value => .int value
  | none => .invalid

def ofString? : Option String → DataVariant
  | some value => .string value
  | none => .invalid

end DataVariant

namespace NodesRole

/-- In the order of the enumeration, which starts at `Qt::UserRole + 1`. -/
def all : List NodesRole :=
  [.nameRole, .idRole, .objectSerialRole, .nameDescription, .deviceId, .targetObject, .mediaRole,
    .mediaClass, .mediaCategory, .mediaType, .linkGroup]

def value (role : NodesRole) : Int32 := Int32.ofNat (257 + all.idxOf role)

/-- What `data` answers for a role of a row. -/
def read (node : WireplumberNode) : NodesRole → DataVariant
  | .nameRole => .string (node.name.getD "unknown")
  | .idRole => .ofInt? node.id
  | .objectSerialRole => .ofInt? node.objectSerial
  | .nameDescription => .string (node.description.getD "")
  | .deviceId => .ofInt? node.deviceId
  | .targetObject => .ofString? node.targetObject
  | .mediaRole => .ofString? node.mediaRole
  | .mediaClass => .ofString? node.mediaClass
  | .mediaCategory => .ofString? node.mediaCategory
  | .mediaType => .ofString? node.mediaType
  | .linkGroup => .ofString? node.linkGroup

/-- Copy the field of a role into a row. -/
def refresh (source node : WireplumberNode) : NodesRole → WireplumberNode
  | .nameRole => { node with name := source.name }
  | .idRole => { node with id := source.id }
  | .objectSerialRole => { node with objectSerial := source.objectSerial }
  | .nameDescription => { node with description := source.description }
  | .deviceId => { node with deviceId := source.deviceId }
  | .targetObject => { node with targetObject := source.targetObject }
  | .mediaRole => { node with mediaRole := source.mediaRole }
  | .mediaClass => { node with mediaClass := source.mediaClass }
  | .mediaCategory => { node with mediaCategory := source.mediaCategory }
  | .mediaType => { node with mediaType := source.mediaType }
  | .linkGroup => { node with linkGroup := source.linkGroup }

theorem read_refresh (source node : WireplumberNode) (role : NodesRole) :
    role.read (role.refresh source node) = role.read source := by
  cases role <;> rfl

theorem read_refresh_of_ne (source node : WireplumberNode) {role other : NodesRole}
    (hne : other ≠ role) : other.read (role.refresh source node) = other.read node := by
  cases role <;> cases other <;> first | rfl | exact absurd rfl hne

end NodesRole

namespace NodesListModel

/-- `static_cast<int>(_nodes.size())` for the root, which is the parent of every row. -/
def rowCount (l : NodesListModel) (parent : Option Int32) : Int32 :=
  if parent.isSome then 0 else Int32.ofNat l.nodes.length

/-- `QAbstractListModel::index` in column 0: an index that is not valid when there is no such row. -/
def index (l : NodesListModel) (row : Int32) : Option Int32 :=
  if 0 ≤ row.toInt ∧ row.toInt < (l.rowCount none).toInt then some row else none

/-- A negative row is a huge one for `at`. -/
def nodeAt (l : NodesListModel) (row : Int32) : Except StdException WireplumberNode :=
  match if 0 ≤ row.toInt then l.nodes[row.toInt.toNat]? else none with
  | some node => .ok node
  | none => .error .outOfRange

def data (l : NodesListModel) (index : Option Int32) (role : Int32) :
    Except StdException DataVariant :=
  match index, NodesRole.all.find? (fun r => decide (r.value = role)) with
  | some i, some role => (l.nodeAt i).map fun node => role.read node
  | _, _ => .ok .invalid

theorem data_index (l : NodesListModel) (row role : Int32) :
    ∃ value, l.data (l.index row) role = .ok value := by
  unfold data index
  split
  · next i r hi _ =>
    split at hi
    · next hrow =>
      obtain rfl := Option.some.inj hi
      have hcount : (l.rowCount none).toInt ≤ l.nodes.length := by
        show (Int32.ofNat l.nodes.length).toInt ≤ _
        rw [Int32.toInt_ofNat']
        show Int.bmod (l.nodes.length : Int) 4294967296 ≤ _
        rw [Int.bmod_def]
        split <;> omega
      have hlt : row.toInt.toNat < l.nodes.length := by omega
      refine ⟨r.read l.nodes[row.toInt.toNat], ?_⟩
      rw [nodeAt, if_pos hrow.1, List.getElem?_eq_getElem hlt]
      rfl
    · cases hi
  · exact ⟨.invalid, rfl⟩

end NodesListModel

/-! ## The signals -/

/-- The signals of `QAbstractItemModel` that the calls send, for rows below the root. -/
inductive RowsSignal where
  | rowsAboutToBeInserted (first last : Int32)
  | rowsInserted (first last : Int32)
  | rowsAboutToBeRemoved (first last : Int32)
  | rowsRemoved (first last : Int32)
  | dataChanged (topLeft bottomRight : Option Int32) (roles : List NodesRole)
  deriving DecidableEq

/-- A signal with the list as it stands when the signal is sent. -/
structure Emission where
  signal : RowsSignal
  model : NodesListModel

/-- The rows of the signal are rows of the list at that moment: before the end of the list where rows
are there, up to its end where they come or have gone. -/
def Emission.Valid (e : Emission) : Prop :=
  match e.signal with
  | .rowsAboutToBeInserted first last | .rowsRemoved first last =>
    0 ≤ first.toInt ∧ first.toInt ≤ last.toInt ∧ first.toInt ≤ e.model.nodes.length
  | .rowsInserted first last | .rowsAboutToBeRemoved first last =>
    0 ≤ first.toInt ∧ first.toInt ≤ last.toInt ∧ last.toInt < e.model.nodes.length
  | .dataChanged (some topLeft) (some bottomRight) _ =>
    0 ≤ topLeft.toInt ∧ topLeft.toInt ≤ bottomRight.toInt ∧
      bottomRight.toInt < e.model.nodes.length
  | .dataChanged _ _ _ => False

/-- The signals behind a notification: rows are `int`s, and the list changes between the begin and the
end of an insertion or a removal, but before the data change. -/
def RowsNotification.emissions (old new : NodesListModel) : RowsNotification → List Emission
  | .inserted first last =>
    [⟨.rowsAboutToBeInserted (.ofNat first) (.ofNat last), old⟩,
      ⟨.rowsInserted (.ofNat first) (.ofNat last), new⟩]
  | .removed first last =>
    [⟨.rowsAboutToBeRemoved (.ofNat first) (.ofNat last), old⟩,
      ⟨.rowsRemoved (.ofNat first) (.ofNat last), new⟩]
  | .targetObjectChanged row =>
    [⟨.dataChanged (new.index (.ofNat row)) (new.index (.ofNat row)) [.targetObject], new⟩]

/-- A call that changes the list. -/
inductive NodesCall where
  | addNode (node : WireplumberNode)
  | deleteNodeByObjectSerial (objectSerial : Int32)
  | updateNodeTargetObject (objectId : Int32) (targetObject : Option String)

namespace NodesCall

def run (l : NodesListModel) : NodesCall → NodesListModel × List RowsNotification
  | addNode node => l.addNode node
  | deleteNodeByObjectSerial objectSerial => l.deleteNodeByObjectSerial objectSerial
  | updateNodeTargetObject objectId targetObject => l.updateNodeTargetObject objectId targetObject

/-- Everything that the call sends, in order. -/
def emissions (l : NodesListModel) (call : NodesCall) : List Emission :=
  (call.run l).2.flatMap (·.emissions l (call.run l).1)

/-- The list has a row for the call. -/
def Matches (l : NodesListModel) : NodesCall → Prop
  | addNode _ => True
  | deleteNodeByObjectSerial objectSerial => ∃ node ∈ l.nodes, node.objectSerial = some objectSerial
  | updateNodeTargetObject objectId _ => ∃ node ∈ l.nodes, node.id = some objectId

end NodesCall

/-! ## A mirror -/

/-- The rows of a mirror after a signal: it inserts copies of the list's rows, removes its own rows, and
refreshes the roles of its own rows from the list's. -/
def mirrorSignal (rows : List WireplumberNode) (e : Emission) : List WireplumberNode :=
  match e.signal with
  | .rowsInserted first last =>
    let (first, last) := (first.toInt.toNat, last.toInt.toNat)
    rows.take first ++ (e.model.nodes.drop first).take (last + 1 - first) ++ rows.drop first
  | .rowsRemoved first last => rows.take first.toInt.toNat ++ rows.drop (last.toInt.toNat + 1)
  | .dataChanged (some topLeft) (some bottomRight) roles =>
    rows.mapIdx fun row node =>
      match e.model.nodes[row]? with
      | some source =>
        if topLeft.toInt ≤ row ∧ row ≤ bottomRight.toInt then
          roles.foldl (fun node role => role.refresh source node) node
        else node
      | none => node
  | _ => rows

/-- The list and the rows of a mirror that has seen all its signals; both start empty. -/
structure MirroredList where
  model : NodesListModel := {}
  rows : List WireplumberNode := []

namespace MirroredList

def step (s : MirroredList) (call : NodesCall) : MirroredList :=
  { model := (call.run s.model).1
    rows := (call.emissions s.model).foldl mirrorSignal s.rows }

def run (calls : List NodesCall) : MirroredList := calls.foldl step {}

theorem run_concat (calls : List NodesCall) (call : NodesCall) :
    run (calls ++ [call]) = (run calls).step call := by
  unfold run
  rw [List.foldl_append]
  rfl

end MirroredList

/-- Every row that the call announces is valid at that moment, and a call without a matching row
announces nothing and changes nothing. -/
def NodesCall.Announced (l : NodesListModel) (call : NodesCall) : Prop :=
  (∀ e ∈ call.emissions l, e.Valid) ∧
    (¬ call.Matches l → call.emissions l = [] ∧ (call.run l).1 = l)

/-- After each call the mirror has the rows of the list, and each call is announced as it should be. -/
def FollowsSignals (calls : List NodesCall) : Prop :=
  (∀ before, before <+: calls →
    (MirroredList.run before).rows = (MirroredList.run before).model.nodes) ∧
  ∀ before call, before ++ [call] <+: calls → call.Announced (MirroredList.run before).model

/-! ## Every call is mirrored -/

theorem toInt_ofNat_row {row : Nat} (h : row < 2147483648) : (Int32.ofNat row).toInt = row :=
  Int32.toInt_ofNat_of_lt h

theorem toNat_ofNat_row {row : Nat} (h : row < 2147483648) : (Int32.ofNat row).toInt.toNat = row := by
  rw [toInt_ofNat_row h, Int.toNat_natCast]

theorem NodesListModel.index_of_lt {l : NodesListModel} {row : Nat} (hrow : row < l.nodes.length)
    (hlength : l.nodes.length ≤ 2147483647) : l.index (.ofNat row) = some (.ofNat row) := by
  unfold index
  have hcount : (l.rowCount none).toInt = l.nodes.length := toInt_ofNat_row (by omega)
  have hint : (Int32.ofNat row).toInt = row := toInt_ofNat_row (by omega)
  rw [if_pos ⟨by omega, by omega⟩]

theorem mirror_inserted {l : NodesListModel} (node : WireplumberNode)
    (hlength : l.nodes.length ≤ 2147483647) :
    ((RowsNotification.inserted l.nodes.length l.nodes.length).emissions l
      { nodes := l.nodes ++ [node] }).foldl mirrorSignal l.nodes = l.nodes ++ [node] := by
  have hrow : (Int32.ofNat l.nodes.length).toInt.toNat = l.nodes.length := toNat_ofNat_row (by omega)
  simp only [RowsNotification.emissions, List.foldl_cons, List.foldl_nil, mirrorSignal, hrow]
  rw [List.take_length, List.drop_length, List.drop_left, List.append_nil,
    List.take_of_length_le (by simp)]

theorem mirror_removed {l : NodesListModel} {row : Nat} (hrow : row < 2147483648) :
    ((RowsNotification.removed row row).emissions l { nodes := l.nodes.eraseIdx row }).foldl mirrorSignal
      l.nodes = l.nodes.eraseIdx row := by
  simp only [RowsNotification.emissions, List.foldl_cons, List.foldl_nil, mirrorSignal,
    toNat_ofNat_row hrow]
  exact (List.eraseIdx_eq_take_drop_succ ..).symm

theorem mirror_targetObjectChanged {l : NodesListModel} {row : Nat} (targetObject : Option String)
    (hrow : row < l.nodes.length) (hlength : l.nodes.length ≤ 2147483647) :
    ((RowsNotification.targetObjectChanged row).emissions l
      { nodes := l.nodes.modify row fun node => { node with targetObject := targetObject } }).foldl
        mirrorSignal l.nodes =
      l.nodes.modify row fun node => { node with targetObject := targetObject } := by
  have hindex : NodesListModel.index
      { nodes := l.nodes.modify row fun node => { node with targetObject := targetObject } }
      (.ofNat row) = some (.ofNat row) :=
    NodesListModel.index_of_lt (by simpa using hrow) (by simpa using hlength)
  have hint : (Int32.ofNat row).toInt = row := toInt_ofNat_row (by omega)
  simp only [RowsNotification.emissions, hindex, List.foldl_cons, List.foldl_nil, mirrorSignal, hint]
  apply List.ext_getElem?
  intro i
  rw [List.getElem?_mapIdx]
  rcases Nat.lt_or_ge i l.nodes.length with hi | hi
  · rw [List.getElem?_eq_getElem hi, List.getElem?_modify, List.getElem?_eq_getElem hi]
    by_cases heq : row = i
    · subst heq
      simp [NodesRole.refresh]
    · have hout : ¬ ((row : Int) ≤ i ∧ (i : Int) ≤ row) := by omega
      simp only [heq, hout, if_false, Option.map_eq_map, Option.map_some]
  · rw [List.getElem?_eq_none hi, List.getElem?_eq_none (by simpa using hi), Option.map_none]

theorem valid_inserted {l : NodesListModel} (node : WireplumberNode)
    (hlength : l.nodes.length ≤ 2147483647) :
    ∀ e ∈ (RowsNotification.inserted l.nodes.length l.nodes.length).emissions l
      { nodes := l.nodes ++ [node] }, e.Valid := by
  have hint : (Int32.ofNat l.nodes.length).toInt = l.nodes.length := toInt_ofNat_row (by omega)
  intro e he
  simp only [RowsNotification.emissions, List.mem_cons, List.not_mem_nil, or_false] at he
  rcases he with rfl | rfl
  · show 0 ≤ _ ∧ _ ≤ _ ∧ _ ≤ (l.nodes.length : Int)
    omega
  · show 0 ≤ _ ∧ _ ≤ _ ∧ _ < ((l.nodes ++ [node]).length : Int)
    rw [List.length_append, List.length_singleton]
    omega

theorem valid_removed {l : NodesListModel} {row : Nat} (hrow : row < l.nodes.length)
    (hlength : l.nodes.length ≤ 2147483647) :
    ∀ e ∈ (RowsNotification.removed row row).emissions l { nodes := l.nodes.eraseIdx row },
      e.Valid := by
  have hint : (Int32.ofNat row).toInt = row := toInt_ofNat_row (by omega)
  intro e he
  simp only [RowsNotification.emissions, List.mem_cons, List.not_mem_nil, or_false] at he
  rcases he with rfl | rfl
  · show 0 ≤ _ ∧ _ ≤ _ ∧ _ < (l.nodes.length : Int)
    omega
  · show 0 ≤ _ ∧ _ ≤ _ ∧ _ ≤ ((l.nodes.eraseIdx row).length : Int)
    rw [List.length_eraseIdx_of_lt hrow]
    omega

theorem valid_targetObjectChanged {l : NodesListModel} {row : Nat} {new : NodesListModel}
    (hrow : row < new.nodes.length) (hlength : new.nodes.length ≤ 2147483647) :
    ∀ e ∈ (RowsNotification.targetObjectChanged row).emissions l new, e.Valid := by
  have hint : (Int32.ofNat row).toInt = row := toInt_ofNat_row (by omega)
  intro e he
  rw [RowsNotification.emissions, NodesListModel.index_of_lt hrow hlength] at he
  obtain rfl := List.mem_singleton.mp he
  show 0 ≤ _ ∧ _ ≤ _ ∧ _ < (new.nodes.length : Int)
  omega

/-- What a call can do to the list. -/
theorem NodesCall.run_cases (l : NodesListModel) (call : NodesCall) :
    (∃ node, call.run l =
      ({ nodes := l.nodes ++ [node] }, [.inserted l.nodes.length l.nodes.length])) ∨
    (∃ row, row < l.nodes.length ∧
      call.run l = ({ nodes := l.nodes.eraseIdx row }, [.removed row row])) ∨
    (∃ row targetObject, row < l.nodes.length ∧
      call.run l =
        ({ nodes := l.nodes.modify row fun node => { node with targetObject := targetObject } },
          [.targetObjectChanged row])) ∨
    call.run l = (l, []) := by
  cases call with
  | addNode node => exact .inl ⟨node, rfl⟩
  | deleteNodeByObjectSerial objectSerial =>
    simp only [run, NodesListModel.deleteNodeByObjectSerial]
    split
    · next row hfind =>
      obtain ⟨hrow, -⟩ := List.findIdx?_eq_some_iff_getElem.mp hfind
      exact .inr (.inl ⟨row, hrow, rfl⟩)
    · exact .inr (.inr (.inr rfl))
  | updateNodeTargetObject objectId targetObject =>
    simp only [run, NodesListModel.updateNodeTargetObject]
    split
    · next row hfind =>
      obtain ⟨hrow, -⟩ := List.findIdx?_eq_some_iff_getElem.mp hfind
      exact .inr (.inr (.inl ⟨row, targetObject, hrow, rfl⟩))
    · exact .inr (.inr (.inr rfl))

theorem findIdx?_eq_none_of_not_exists {nodes : List WireplumberNode} {p : WireplumberNode → Prop}
    [DecidablePred p] (h : ¬ ∃ node ∈ nodes, p node) :
    nodes.findIdx? (fun node => decide (p node)) = none := by
  rw [List.findIdx?_eq_none_iff]
  intro node hmem
  exact decide_eq_false fun hp => h ⟨node, hmem, hp⟩

theorem NodesCall.run_of_not_matches {l : NodesListModel} {call : NodesCall}
    (h : ¬ call.Matches l) : call.run l = (l, []) := by
  cases call with
  | addNode node => exact absurd trivial h
  | deleteNodeByObjectSerial objectSerial =>
    simp only [run, NodesListModel.deleteNodeByObjectSerial, findIdx?_eq_none_of_not_exists h]
  | updateNodeTargetObject objectId targetObject =>
    simp only [run, NodesListModel.updateNodeTargetObject, findIdx?_eq_none_of_not_exists h]

/-- One call: the mirror follows, and the announced rows are valid. -/
theorem NodesCall.emissions_spec {l : NodesListModel} (call : NodesCall)
    (hlength : l.nodes.length ≤ 2147483647) :
    (call.emissions l).foldl mirrorSignal l.nodes = (call.run l).1.nodes ∧
      ∀ e ∈ call.emissions l, e.Valid := by
  unfold emissions
  rcases call.run_cases l with
    ⟨node, hrun⟩ | ⟨row, hrow, hrun⟩ | ⟨row, targetObject, hrow, hrun⟩ | hrun
  all_goals rw [hrun]
  · rw [List.flatMap_singleton]
    exact ⟨mirror_inserted node hlength, valid_inserted node hlength⟩
  · rw [List.flatMap_singleton]
    exact ⟨mirror_removed (by omega), valid_removed hrow hlength⟩
  · rw [List.flatMap_singleton]
    exact ⟨mirror_targetObjectChanged targetObject hrow hlength,
      valid_targetObjectChanged (by simpa using hrow) (by simpa using hlength)⟩
  · exact ⟨rfl, fun e he => nomatch he⟩

theorem NodesCall.emissions_of_not_matches {l : NodesListModel} {call : NodesCall}
    (h : ¬ call.Matches l) : call.emissions l = [] ∧ (call.run l).1 = l := by
  unfold emissions
  rw [run_of_not_matches h]
  exact ⟨rfl, rfl⟩

/-- No call of the run finds more rows than an `int` can count. -/
def RowsFit (calls : List NodesCall) : Prop :=
  ∀ before call, before ++ [call] <+: calls →
    (MirroredList.run before).model.nodes.length ≤ 2147483647

theorem MirroredList.rows_run {calls : List NodesCall} (hfit : RowsFit calls) :
    (run calls).rows = (run calls).model.nodes := by
  induction calls using List.reverseRecOn with
  | nil => rfl
  | append_singleton calls call ih =>
    have hbefore : RowsFit calls := fun before next hpre =>
      hfit before next (hpre.trans (List.prefix_append ..))
    rw [run_concat]
    show (call.emissions (run calls).model).foldl mirrorSignal (run calls).rows = _
    rw [ih hbefore]
    exact (call.emissions_spec (hfit calls call List.prefix_rfl)).1

theorem MirroredList.length_run_le (calls : List NodesCall) :
    (run calls).model.nodes.length ≤ calls.length := by
  induction calls using List.reverseRecOn with
  | nil => exact Nat.le_refl 0
  | append_singleton calls call ih =>
    rw [run_concat, List.length_append, List.length_singleton]
    show (call.run (run calls).model).1.nodes.length ≤ _
    rcases call.run_cases (run calls).model with
      ⟨node, hrun⟩ | ⟨row, hrow, hrun⟩ | ⟨row, targetObject, hrow, hrun⟩ | hrun
    all_goals rw [hrun]
    · simpa using ih
    · rw [List.length_eraseIdx_of_lt hrow]
      omega
    · rw [List.length_modify]
      omega
    · exact Nat.le_succ_of_le ih

theorem rowsFit_of_length_le {calls : List NodesCall} (h : calls.length ≤ 2147483648) :
    RowsFit calls := by
  intro before call hpre
  have hlength := MirroredList.length_run_le before
  have hle := hpre.length_le
  rw [List.length_append, List.length_singleton] at hle
  omega

theorem MirroredList.length_run_replicate (n : Nat) (node : WireplumberNode) :
    (run (List.replicate n (.addNode node))).model.nodes.length = n := by
  induction n with
  | zero => rfl
  | succ n ih =>
    rw [List.replicate_succ', run_concat]
    show ((run (List.replicate n (.addNode node))).model.nodes ++ [node]).length = n + 1
    rw [List.length_append, List.length_singleton, ih]

/-- The row number of an insertion wraps around. -/
theorem not_announced_addNode {l : NodesListModel} (node : WireplumberNode)
    (hlength : l.nodes.length = 2147483648) : ¬ (NodesCall.addNode node).Announced l := by
  rintro ⟨hvalid, -⟩
  have hrow : 0 ≤ (Int32.ofNat l.nodes.length).toInt := (hvalid _ (List.mem_cons_self ..)).1
  rw [hlength] at hrow
  exact absurd hrow (by decide)

/-- **The signals are enough to follow the list**, in every run of calls that find at most as many rows
as an `int` can count. -/
theorem follows_signals_of_rowsFit (calls : List NodesCall) (hfit : RowsFit calls) :
    FollowsSignals calls := by
  constructor
  · intro before hpre
    exact MirroredList.rows_run fun before' next hpre' => hfit before' next (hpre'.trans hpre)
  · intro before call hpre
    exact ⟨(call.emissions_spec (hfit before call hpre)).2, NodesCall.emissions_of_not_matches⟩

theorem follows_signals_of_three_calls :
    FollowsSignals
      [.addNode { id := some 5, objectSerial := some 5 }, .updateNodeTargetObject 5 (some "7"),
        .deleteNodeByObjectSerial 5] :=
  follows_signals_of_rowsFit _ (rowsFit_of_length_le (by decide))

/-- With 2147483648 rows in the list the next row is announced as a negative one. -/
theorem not_follows_signals_past_int :
    ¬ FollowsSignals (List.replicate 2147483649 (.addNode {})) := by
  rintro ⟨-, hannounced⟩
  have hlast : List.replicate 2147483649 (NodesCall.addNode {}) =
      List.replicate 2147483648 (.addNode {}) ++ [.addNode {}] := List.replicate_succ'
  rw [hlast] at hannounced
  exact not_announced_addNode {} (MirroredList.length_run_replicate ..)
    (hannounced _ _ List.prefix_rfl)

end Kpmx
