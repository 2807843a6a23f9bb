import Kpmx.App.Settling
import Kpmx.Main.Wiring
import Kpmx.Nodes.View
import Mathlib.Data.List.FinRange

/-!
# The cards of the window

`LayerMixer.qml` shows a page for every row of the list of layers, and `LayerPage.qml` on it a card for
every row of the layer's inputs and groups; each card is a `ChannelStrip`. The views read the lists by
`rowCount`, `roleNames` and `data` and nothing else.

* `delegates_eq_mapIdx` : a view has one delegate for each row, as long as an `int` counts the rows;
* `cards_feed_construct` : every input and every group of a setup has one card, in the order of the
  setup, and its controls send to the queue of its own channel; a layer's own channel has none;
* `cards_settle` : the application that `main` starts comes to rest with every card showing what the
  engine of its channel plays.
-/

namespace Kpmx.Ui

open Main Runs App

/-! ## The lists of the mixer, as views read them -/

/-- The variants that `data` answers with: a name, or a pointer. -/
inductive ListVariant (α : Type) where
  | invalid
  | string (value : String)
  | object (value : α)

/-- `ChannelStripListModel` and `LayersListModel` as list models: a name and an object for each row, and
the name of the role of the objects. -/
structure ListModel (α : Type) where
  rows : List (String × α)
  objectRole : String

namespace ListModel

variable {α β : Type}

/-- `Qt::UserRole + 1` -/
def nameRole : Int32 := 257

def objectRoleValue : Int32 := 258

/-- `static_cast<int>` of the number of rows, for the root. -/
def rowCount (l : ListModel α) (parentIsValid : Bool) : Int32 :=
  if parentIsValid then 0 else Int32.ofNat l.rows.length

def roleNames (l : ListModel α) : List (Int32 × String) :=
  [(nameRole, "name"), (objectRoleValue, l.objectRole)]

/-- `QAbstractListModel::index` in column 0. -/
def index (l : ListModel α) (row : Int32) : Option Int32 :=
  if 0 ≤ row.toInt ∧ row.toInt < (l.rowCount false).toInt then some row else none

/-- A negative row is a huge one for `at`. -/
def rowAt (l : ListModel α) (row : Int32) : Except StdException (String × α) :=
  match if 0 ≤ row.toInt then l.rows[row.toInt.toNat]? else none with
  | some r => .ok r
  | none => .error .outOfRange

def data (l : ListModel α) (index : Option Int32) (role : Int32) :
    Except StdException (ListVariant α) :=
  match index with
  | none => .ok .invalid
  | some row =>
    if role = nameRole then (l.rowAt row).map fun r => .string r.1
    else if role = objectRoleValue then (l.rowAt row).map fun r => .object r.2
    else .ok .invalid

/-- What the delegate of a row gets for a required property: the data of the role of that name. -/
def property (l : ListModel α) (row : Int32) (name : String) : Option (ListVariant α) :=
  (l.roleNames.find? fun role => role.2 = name).bind fun role =>
    (l.data (l.index row) role.1).toOption

def string? (l : ListModel α) (row : Int32) (name : String) : Option String :=
  (l.property row name).bind fun
    | .string value => some value
    | _ => none

def object? (l : ListModel α) (row : Int32) (name : String) : Option α :=
  (l.property row name).bind fun
    | .object value => some value
    | _ => none

/-- The delegates of a view, from what makes one for a row. -/
def delegates (l : ListModel α) (delegate : Int32 → Option β) : List β :=
  (List.range (l.rowCount false).toInt.toNat).filterMap fun row => delegate (.ofNat row)

section
variable {l : ListModel α} (hfit : l.rows.length < 2147483648)
include hfit

theorem rowAt_index {row : Nat} {r : String × α} (h : l.rows[row]? = some r) :
    l.index (.ofNat row) = some (.ofNat row) ∧ l.rowAt (.ofNat row) = .ok r := by
  have hrow := (List.getElem?_eq_some_iff.mp h).1
  have hint : (Int32.ofNat row).toInt = row := toInt_ofNat_row (by omega)
  have hcount : (l.rowCount false).toInt = l.rows.length := toInt_ofNat_row hfit
  constructor
  · rw [index, if_pos ⟨by omega, by omega⟩]
  · rw [rowAt, if_pos (by omega), hint, Int.toNat_natCast, h]

theorem string?_name {row : Nat} {r : String × α} (h : l.rows[row]? = some r) :
    l.string? (.ofNat row) "name" = some r.1 := by
  obtain ⟨hindex, hat⟩ := rowAt_index hfit h
  have hfind : l.roleNames.find? (fun role => role.2 = "name") = some (nameRole, "name") := rfl
  rw [string?, property, hfind, Option.bind_some, hindex, data, if_pos rfl, hat]
  rfl

theorem object?_objectRole (hne : l.objectRole ≠ "name") {row : Nat} {r : String × α}
    (h : l.rows[row]? = some r) : l.object? (.ofNat row) l.objectRole = some r.2 := by
  obtain ⟨hindex, hat⟩ := rowAt_index hfit h
  have hfind : l.roleNames.find? (fun role => role.2 = l.objectRole) =
      some (objectRoleValue, l.objectRole) := by
    rw [roleNames, List.find?_cons_of_neg (by simpa using hne.symm), List.find?_cons_of_pos (by simp)]
  rw [object?, property, hfind, Option.bind_some, hindex, data, if_neg (show objectRoleValue ≠ nameRole by decide), if_pos rfl, hat]
  rfl

/-- **A delegate for each row**, as long as an `int` counts them. -/
theorem delegates_eq_mapIdx {delegate : Int32 → Option β} {f : Nat → String × α → β}
    (h : ∀ row r, l.rows[row]? = some r → delegate (.ofNat row) = some (f row r)) :
    l.delegates delegate = l.rows.mapIdx f := by
  have hcount : (l.rowCount false).toInt.toNat = l.rows.length := toNat_ofNat_row hfit
  have hmap : (List.range l.rows.length).map (fun row => delegate (.ofNat row)) =
      (l.rows.mapIdx f).map some := by
    apply List.ext_getElem
    · rw [List.length_map, List.length_map, List.length_range, List.length_mapIdx]
    · intro row hrow _
      rw [List.length_map, List.length_range] at hrow
      simp only [List.getElem_map, List.getElem_range, List.getElem_mapIdx]
      exact h row _ (List.getElem?_eq_getElem hrow)
  calc l.delegates delegate
      = ((List.range l.rows.length).map fun row => delegate (.ofNat row)).filterMap id := by
        rw [delegates, hcount, List.filterMap_map]
        rfl
    _ = l.rows.mapIdx f := by
        rw [hmap, List.filterMap_map]
        exact List.filterMap_some

end

end ListModel

/-! ## The pages and their cards -/

/-- A `ChannelStrip` of the window: the row and the title of its page, its type, its heading, and the
strip that its controls show and set. -/
structure Card where
  page : Nat
  pageTitle : String
  channelType : String
  heading : String
  strip : Place
  deriving DecidableEq

section
variable (o : Objects)

def stripList (list : Nat) : ListModel Place where
  rows := (o.stripLists.getD list {}).model.channelStrips.mapIdx fun position strip =>
    (strip.name, ⟨list, position⟩)
  objectRole := "channelStrip"

def layerList : ListModel LayerObject where
  rows := o.layers.map fun layer => (layer.name, layer)
  objectRole := "mixerLayer"

/-- A delegate of `LayerPage.qml`; the title it sets is the type of the channel. The heading of a group
is the name of its strip. -/
def card (page : Nat) (pageTitle channelType : String) (strip : Place) : Card where
  page := page
  pageTitle := pageTitle
  channelType := channelType
  heading :=
    if channelType = "Input" then channelType
    else ((o.strip? strip).map ChannelStripModel.name).getD ""
  strip := strip

/-- The cards of a repeater. -/
def repeaterCards (page : Nat) (pageTitle channelType : String) (list : Nat) : List Card :=
  (stripList o list).delegates fun row =>
    ((stripList o list).object? row "channelStrip").map (card o page pageTitle channelType)

def layerPage (page : Nat) (pageTitle : String) (layer : LayerObject) : List Card :=
  repeaterCards o page pageTitle "Input" layer.inputChannels ++
    repeaterCards o page pageTitle "Group" layer.groupChannels

/-- The pages of the pager, in order. -/
def pages : List (List Card) :=
  (layerList o).delegates fun row =>
    ((layerList o).string? row "name").bind fun pageTitle =>
      ((layerList o).object? row "mixerLayer").map (layerPage o row.toInt.toNat pageTitle)

def cards : List Card := (pages o).flatten

end

/-! ## The channels of a setup -/

section
variable (setup : Setup.MixerSetup)

/-- The name that the setup gives a group. -/
def groupName (r : StripRef) : String :=
  ((setup.layers[r.layer]?.bind fun layer => layer.groupChannels[r.index]?).map
    Setup.GroupChannelSetup.name).getD ""

/-- The card that the strip at a place should have. -/
def placeCard (place : Place) : Card where
  page := (refOf place).layer
  pageTitle := "Layer " ++ toString (refOf place).layer
  channelType := if (refOf place).kind = .input then "Input" else "Group"
  heading := if (refOf place).kind = .input then "Input" else groupName setup (refOf place)
  strip := place

/-- The channels that should have a card, in order. -/
def visible : List (Fin (channelCount setup)) :=
  (List.finRange (channelCount setup)).filter fun k => ((wiring setup).sends k).kind ≠ .layer

/-- An `int` counts the layers, and the strips of each list. -/
structure RowsFit : Prop where
  layers : setup.layers.length < 2147483648
  inputs : ∀ layer ∈ setup.layers, layer.inputChannels.length < 2147483648
  groups : ∀ layer ∈ setup.layers, layer.groupChannels.length < 2147483648

/-- The cards of a layer. -/
def layerCards (layerIndex : Nat) (layer : Setup.LayerSetup) : List Card :=
  (layer.inputs.mapIdx fun position _ => placeCard setup ⟨3 * layerIndex, position⟩) ++
    layer.groups.mapIdx fun position _ => placeCard setup ⟨3 * layerIndex + 1, position⟩

theorem map_mapIdx {α β γ : Type} (l : List α) (f : Nat → α → β) (g : β → γ) :
    (l.mapIdx f).map g = l.mapIdx fun i a => g (f i a) := by
  apply List.ext_getElem?
  intro i
  rw [List.getElem?_map, List.getElem?_mapIdx, List.getElem?_mapIdx, Option.map_map]
  rfl

theorem channelSites_eq_mapIdx (list channelIndex : Nat) (channels : List (String × String)) :
    channelSites list channelIndex channels = channels.mapIdx fun i channel =>
      ⟨channel.2, ⟨list, channelIndex + i⟩, channelIndex + i⟩ := by
  induction channels generalizing channelIndex with
  | nil => rfl
  | cons channel channels ih =>
    rw [channelSites, ih, List.mapIdx_cons]
    simp only [Nat.add_zero, Nat.add_assoc, Nat.add_comm 1]

theorem sites_eq_flatten (layerIndex : Nat) (layers : List Setup.LayerSetup) :
    sites layerIndex layers = (layers.mapIdx fun i layer =>
      layerSites (layerIndex + i) (3 * (layerIndex + i)) layer).flatten := by
  induction layers generalizing layerIndex with
  | nil => rfl
  | cons layer layers ih =>
    rw [sites, ih, List.mapIdx_cons, List.flatten_cons]
    simp only [Nat.add_zero, Nat.add_assoc, Nat.add_comm 1]

/-- The sites that have a card. -/
def Site.shown (s : Site) : Bool := (refOf s.place).kind ≠ .layer

theorem map_shown_channelSites {list : Nat} (hlist : list % 3 ≠ 2) (channels : List (String × String)) :
    ((channelSites list 0 channels).filter Site.shown).map (fun s => placeCard setup s.place) =
      channels.mapIdx fun position _ => placeCard setup ⟨list, position⟩ := by
  have hall : (channelSites list 0 channels).filter Site.shown = channelSites list 0 channels := by
    refine List.filter_eq_self.mpr fun s hs => decide_eq_true fun hkind => hlist ?_
    rw [← mem_channelSites hs]
    exact (kind_refOf_iff s.place).mp hkind
  rw [hall, channelSites_eq_mapIdx]
  simp only [Nat.zero_add]
  exact map_mapIdx ..

theorem map_shown_layerSites (layerIndex : Nat) (layer : Setup.LayerSetup) :
    ((layerSites layerIndex (3 * layerIndex) layer).filter Site.shown).map
      (fun s => placeCard setup s.place) = layerCards setup layerIndex layer := by
  have hown : [(⟨layer.layerChannel.pipewireNodeNamePrefix, ⟨3 * layerIndex + 2, 0⟩, layerIndex⟩ :
      Site)].filter Site.shown = [] := by
    have hkind : (refOf ⟨3 * layerIndex + 2, 0⟩).kind = .layer :=
      (kind_refOf_iff _).mpr (by simp only; omega)
    exact List.filter_cons_of_neg (by simp [Site.shown, hkind])
  rw [layerSites, List.filter_append, List.filter_append, hown, List.append_nil, List.map_append,
    map_shown_channelSites setup (by omega), map_shown_channelSites setup (by omega), layerCards]

theorem map_visible : (visible setup).map (fun k => placeCard setup (site setup k).place) =
    (setup.layers.mapIdx (layerCards setup)).flatten := by
  have hsites : (List.finRange (channelCount setup)).map (site setup) = sites 0 setup.layers :=
    List.map_get_finRange _
  calc (visible setup).map (fun k => placeCard setup (site setup k).place)
      = (((List.finRange (channelCount setup)).map (site setup)).filter Site.shown).map
          (fun s => placeCard setup s.place) := by
        rw [List.filter_map, List.map_map]
        rfl
    _ = (setup.layers.mapIdx (layerCards setup)).flatten := by
        rw [hsites, sites_eq_flatten, List.filter_flatten, List.map_flatten, List.map_map]
        congr 1
        rw [map_mapIdx]
        refine List.mapIdx_eq_mapIdx_iff.mpr fun i hi => ?_
        simp only [Nat.zero_add, Function.comp_apply]
        exact map_shown_layerSites setup i _

end

/-! ## What feedback leaves alone -/

/-- The names of the strips of a list. -/
def names (l : ChannelStripListModel) : List String := l.channelStrips.map ChannelStripModel.name

theorem names_mapStrips_routing (l : ChannelStripListModel) :
    names (l.mapStrips ChannelStripModel.routing) = names l := List.map_map

theorem names_ofNames (l : List String) : names (.ofNames l) = l := by
  rw [names, ChannelStripListModel.ofNames, List.map_map]
  exact List.map_id l

section
variable [CastUndefined]

theorem routing_feedTree {l l' : LayersListModel}
    {messages : List (UpdatesToQtThreadData × Option SpaPod)} (h : feedTree l messages = some l') :
    l'.routing = l.routing := by
  induction messages generalizing l with
  | nil => exact congrArg LayersListModel.routing (Option.some.inj h).symm
  | cons message messages ih =>
    rw [feedTree, List.foldlM_cons] at h
    obtain ⟨l₁, hl₁, hrest⟩ := Option.bind_eq_some_iff.mp h
    obtain ⟨params, rfl⟩ := LayersListModel.applyUpdate_eq_some hl₁
    exact (ih hrest).trans
      (LayersListModel.mapStrips_modifyStrip_of_eq (routing_applyParams params) _ _)

theorem queue?_applyUpdate {o o' : Objects} {data : UpdatesToQtThreadData}
    {controlPod : Option SpaPod} (h : o.applyUpdate data controlPod = some o') (place : Place) :
    o'.queue? place = o.queue? place := by
  obtain ⟨l, hl, h⟩ := Option.bind_eq_some_iff.mp h
  obtain ⟨model, -, rfl⟩ := Option.map_eq_some_iff.mp h
  have hlt := (List.getElem?_eq_some_iff.mp hl).1
  simp only [Objects.queue?, List.getElem?_set, hlt, if_true]
  split
  · next heq => rw [← heq, hl]; rfl
  · rfl

theorem queue?_feed {o o' : Objects} {messages : List (UpdatesToQtThreadData × Option SpaPod)}
    (h : feed o messages = some o') (place : Place) : o'.queue? place = o.queue? place := by
  induction messages generalizing o with
  | nil => rw [Option.some.inj h]
  | cons message messages ih =>
    rw [feed, List.foldlM_cons] at h
    obtain ⟨o₁, ho₁, hrest⟩ := Option.bind_eq_some_iff.mp h
    rw [ih hrest, queue?_applyUpdate ho₁]

end

/-! ## The window of a setup -/

/-- The layer of a setup among the objects, with its three lists and the names of their strips. -/
structure LayerShown (o : Objects) (layerIndex : Nat) (layerSetup : Setup.LayerSetup)
    (layer : LayerObject) : Prop where
  name : layer.name = "Layer " ++ toString layerIndex
  inputs : names (o.models.getD layer.inputChannels {}) = layerSetup.inputs.map Prod.fst
  groups : names (o.models.getD layer.groupChannels {}) = layerSetup.groups.map Prod.fst

theorem layerShown {setup : Setup.MixerSetup} {o : Objects}
    (htree : o.layersModel.routing =
      (LayersListModel.ofSetup (setup.layers.map Setup.LayerSetup.names)).routing)
    {layerIndex : Nat} {layer : LayerObject} (hlayer : o.layers[layerIndex]? = some layer) :
    ∃ layerSetup, setup.layers[layerIndex]? = some layerSetup ∧
      LayerShown o layerIndex layerSetup layer := by
  have hget := congrArg (fun l : LayersListModel => l.layers[layerIndex]?) htree
  simp only [LayersListModel.mapStrips, Objects.layersModel, LayersListModel.ofSetup,
    List.getElem?_map, List.getElem?_mapIdx, hlayer, Option.map_some, Option.map_map] at hget
  obtain ⟨layerSetup, hsetup, heq⟩ := Option.map_eq_some_iff.mp hget.symm
  refine ⟨layerSetup, hsetup, congrArg LayerModel.name heq.symm, ?_, ?_⟩
  · have hinputs := congrArg (fun l : LayerModel => names l.inputChannels) heq
    simp only [Function.comp_apply, LayerModel.mapStrips, names_mapStrips_routing,
      names_ofNames] at hinputs
    exact hinputs.symm
  · have hgroups := congrArg (fun l : LayerModel => names l.groupChannels) heq
    simp only [Function.comp_apply, LayerModel.mapStrips, names_mapStrips_routing,
      names_ofNames] at hgroups
    exact hgroups.symm

theorem rows_stripList (o : Objects) (list : Nat) : (stripList o list).rows =
    (names (o.models.getD list {})).mapIdx fun position name => (name, ⟨list, position⟩) := by
  have hmodel : o.models.getD list {} = (o.stripLists.getD list {}).model := by
    simp only [Objects.models, List.getD_eq_getElem?_getD, List.getElem?_map]
    cases o.stripLists[list]? <;> rfl
  rw [stripList, hmodel, names]
  refine List.mapIdx_eq_iff.mpr fun position => ?_
  rw [List.getElem?_mapIdx, List.getElem?_map, Option.map_map]
  rfl

theorem map_name_strip? (o : Objects) (list position : Nat) :
    (o.strip? ⟨list, position⟩).map ChannelStripModel.name =
      (names (o.models.getD list {}))[position]? := by
  simp only [Objects.strip?, Objects.models, List.getD_eq_getElem?_getD, List.getElem?_map, names]
  cases o.stripLists[list]? <;> rfl

theorem repeaterCards_eq {o : Objects} {list : Nat} {strips : List String}
    (hnames : names (o.models.getD list {}) = strips) (hfit : strips.length < 2147483648)
    (page : Nat) (pageTitle channelType : String) :
    repeaterCards o page pageTitle channelType list =
      strips.mapIdx fun position _ => card o page pageTitle channelType ⟨list, position⟩ := by
  have hrows := rows_stripList o list
  rw [hnames] at hrows
  have hlength : (stripList o list).rows.length < 2147483648 := by
    rwa [hrows, List.length_mapIdx]
  have hobject : ∀ row r, (stripList o list).rows[row]? = some r →
      (stripList o list).object? (.ofNat row) "channelStrip" = some r.2 :=
    fun _ _ hr => ListModel.object?_objectRole hlength (show "channelStrip" ≠ "name" by decide) hr
  have hdelegates : repeaterCards o page pageTitle channelType list =
      (stripList o list).rows.mapIdx fun _ r => card o page pageTitle channelType r.2 :=
    ListModel.delegates_eq_mapIdx hlength fun row r hr => by rw [hobject row r hr, Option.map_some]
  rw [hdelegates, hrows, List.mapIdx_mapIdx]
  rfl

theorem refOf_input (layerIndex position : Nat) :
    refOf ⟨3 * layerIndex, position⟩ = ⟨layerIndex, .input, position⟩ := by
  rw [refOf, Nat.mul_mod_right, Nat.mul_div_cancel_left _ (by decide)]
  rfl

theorem refOf_group (layerIndex position : Nat) :
    refOf ⟨3 * layerIndex + 1, position⟩ = ⟨layerIndex, .group, position⟩ := by
  have hdiv : (3 * layerIndex + 1) / 3 = layerIndex := by omega
  have hmod : (3 * layerIndex + 1) % 3 = 1 := by omega
  rw [refOf, hdiv, hmod]
  rfl

theorem layerPage_eq {setup : Setup.MixerSetup} {o : Objects} (hfit : RowsFit setup)
    (hlayout : Main.Layout o) {layerIndex : Nat} {layerSetup : Setup.LayerSetup} {layer : LayerObject}
    (hlayer : o.layers[layerIndex]? = some layer) (hsetup : setup.layers[layerIndex]? = some layerSetup)
    (hshown : LayerShown o layerIndex layerSetup layer) :
    layerPage o layerIndex layer.name layer = layerCards setup layerIndex layerSetup := by
  obtain ⟨hname, hinputs, hgroups⟩ := hshown
  obtain ⟨hinputList, hgroupList, -⟩ := hlayout.layers _ _ hlayer
  rw [hinputList] at hinputs
  rw [hgroupList] at hgroups
  have hmem := List.mem_of_getElem? hsetup
  have hinputsFit : (layerSetup.inputs.map Prod.fst).length < 2147483648 := by
    simpa [Setup.LayerSetup.inputs] using hfit.inputs _ hmem
  have hgroupsFit : (layerSetup.groups.map Prod.fst).length < 2147483648 := by
    simpa [Setup.LayerSetup.groups] using hfit.groups _ hmem
  rw [layerPage, hinputList, hgroupList, repeaterCards_eq hinputs hinputsFit,
    repeaterCards_eq hgroups hgroupsFit, layerCards, hname]
  congr 1
  · refine List.mapIdx_eq_iff.mpr fun position => ?_
    rw [List.getElem?_mapIdx, List.getElem?_map, Option.map_map]
    refine Option.map_congr fun r _ => ?_
    simp only [Function.comp_apply, placeCard, refOf_input, card, if_true]
  · refine List.mapIdx_eq_iff.mpr fun position => ?_
    rw [List.getElem?_mapIdx, List.getElem?_map, Option.map_map]
    refine Option.map_congr fun r _ => ?_
    have hgroup : (layerSetup.groups.map Prod.fst)[position]? =
        layerSetup.groupChannels[position]?.map Setup.GroupChannelSetup.name := by
      rw [List.getElem?_map, Setup.LayerSetup.groups, List.getElem?_map, Option.map_map]
      rfl
    simp only [Function.comp_apply, placeCard, refOf_group, card, groupName, map_name_strip?, hgroups,
      hsetup, hgroup, Option.bind_some]
    rfl

theorem pages_eq {setup : Setup.MixerSetup} {o : Objects} (hfit : RowsFit setup)
    (hlayout : Main.Layout o) (htree : o.layersModel.routing =
      (LayersListModel.ofSetup (setup.layers.map Setup.LayerSetup.names)).routing) :
    pages o = setup.layers.mapIdx (layerCards setup) := by
  have hlength : o.layers.length = setup.layers.length := by
    have hlengths := congrArg (fun l : LayersListModel => l.layers.length) htree
    simpa [LayersListModel.mapStrips, Objects.layersModel, LayersListModel.ofSetup] using hlengths
  have hrows : (layerList o).rows.length < 2147483648 := by
    rw [layerList, List.length_map, hlength]
    exact hfit.layers
  have hpages : pages o = (layerList o).rows.mapIdx fun row r => layerPage o row r.1 r.2 := by
    refine ListModel.delegates_eq_mapIdx hrows fun row r hr => ?_
    have hrow := (List.getElem?_eq_some_iff.mp hr).1
    have hobject : (layerList o).object? (.ofNat row) "mixerLayer" = some r.2 :=
      ListModel.object?_objectRole hrows (show "mixerLayer" ≠ "name" by decide) hr
    rw [ListModel.string?_name hrows hr, Option.bind_some, hobject, Option.map_some,
      toNat_ofNat_row (by omega)]
  rw [hpages]
  refine List.mapIdx_eq_iff.mpr fun layerIndex => ?_
  rw [List.getElem?_mapIdx, layerList, List.getElem?_map]
  cases hlayer : o.layers[layerIndex]? with
  | none =>
    have hle := List.getElem?_eq_none_iff.mp hlayer
    rw [List.getElem?_eq_none (by omega)]
    rfl
  | some layer =>
    obtain ⟨layerSetup, hsetup, hshown⟩ := layerShown htree hlayer
    rw [hsetup, Option.map_some, Option.map_some, Option.map_some]
    exact congrArg some (layerPage_eq hfit hlayout hlayer hsetup hshown).symm

/-- The card of a channel. -/
def channelCard (setup : Setup.MixerSetup) (k : Fin (channelCount setup)) : Card :=
  placeCard setup (site setup k).place

/-- **The window shows every input and every group once**, in the order of the setup, on the page of its
layer and with its type and its heading, whatever feedback has been applied; the strip on the card of a
channel sends to the channel's own queue. A layer's own channel has no card. -/
theorem cards_feed_construct [CastUndefined] {setup : Setup.MixerSetup} (hfit : RowsFit setup)
    {messages : List (UpdatesToQtThreadData × Option SpaPod)} {o : Objects}
    (hfeed : feed (construct setup) messages = some o) :
    cards o = (visible setup).map (channelCard setup) ∧
      ∀ k, o.queue? (channelCard setup k).strip = some k.val := by
  have hconstruct := Main.Layout.construct setup
  have htree : o.layersModel.routing =
      (LayersListModel.ofSetup (setup.layers.map Setup.LayerSetup.names)).routing := by
    have hfeedTree := layersModel_feed hconstruct messages
    rw [hfeed, layersModel_construct] at hfeedTree
    exact routing_feedTree hfeedTree.symm
  constructor
  · exact (congrArg List.flatten (pages_eq hfit (hconstruct.feed hfeed) htree)).trans
      (map_visible setup).symm
  · intro k
    rw [queue?_feed hfeed]
    exact ((Built.construct setup).queue_iff (getElem?_site setup k) _).mpr rfl

/-- A layer with an input and a group. -/
def oneGroup : Setup.MixerSetup where
  layers := [
    { inputChannels := [{ name := "Channel 1", pipewireNodeNamePerfix := "pmx-input-00-a" }]
      groupChannels := [{ name := "Drums", pipewireNodeNamePerfix := "pmx-group-00-a" }]
      layerChannel := { name := "Left Layer", pipewireNodeNamePrefix := "pmx-layer-a" } }]

/-- Its window after feedback for the group. -/
theorem cards_feed_construct_oneGroup : ∃ o,
    @feed .x86 (construct oneGroup) [(⟨1, 0, "", "", ""⟩, some (FeedbackPath.mixValue (.finite 70)))] =
        some o ∧
      cards o = [⟨0, "Layer 0", "Input", "Input", ⟨0, 0⟩⟩, ⟨0, "Layer 0", "Group", "Drums", ⟨1, 0⟩⟩] := by
  have hsome : (@feed .x86 (construct oneGroup)
      [(⟨1, 0, "", "", ""⟩, some (FeedbackPath.mixValue (.finite 70)))]).isSome = true := by
    decide +kernel
  obtain ⟨o, hfeed⟩ := Option.isSome_iff_exists.mp hsome
  obtain ⟨hcards, -⟩ :=
    @cards_feed_construct .x86 _ ⟨by decide, by decide, by decide⟩ _ _ hfeed
  refine ⟨o, hfeed, hcards.trans ?_⟩
  decide +kernel

/-! ## The window at rest -/

/-- A channel with a card is closed, as long as eight bits number the channels. -/
theorem closed_of_mem_visible {setup : Setup.MixerSetup} (hcount : channelCount setup ≤ 256)
    {k : Fin (channelCount setup)} (hk : k ∈ visible setup) : (wiring setup).Closed k := by
  have hkind : ((wiring setup).sends k).kind ≠ .layer := by
    simpa [visible] using hk
  refine (closed_iff_slots setup k).mpr ⟨fun h => absurd h hkind, fun j => ?_⟩
  have hslot : FeedbackSync.slotOf j = j := by
    apply Fin.ext
    show j.val % 256 = j.val
    omega
  rw [hslot]

/-- **What the window shows at rest is what the engines play.** The application that `main` starts for a
setup of at most 256 channels can be brought to rest by its own threads from every state that is reached
while the callbacks report acceptable nodes, no setter changes its field while its queue is full and the
engines' feedback is true; then on every card the strip has, for every parameter but the volume, the
value that the engine of the card's channel has, which is the argument of the last setter call that
differed from its field. -/
theorem cards_settle [CastUndefined] {setup : Setup.MixerSetup} (hcount : channelCount setup ≤ 256)
    {engines : Fin (channelCount setup) → EngineValues} {ls : List (Action (channelCount setup))}
    {st : App (channelCount setup)}
    (hrun : run (guarded (Assumed (wiring setup)) (App.step (wiring setup)))
      (start (setup.layers.map Setup.LayerSetup.names) engines) ls = some st)
    (hnodes : ∀ l ∈ ls, l.Acceptable (setup.layers.map Setup.LayerSetup.names)) :
    ∃ t, ReachesBy (guarded (Assumed (wiring setup)) (App.step (wiring setup))) Action.own
        (2 * channelCount setup ^ 2 + 22 * channelCount setup + 5 + st.events.length) st t ∧
      t.Settled ∧ ∀ k ∈ visible setup, ∃ strip,
        t.layers.strip? (refOf (channelCard setup k).strip) = some strip ∧
        ∀ p : Param, p ≠ .volume → p.get strip = t.engines k p ∧
          t.engines k p = (SetterCall.lastArgument p (st.accepted k)).getD (engines k p) := by
  obtain ⟨t, hreach, hsettled, haccepted⟩ := exists_settled hrun hnodes
  refine ⟨t, hreach, hsettled, fun k hk => ?_⟩
  have hclosed := closed_of_mem_visible hcount hk
  have hstrips := fun {p : Param} (hp : p ≠ .volume) =>
    hsettled.closed hrun hreach haccepted hclosed hp
  obtain ⟨strip, hstrip, -⟩ := hstrips (show Param.looperMix ≠ .volume by decide)
  refine ⟨strip, hstrip, fun p hp => ?_⟩
  obtain ⟨strip', hstrip', hengine, hget⟩ := hstrips hp
  obtain rfl := Option.some.inj (hstrip.symm.trans hstrip')
  exact ⟨hget.trans hengine.symm, hengine⟩

/-- The group of `oneGroup`. -/
def drums : Fin (channelCount oneGroup) := ⟨1, by decide⟩

/-- After a turn of its mix the card of the group comes to rest with the new mix. -/
theorem cards_settle_drums : ∃ (t : App (channelCount oneGroup)) (strip : ChannelStripModel),
    t.Settled ∧ t.layers.strip? ⟨0, .group, 0⟩ = some strip ∧ strip.looperMix = .finite 70 ∧
      t.engines drums .looperMix = Double.finite 70 := by
  have haccepted : (run (guarded (@Assumed _ _ .x86 (wiring oneGroup)) (@App.step _ _ .x86 (wiring oneGroup)))
      (start (oneGroup.layers.map Setup.LayerSetup.names) fun _ p => p.get {})
      [.setter drums (.setLooperMix (.finite 70))]).map (fun st => st.accepted drums) =
        some [.setLooperMix (.finite 70)] := by decide +kernel
  obtain ⟨st, hrun, hst⟩ := Option.map_eq_some_iff.mp haccepted
  obtain ⟨t, -, hsettled, hcards⟩ := @cards_settle .x86 oneGroup (by decide) _ _ _ hrun fun l hl => by
    obtain rfl := List.mem_singleton.mp hl
    exact fun _ hk => by cases hk
  obtain ⟨strip, hstrip, hparams⟩ := hcards drums (by decide +kernel)
  obtain ⟨hget, hengine⟩ := hparams .looperMix (by decide)
  rw [hst] at hengine
  exact ⟨t, strip, hsettled, hstrip, hget.trans hengine, hengine⟩

end Kpmx.Ui
