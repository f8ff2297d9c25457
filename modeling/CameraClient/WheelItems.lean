import CameraClient.Lib.Runs
import CameraClient.Lib.Slices
import CameraClient.Lib.StateError
import CameraClient.WheelView

/-! The rows of a wheel: the text views its adapter makes, the column they are shown in and
the views `WheelRecycle` sets aside. Every draw adapts the column to the rows in range. -/
namespace CameraClient
open Runs Slices StateError

/-- A text view. `place` is the row of the column the last layout pass put it in. -/
structure ItemView where
  id : Nat
  text : String := ""
  place : Option Nat := none
  deriving DecidableEq, Repr

structure ItemsRange where
  first : Int := 0
  count : Int := 0
  deriving DecidableEq, Repr

namespace ItemsRange

def getLast (range : ItemsRange) : Int := range.first + range.count - 1

def contains (range : ItemsRange) (index : Int) : Bool :=
  decide (index ≥ range.first ∧ index ≤ range.getLast)

end ItemsRange

/-- A wheel with its column of rows (`itemsLayout`, null at first), the number of the first
of them and the two caches of `WheelRecycle`. `created` counts the views made so far. -/
structure WheelItems where
  view : WheelView := {}
  itemsLayout : Option (List ItemView) := none
  firstItem : Int := 0
  items : List ItemView := []
  emptyItems : List ItemView := []
  created : Nat := 0
  deriving DecidableEq, Repr

abbrev Rows := EStateM JavaException WheelItems

namespace WheelRecycle

/-- `recycleView`: a view goes to the cache its index calls for. -/
def recycleView (view : ItemView) (index : Int) : Rows Unit := do
  let st ← get
  match st.view.viewAdapter with
  | none => throw .nullPointer
  | some adapter =>
    if (index < 0 ∨ index ≥ adapter.getItemsCount) ∧ ¬ WheelView.isCyclic then
      modify fun st => { st with emptyItems := st.emptyItems ++ [view] }
    else
      modify fun st => { st with items := st.items ++ [view] }

/-- The loop of `recycleItems`, with the children kept so far and those still to check. -/
def recycleLoop (range : ItemsRange) :
    List ItemView → List ItemView → Int → Int → Rows (List ItemView × Int)
  | kept, [], _, firstItem => pure (kept, firstItem)
  | kept, view :: rest, index, firstItem =>
    if range.contains index then recycleLoop range (kept ++ [view]) rest (index + 1) firstItem
    else do
      recycleView view index
      recycleLoop range kept rest (index + 1) (if kept = [] then firstItem + 1 else firstItem)

/-- The children outside the range leave the column; the new number of the first one. -/
def recycleItems (children : List ItemView) (firstItem : Int) (range : ItemsRange) : Rows Int := do
  let (kept, first) ← recycleLoop range [] children firstItem firstItem
  modify fun st => { st with itemsLayout := some kept }
  pure first

/-- The first view of a cache. -/
def getCachedView (cache : List ItemView) : Option ItemView × List ItemView :=
  (cache.head?, cache.tail)

def getItem : Rows (Option ItemView) := do
  let (view, cache) := getCachedView (← get).items
  modify fun st => { st with items := cache }
  pure view

def getEmptyItem : Rows (Option ItemView) := do
  let (view, cache) := getCachedView (← get).emptyItems
  modify fun st => { st with emptyItems := cache }
  pure view

end WheelRecycle

def newTextView : Rows ItemView := do
  let st ← get
  modify fun st => { st with created := st.created + 1 }
  pure { id := st.created }

namespace ArrayWheelAdapter

def getItem (a : ArrayWheelAdapter) (index : Int) (convertView : Option ItemView) :
    Rows (Option ItemView) :=
  if 0 ≤ index ∧ index < a.getItemsCount then do
    let view ← match convertView with
      | some view => pure view
      | none => newTextView
    match a.getItemText index with
    | .error e => throw e
    | .ok text => pure (some { view with text := text.getD "" })
  else pure none

/-- No resource is set for the rows beyond the ends, and `getView` makes none. -/
def getEmptyItem (_ : ArrayWheelAdapter) (convertView : Option ItemView) :
    Rows (Option ItemView) :=
  pure convertView

end ArrayWheelAdapter

/-- `(int) (count + Math.asin(n))` for a count of at least two, the way `count += Math.asin(n)`
computes it: the arcsine is 0, or half a circle's length up or down, and beyond that it is
not a number, which becomes 0. -/
def addAsin (count n : Int) : Int :=
  if n = 0 then count else if n = 1 then count + 1 else if n = -1 then count - 2 else 0

namespace WheelItems

def children (st : WheelItems) : List ItemView := st.itemsLayout.getD []

def childCount (st : WheelItems) : Int := st.children.length

def isValidItemIndex (st : WheelItems) (index : Int) : Bool :=
  match st.view.viewAdapter with
  | none => false
  | some adapter => adapter.getItemsCount > 0 &&
      (WheelView.isCyclic || (index ≥ 0 && index < adapter.getItemsCount))

/-- The loop of `getItemsRange` that adds a row at both ends until the height is filled. -/
def rowsAround (layout : Layout) : Nat → ItemsRange → ItemsRange
  | 0, range => range
  | fuel + 1, range =>
    if range.count * layout.itemHeight < layout.height then
      rowsAround layout fuel ⟨range.first - 1, range.count + 2⟩
    else range

def getItemsRange (st : WheelItems) (layout : Layout) : Option ItemsRange :=
  if layout.itemHeight = 0 then none
  else
    let range := rowsAround layout layout.height.toNat ⟨st.view.currentItem, 1⟩
    let offset := st.view.scrollingOffset
    if offset ≠ 0 then
      let first := if offset > 0 then range.first - 1 else range.first
      let emptyItems := offset.tdiv layout.itemHeight
      some ⟨first - emptyItems, addAsin (range.count + 1) emptyItems⟩
    else some range

def getItemView (index : Int) : Rows (Option ItemView) := do
  let st ← get
  match st.view.viewAdapter with
  | none => pure none
  | some adapter =>
    if adapter.getItemsCount = 0 then pure none
    else if st.isValidItemIndex index then do
      let cached ← WheelRecycle.getItem
      adapter.getItem (index % adapter.getItemsCount) cached
    else do
      let cached ← WheelRecycle.getEmptyItem
      adapter.getEmptyItem cached

/-- `itemsLayout.addView`, at the front or at the end. -/
def addView (view : ItemView) (first : Bool) : Rows Unit := do
  let st ← get
  match st.itemsLayout with
  | none => throw .nullPointer
  | some children =>
    modify fun st => { st with
      itemsLayout := some (if first then view :: children else children ++ [view]) }

def addViewItem (index : Int) (first : Bool) : Rows Bool := do
  match ← getItemView index with
  | some view => do
    addView view first
    pure true
  | none => pure false

/-- The first part of `rebuildItems`: the column is made, or freed of the rows out of range. -/
def recycleOrCreate (range : ItemsRange) : Rows Bool := do
  let st ← get
  match st.itemsLayout with
  | some children => do
    let first ← WheelRecycle.recycleItems children st.firstItem range
    modify fun st => { st with firstItem := first }
    pure (decide (st.firstItem ≠ first))
  | none => do
    modify fun st => { st with itemsLayout := some [] }
    pure true

/-- The loop of `rebuildItems` over the rows above the first one. -/
def addAbove : Nat → Int → Rows Unit
  | 0, _ => pure ()
  | n + 1, i => do
    let added ← addViewItem i true
    if added then do
      modify fun st => { st with firstItem := i }
      addAbove n (i - 1)
    else pure ()

/-- The loop of `rebuildItems` over the rows from the `i`-th on; `first` is its local variable. -/
def addBelow (firstItem : Int) : Nat → Int → Int → Rows Int
  | 0, _, first => pure first
  | n + 1, i, first => do
    let added ← addViewItem (firstItem + i) false
    let st ← get
    addBelow firstItem n (i + 1) (if ¬ added ∧ st.childCount = 0 then first + 1 else first)

/-- The second part of `rebuildItems`: the rows above are added, or the column starts anew. -/
def reachFirst (range : ItemsRange) : Rows Unit := do
  let st ← get
  if st.firstItem > range.first ∧ st.firstItem ≤ range.getLast then
    addAbove (st.firstItem - range.first).toNat (st.firstItem - 1)
  else
    modify fun st => { st with firstItem := range.first }

def fillRange (range : ItemsRange) : Rows Unit := do
  reachFirst range
  let st ← get
  let first ← addBelow st.firstItem (range.count - st.childCount).toNat st.childCount st.firstItem
  modify fun st => { st with firstItem := first }

/-- Whether the column is laid out anew is decided before the missing rows are added. -/
def rebuildItems (layout : Layout) : Rows Bool := do
  let st ← get
  match st.getItemsRange layout with
  | none => pure false
  | some range => do
    let updated ← recycleOrCreate range
    let st ← get
    fillRange range
    pure (updated || decide (st.firstItem ≠ range.first ∨ st.childCount ≠ range.count))

/-- `calculateLayoutWidth` and `layout`: every child gets the place of its number. -/
def layoutChildren : Rows Unit := do
  let st ← get
  match st.itemsLayout with
  | none => throw .nullPointer
  | some children =>
    modify fun st => { st with
      itemsLayout := some (children.mapIdx fun k view => { view with place := some k }) }

def updateView (layout : Layout) : Rows Unit := do
  let rebuilt ← rebuildItems layout
  if rebuilt then layoutChildren else pure ()

/-- `onDraw`; what `drawItems` puts on screen is `frame`, and without a column it raises. -/
def onDraw (layout : Layout) : Rows Unit := do
  let st ← get
  match st.view.viewAdapter with
  | none => pure ()
  | some adapter =>
    if adapter.getItemsCount > 0 then do
      updateView layout
      let st ← get
      match st.itemsLayout with
      | none => throw .nullPointer
      | some _ => pure ()
    else pure ()

/-- The rows `drawItems` shows: their distance from the top of the wheel, and their text. -/
def frame (st : WheelItems) (layout : Layout) : List (Int × String) :=
  let top := (st.view.currentItem - st.firstItem) * layout.itemHeight +
    (layout.itemHeight - layout.height).tdiv 2
  st.children.filterMap fun view => view.place.map fun (k : Nat) =>
    (-top + st.view.scrollingOffset + k * layout.itemHeight, view.text)

def visibleItems : Int := 5

/-- The loop of `buildViewForMeasuring`, from below the current item upwards. -/
def addForMeasuring : Nat → Int → Rows Unit
  | 0, _ => pure ()
  | n + 1, i => do
    let added ← addViewItem i true
    if added then modify fun st => { st with firstItem := i } else pure ()
    addForMeasuring n (i - 1)

def buildViewForMeasuring : Rows Unit := do
  let st ← get
  match st.itemsLayout with
  | some children => do
    let _ ← WheelRecycle.recycleItems children st.firstItem {}
    pure ()
  | none => modify fun st => { st with itemsLayout := some [] }
  let addItems := visibleItems.tdiv 2
  addForMeasuring (2 * addItems + 1).toNat (st.view.currentItem + addItems)

def setViewAdapter (st : WheelItems) (adapter : ArrayWheelAdapter) : WheelItems :=
  { st with
    view := st.view.setViewAdapter adapter
    items := []
    emptyItems := []
    itemsLayout := st.itemsLayout.map fun _ => [] }

end WheelItems

inductive ItemsEvent where
  | attach (adapter : ArrayWheelAdapter)
  | turn (currentItem scrollingOffset : Int)
  | measure
  | draw (layout : Layout)
  deriving DecidableEq, Repr

namespace ItemsEvent

def callback : ItemsEvent → Rows Unit
  | attach adapter => modify fun st => st.setViewAdapter adapter
  | turn currentItem offset => modify fun st =>
      { st with view := { st.view with currentItem := currentItem, scrollingOffset := offset } }
  | measure => do
    WheelItems.buildViewForMeasuring
    WheelItems.layoutChildren
  | draw layout => WheelItems.onDraw layout

end ItemsEvent

/-- The rows an event leaves; `none` when an exception escaped it. -/
def WheelItems.step (st : WheelItems) (e : ItemsEvent) : Option WheelItems :=
  match e.callback st with
  | .ok _ st' => some st'
  | .error _ _ => none

end CameraClient
