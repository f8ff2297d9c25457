import CameraClient.Api

/-! The wheel widget: the adapter it shows, the item it is on and its scrolling
state. Drawing is left out. No caller makes a wheel cyclic, so `isCyclic` keeps
its initial value; the cyclic branches are kept as the source has them. -/
namespace CameraClient

inductive JavaException where
  | nullPointer
  | arithmetic
  deriving DecidableEq, Repr

/-- `ArrayWheelAdapter<String>` over its items, among them possibly null ones. -/
structure ArrayWheelAdapter where
  items : List (Option String)
  deriving DecidableEq, Repr

namespace ArrayWheelAdapter

def getItemsCount (a : ArrayWheelAdapter) : Int := a.items.length

def getItemText (a : ArrayWheelAdapter) (index : Int) : Except JavaException (Option String) :=
  if 0 ≤ index ∧ index < a.getItemsCount then
    -- a null item is no CharSequence, and `item.toString()` raises on it
    match a.items.getD index.toNat none with
    | some item => .ok (some item)
    | none => .error .nullPointer
  else .ok none

def ofTexts (texts : List String) : ArrayWheelAdapter := ⟨texts.map some⟩

@[simp] theorem getItemsCount_ofTexts (texts : List String) :
    (ofTexts texts).getItemsCount = texts.length := by
  simp [getItemsCount, ofTexts]

theorem getItemText_ofTexts {texts : List String} {i : Nat} {t : String}
    (h : texts[i]? = some t) : (ofTexts texts).getItemText i = .ok (some t) := by
  obtain ⟨hi, rfl⟩ := List.getElem?_eq_some_iff.mp h
  simp [getItemText, getItemsCount, ofTexts, hi]

end ArrayWheelAdapter

structure WheelView where
  viewAdapter : Option ArrayWheelAdapter := none
  currentItem : Int := 0
  scrollingOffset : Int := 0
  isScrollingPerformed : Bool := false
  deriving DecidableEq, Repr

/-- The measures of a laid out wheel, `getItemHeight()` and `getHeight()`. -/
structure Layout where
  itemHeight : Int
  height : Int
  deriving DecidableEq, Repr

namespace WheelView

def isCyclic : Bool := false

def isScrolling (v : WheelView) : Bool := v.isScrollingPerformed

def setViewAdapter (v : WheelView) (adapter : ArrayWheelAdapter) : WheelView :=
  { v with viewAdapter := some adapter, scrollingOffset := 0 }

/-- The index `setCurrentItem` goes on with, `none` where it returns at once.
The rotation loop of a cyclic wheel followed by `%` is the Euclidean remainder. -/
def checkedIndex (v : WheelView) (index : Int) : Option Int :=
  match v.viewAdapter with
  | none => none
  | some adapter =>
    let itemCount := adapter.getItemsCount
    if itemCount = 0 then none
    else if index < 0 ∨ index ≥ itemCount then
      if isCyclic then some (index % itemCount) else none
    else some index

/-- `setCurrentItem(index)`: the wheel afterwards and, when the item changed,
the old and new value its changing listeners are notified of. -/
def setCurrentItem (v : WheelView) (index : Int) : WheelView × Option (Int × Int) :=
  match v.checkedIndex index with
  | none => (v, none)
  | some index =>
    if index ≠ v.currentItem then
      ({ v with scrollingOffset := 0, currentItem := index }, some (v.currentItem, index))
    else (v, none)

/-- The position and the item count `doScroll` computes from the offset. -/
def scrollTarget (v : WheelView) (itemCount itemHeight : Int) : Int × Int :=
  let count := v.scrollingOffset.tdiv itemHeight
  let pos := v.currentItem - count
  let fixPos := v.scrollingOffset.tmod itemHeight
  let fixPos := if (fixPos.natAbs : Int) ≤ itemHeight.tdiv 2 then 0 else fixPos
  if isCyclic ∧ itemCount > 0 then
    let (pos, count) :=
      if fixPos > 0 then (pos - 1, count + 1)
      else if fixPos < 0 then (pos + 1, count - 1)
      else (pos, count)
    (pos % itemCount, count)
  else if pos < 0 then (0, v.currentItem)
  else if pos ≥ itemCount then (itemCount - 1, v.currentItem - itemCount + 1)
  else if pos > 0 ∧ fixPos > 0 then (pos - 1, count + 1)
  else if pos < itemCount - 1 ∧ fixPos < 0 then (pos + 1, count - 1)
  else (pos, count)

/-- The clamp `onScroll` applies after `doScroll`. -/
def clampOffset (height offset : Int) : Int :=
  if offset > height then height else if offset < -height then -height else offset

def onStarted (v : WheelView) : WheelView := { v with isScrollingPerformed := true }

/-- `onFinished` of the scrolling listener; no scrolling listener is registered. -/
def onFinished (v : WheelView) : WheelView :=
  { v with isScrollingPerformed := false, scrollingOffset := 0 }

def currentText (v : WheelView) : Option String :=
  match v.viewAdapter with
  | none => none
  | some adapter => if v.currentItem < 0 then none else (adapter.items[v.currentItem.toNat]?).join

def IndexValid (v : WheelView) : Prop :=
  ∀ adapter ∈ v.viewAdapter, adapter.items ≠ [] →
    0 ≤ v.currentItem ∧ v.currentItem < adapter.getItemsCount

@[simp] theorem isScrolling_setViewAdapter (v : WheelView) (a : ArrayWheelAdapter) :
    (v.setViewAdapter a).isScrolling = v.isScrolling := rfl

@[simp] theorem viewAdapter_setViewAdapter (v : WheelView) (a : ArrayWheelAdapter) :
    (v.setViewAdapter a).viewAdapter = some a := rfl

@[simp] theorem scrollingOffset_setViewAdapter (v : WheelView) (a : ArrayWheelAdapter) :
    (v.setViewAdapter a).scrollingOffset = 0 := rfl

theorem checkedIndex_eq_some {v : WheelView} {index i : Int} (h : v.checkedIndex index = some i) :
    i = index ∧ 0 ≤ i ∧ ∃ adapter, v.viewAdapter = some adapter ∧ i < adapter.getItemsCount := by
  unfold checkedIndex at h
  cases ha : v.viewAdapter with
  | none => simp [ha] at h
  | some adapter =>
    simp only [ha, isCyclic, Bool.false_eq_true, if_false] at h
    split_ifs at h with h0 hr
    simp only [Option.some.injEq] at h
    exact ⟨h.symm, by omega, adapter, rfl, by omega⟩

theorem checkedIndex_of_lt {v : WheelView} {adapter : ArrayWheelAdapter} {i : Int}
    (ha : v.viewAdapter = some adapter) (h0 : 0 ≤ i) (hi : i < adapter.getItemsCount) :
    v.checkedIndex i = some i := by
  simp only [checkedIndex, ha]
  rw [if_neg (by omega), if_neg (by omega)]

theorem checkedIndex_of_neg {v : WheelView} {i : Int} (h : i < 0) : v.checkedIndex i = none := by
  cases hc : v.checkedIndex i with
  | none => rfl
  | some j =>
    obtain ⟨rfl, h0, -⟩ := checkedIndex_eq_some hc
    omega

/-- `setCurrentItem` either leaves the wheel alone or moves it, with a
notification, to a valid index it was not on. -/
theorem setCurrentItem_cases (v : WheelView) (index : Int) :
    (v.setCurrentItem index = (v, none) ∧ (v.checkedIndex index = none ∨ index = v.currentItem)) ∨
    (v.checkedIndex index = some index ∧ index ≠ v.currentItem ∧
      v.setCurrentItem index = ({ v with scrollingOffset := 0, currentItem := index },
        some (v.currentItem, index))) := by
  unfold setCurrentItem
  cases hc : v.checkedIndex index with
  | none => exact .inl ⟨rfl, .inl rfl⟩
  | some i =>
    obtain ⟨rfl, -⟩ := checkedIndex_eq_some hc
    by_cases hi : i = v.currentItem
    · exact .inl ⟨by simp [hi], .inr hi⟩
    · exact .inr ⟨rfl, hi, by simp [hi]⟩

def load (v : WheelView) (texts : List String) (t : String) : WheelView :=
  if v.isScrolling ∨ t ∉ texts then v.setViewAdapter (.ofTexts texts)
  else { v.setViewAdapter (.ofTexts texts) with currentItem := texts.idxOf t }

@[simp] theorem viewAdapter_load (v : WheelView) (texts : List String) (t : String) :
    (v.load texts t).viewAdapter = some (.ofTexts texts) := by
  unfold load
  split_ifs <;> rfl

theorem currentItem_load (v : WheelView) (texts : List String) (t : String) :
    (v.load texts t).currentItem =
      if v.isScrolling ∨ t ∉ texts then v.currentItem else texts.idxOf t := by
  unfold load
  split_ifs <;> rfl

end WheelView

end CameraClient
