import CameraClient.WheelView

/-! `FullscreenActivity` on the UI thread: the fields it remembers, its wheels
with their changing listeners, and `updateStatus`. A callback is a state
transformer that may raise; what it wrote before raising stays written.
The equations at the end run such callbacks. -/
namespace CameraClient

inductive Task where
  | capturePhoto
  | captureStart
  | captureStop
  | getCameraInfo
  | getCameraStatus
  | liveviewStart
  | liveviewStop
  | postAutofocus (x y : Int)
  | postSettings (cameraSettings : CameraSettings)
  deriving DecidableEq, Repr

/-- `remembered` holds mAperture, mShutterSpeed, mExposureMode and mIso. -/
structure FullscreenActivity where
  mCaptureMode : Option CaptureMode := none
  mIsRecording : Bool := false
  mIsInLiveview : Bool := false
  remembered : PerWheel (Option String) := ⟨none, none, none, none⟩
  wheels : PerWheel WheelView := ⟨{}, {}, {}, {}⟩
  deriving DecidableEq, Repr

/-- What a UI callback reads and writes: the activity and the tasks waiting in
`SERIAL_EXECUTOR`. -/
structure UiState where
  activity : FullscreenActivity := {}
  tasks : List Task := []
  deriving DecidableEq, Repr

abbrev Ui := EStateM JavaException UiState

def UiState.wheel (st : UiState) (w : WheelId) : WheelView := st.activity.wheels.get w

def UiState.setWheel (st : UiState) (w : WheelId) (v : WheelView) : UiState :=
  { st with activity := { st.activity with wheels := st.activity.wheels.set w v } }

def unbox {α : Type} : Option α → Ui α
  | some a => pure a
  | none => throw .nullPointer

def executeOnExecutor (task : Task) : Ui Unit :=
  modify fun st => { st with tasks := st.tasks ++ [task] }

def applyCameraSettings (cameraSettings : CameraSettings) : Ui Unit :=
  executeOnExecutor (.postSettings cameraSettings)

def stringValueOf : Option String → String
  | some text => text
  | none => "null"

def itemText (adapter : ArrayWheelAdapter) (index : Int) : Ui String :=
  match adapter.getItemText index with
  | .ok text => pure (stringValueOf text)
  | .error e => throw e

/-- The body the four changing listeners share: post the new item's text unless
it is the value remembered from the last status. -/
def onWheelChanged (w : WheelId) (settings : String → CameraSettings) (newValue : Int) :
    Ui Unit := do
  let adapter ← unbox ((← get).wheel w).viewAdapter
  let newText ← itemText adapter newValue
  unless (← get).activity.remembered.get w = some newText do
    applyCameraSettings (settings newText)

def apertureSettings (newAperture : String) : CameraSettings := { aperture := some newAperture }

def shutterSpeedSettings (newShutterSpeed : String) : CameraSettings :=
  { shutterSpeed := some newShutterSpeed }

def exposureModeSettings (newExposureMode : String) : CameraSettings :=
  { exposureMode := some newExposureMode }

def isoSettings (newIso : String) : CameraSettings :=
  if newIso = ISO_AUTO then { isoAuto := some true } else { iso := some newIso }

/-- The settings a wheel's listener posts for an item. -/
def settingsFor : WheelId → String → CameraSettings
  | .aperture => apertureSettings
  | .shutterSpeed => shutterSpeedSettings
  | .exposureMode => exposureModeSettings
  | .iso => isoSettings

def apertureWheelChanged : Int → Ui Unit := onWheelChanged .aperture apertureSettings
def shutterSpeedWheelChanged : Int → Ui Unit := onWheelChanged .shutterSpeed shutterSpeedSettings
def exposureModeWheelChanged : Int → Ui Unit := onWheelChanged .exposureMode exposureModeSettings
def isoWheelChanged : Int → Ui Unit := onWheelChanged .iso isoSettings

/-- The one changing listener `onCreate` registers on each wheel. -/
def onChanged : WheelId → Int → Ui Unit
  | .aperture => apertureWheelChanged
  | .shutterSpeed => shutterSpeedWheelChanged
  | .exposureMode => exposureModeWheelChanged
  | .iso => isoWheelChanged

/-- `setCurrentItem(index)` on one of the activity's wheels, which notifies its listener. -/
def setCurrentItem (w : WheelId) (index : Int) : Ui Unit := do
  let st ← get
  match (st.wheel w).setCurrentItem index with
  | (_, none) => pure ()
  | (v, some (_, newValue)) =>
    set (st.setWheel w v)
    onChanged w newValue

def setViewAdapter (w : WheelId) (adapter : ArrayWheelAdapter) : Ui Unit :=
  modify fun st => st.setWheel w ((st.wheel w).setViewAdapter adapter)

def indexOf (items : List (Option String)) (value : Option String) : Int :=
  if value ∈ items then items.idxOf value else -1

def loadWheel (w : WheelId) (items : Option (List (Option String))) (value : Option String) :
    Ui Unit := do
  let items ← unbox items
  setViewAdapter w ⟨items⟩
  unless ((← get).wheel w).isScrolling do
    setCurrentItem w (indexOf items value)

def loadShutterSpeeds (cameraStatus : CameraStatus) : Ui Unit :=
  loadWheel .shutterSpeed cameraStatus.shutterSpeeds cameraStatus.shutterSpeed

def loadApertures (cameraStatus : CameraStatus) : Ui Unit :=
  loadWheel .aperture cameraStatus.apertures cameraStatus.aperture

def loadExposureModes (cameraStatus : CameraStatus) : Ui Unit :=
  loadWheel .exposureMode cameraStatus.exposureModes cameraStatus.exposureMode

/-- Unlike the other three, leaves the old list installed while the wheel scrolls. -/
def loadIsos (cameraStatus : CameraStatus) : Ui Unit := do
  let isos := some ISO_AUTO :: (← unbox cameraStatus.isos)
  unless ((← get).wheel .iso).isScrolling do
    setViewAdapter .iso ⟨isos⟩
    if cameraStatus.isoAuto = some true then
      setCurrentItem .iso 0
    else
      setCurrentItem .iso (indexOf isos cameraStatus.iso)

def setRemembered (w : WheelId) (value : Option String) : Ui Unit :=
  modify fun st =>
    { st with activity := { st.activity with remembered := st.activity.remembered.set w value } }

/-- The switch dereferences the new mode; its two cases are empty. -/
def setCaptureMode (captureMode : Option CaptureMode) : Ui Unit := do
  unless captureMode = (← get).activity.mCaptureMode do
    modify fun st => { st with activity := { st.activity with mCaptureMode := captureMode } }
    discard (unbox captureMode)

def setIsRecording (isRecording : Bool) : Ui Unit :=
  modify fun st => { st with activity := { st.activity with mIsRecording := isRecording } }

def setIsInLiveview (isInLiveview : Bool) : Ui Unit :=
  modify fun st => { st with activity := { st.activity with mIsInLiveview := isInLiveview } }

def updateStatus (cameraStatus : CameraStatus) : Ui Unit := do
  setRemembered .aperture cameraStatus.aperture
  setRemembered .shutterSpeed cameraStatus.shutterSpeed
  setRemembered .exposureMode cameraStatus.exposureMode
  setRemembered .iso cameraStatus.iso
  if ← unbox cameraStatus.isoAuto then
    setRemembered .iso (some ISO_AUTO)
  loadApertures cameraStatus
  loadShutterSpeeds cameraStatus
  loadExposureModes cameraStatus
  loadIsos cameraStatus
  setCaptureMode (CaptureMode.fromValue (← unbox cameraStatus.captureMode))
  setIsInLiveview (← unbox cameraStatus.isInLiveView)

def setScrollingOffset (w : WheelId) (offset : Int) : Ui Unit :=
  modify fun st => st.setWheel w { st.wheel w with scrollingOffset := offset }

def divisor (n : Int) : Ui Int := if n = 0 then throw .arithmetic else pure n

/-- The last statement of `doScroll`. -/
def wrapScrollingOffset (w : WheelId) (height : Int) : Ui Unit := do
  let st ← get
  if (st.wheel w).scrollingOffset > height then
    let height ← divisor height
    setScrollingOffset w ((st.wheel w).scrollingOffset.tmod height + height)

/-- `if (pos != currentItem) setCurrentItem(pos)`. -/
def scrollToItem (w : WheelId) (pos : Int) : Ui Unit := do
  let st ← get
  if pos = (st.wheel w).currentItem then pure () else setCurrentItem w pos

def doScroll (w : WheelId) (layout : Layout) (delta : Int) : Ui Unit := do
  modify fun st =>
    st.setWheel w { st.wheel w with scrollingOffset := (st.wheel w).scrollingOffset + delta }
  let v := (← get).wheel w
  let itemHeight ← divisor layout.itemHeight
  let adapter ← unbox v.viewAdapter
  let (pos, count) := v.scrollTarget adapter.getItemsCount itemHeight
  scrollToItem w pos
  setScrollingOffset w (v.scrollingOffset - count * itemHeight)
  wrapScrollingOffset w layout.height

/-- `onScroll` of the scrolling listener. -/
def onScroll (w : WheelId) (layout : Layout) (distance : Int) : Ui Unit := do
  doScroll w layout distance
  modify fun st => st.setWheel w
    { st.wheel w with
      scrollingOffset := WheelView.clampOffset layout.height (st.wheel w).scrollingOffset }

def onScrollStarted (w : WheelId) : Ui Unit :=
  modify fun st => st.setWheel w (st.wheel w).onStarted

def onScrollFinished (w : WheelId) : Ui Unit :=
  modify fun st => st.setWheel w (st.wheel w).onFinished

namespace Ui
variable {α β : Type}

@[simp] theorem pure_apply (a : α) (st : UiState) : (pure a : Ui α) st = .ok a st := rfl
@[simp] theorem get_apply (st : UiState) : (get : Ui UiState) st = .ok st st := rfl
@[simp] theorem set_apply (st' st : UiState) : (set st' : Ui PUnit) st = .ok ⟨⟩ st' := rfl
@[simp] theorem modify_apply (f : UiState → UiState) (st : UiState) :
    (modify f : Ui PUnit) st = .ok ⟨⟩ (f st) := rfl
@[simp] theorem throw_apply (e : JavaException) (st : UiState) :
    (throw e : Ui α) st = .error e st := rfl
@[simp] theorem unbox_some (a : α) (st : UiState) : unbox (some a) st = .ok a st := rfl
@[simp] theorem unbox_none (st : UiState) : (unbox none : Ui α) st = .error .nullPointer st := rfl
@[simp] theorem discard_apply (x : Ui α) (st : UiState) :
    discard x st = match x st with | .ok _ s => .ok ⟨⟩ s | .error e s => .error e s := by
  cases h : x st <;> simp [discard, Functor.discard, Functor.mapConst, EStateM.map, h]

@[simp] theorem bind_apply (x : Ui α) (f : α → Ui β) (st : UiState) :
    (x >>= f) st = match x st with | .ok a s => f a s | .error e s => .error e s := by
  cases h : x st <;> simp [bind, EStateM.bind, h]
theorem bind_ok {x : Ui α} {f : α → Ui β} {st st' : UiState} {a : α} (h : x st = .ok a st') :
    (x >>= f) st = f a st' := by
  simp [h]
theorem bind_eq_ok {x : Ui α} {f : α → Ui β} {st st' : UiState} {b : β} :
    (x >>= f) st = .ok b st' ↔ ∃ a s, x st = .ok a s ∧ f a s = .ok b st' := by
  rw [bind_apply]
  cases x st <;> simp

end Ui

namespace UiState
variable (st : UiState) (w : WheelId) (v v' : WheelView)

@[simp] theorem wheel_setWheel_self : (st.setWheel w v).wheel w = v := by
  simp [wheel, setWheel]

@[simp] theorem wheel_setWheel_ne {u : WheelId} (h : u ≠ w) :
    (st.setWheel w v).wheel u = st.wheel u := by
  simp [wheel, setWheel, h]

@[simp] theorem setWheel_setWheel : (st.setWheel w v).setWheel w v' = st.setWheel w v' := by
  cases w <;> rfl

@[simp] theorem setWheel_wheel : st.setWheel w (st.wheel w) = st := by
  simp [wheel, setWheel]

theorem setWheel_tasks (ts : List Task) :
    ({ st with tasks := ts } : UiState).setWheel w v = { st.setWheel w v with tasks := ts } := rfl

theorem wheel_tasks (ts : List Task) : ({ st with tasks := ts } : UiState).wheel w = st.wheel w := rfl

@[simp] theorem tasks_setWheel : (st.setWheel w v).tasks = st.tasks := rfl

@[simp] theorem remembered_setWheel :
    (st.setWheel w v).activity.remembered = st.activity.remembered := rfl

end UiState

end CameraClient
