import CameraClient.Lib.Runs
import CameraClient.Lib.Pipeline
import CameraClient.MjpegView
import CameraClient.Panel

/-! The whole client with its camera: the UI thread, the thread of
`SERIAL_EXECUTOR`, the results posted back to the UI thread, the liveview
connections, the status websocket and the camera server. Every interleaving is
a list of events. A UI callback runs step by step, so that the background
thread can come in between, but no other callback starts before it has ended. -/
namespace CameraClient
open Runs

/-- The four checked exceptions of a request; the tasks wrap each in a `RuntimeException`. -/
inductive RequestException where
  | apiException
  | timeoutException
  | executionException
  | interruptedException
  deriving DecidableEq, Repr

inductive TaskResult where
  | capturePhoto
  | captureStart
  | captureStop
  | getCameraInfo
  | getCameraStatus (cameraStatus : CameraStatus)
  | liveviewStart
  | liveviewStop
  | postAutofocus
  | postSettings (cameraSettings : CameraSettings)
  deriving DecidableEq, Repr

inductive UiAction where
  | executeOnExecutor (task : Task)
  | loadLiveview
  | openWebsocket
  | updateStatus (cameraStatus : CameraStatus)
  | setCaptureMode (captureMode : Option CaptureMode)
  | setIsRecording (isRecording : Bool)
  deriving DecidableEq, Repr

inductive BackgroundAction where
  | stopLiveview
  | executeOnExecutor (task : Task)
  | request
  deriving DecidableEq, Repr

def readCameraInfo : List Task := [.getCameraInfo]

def refreshCameraStatus : List Task := [.getCameraInfo, .getCameraStatus]

def enableLiveview : List UiAction := .loadLiveview :: refreshCameraStatus.map .executeOnExecutor

/-- Runs on the background thread, before the request that stops the liveview. -/
def disableLiveview : List BackgroundAction :=
  .stopLiveview :: refreshCameraStatus.map .executeOnExecutor

/-- Every task makes one request; stopping the liveview does more before it. -/
def doInBackground : Task → List BackgroundAction
  | .liveviewStop => disableLiveview ++ [.request]
  | _ => [.request]

def onPostExecute : TaskResult → List UiAction
  | .captureStart => [.setIsRecording true]
  | .captureStop => [.setIsRecording false]
  | .getCameraStatus cameraStatus => [.updateStatus cameraStatus]
  | .liveviewStart => enableLiveview
  | .postSettings cameraSettings =>
    match cameraSettings.captureMode with
    | some value => [.setCaptureMode (CaptureMode.fromValue value)]
    | none => []
  | _ => []

inductive Control where
  | mRefreshButton
  | mCaptureButton
  | mCaptureModePhotoButton
  | mCaptureModeVideoButton
  | mContentView (x y : Int)
  deriving DecidableEq, Repr

def mRefreshButtonOnClick (a : FullscreenActivity) : List UiAction :=
  (readCameraInfo ++ refreshCameraStatus).map .executeOnExecutor ++
    (if a.mIsInLiveview then [.loadLiveview] else [])

/-- The task of the capture button; `switch (mCaptureMode)` raises on null. -/
def captureTask (a : FullscreenActivity) : Except JavaException Task :=
  if a.mIsInLiveview then
    match a.mCaptureMode with
    | none => .error .nullPointer
    | some .photo => .ok .capturePhoto
    | some .video => if a.mIsRecording then .ok .captureStop else .ok .captureStart
  else .ok .capturePhoto

def mCaptureButtonOnClick (a : FullscreenActivity) : Except JavaException (List UiAction) :=
  (captureTask a).map fun task => [.executeOnExecutor task]

def mCaptureModePhotoButtonOnClick (a : FullscreenActivity) : List UiAction :=
  (if a.mIsInLiveview ∧ a.mCaptureMode = some .photo then [.executeOnExecutor .liveviewStop]
    else if ¬ a.mIsInLiveview then [.executeOnExecutor .liveviewStart]
    else []) ++ [.executeOnExecutor (.postSettings { captureMode := some 0 })]

def mCaptureModeVideoButtonOnClick : List UiAction :=
  [.executeOnExecutor .liveviewStart, .executeOnExecutor (.postSettings { captureMode := some 1 })]

def onClick (a : FullscreenActivity) : Control → Except JavaException (List UiAction)
  | .mRefreshButton => .ok (mRefreshButtonOnClick a)
  | .mCaptureButton => mCaptureButtonOnClick a
  | .mCaptureModePhotoButton => .ok (mCaptureModePhotoButtonOnClick a)
  | .mCaptureModeVideoButton => .ok mCaptureModeVideoButtonOnClick
  | .mContentView x y => .ok [.executeOnExecutor (.postAutofocus x y)]

def onResume (a : FullscreenActivity) : List UiAction :=
  (readCameraInfo ++ refreshCameraStatus).map .executeOnExecutor ++
    (if a.mIsInLiveview then [.loadLiveview] else []) ++ [.openWebsocket]

def serve (camera : FullStatus) : Task → FullStatus
  | .captureStart => { camera with isRecording := true }
  | .captureStop => { camera with isRecording := false }
  | .liveviewStart => { camera with isInLiveView := true }
  | .liveviewStop => { camera with isInLiveView := false }
  | .postSettings cameraSettings => camera.applySettings cameraSettings
  | .capturePhoto | .getCameraInfo | .getCameraStatus | .postAutofocus _ _ => camera

def Task.acts : Task → Bool
  | .captureStart | .captureStop | .liveviewStart | .liveviewStop | .postSettings _ => true
  | .capturePhoto | .getCameraInfo | .getCameraStatus | .postAutofocus _ _ => false

/-- What a task returns when its request succeeded and left the camera as given: `statusGet`
answers with the whole of it. -/
def Task.result (camera : FullStatus) : Task → TaskResult
  | .capturePhoto => .capturePhoto
  | .captureStart => .captureStart
  | .captureStop => .captureStop
  | .getCameraInfo => .getCameraInfo
  | .getCameraStatus => .getCameraStatus camera.toCameraStatus
  | .liveviewStart => .liveviewStart
  | .liveviewStop => .liveviewStop
  | .postAutofocus _ _ => .postAutofocus
  | .postSettings cameraSettings => .postSettings cameraSettings

/-- A task on the background thread, with what is left of its `doInBackground`. -/
structure RunningTask where
  task : Task
  actions : List BackgroundAction
  isSuffix : actions <:+ doInBackground task
  deriving DecidableEq, Repr

/-- `callback` is what is left of the callback the UI thread is in, `running`
the task on the background thread, `pushes` the statuses sent on the websocket
and not yet applied. -/
structure App where
  state : UiState := {}
  callback : List UiAction := []
  running : Option RunningTask := none
  results : List TaskResult := []
  view : MjpegView := {}
  connecting : List Nat := []
  nextStream : Nat := 0
  sockets : Nat := 0
  pushes : List CameraStatus := []
  camera : FullStatus
  alive : Bool := true
  deriving DecidableEq, Repr

inductive Event where
  | press (control : Control)
  | resume
  | wheel (e : WheelEvent)
  | surfaceCreated
  | surfaceDestroyed
  /-- A liveview connection completes, or fails. -/
  | connected (stream : Nat)
  | connectionFailed (stream : Nat)
  /-- The oldest status on the websocket, or the oldest task result, reaches the UI thread. -/
  | push
  | deliver
  /-- The UI thread goes on with its callback. -/
  | proceed
  /-- The executor takes the next task, the task does its next step, its request ends. -/
  | start
  | background
  | request (outcome : Option RequestException)
  /-- Somebody else changes the camera; the server sends any other message. -/
  | cameraChanged (camera : FullStatus)
  | message (cameraStatus : CameraStatus)
  deriving DecidableEq, Repr

namespace App

/-- An exception that escapes a callback ends the process. -/
def perform (a : App) (x : Ui Unit) : App :=
  match x a.state with
  | .ok _ state => { a with state := state }
  | .error _ _ => { a with alive := false }

def loadLiveview (a : App) : App :=
  { a with connecting := a.connecting ++ [a.nextStream], nextStream := a.nextStream + 1 }

def openWebsocket (a : App) : App := { a with sockets := a.sockets + 1 }

def runUiAction (a : App) : UiAction → App
  | .executeOnExecutor task => a.perform (executeOnExecutor task)
  | .loadLiveview => a.loadLiveview
  | .openWebsocket => a.openWebsocket
  | .updateStatus cameraStatus => a.perform (updateStatus cameraStatus)
  | .setCaptureMode captureMode => a.perform (setCaptureMode captureMode)
  | .setIsRecording isRecording => a.perform (setIsRecording isRecording)

def click (a : App) (control : Control) : App :=
  match onClick a.state.activity control with
  | .ok callback => { a with callback := callback }
  | .error _ => { a with alive := false }

/-- `scheduleNext` of the serial executor. -/
def startNext (a : App) (task : Task) (tasks : List Task) : App :=
  { a with
    state := { a.state with tasks := tasks }
    running := some ⟨task, doInBackground task, List.suffix_rfl⟩ }

def runBackgroundAction (a : App) : BackgroundAction → App
  | .stopLiveview => { a with view := a.view.stopPlayback }
  | .executeOnExecutor task => { a with state := { a.state with tasks := a.state.tasks ++ [task] } }
  | .request => a

/-- The status the server pushes, counted once; the copies on further websockets are messages
like any other. -/
def announce (camera : FullStatus) (task : Task) : List CameraStatus :=
  if task.acts then [camera.toCameraStatus] else []

def succeed (a : App) (task : Task) : App :=
  { a with
    camera := serve a.camera task
    running := none
    results := a.results ++ [task.result (serve a.camera task)]
    pushes := a.pushes ++ announce (serve a.camera task) task }

/-- No `doInBackground` catches what it throws, and that ends the process. -/
def endRequest (a : App) (task : Task) : Option RequestException → App
  | none => a.succeed task
  | some _ => { a with running := none, alive := false }

/-- The task whose request is what the background thread does next. -/
def requesting (a : App) : Option Task :=
  match a.running with
  | some ⟨task, [.request], _⟩ => some task
  | _ => none

def onUiThread (a b : App) : Option App := if a.alive ∧ a.callback = [] then some b else none

def ifAlive (a b : App) : Option App := if a.alive then some b else none

def step (a : App) : Event → Option App
  | .press control => a.onUiThread (a.click control)
  | .resume => a.onUiThread { a with callback := onResume a.state.activity }
  | .wheel e => if e.Enabled a.state then a.onUiThread (a.perform e.callback) else none
  | .surfaceCreated => a.onUiThread { a with view := a.view.surfaceCreated }
  | .surfaceDestroyed => a.onUiThread { a with view := a.view.surfaceDestroyed }
  | .connected stream =>
    if stream ∈ a.connecting then
      a.onUiThread { a with
        connecting := a.connecting.erase stream, view := a.view.setSource stream }
    else none
  | .connectionFailed stream =>
    if stream ∈ a.connecting then
      a.onUiThread { a with connecting := a.connecting.erase stream }
    else none
  | .push =>
    match a.pushes with
    | cameraStatus :: pushes =>
      a.onUiThread ({ a with pushes := pushes }.perform (updateStatus cameraStatus))
    | [] => none
  | .deliver =>
    match a.results with
    | result :: results =>
      a.onUiThread { a with results := results, callback := onPostExecute result }
    | [] => none
  | .proceed =>
    match a.callback with
    | action :: callback => a.ifAlive ({ a with callback := callback }.runUiAction action)
    | [] => none
  | .start =>
    match a.running, a.state.tasks with
    | none, task :: tasks => a.ifAlive (a.startNext task tasks)
    | _, _ => none
  | .background =>
    match a.running with
    | some ⟨task, action :: actions, isSuffix⟩ =>
      if actions = [] then none
      else a.ifAlive ({ a with
        running := some ⟨task, actions, (List.suffix_cons action actions).trans isSuffix⟩
        }.runBackgroundAction action)
    | _ => none
  | .request outcome =>
    match a.requesting with
    | some task => a.ifAlive (a.endRequest task outcome)
    | none => none
  | .cameraChanged camera =>
    a.ifAlive { a with camera := camera, pushes := a.pushes ++ [camera.toCameraStatus] }
  | .message cameraStatus => a.ifAlive { a with pushes := a.pushes ++ [cameraStatus] }

variable {a b : App}

theorem onUiThread_eq_some {c : App} :
    a.onUiThread b = some c ↔ (a.alive ∧ a.callback = []) ∧ b = c := by
  simp [onUiThread]

theorem ifAlive_eq_some {c : App} : a.ifAlive b = some c ↔ a.alive ∧ b = c := by
  simp [ifAlive]

theorem step_press {control : Control} : step a (.press control) = some b ↔
    (a.alive ∧ a.callback = []) ∧ a.click control = b := onUiThread_eq_some

theorem step_resume : step a .resume = some b ↔ (a.alive ∧ a.callback = []) ∧
    { a with callback := onResume a.state.activity } = b := onUiThread_eq_some

theorem step_wheel {e : WheelEvent} : step a (.wheel e) = some b ↔
    e.Enabled a.state ∧ (a.alive ∧ a.callback = []) ∧ a.perform e.callback = b := by
  by_cases he : e.Enabled a.state <;> simp [step, he, onUiThread_eq_some]

theorem step_surfaceCreated : step a .surfaceCreated = some b ↔ (a.alive ∧ a.callback = []) ∧
    { a with view := a.view.surfaceCreated } = b := onUiThread_eq_some

theorem step_surfaceDestroyed : step a .surfaceDestroyed = some b ↔ (a.alive ∧ a.callback = []) ∧
    { a with view := a.view.surfaceDestroyed } = b := onUiThread_eq_some

theorem step_connected {k : Nat} : step a (.connected k) = some b ↔
    k ∈ a.connecting ∧ (a.alive ∧ a.callback = []) ∧
    { a with connecting := a.connecting.erase k, view := a.view.setSource k } = b := by
  by_cases hk : k ∈ a.connecting <;> simp [step, hk, onUiThread_eq_some]

theorem step_connectionFailed {k : Nat} : step a (.connectionFailed k) = some b ↔
    k ∈ a.connecting ∧ (a.alive ∧ a.callback = []) ∧
    { a with connecting := a.connecting.erase k } = b := by
  by_cases hk : k ∈ a.connecting <;> simp [step, hk, onUiThread_eq_some]

theorem step_push : step a .push = some b ↔ ∃ cameraStatus pushes,
    a.pushes = cameraStatus :: pushes ∧ (a.alive ∧ a.callback = []) ∧
    { a with pushes := pushes }.perform (updateStatus cameraStatus) = b := by
  cases hp : a.pushes <;> simp [step, hp, onUiThread_eq_some]

theorem step_deliver : step a .deliver = some b ↔ ∃ result results,
    a.results = result :: results ∧ (a.alive ∧ a.callback = []) ∧
    { a with results := results, callback := onPostExecute result } = b := by
  cases hr : a.results <;> simp [step, hr, onUiThread_eq_some]

theorem step_proceed : step a .proceed = some b ↔ ∃ action callback,
    a.callback = action :: callback ∧ a.alive ∧
    { a with callback := callback }.runUiAction action = b := by
  cases hc : a.callback <;> simp [step, hc, ifAlive_eq_some]

theorem step_start : step a .start = some b ↔ ∃ task tasks, a.running = none ∧
    a.state.tasks = task :: tasks ∧ a.alive ∧ a.startNext task tasks = b := by
  cases hr : a.running <;> cases ht : a.state.tasks <;> simp [step, hr, ht, ifAlive_eq_some]

theorem step_background : step a .background = some b ↔ ∃ task action actions isSuffix,
    a.running = some ⟨task, action :: actions, isSuffix⟩ ∧ actions ≠ [] ∧ a.alive ∧
    { a with running := some ⟨task, actions, (List.suffix_cons action actions).trans isSuffix⟩
      }.runBackgroundAction action = b := by
  rcases hr : a.running with _ | ⟨task, _ | ⟨action, actions⟩, hs⟩
  · simp [step, hr]
  · simp [step, hr]
  · by_cases ha : actions = []
    · simp [step, hr, ha]
    · simp only [step, hr, if_neg ha, ifAlive_eq_some]
      constructor
      · rintro ⟨hl, hb⟩
        exact ⟨task, action, actions, hs, rfl, ha, hl, hb⟩
      · rintro ⟨_, _, _, _, he, -, hl, hb⟩
        cases he
        exact ⟨hl, hb⟩

theorem step_request {outcome : Option RequestException} : step a (.request outcome) = some b ↔
    ∃ task, a.requesting = some task ∧ a.alive ∧ a.endRequest task outcome = b := by
  cases hr : a.requesting <;> simp [step, hr, ifAlive_eq_some]

theorem step_cameraChanged {camera : FullStatus} : step a (.cameraChanged camera) = some b ↔
    a.alive ∧ { a with camera := camera, pushes := a.pushes ++ [camera.toCameraStatus] } = b :=
  ifAlive_eq_some

theorem step_message {cameraStatus : CameraStatus} : step a (.message cameraStatus) = some b ↔
    a.alive ∧ { a with pushes := a.pushes ++ [cameraStatus] } = b := ifAlive_eq_some

theorem step_dead (h : a.alive = false) (e : Event) : step a e = none := by
  cases hs : step a e with
  | none => rfl
  | some b =>
    have ha : a.alive = true := by
      cases e with
      | press control => exact (step_press.mp hs).1.1
      | resume => exact (step_resume.mp hs).1.1
      | wheel e => exact (step_wheel.mp hs).2.1.1
      | surfaceCreated => exact (step_surfaceCreated.mp hs).1.1
      | surfaceDestroyed => exact (step_surfaceDestroyed.mp hs).1.1
      | connected k => exact (step_connected.mp hs).2.1.1
      | connectionFailed k => exact (step_connectionFailed.mp hs).2.1.1
      | push =>
        obtain ⟨_, _, -, ha, -⟩ := step_push.mp hs
        exact ha.1
      | deliver =>
        obtain ⟨_, _, -, ha, -⟩ := step_deliver.mp hs
        exact ha.1
      | proceed =>
        obtain ⟨_, _, -, ha, -⟩ := step_proceed.mp hs
        exact ha
      | start =>
        obtain ⟨_, _, -, -, ha, -⟩ := step_start.mp hs
        exact ha
      | background =>
        obtain ⟨_, _, _, _, -, -, ha, -⟩ := step_background.mp hs
        exact ha
      | request outcome =>
        obtain ⟨_, -, ha, -⟩ := step_request.mp hs
        exact ha
      | cameraChanged camera => exact (step_cameraChanged.mp hs).1
      | message s => exact (step_message.mp hs).1
    simp [h] at ha

theorem perform_ok {x : Ui Unit} {state : UiState} (h : x a.state = .ok () state) :
    a.perform x = { a with state := state } := by
  simp [perform, h]

theorem perform_cases (a : App) (x : Ui Unit) :
    (∃ state, x a.state = .ok () state ∧ a.perform x = { a with state := state }) ∨
    a.perform x = { a with alive := false } := by
  cases hx : x a.state with
  | ok u state => exact .inl ⟨state, rfl, perform_ok hx⟩
  | error e state => exact .inr (by simp [perform, hx])

theorem perform_frame {β : Type} (f : App → β) (a : App) (x : Ui Unit)
    (hf : ∀ state alive, f { a with state := state, alive := alive } = f a) :
    f (a.perform x) = f a := by
  rcases a.perform_cases x with ⟨state, -, h⟩ | h
  · rw [h]
    exact hf state a.alive
  · rw [h]
    exact hf a.state false

theorem click_cases (a : App) (control : Control) :
    (∃ callback, onClick a.state.activity control = .ok callback ∧
      a.click control = { a with callback := callback }) ∨
    a.click control = { a with alive := false } := by
  cases hx : onClick a.state.activity control with
  | ok callback => exact .inl ⟨callback, rfl, by simp [click, hx]⟩
  | error e => exact .inr (by simp [click, hx])

def viewAfter (a : App) : Event → MjpegView
  | .connected stream => a.view.setSource stream
  | .surfaceCreated => a.view.surfaceCreated
  | .surfaceDestroyed => a.view.surfaceDestroyed
  | .background =>
    match a.running with
    | some ⟨_, .stopLiveview :: _, _⟩ => a.view.stopPlayback
    | _ => a.view
  | _ => a.view

def connectingAfter (a : App) : Event → List Nat
  | .connected stream => a.connecting.erase stream
  | .connectionFailed stream => a.connecting.erase stream
  | .proceed =>
    match a.callback with
    | .loadLiveview :: _ => a.connecting ++ [a.nextStream]
    | _ => a.connecting
  | _ => a.connecting

def socketsAfter (a : App) : Event → Nat
  | .proceed =>
    match a.callback with
    | .openWebsocket :: _ => a.sockets + 1
    | _ => a.sockets
  | _ => a.sockets

def connections (a : App) : MjpegView × List Nat × Nat := (a.view, a.connecting, a.sockets)

theorem perform_connections (a : App) (x : Ui Unit) :
    (a.perform x).connections = a.connections :=
  perform_frame connections a x fun _ _ => rfl

/-- Only completed and failed connections, the surface, `stopLiveview` and the
two callback steps that open a connection touch the connections. -/
theorem step_connections {e : Event} (h : step a e = some b) :
    b.connections = (a.viewAfter e, a.connectingAfter e, a.socketsAfter e) := by
  cases e with
  | press control =>
    obtain ⟨-, rfl⟩ := step_press.mp h
    rcases a.click_cases control with ⟨_, _, hc⟩ | hc
    · rw [hc]
      rfl
    · rw [hc]
      rfl
  | resume =>
    obtain ⟨-, rfl⟩ := step_resume.mp h
    rfl
  | wheel e =>
    obtain ⟨-, -, rfl⟩ := step_wheel.mp h
    exact perform_connections _ _
  | surfaceCreated =>
    obtain ⟨-, rfl⟩ := step_surfaceCreated.mp h
    rfl
  | surfaceDestroyed =>
    obtain ⟨-, rfl⟩ := step_surfaceDestroyed.mp h
    rfl
  | connected k =>
    obtain ⟨-, -, rfl⟩ := step_connected.mp h
    rfl
  | connectionFailed k =>
    obtain ⟨-, -, rfl⟩ := step_connectionFailed.mp h
    rfl
  | push =>
    obtain ⟨s, pushes, -, -, rfl⟩ := step_push.mp h
    exact perform_connections _ _
  | deliver =>
    obtain ⟨r, results, -, -, rfl⟩ := step_deliver.mp h
    rfl
  | proceed =>
    obtain ⟨action, callback, hc, -, rfl⟩ := step_proceed.mp h
    cases action with
    | loadLiveview => simp [connections, viewAfter, connectingAfter, socketsAfter, hc, runUiAction,
        loadLiveview]
    | openWebsocket => simp [connections, viewAfter, connectingAfter, socketsAfter, hc, runUiAction,
        openWebsocket]
    | _ =>
      simp only [viewAfter, connectingAfter, socketsAfter, hc, runUiAction]
      exact perform_connections _ _
  | start =>
    obtain ⟨task, tasks, -, -, -, rfl⟩ := step_start.mp h
    rfl
  | background =>
    obtain ⟨task, action, actions, _, hr, -, -, rfl⟩ := step_background.mp h
    cases action <;>
      simp [connections, viewAfter, connectingAfter, socketsAfter, hr, runBackgroundAction]
  | request outcome =>
    obtain ⟨task, -, -, rfl⟩ := step_request.mp h
    cases outcome <;> rfl
  | cameraChanged camera =>
    obtain ⟨-, rfl⟩ := step_cameraChanged.mp h
    rfl
  | message s =>
    obtain ⟨-, rfl⟩ := step_message.mp h
    rfl

theorem step_view {e : Event} (h : step a e = some b) : b.view = a.viewAfter e :=
  congrArg Prod.fst (step_connections h)

theorem step_connecting {e : Event} (h : step a e = some b) :
    b.connecting = a.connectingAfter e :=
  congrArg (fun c => c.2.1) (step_connections h)

theorem step_sockets {e : Event} (h : step a e = some b) : b.sockets = a.socketsAfter e :=
  congrArg (fun c => c.2.2) (step_connections h)

theorem requesting_eq_some {task : Task} (h : a.requesting = some task) :
    ∃ hs, a.running = some ⟨task, [.request], hs⟩ := by
  unfold requesting at h
  split at h
  · next hr =>
    cases h
    exact ⟨_, hr⟩
  · cases h

theorem step_running {e : Event} (hs : e ≠ .start) (hb : e ≠ .background)
    (hr : ∀ outcome, e ≠ .request outcome) (h : step a e = some b) : b.running = a.running := by
  have hperform (c : App) (x : Ui Unit) : (c.perform x).running = c.running :=
    perform_frame App.running c x fun _ _ => rfl
  cases e with
  | press control =>
    obtain ⟨-, rfl⟩ := step_press.mp h
    rcases a.click_cases control with ⟨callback, -, hp⟩ | hp
    · rw [hp]
    · rw [hp]
  | resume =>
    obtain ⟨-, rfl⟩ := step_resume.mp h
    rfl
  | wheel w =>
    obtain ⟨-, -, rfl⟩ := step_wheel.mp h
    exact hperform a w.callback
  | surfaceCreated =>
    obtain ⟨-, rfl⟩ := step_surfaceCreated.mp h
    rfl
  | surfaceDestroyed =>
    obtain ⟨-, rfl⟩ := step_surfaceDestroyed.mp h
    rfl
  | connected k =>
    obtain ⟨-, -, rfl⟩ := step_connected.mp h
    rfl
  | connectionFailed k =>
    obtain ⟨-, -, rfl⟩ := step_connectionFailed.mp h
    rfl
  | push =>
    obtain ⟨s, pushes, -, -, rfl⟩ := step_push.mp h
    exact hperform _ _
  | deliver =>
    obtain ⟨r, results, -, -, rfl⟩ := step_deliver.mp h
    rfl
  | proceed =>
    obtain ⟨action, callback, -, -, rfl⟩ := step_proceed.mp h
    cases action with
    | loadLiveview => rfl
    | openWebsocket => rfl
    | _ => exact hperform _ _
  | start => exact absurd rfl hs
  | background => exact absurd rfl hb
  | request outcome => exact absurd rfl (hr outcome)
  | cameraChanged camera =>
    obtain ⟨-, rfl⟩ := step_cameraChanged.mp h
    rfl
  | message s =>
    obtain ⟨-, rfl⟩ := step_message.mp h
    rfl

end App

end CameraClient
