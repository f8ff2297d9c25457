import Mathlib.Tactic.Common

/-! The data the activity exchanges with the camera server: the capture mode,
the settings it posts and the status it receives, with every field as optional
as the generated API classes make it. A `FullStatus` is a status none of whose
fields is missing; the camera's own state is one. -/
namespace CameraClient

inductive CaptureMode where
  | photo
  | video
  deriving DecidableEq, Repr

namespace CaptureMode

def value : CaptureMode → Int
  | photo => 0
  | video => 1

def values : List CaptureMode := [photo, video]

def fromValue (value : Int) : Option CaptureMode :=
  values.find? fun captureMode => captureMode.value == value

@[simp] theorem fromValue_value (m : CaptureMode) : fromValue m.value = some m := by
  cases m <;> rfl

end CaptureMode

inductive WheelId where
  | aperture
  | shutterSpeed
  | exposureMode
  | iso
  deriving DecidableEq, Repr

@[ext] structure PerWheel (α : Type) where
  aperture : α
  shutterSpeed : α
  exposureMode : α
  iso : α
  deriving DecidableEq, Repr

namespace PerWheel
variable {α β : Type}

def get (p : PerWheel α) : WheelId → α
  | .aperture => p.aperture
  | .shutterSpeed => p.shutterSpeed
  | .exposureMode => p.exposureMode
  | .iso => p.iso

def set (p : PerWheel α) (w : WheelId) (a : α) : PerWheel α :=
  match w with
  | .aperture => { p with aperture := a }
  | .shutterSpeed => { p with shutterSpeed := a }
  | .exposureMode => { p with exposureMode := a }
  | .iso => { p with iso := a }

def ofFun (f : WheelId → α) : PerWheel α :=
  ⟨f .aperture, f .shutterSpeed, f .exposureMode, f .iso⟩

@[simp] theorem get_set_self (p : PerWheel α) (w : WheelId) (a : α) : (p.set w a).get w = a := by
  cases w <;> rfl

@[simp] theorem get_set_ne (p : PerWheel α) {w v : WheelId} (h : v ≠ w) (a : α) :
    (p.set w a).get v = p.get v := by
  cases w <;> cases v <;> first | rfl | exact absurd rfl h

@[simp] theorem get_ofFun (f : WheelId → α) (w : WheelId) : (ofFun f).get w = f w := by
  cases w <;> rfl

@[simp] theorem set_get_self (p : PerWheel α) (w : WheelId) : p.set w (p.get w) = p := by
  cases w <;> rfl

end PerWheel

structure CameraSettings where
  captureMode : Option Int := none
  exposureMode : Option String := none
  aperture : Option String := none
  shutterSpeed : Option String := none
  iso : Option String := none
  isoAuto : Option Bool := none
  focusMetering : Option String := none
  focusMode : Option String := none
  deriving DecidableEq, Repr

def CameraSettings.fieldCount (s : CameraSettings) : Nat :=
  [s.captureMode.isSome, s.exposureMode.isSome, s.aperture.isSome, s.shutterSpeed.isSome,
    s.iso.isSome, s.isoAuto.isSome, s.focusMetering.isSome, s.focusMode.isSome].count true

/-- A decoded status. The focus fields are never read and are left out. -/
structure CameraStatus where
  captureMode : Option Int := none
  aperture : Option String := none
  apertures : Option (List (Option String)) := none
  exposureMode : Option String := none
  exposureModes : Option (List (Option String)) := none
  iso : Option String := none
  isos : Option (List (Option String)) := none
  isoAuto : Option Bool := none
  shutterSpeed : Option String := none
  shutterSpeeds : Option (List (Option String)) := none
  isInLiveView : Option Bool := none
  isRecording : Option Bool := none
  deriving DecidableEq, Repr

def ISO_AUTO : String := "AUTO"

/-- A fully populated status: the current value and the advertised list of
each wheel's setting, the three flags and one of the two known modes. -/
structure FullStatus where
  captureMode : CaptureMode
  values : PerWheel String
  lists : PerWheel (List String)
  isoAuto : Bool
  isInLiveView : Bool
  isRecording : Bool
  deriving DecidableEq, Repr

namespace FullStatus

def toCameraStatus (s : FullStatus) : CameraStatus where
  captureMode := some s.captureMode.value
  aperture := some s.values.aperture
  apertures := some (s.lists.aperture.map some)
  exposureMode := some s.values.exposureMode
  exposureModes := some (s.lists.exposureMode.map some)
  iso := some s.values.iso
  isos := some (s.lists.iso.map some)
  isoAuto := some s.isoAuto
  shutterSpeed := some s.values.shutterSpeed
  shutterSpeeds := some (s.lists.shutterSpeed.map some)
  isInLiveView := some s.isInLiveView
  isRecording := some s.isRecording

/-- What the activity remembers as the current value of a setting: the ISO
reads AUTO while auto ISO is on. -/
def shown (s : FullStatus) : WheelId → String
  | .iso => if s.isoAuto then ISO_AUTO else s.values.iso
  | w => s.values.get w

/-- The items a wheel offers for the status: the ISO wheel has AUTO in front. -/
def items (s : FullStatus) : WheelId → List String
  | .iso => ISO_AUTO :: s.lists.iso
  | w => s.lists.get w

/-- The server applies exactly the fields of the settings that are not null. -/
def applySettings (c : FullStatus) (s : CameraSettings) : FullStatus where
  captureMode := (s.captureMode.bind CaptureMode.fromValue).getD c.captureMode
  values := ⟨s.aperture.getD c.values.aperture, s.shutterSpeed.getD c.values.shutterSpeed,
    s.exposureMode.getD c.values.exposureMode, s.iso.getD c.values.iso⟩
  lists := c.lists
  isoAuto := s.isoAuto.getD c.isoAuto
  isInLiveView := c.isInLiveView
  isRecording := c.isRecording

end FullStatus

namespace CameraStatus

structure FullyPopulated (s : CameraStatus) : Prop where
  mode : ∃ n, s.captureMode = some n ∧ (CaptureMode.fromValue n).isSome
  aperture : s.aperture.isSome
  apertures : ∃ l : List String, s.apertures = some (l.map some)
  exposureMode : s.exposureMode.isSome
  exposureModes : ∃ l : List String, s.exposureModes = some (l.map some)
  iso : s.iso.isSome
  isos : ∃ l : List String, s.isos = some (l.map some)
  isoAuto : s.isoAuto.isSome
  shutterSpeed : s.shutterSpeed.isSome
  shutterSpeeds : ∃ l : List String, s.shutterSpeeds = some (l.map some)
  isInLiveView : s.isInLiveView.isSome
  isRecording : s.isRecording.isSome

end CameraStatus

theorem CaptureMode.value_of_fromValue {n : Int} {m : CaptureMode} (h : fromValue n = some m) :
    m.value = n := by
  have hm := List.find?_some h
  simpa using hm

theorem FullStatus.toCameraStatus_injective {s t : FullStatus}
    (h : s.toCameraStatus = t.toCameraStatus) : s = t := by
  have hmap (l l' : List String) : l.map some = l'.map some ↔ l = l' :=
    List.map_inj_right fun _ _ h => Option.some.inj h
  cases s with | mk m v l a i r =>
  cases t with | mk m' v' l' a' i' r' =>
  simp only [FullStatus.toCameraStatus, CameraStatus.mk.injEq, Option.some.injEq, hmap] at h
  obtain ⟨hm, ha, hal, he, hel, hi, hil, hau, hs, hsl, hl, hr⟩ := h
  have hmode : m = m' := by simpa [← hm] using CaptureMode.fromValue_value m'
  simp only [FullStatus.mk.injEq]
  exact ⟨hmode, PerWheel.ext ha hs he hi, PerWheel.ext hal hsl hel hil, hau, hl, hr⟩

theorem CameraStatus.fullyPopulated_iff (s : CameraStatus) :
    s.FullyPopulated ↔ ∃ f : FullStatus, f.toCameraStatus = s := by
  constructor
  · rintro ⟨⟨n, hn, hm⟩, ha, ⟨as, has⟩, he, ⟨es, hes⟩, hi, ⟨is, his⟩, hia, hs, ⟨ss, hss⟩, hl, hr⟩
    obtain ⟨m, hm⟩ := Option.isSome_iff_exists.mp hm
    have hv := CaptureMode.value_of_fromValue hm
    refine ⟨⟨m, ⟨s.aperture.get ha, s.shutterSpeed.get hs, s.exposureMode.get he, s.iso.get hi⟩,
      ⟨as, ss, es, is⟩, s.isoAuto.get hia, s.isInLiveView.get hl, s.isRecording.get hr⟩, ?_⟩
    simp [FullStatus.toCameraStatus, hv, ← hn, ← has, ← hes, ← his, ← hss]
  · rintro ⟨f, rfl⟩
    exact ⟨⟨_, rfl, by simp⟩, rfl, ⟨_, rfl⟩, rfl, ⟨_, rfl⟩, rfl, ⟨_, rfl⟩, rfl, rfl, ⟨_, rfl⟩, rfl, rfl⟩

end CameraClient
