import Mathlib.Tactic.Common

/-! `MjpegViewDefault` as the owner of connections and threads: the stream it
reads, the streams handed to it and not closed since, and its reader threads.
The constructor sets `resume`, so `setSource` always resumes playback. -/
namespace CameraClient

/-- Streams are numbered; `thread` counts in `readers` once it is started. -/
structure MjpegView where
  mIn : Option Nat := none
  mRun : Bool := false
  surfaceDone : Bool := false
  unclosed : List Nat := []
  readers : Nat := 0
  deriving DecidableEq, Repr

namespace MjpegView

def isStreaming (v : MjpegView) : Bool := v.mRun

def resumePlayback (v : MjpegView) : MjpegView :=
  { v with mRun := true, readers := v.readers + 1 }

/-- An earlier reader is not ended and an earlier stream is not closed. -/
def setSource (v : MjpegView) (source : Nat) : MjpegView :=
  { v with mIn := some source, unclosed := v.unclosed ++ [source] }.resumePlayback

/-- Ends the readers and closes the current stream only. -/
def stopPlayback (v : MjpegView) : MjpegView :=
  { v with
    mRun := false
    readers := 0
    unclosed := match v.mIn with
      | some stream => v.unclosed.filter (· ≠ stream)
      | none => v.unclosed
    mIn := none }

def surfaceCreated (v : MjpegView) : MjpegView := { v with surfaceDone := true }

def surfaceDestroyed (v : MjpegView) : MjpegView := { v with surfaceDone := false }.stopPlayback

@[simp] theorem isStreaming_setSource (v : MjpegView) (k : Nat) :
    (v.setSource k).isStreaming = true := rfl

@[simp] theorem isStreaming_stopPlayback (v : MjpegView) : v.stopPlayback.isStreaming = false := rfl

@[simp] theorem isStreaming_surfaceCreated (v : MjpegView) :
    v.surfaceCreated.isStreaming = v.isStreaming := rfl

@[simp] theorem isStreaming_surfaceDestroyed (v : MjpegView) :
    v.surfaceDestroyed.isStreaming = false := rfl

/-- Nothing is open and nothing runs while the view is stopped; otherwise there
is one reader, on the only stream that is open. -/
def Tidy (v : MjpegView) : Prop :=
  (v.isStreaming = false ∧ v.mIn = none ∧ v.unclosed = [] ∧ v.readers = 0) ∨
  (v.isStreaming = true ∧ ∃ stream, v.mIn = some stream ∧ v.unclosed = [stream] ∧ v.readers = 1)

theorem tidy_setSource {v : MjpegView} (h : v.Tidy) (hs : v.isStreaming = false) (k : Nat) :
    (v.setSource k).Tidy := by
  rcases h with ⟨-, -, hu, hr⟩ | ⟨hs', -⟩
  · exact .inr ⟨rfl, k, rfl, by simp [setSource, resumePlayback, hu],
      by simp [setSource, resumePlayback, hr]⟩
  · simp [hs] at hs'

theorem tidy_stopPlayback {v : MjpegView} (h : v.Tidy) : v.stopPlayback.Tidy := by
  refine .inl ⟨rfl, rfl, ?_, rfl⟩
  rcases h with ⟨-, hi, hu, -⟩ | ⟨-, k, hi, hu, -⟩
  · simp [stopPlayback, hi, hu]
  · simp [stopPlayback, hi, hu]

theorem setSource_le_one_iff {v : MjpegView} (h : v.Tidy) (k : Nat) :
    ((v.setSource k).unclosed.length ≤ 1 ∧ (v.setSource k).readers ≤ 1) ↔
      v.isStreaming = false := by
  rcases h with ⟨hs, -, hu, hr⟩ | ⟨hs, _, -, hu, hr⟩ <;>
    simp [setSource, resumePlayback, hu, hr, hs]

theorem Tidy.le_one {v : MjpegView} (h : v.Tidy) : v.unclosed.length ≤ 1 ∧ v.readers ≤ 1 := by
  rcases h with ⟨-, -, hu, hr⟩ | ⟨-, _, -, hu, hr⟩ <;> simp [hu, hr]

end MjpegView

end CameraClient
