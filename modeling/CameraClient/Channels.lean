import CameraClient.Lib.Runs
import CameraClient.Panel

/-! The three ways news of the camera reaches the activity: responses to
`statusGet`, statuses pushed on the websocket, and completions of settings with a
capture mode. Each is first-in first-out, they interleave freely, and no message
carries a number the activity could compare, so the last one delivered wins. -/
namespace CameraClient
open Runs

inductive Channel where
  | statusGet
  | websocket
  | completion
  deriving DecidableEq, Repr

/-- News of one of the camera's states, by its number in the camera's history. -/
structure Message where
  channel : Channel
  number : Nat
  deriving DecidableEq, Repr

inductive Field where
  | setting (w : WheelId)
  | captureMode
  | liveview
  deriving DecidableEq, Repr

def Message.Carries (m : Message) (f : Field) : Prop := m.channel = .completion → f = .captureMode

instance (m : Message) (f : Field) : Decidable (m.Carries f) := inferInstanceAs (Decidable (_ → _))

def Message.receive (m : Message) (s : FullStatus) : Ui Unit :=
  match m.channel with
  | .statusGet | .websocket => updateStatus s.toCameraStatus
  | .completion => setCaptureMode (CaptureMode.fromValue s.captureMode.value)

def Shows (a : FullscreenActivity) (s : FullStatus) : Field → Prop
  | .setting w => a.remembered.get w = some (s.shown w)
  | .captureMode => a.mCaptureMode = some s.captureMode
  | .liveview => a.mIsInLiveview = s.isInLiveView

instance (a : FullscreenActivity) (s : FullStatus) (f : Field) : Decidable (Shows a s f) := by
  cases f <;> unfold Shows <;> infer_instance

/-- The camera with its earlier states, the messages under way, the activity, and
the messages delivered to it so far. -/
structure Channels where
  earlier : List FullStatus := []
  camera : FullStatus
  queue : Channel → List Message := fun _ => []
  state : UiState := {}
  delivered : List Message := []

/-- The camera changes by itself or by settings with a capture mode, it answers a
`statusGet` or pushes its status, and the oldest message of a channel arrives. -/
inductive ChannelEvent where
  | changed (camera : FullStatus)
  | posted (captureMode : CaptureMode)
  | answered
  | pushed
  | deliver (channel : Channel)
  deriving DecidableEq, Repr

namespace Channels

def history (c : Channels) : List FullStatus := c.earlier ++ [c.camera]

def change (c : Channels) (camera : FullStatus) : Channels :=
  { c with earlier := c.history, camera := camera }

def send (c : Channels) (channel : Channel) : Channels :=
  let news : Message := ⟨channel, c.earlier.length⟩
  { c with queue := Function.update c.queue channel (c.queue channel ++ [news]) }

def deliver (c : Channels) (channel : Channel) : Option Channels :=
  match c.queue channel with
  | [] => none
  | m :: ms =>
    c.history[m.number]?.bind fun s => ((m.receive s).outcome c.state).map fun state =>
      { c with
        state := state
        queue := Function.update c.queue channel ms
        delivered := c.delivered ++ [m] }

def step (c : Channels) : ChannelEvent → Option Channels
  | .changed camera => some (c.change camera)
  | .posted captureMode =>
    some ((c.change { c.camera with captureMode := captureMode }).send .completion)
  | .answered => some (c.send .statusGet)
  | .pushed => some (c.send .websocket)
  | .deliver channel => c.deliver channel

def lastCarrying (c : Channels) (f : Field) : Option Message :=
  (c.delivered.filter (·.Carries f)).getLast?

def InOrder (ms : List Message) : Prop := ms.Pairwise fun m n => m.number ≤ n.number

instance (ms : List Message) : Decidable (InOrder ms) :=
  inferInstanceAs (Decidable (ms.Pairwise _))

/-- The activity shows the newest state any delivered message reported that carries
the field. -/
def ShowsNewest (c : Channels) (f : Field) : Prop :=
  ∀ m ∈ c.delivered, m.Carries f →
    (∀ n ∈ c.delivered, n.Carries f → n.number ≤ m.number) →
    ∀ s ∈ c.history[m.number]?, Shows c.state.activity s f

variable {c d : Channels} {e : ChannelEvent}

theorem receive_shows (m : Message) (s : FullStatus) (st : UiState) :
    ∃ st', (m.receive s).outcome st = some st' ∧ ∀ f, (m.Carries f → Shows st'.activity s f) ∧
      (¬ m.Carries f → ∀ t, Shows st.activity t f → Shows st'.activity t f) := by
  have hstatus : ∀ f, Shows (s.applyTo st.activity) s f := by
    intro f
    cases f <;> simp [Shows, FullStatus.applyTo]
  obtain ⟨channel, n⟩ := m
  cases channel with
  | completion =>
    have ho : (Message.receive ⟨.completion, n⟩ s).outcome st = some { st with
        activity := { st.activity with mCaptureMode := some s.captureMode } } := by
      rw [Ui.outcome_eq_some, ← setCaptureMode_some]
      simp [Message.receive]
    refine ⟨_, ho, fun f => ⟨fun hf => ?_, fun _ t ht => ?_⟩⟩
    · obtain rfl := hf rfl
      rfl
    · cases f with
      | captureMode => simp_all [Message.Carries]
      | _ => exact ht
  | _ =>
    refine ⟨_, Ui.outcome_eq_some.mpr (updateStatus_full s st), fun f => ⟨fun _ => hstatus f, ?_⟩⟩
    simp [Message.Carries]

/-- Messages are about states the camera has been in, each channel keeps them in
order, and the activity shows the last one delivered for each field. -/
structure Invariant (c : Channels) : Prop where
  queued : ∀ channel, ∀ m ∈ c.queue channel, m.channel = channel ∧ m.number < c.history.length
  reported : ∀ m ∈ c.delivered, m.number < c.history.length
  sorted : ∀ channel, InOrder (c.delivered.filter (·.channel = channel) ++ c.queue channel)
  shows : ∀ f m, c.lastCarrying f = some m → ∀ s ∈ c.history[m.number]?, Shows c.state.activity s f

theorem history_change (c : Channels) (camera : FullStatus) :
    (c.change camera).history = c.history ++ [camera] := rfl

theorem invariant_change (hi : c.Invariant) (camera : FullStatus) :
    (c.change camera).Invariant where
  queued channel m hm := by
    obtain ⟨hc, hn⟩ := hi.queued channel m hm
    rw [history_change, List.length_append]
    exact ⟨hc, by omega⟩
  reported m hm := by
    have hn := hi.reported m hm
    rw [history_change, List.length_append]
    omega
  sorted := hi.sorted
  shows f m hm s hs := by
    have hd : m ∈ c.delivered := (List.mem_filter.mp (List.mem_of_getLast? hm)).1
    rw [history_change, List.getElem?_append_left (hi.reported m hd)] at hs
    exact hi.shows f m hm s hs

theorem invariant_send (hi : c.Invariant) (channel : Channel) : (c.send channel).Invariant where
  queued ch m hm := by
    by_cases hch : ch = channel
    · subst hch
      simp only [send, Function.update_self, List.mem_append, List.mem_singleton] at hm
      rcases hm with hm | rfl
      · exact hi.queued ch m hm
      · exact ⟨rfl, by simp [send, history]⟩
    · simp only [send, Function.update_of_ne hch] at hm
      exact hi.queued ch m hm
  reported := hi.reported
  sorted ch := by
    by_cases hch : ch = channel
    · subst hch
      simp only [send, Function.update_self, ← List.append_assoc]
      refine List.pairwise_append.mpr ⟨hi.sorted ch, List.pairwise_singleton _ _, ?_⟩
      intro m hm n hn
      obtain rfl : n = ⟨ch, c.earlier.length⟩ := by simpa using hn
      have hlt : m.number < c.history.length := by
        rcases List.mem_append.mp hm with hm | hm
        · exact hi.reported m (List.mem_filter.mp hm).1
        · exact (hi.queued ch m hm).2
      simp only [history, List.length_append, List.length_singleton] at hlt
      exact Nat.le_of_lt_succ hlt
    · simp only [send, Function.update_of_ne hch]
      exact hi.sorted ch
  shows := hi.shows

theorem invariant_deliver (hi : c.Invariant) {channel : Channel} (h : c.deliver channel = some d) :
    d.Invariant := by
  unfold deliver at h
  cases hq : c.queue channel with
  | nil => simp [hq] at h
  | cons m ms =>
    obtain ⟨hmc, hmn⟩ := hi.queued channel m (by simp [hq])
    obtain ⟨s, hs⟩ : ∃ s, c.history[m.number]? = some s := ⟨_, List.getElem?_eq_getElem hmn⟩
    obtain ⟨st', ho, hshow⟩ := receive_shows m s c.state
    simp only [hq, hs, Option.bind_some, ho, Option.map_some, Option.some.injEq] at h
    subst h
    refine ⟨?_, ?_, ?_, ?_⟩
    · intro ch n hn
      by_cases hch : ch = channel
      · subst hch
        simp only [Function.update_self] at hn
        exact hi.queued ch n (by simp [hq, hn])
      · simp only [Function.update_of_ne hch] at hn
        exact hi.queued ch n hn
    · intro n hn
      rcases List.mem_append.mp hn with hn | hn
      · exact hi.reported n hn
      · obtain rfl : n = m := by simpa using hn
        exact hmn
    · intro ch
      have hold := hi.sorted ch
      by_cases hch : ch = channel
      · subst hch
        simpa [hq, hmc, List.append_assoc] using hold
      · have hne : m.channel ≠ ch := fun h => hch (h.symm.trans hmc)
        simpa [Function.update_of_ne hch, hne] using hold
    · intro f n hn t ht
      change c.history[n.number]? = some t at ht
      by_cases hf : m.Carries f
      · obtain rfl : m = n := by simpa [lastCarrying, hf] using hn
        obtain rfl : s = t := by simpa [hs] using ht
        exact (hshow f).1 hf
      · have hn : c.lastCarrying f = some n := by simpa [lastCarrying, hf] using hn
        exact (hshow f).2 hf t (hi.shows f n hn t ht)

theorem invariant_step (hi : c.Invariant) (h : step c e = some d) : d.Invariant := by
  cases e with
  | changed camera =>
    cases h
    exact invariant_change hi camera
  | posted captureMode =>
    cases h
    exact invariant_send (invariant_change hi _) .completion
  | answered =>
    cases h
    exact invariant_send hi .statusGet
  | pushed =>
    cases h
    exact invariant_send hi .websocket
  | deliver channel => exact invariant_deliver hi h

theorem invariant_run {camera : FullStatus} {es : List ChannelEvent}
    (h : run step { camera := camera } es = some c) : c.Invariant :=
  run_invariant (I := Invariant) (C := fun _ _ => True) (fun _ _ _ hi _ hst => invariant_step hi hst)
    ⟨by simp, by simp, by simp [InOrder], by simp [lastCarrying]⟩
    (meets_of_forall (fun _ _ => trivial) _) h

/-- Where the messages that carry the field came in order, the last is the newest. -/
theorem newest_of_inOrder (hi : c.Invariant) {f : Field}
    (ho : InOrder (c.delivered.filter (·.Carries f))) : c.ShowsNewest f := by
  intro m hm hf hmax s hs
  have hmem : m ∈ c.delivered.filter (·.Carries f) := by simp [hm, hf]
  obtain ⟨ms, n, hl⟩ : ∃ ms n, c.delivered.filter (·.Carries f) = ms ++ [n] :=
    ⟨_, _, (List.dropLast_append_getLast (List.ne_nil_of_mem hmem)).symm⟩
  have hlast : c.lastCarrying f = some n := by simp [lastCarrying, hl]
  have hn : n ∈ c.delivered ∧ n.Carries f := by
    simpa using (hl ▸ by simp : n ∈ c.delivered.filter (·.Carries f))
  have hle : n.number ≤ m.number := hmax n hn.1 hn.2
  have hge : m.number ≤ n.number := by
    rw [hl] at ho hmem
    rcases List.mem_append.mp hmem with hmem | hmem
    · exact (List.pairwise_append.mp ho).2.2 m hmem n (by simp)
    · obtain rfl : m = n := by simpa using hmem
      exact Nat.le_refl _
  have he : m.number = n.number := Nat.le_antisymm hge hle
  exact hi.shows f n hlast s (he ▸ hs)

/-- In every run each field is the one of the message delivered last among those
that carry it, each channel delivers its messages in order, and where those that
carry the field came in order the field is the newest one reported. -/
theorem last_delivered_wins {camera : FullStatus} {es : List ChannelEvent}
    (h : run step { camera := camera } es = some c) (f : Field) :
    (∀ m, c.lastCarrying f = some m → ∀ s ∈ c.history[m.number]?, Shows c.state.activity s f) ∧
    (∀ channel, InOrder (c.delivered.filter (·.channel = channel))) ∧
    (InOrder (c.delivered.filter (·.Carries f)) → c.ShowsNewest f) := by
  have hi := invariant_run h
  exact ⟨hi.shows f, fun channel => (List.pairwise_append.mp (hi.sorted channel)).1,
    newest_of_inOrder hi⟩

/-- A camera that changes its aperture and then its mode: the websocket tells it at
once, a completion the mode. -/
theorem last_delivered_wins_in_order : ∃ c : Channels,
    run step { camera := sampleStatus ["f/2", "f/4"] "f/2" ["100"] "100" }
      [.changed (sampleStatus ["f/2", "f/4"] "f/4" ["100"] "100"), .pushed, .deliver .websocket,
        .posted .video, .deliver .completion] = some c ∧
    c.ShowsNewest .captureMode ∧ c.ShowsNewest (.setting .aperture) := by
  obtain ⟨c, hc, hm, ha⟩ : ∃ c : Channels,
      run step { camera := sampleStatus ["f/2", "f/4"] "f/2" ["100"] "100" }
        [.changed (sampleStatus ["f/2", "f/4"] "f/4" ["100"] "100"), .pushed, .deliver .websocket,
          .posted .video, .deliver .completion] = some c ∧
      InOrder (c.delivered.filter (·.Carries .captureMode)) ∧
      InOrder (c.delivered.filter (·.Carries (.setting .aperture))) :=
    ⟨_, rfl, by decide, by decide⟩
  exact ⟨c, hc, (last_delivered_wins hc .captureMode).2.2 hm,
    (last_delivered_wins hc (.setting .aperture)).2.2 ha⟩

/-- A response to `statusGet` that is overtaken by a push puts the old aperture back. -/
theorem overtaken_response_overwrites : ∃ c : Channels,
    run step { camera := sampleStatus ["f/2", "f/4"] "f/2" ["100"] "100" }
      [.answered, .changed (sampleStatus ["f/2", "f/4"] "f/4" ["100"] "100"), .pushed,
        .deliver .websocket, .deliver .statusGet] = some c ∧
    ¬ c.ShowsNewest (.setting .aperture) := by
  refine ⟨_, rfl, fun h => ?_⟩
  exact absurd (h ⟨.websocket, 1⟩ (by decide) (by decide) (by decide) _ rfl) (by decide)

end Channels

end CameraClient
