import CameraClient.App

/-! The liveview connections and the status websocket over whole runs: how long
a stopped liveview stays stopped, and when two streams, two readers or two
sockets are open at once. Both come down to the connections that complete while
the view streams or after it was stopped. -/
namespace CameraClient
open Runs
namespace App

def Completes (a : App) (e : Event) : Prop := ∃ stream, e = .connected stream ∧ step a e ≠ none

def StartsLiveview (a : App) (e : Event) : Prop :=
  e = .request none ∧ a.requesting = some .liveviewStart

def StopsLiveview (a : App) (e : Event) : Prop :=
  e = .request none ∧ a.requesting = some .liveviewStop

/-- `stopLiveview` ends the playback, on the background thread. -/
def EndsPlayback (a : App) (e : Event) : Prop :=
  e = .background ∧ ∃ task actions hs, a.running = some ⟨task, .stopLiveview :: actions, hs⟩

def Stops (a : App) (e : Event) : Prop := e = .surfaceDestroyed ∨ a.EndsPlayback e

def Loads (a : App) (e : Event) : Prop := e = .proceed ∧ a.callback.head? = some .loadLiveview

instance (a : App) (e : Event) : Decidable (a.StartsLiveview e) :=
  inferInstanceAs (Decidable (_ ∧ _))

/-- The client up to the execution of the next `liveviewStartPost`. -/
def untilStart (a : App) (e : Event) : Option App := if a.StartsLiveview e then none else step a e

variable {a b : App} {e : Event}

theorem untilStart_eq_some : untilStart a e = some b ↔ ¬ a.StartsLiveview e ∧ step a e = some b := by
  by_cases hs : a.StartsLiveview e <;> simp [untilStart, hs]

theorem step_stopped_iff (hs : a.view.isStreaming = false) (h : step a e = some b) :
    b.view.isStreaming = false ↔ ¬ a.Completes e := by
  have hn : step a e ≠ none := by simp [h]
  rw [step_view h]
  cases e with
  | connected k => simp [Completes, viewAfter, hn]
  | background =>
    simp only [Completes, viewAfter]
    split <;> simp [hs]
  | _ => simp [Completes, viewAfter, hs]

theorem stopped_until_start_iff {es : List Event} (hs : a.view.isStreaming = false) :
    Always untilStart (fun s => s.view.isStreaming = false) a es ↔
      Meets untilStart (fun s e => s.StartsLiveview e ∨ ¬ s.Completes e) a es := by
  refine always_iff_meets (K := fun _ => True) (fun _ _ _ _ _ _ => trivial) ?_ ?_ trivial hs
  · intro s e s' _ hs hst
    obtain ⟨hn, hst⟩ := untilStart_eq_some.mp hst
    rw [step_stopped_iff hs hst]
    simp [hn]
  · intro s e hst
    by_cases hn : s.StartsLiveview e
    · exact .inl hn
    · rw [untilStart, if_neg hn] at hst
      exact .inr fun ⟨_, _, h⟩ => h hst

theorem streaming_step (h : step a e = some b) :
    b.view.isStreaming = true ↔ a.Completes e ∨ a.view.isStreaming = true ∧ ¬ a.Stops e := by
  have hn : step a e ≠ none := by simp [h]
  rw [step_view h]
  cases e with
  | connected k => simp [Completes, viewAfter, hn]
  | surfaceDestroyed => simp [Completes, Stops, viewAfter]
  | background =>
    obtain ⟨task, action, actions, hs, hr, -⟩ := step_background.mp h
    cases action <;> simp [Completes, Stops, EndsPlayback, viewAfter, hr, hs]
  | _ => simp [Completes, Stops, EndsPlayback, viewAfter]

/-- The view streams just when a connection has completed since it was stopped last. -/
theorem streaming_iff {es : List Event} (hs : a.view.isStreaming = false)
    (h : run step a es = some b) : b.view.isStreaming = true ↔
      ∃ us e vs m m', es = us ++ e :: vs ∧ run step a us = some m ∧ step m e = some m' ∧
        m.Completes e ∧ Meets step (fun s e => ¬ s.Stops e) m' vs := by
  rw [run_flag_iff (fun s : App => s.view.isStreaming = true) (fun _ _ _ => streaming_step) h]
  simp [hs]

/-- The task that stops the liveview, between `stopLiveview` and its request. -/
def Stopping (a : App) : Prop :=
  ∃ actions hs, a.running = some ⟨.liveviewStop, actions, hs⟩ ∧ .stopLiveview ∉ actions

theorem stopping_of_endsPlayback (hstop : a.EndsPlayback e) (h : step a e = some b) :
    b.Stopping ∧ b.view.isStreaming = false := by
  obtain ⟨rfl, task, actions, hs, hr⟩ := hstop
  have hview : b.view = a.viewAfter .background := step_view h
  obtain ⟨task', action, actions', hs', hr', -, -, rfl⟩ := step_background.mp h
  rw [hr] at hr'
  cases hr'
  have hmem := hs.subset List.mem_cons_self
  have htask : task = .liveviewStop := by
    cases task <;> simp [doInBackground] at hmem
    rfl
  subst htask
  refine ⟨⟨actions, (List.suffix_cons _ _).trans hs, rfl, ?_⟩, by simp [hview, viewAfter, hr]⟩
  have hcount := hs.sublist.count_le .stopLiveview
  simp only [doInBackground, disableLiveview, refreshCameraStatus] at hcount
  simp at hcount
  exact List.count_eq_zero.mp hcount

theorem stopping_step (hs : a.Stopping) (hr : ∀ outcome, e ≠ .request outcome)
    (h : step a e = some b) : b.Stopping ∧ (a.Stops e ↔ e = .surfaceDestroyed) := by
  obtain ⟨actions, hsuf, hrun, hno⟩ := hs
  by_cases hb : e = .background
  · subst hb
    obtain ⟨task, action, rest, hs', hr', -, -, rfl⟩ := step_background.mp h
    rw [hrun] at hr'
    cases hr'
    have hrest : .stopLiveview ∉ rest := fun hm => hno (List.mem_cons_of_mem _ hm)
    constructor
    · cases action with
      | _ => exact ⟨rest, _, rfl, hrest⟩
    · simp only [Stops, EndsPlayback, hrun, true_and, reduceCtorEq, false_or, iff_false]
      rintro ⟨task, actions, hs, heq⟩
      cases heq
      exact hno List.mem_cons_self
  · have hne : e ≠ .start := by
      rintro rfl
      obtain ⟨task, tasks, hn, -⟩ := step_start.mp h
      rw [hrun] at hn
      cases hn
    refine ⟨⟨actions, hsuf, (step_running hne hb hr h).trans hrun, hno⟩, ?_⟩
    simp [Stops, EndsPlayback, hb]

theorem stopping_run {es : List Event} (hs : a.Stopping)
    (hes : ∀ e ∈ es, ∀ outcome, e ≠ .request outcome) (h : run step a es = some b) : b.Stopping :=
  run_invariant (I := Stopping) (C := fun _ e => ∀ outcome, e ≠ .request outcome)
    (fun _ _ _ hs hr hst => (stopping_step hs hr hst).1) hs (meets_of_forall hes a) h

/-- While the task is on its way to its request, only the surface ends a playback. -/
theorem stopping_streaming_iff {es : List Event} (hs : a.Stopping)
    (hv : a.view.isStreaming = false) (hes : ∀ e ∈ es, ∀ outcome, e ≠ .request outcome)
    (h : run step a es = some b) : b.view.isStreaming = false ↔
      ∀ us stream vs, es = us ++ .connected stream :: vs → .surfaceDestroyed ∈ vs := by
  rw [← Bool.not_eq_true, streaming_iff hv h]
  constructor
  · rintro hno us stream vs rfl
    by_contra hvs
    obtain ⟨m, hm, hrest⟩ := run_append_iff.mp h
    obtain ⟨m', hm', hb⟩ := run_cons_iff.mp hrest
    have hsm : m.Stopping := stopping_run hs (fun e he => hes e (List.mem_append_left _ he)) hm
    have hsm' : m'.Stopping := (stopping_step hsm (fun _ => by simp) hm').1
    refine hno ⟨us, .connected stream, vs, m, m', rfl, hm, hm', ⟨stream, rfl, by simp [hm']⟩, ?_⟩
    refine Meets.mono_of_invariant (I := Stopping)
      (C := fun s e => (∀ outcome, e ≠ .request outcome) ∧ e ≠ .surfaceDestroyed)
      (fun _ _ _ hs hc hst => (stopping_step hs hc.1 hst).1) ?_ hsm' (meets_of_forall ?_ m')
    · rintro s e hs ⟨hr, hne⟩ hstop
      rcases hstop with rfl | hend
      · exact hne rfl
      · obtain ⟨rfl, task, actions, hsuf, hrun⟩ := hend
        obtain ⟨actions', hsuf', hrun', hno'⟩ := hs
        rw [hrun'] at hrun
        cases hrun
        exact hno' List.mem_cons_self
    · intro e he
      exact ⟨hes e (by simp [he]), fun hd => hvs (hd ▸ he)⟩
  · rintro hall ⟨us, e, vs, m, m', rfl, hm, hm', ⟨stream, rfl, -⟩, hclear⟩
    obtain ⟨xs, ys, rfl⟩ := List.append_of_mem (hall us stream vs rfl)
    obtain ⟨m₀, hm₀, hrest⟩ := run_append_iff.mp h
    obtain rfl : m = m₀ := by simpa [hm] using hm₀
    obtain ⟨m₁, hm₁, hrest⟩ := run_cons_iff.mp hrest
    obtain rfl : m' = m₁ := by simpa [hm'] using hm₁
    obtain ⟨k, hk, -⟩ := run_append_iff.mp hrest
    exact ((meets_append hk).mp hclear).2.1 (.inl rfl)

theorem connecting_of_not_loads (hc : a.connecting = []) (hl : ¬ a.Loads e)
    (h : step a e = some b) : b.connecting = [] := by
  rw [step_connecting h]
  cases e with
  | proceed =>
    simp only [connectingAfter]
    split
    · next hcb => exact absurd ⟨rfl, by simp [hcb]⟩ hl
    · exact hc
  | _ => simp [connectingAfter, hc]

theorem not_completes_of_nil (hc : a.connecting = []) : ¬ a.Completes e := by
  rintro ⟨k, rfl, h⟩
  obtain ⟨t, ht⟩ := Option.ne_none_iff_exists'.mp h
  simpa [hc] using (step_connected.mp ht).1

theorem not_completes_of_not_loads {es : List Event} (hc : a.connecting = [])
    (hl : Meets step (fun s e => ¬ s.Loads e) a es) :
    Meets step (fun s e => ¬ s.Completes e) a es :=
  Meets.mono_of_invariant (I := fun s => s.connecting = [])
    (fun _ _ _ hc hl h => connecting_of_not_loads hc hl h)
    (fun _ _ hc _ => not_completes_of_nil hc) hc hl

theorem meets_untilStart {C : App → Event → Prop} {es : List Event} (hm : Meets step C a es) :
    Meets untilStart (fun s e => s.StartsLiveview e ∨ C s e) a es := by
  induction es generalizing a with
  | nil => trivial
  | cons e es ih =>
    exact ⟨.inr hm.1, fun s' hs => ih (hm.2 s' (untilStart_eq_some.mp hs).2)⟩

/-- A `LiveviewStopAsyncTask` has ended the playback and gone on to its request, which succeeded.
The view then stays stopped until a `liveviewStartPost` executes exactly when every connection
that completed since `stopLiveview` lost its surface before the request, and none completes from
then on. So it does when no connection was in flight and none is begun. -/
theorem stopped_liveview_stays_stopped_iff {m s : App} {es : List Event} (later : List Event)
    (hstop : a.EndsPlayback e) (hm : step a e = some m)
    (hes : ∀ e ∈ es, ∀ outcome, e ≠ .request outcome) (hs : run step m es = some s)
    (h : step s (.request none) = some b) :
    s.StopsLiveview (.request none) ∧
    (Always untilStart (fun s => s.view.isStreaming = false) b later ↔
      (∀ us stream vs, es = us ++ .connected stream :: vs → .surfaceDestroyed ∈ vs) ∧
      Meets untilStart (fun s e => s.StartsLiveview e ∨ ¬ s.Completes e) b later) ∧
    (m.connecting = [] → Meets step (fun s e => ¬ s.Loads e) m (es ++ .request none :: later) →
      Always untilStart (fun s => s.view.isStreaming = false) b later) := by
  obtain ⟨hstopping, hview⟩ := stopping_of_endsPlayback hstop hm
  obtain ⟨actions, hsuf, hrun, -⟩ := stopping_run hstopping hes hs
  have hv : b.view = s.view := step_view h
  have hstops : s.StopsLiveview (.request none) := by
    obtain ⟨task, hreq, -⟩ := step_request.mp h
    obtain ⟨hsuf', hrun'⟩ := requesting_eq_some hreq
    rw [hrun] at hrun'
    cases hrun'
    exact ⟨rfl, hreq⟩
  have hstopped := stopping_streaming_iff hstopping hview hes hs
  have hiff : Always untilStart (fun s => s.view.isStreaming = false) b later ↔
      (∀ us stream vs, es = us ++ .connected stream :: vs → .surfaceDestroyed ∈ vs) ∧
      Meets untilStart (fun s e => s.StartsLiveview e ∨ ¬ s.Completes e) b later := by
    rw [← hstopped, ← hv]
    constructor
    · intro ha
      have hb : b.view.isStreaming = false := ha [] List.nil_prefix b rfl
      exact ⟨hb, (stopped_until_start_iff hb).mp ha⟩
    · rintro ⟨hb, hmeets⟩
      exact (stopped_until_start_iff hb).mpr hmeets
  refine ⟨hstops, hiff, fun hc hl => hiff.mpr ⟨?_, ?_⟩⟩
  · rintro us stream vs rfl
    have hno := not_completes_of_not_loads hc hl.of_append
    obtain ⟨k, hk, hrest⟩ := run_append_iff.mp hs
    obtain ⟨k', hk', -⟩ := run_cons_iff.mp hrest
    exact absurd ⟨stream, rfl, by simp [hk']⟩ ((meets_append hk).mp hno).2.1
  · have hno := ((meets_append hs).mp (not_completes_of_not_loads hc hl)).2
    exact meets_untilStart ((meets_cons_of_step h).mp hno).2

/-- The events of a photo button press on a camera without liveview, up to where
the activity knows of the liveview and its connection is in flight. -/
def photoLiveviewEvents : List Event :=
  [.press .mCaptureModePhotoButton, .proceed, .proceed, .start, .request none, .deliver,
    .proceed, .proceed, .proceed, .start, .request none, .deliver, .proceed, .start, .request none,
    .deliver, .start, .request none, .deliver, .proceed]

/-- A liveview whose connection completed before it was stopped stays stopped. -/
theorem stopped_liveview_stays_stopped_iff_streaming : ∃ a m s b : App,
    run step { camera := sampleStatus ["f/2"] "f/2" ["100"] "100" } (photoLiveviewEvents ++
      [.connected 0, .press .mCaptureModePhotoButton, .proceed, .proceed, .start]) = some a ∧
    a.view.isStreaming = true ∧ step a .background = some m ∧
    run step m [.background, .background] = some s ∧ step s (.request none) = some b ∧
    Always untilStart (fun s => s.view.isStreaming = false) b [.start, .request none, .deliver] := by
  obtain ⟨a, m, s, b, ha, hv, hstop, hm, hs, hb⟩ : ∃ a m s b : App,
      run step { camera := sampleStatus ["f/2"] "f/2" ["100"] "100" } (photoLiveviewEvents ++
        [.connected 0, .press .mCaptureModePhotoButton, .proceed, .proceed, .start]) = some a ∧
      a.view.isStreaming = true ∧ a.EndsPlayback .background ∧ step a .background = some m ∧
      run step m [.background, .background] = some s ∧ step s (.request none) = some b :=
    ⟨_, _, _, _, rfl, rfl, ⟨rfl, _, _, _, rfl⟩, rfl, rfl, rfl⟩
  obtain ⟨-, hiff, -⟩ := stopped_liveview_stays_stopped_iff
    [.start, .request none, .deliver] hstop hm (by simp) hs hb
  refine ⟨a, m, s, b, ha, hv, hm, hs, hb, hiff.mpr ⟨?_, by simp [Meets, Completes]⟩⟩
  rintro us stream vs h
  have hmem : Event.connected stream ∈ [Event.background, Event.background] := by
    rw [h]
    simp
  simp at hmem

/-- A second press stops the liveview, and then the connection completes. -/
theorem late_connection_restarts_liveview : ∃ a b c : App,
    run step { camera := sampleStatus ["f/2"] "f/2" ["100"] "100" } (photoLiveviewEvents ++
      [.press .mCaptureModePhotoButton, .proceed, .proceed, .start, .background, .background,
        .background]) = some a ∧
    a.StopsLiveview (.request none) ∧ step a (.request none) = some b ∧
    run untilStart b [.connected 0] = some c ∧ c.view.isStreaming = true :=
  ⟨_, _, _, rfl, ⟨rfl, rfl⟩, rfl, rfl, rfl⟩

/-- At most one stream is open, one reader runs, one websocket is open. -/
def AtMostOne (a : App) : Prop :=
  (a.view.unclosed.length ≤ 1 ∧ a.view.readers ≤ 1) ∧ a.sockets ≤ 1

def websockets (a : App) (e : Event) : List Unit :=
  match e, a.callback with
  | .proceed, .openWebsocket :: _ => if a.alive then [()] else []
  | _, _ => []

theorem sockets_step (h : step a e = some b) :
    b.sockets = a.sockets + (a.websockets e).length := by
  rw [step_sockets h]
  cases e with
  | proceed =>
    obtain ⟨action, callback, hc, ha, -⟩ := step_proceed.mp h
    cases action <;> simp [socketsAfter, websockets, hc, ha]
  | _ => simp [socketsAfter, websockets]

theorem websockets_of_none (h : step a e = none) : a.websockets e = [] := by
  unfold websockets
  split
  · next hc =>
    cases ha : a.alive with
    | false => rfl
    | true => simp [step, hc, ifAlive, ha] at h
  · rfl

theorem tidy_step (ht : a.view.Tidy) (hc : a.Completes e → a.view.isStreaming = false)
    (h : step a e = some b) : b.view.Tidy := by
  rw [step_view h]
  cases e with
  | connected k => exact MjpegView.tidy_setSource ht (hc ⟨k, rfl, by simp [h]⟩) k
  | surfaceDestroyed => exact MjpegView.tidy_stopPlayback ht
  | background =>
    simp only [viewAfter]
    split
    · exact MjpegView.tidy_stopPlayback ht
    · exact ht
  | _ => exact ht

theorem streams_step_iff (ht : a.view.Tidy) (h : step a e = some b) :
    (b.view.unclosed.length ≤ 1 ∧ b.view.readers ≤ 1) ↔
      (a.Completes e → a.view.isStreaming = false) := by
  by_cases hc : a.Completes e
  · obtain ⟨k, rfl, -⟩ := id hc
    rw [step_view h]
    simpa [hc, viewAfter] using MjpegView.setSource_le_one_iff ht k
  · have hb : b.view.Tidy := tidy_step ht (fun h => absurd h hc) h
    simp [hc, hb.le_one]

/-- The activity never holds two of a kind exactly when each connection completes
while the view does not stream and `openWebsocket` is called once at most. -/
theorem one_connection_of_each_iff (camera : FullStatus) (es : List Event) :
    Always step AtMostOne { camera := camera } es ↔
      Meets step (fun s e => s.Completes e → s.view.isStreaming = false) { camera := camera } es ∧
      (trace step websockets { camera := camera } es).length ≤ 1 := by
  have ht : ({ camera := camera } : App).view.Tidy := .inl ⟨rfl, rfl, rfl, rfl⟩
  have hstreams : Always step (fun s => s.view.unclosed.length ≤ 1 ∧ s.view.readers ≤ 1)
      { camera := camera } es ↔
      Meets step (fun s e => s.Completes e → s.view.isStreaming = false) { camera := camera } es :=
    always_iff_meets (K := fun s => s.view.Tidy) (fun _ _ _ ht hc h => tidy_step ht hc h)
      (fun _ _ _ ht _ h => streams_step_iff ht h) (fun _ _ h ⟨_, _, hn⟩ => absurd h hn) ht ht.le_one
  have hsockets : Always step (fun s => s.sockets ≤ 1) { camera := camera } es ↔
      0 + (trace step websockets { camera := camera } es).length ≤ 1 :=
    always_le_iff (fun _ _ _ h => sockets_step h) (fun _ _ h => websockets_of_none h)
  rw [Nat.zero_add] at hsockets
  rw [← hstreams, ← hsockets]
  exact always_and

/-- Refreshing while the first connection is in flight opens a second one, and a
second `onResume` a second websocket. -/
theorem two_streams_two_sockets : ∃ a : App,
    run step { camera := sampleStatus ["f/2"] "f/2" ["100"] "100" } (photoLiveviewEvents ++
      [.press .mRefreshButton, .proceed, .proceed, .proceed, .proceed, .connected 0, .connected 1,
        .resume, .proceed, .proceed, .proceed, .proceed, .proceed,
        .resume, .proceed, .proceed, .proceed, .proceed, .proceed]) = some a ∧
    a.view.unclosed = [0, 1] ∧ a.view.readers = 2 ∧ a.sockets = 2 :=
  ⟨_, rfl, rfl, rfl, rfl⟩

end App

end CameraClient
