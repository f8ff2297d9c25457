import CameraClient.Lib.Pipeline
import CameraClient.App
import CameraClient.Statuses

/-! A selection on its way through the camera and back. The listeners encode an item as
settings, `updateStatus` decodes the camera's answer as a wheel position. The ISO wheel
encodes AUTO in a field of its own, which decides before the ISO value when decoding and
which no listener ever clears. -/
namespace CameraClient
open Pipeline

/-- The lists have no repetitions, the reported values are in them and AUTO is no ISO. -/
structure FullStatus.WellListed (s : FullStatus) : Prop where
  nodup : ∀ w, (s.lists.get w).Nodup
  values : s.ValuesListed
  noAuto : ISO_AUTO ∉ s.lists.iso

theorem FullStatus.WellListed.items_nodup {s : FullStatus} (h : s.WellListed) (w : WheelId) :
    (s.items w).Nodup := by
  cases w with
  | iso => exact List.nodup_cons.mpr ⟨h.noAuto, h.nodup .iso⟩
  | aperture => exact h.nodup .aperture
  | shutterSpeed => exact h.nodup .shutterSpeed
  | exposureMode => exact h.nodup .exposureMode

theorem shown_applySettings (s : FullStatus) (w u : WheelId) (text : String) :
    (s.applySettings (settingsFor w text)).shown u =
      if u = w then (if w = .iso ∧ s.isoAuto then ISO_AUTO else text) else s.shown u := by
  cases w with
  | iso =>
    by_cases ha : text = ISO_AUTO
    · cases u <;> simp [settingsFor, isoSettings, ha, FullStatus.applySettings, FullStatus.shown,
        PerWheel.get]
    · cases u <;> simp [settingsFor, isoSettings, ha, FullStatus.applySettings, FullStatus.shown,
        PerWheel.get]
  | _ => cases u <;> rfl

theorem items_applySettings (s : FullStatus) (settings : CameraSettings) (u : WheelId) :
    (s.applySettings settings).items u = s.items u := by
  cases u <;> rfl

theorem settle_posts {s : FullStatus} {st : UiState} {w : WheelId}
    (hr : st.activity.remembered.get w = some (s.shown w)) (text : String) (u : WheelId) :
    (settle serve s (posts st w text)).items u = s.items u ∧
    (settle serve s (posts st w text)).shown u =
      if u = w then (if w = .iso ∧ s.isoAuto then ISO_AUTO else text) else s.shown u := by
  by_cases ht : s.shown w = text
  · have hp : posts st w text = [] := by simp [posts, hr, ht]
    rw [hp, settle_nil]
    refine ⟨rfl, ?_⟩
    split_ifs with hu ha
    · obtain ⟨rfl, ha⟩ := ha
      simp [hu, FullStatus.shown, ha]
    · rw [hu, ht]
    · rfl
  · have hp : posts st w text = [.postSettings (settingsFor w text)] := by simp [posts, hr, ht]
    rw [hp, settle_cons, settle_nil]
    exact ⟨items_applySettings s _ u, shown_applySettings s w u text⟩

def select (w : WheelId) (index : Int) : Ui Unit := do
  onScrollStarted w
  setCurrentItem w index
  onScrollFinished w

theorem select_resting {st : UiState} {w : WheelId} {texts : List String} {i j : Nat} {text : String}
    (hv : st.wheel w = .restingOn texts j) (hi : texts[i]? = some text)
    (hj : i = j → st.activity.remembered.get w = some text) :
    select w i st = .ok () { st.setWheel w (.restingOn texts i) with
      tasks := st.tasks ++ posts st w text } := by
  have hlt : i < texts.length := (List.getElem?_eq_some_iff.mp hi).1
  let st1 := st.setWheel w (st.wheel w).onStarted
  have hv1 : st1.wheel w = (WheelView.restingOn texts j).onStarted := by simp [st1, hv]
  have ha : (st1.wheel w).viewAdapter = some (.ofTexts texts) := by rw [hv1]; rfl
  have hmove : setCurrentItem w i st1 = .ok () { st1.setWheel w ((st1.wheel w).movedTo i) with
      tasks := st.tasks ++ posts st w text } := by
    by_cases he : i = j
    · have hp : posts st w text = [] := by simp [posts, hj he]
      have hm : (st1.wheel w).movedTo i = st1.wheel w := by rw [hv1, he]; rfl
      rw [setCurrentItem_stay (.inr (by rw [hv1, he]; rfl)), hp, hm, UiState.setWheel_wheel,
        List.append_nil]
      rfl
    · have hc : (st1.wheel w).checkedIndex i = some (i : Int) :=
        WheelView.checkedIndex_of_lt ha (by omega) (by simpa using hlt)
      have hne : (i : Int) ≠ (st1.wheel w).currentItem := by
        rw [hv1]
        intro h
        have hij : (i : Int) = j := h
        omega
      rw [setCurrentItem_item ha hc (ArrayWheelAdapter.getItemText_ofTexts hi) hne]
      rfl
  have hstart : onScrollStarted w st = .ok () st1 := rfl
  rw [select, Ui.bind_ok hstart, Ui.bind_ok hmove]
  simp [onScrollFinished, UiState.wheel_tasks, UiState.setWheel_tasks, hv1, st1]
  rfl

/-- The wheel is on the item and its text is remembered; the other wheels and what is
remembered of them have not changed. -/
structure RoundTrip (st1 st3 : UiState) (w : WheelId) (i : Nat) (text : String) : Prop where
  currentItem : (st3.wheel w).currentItem = i
  remembered : st3.activity.remembered.get w = some text
  others : ∀ u, u ≠ w → st3.wheel u = st1.wheel u ∧
    st3.activity.remembered.get u = st1.activity.remembered.get u

def ShowsReport (s : FullStatus) (st : UiState) : Prop :=
  ∀ u, st.wheel u = .restingOn (s.items u) ((s.items u).idxOf (s.shown u)) ∧
    st.activity.remembered.get u = some (s.shown u)

theorem shows_applyTo {st : UiState} {s : FullStatus} (hrest : ∀ u, (st.wheel u).isScrolling = false)
    (hin : ∀ u, s.shown u ∈ s.items u) : ShowsReport s { st with activity := s.applyTo st.activity } := by
  intro u
  rw [wheel_applyTo, FullStatus.showOn_listed (hrest u) (hin u)]
  exact ⟨rfl, by simp [FullStatus.applyTo]⟩

theorem roundTrip_iff {s s' : FullStatus} {st1 st3 : UiState} {w : WheelId} {i : Nat} {text : String}
    (hs : s.WellListed) (hi : (s.items w)[i]? = some text) (h1 : ShowsReport s st1) (h3 : ShowsReport s' st3)
    (hitems : ∀ u, s'.items u = s.items u) (hshown : ∀ u, s'.shown u =
      if u = w then (if w = .iso ∧ s.isoAuto then ISO_AUTO else text) else s.shown u) :
    RoundTrip st1 st3 w i text ↔ ¬ (w = .iso ∧ s.isoAuto ∧ i ≠ 0) := by
  obtain ⟨hlt, hget⟩ := List.getElem?_eq_some_iff.mp hi
  have hidx : (s.items w).idxOf text = i := by
    rw [← hget]
    exact (hs.items_nodup w).idxOf_getElem i hlt
  have hw := hshown w
  rw [if_pos rfl] at hw
  obtain ⟨hv, hr⟩ := h3 w
  rw [hitems, hw] at hv
  rw [hw] at hr
  constructor
  · rintro ⟨hc, -, -⟩ ⟨rfl, ha, hne⟩
    have hzero : (s.items .iso).idxOf ISO_AUTO = 0 := by simp [FullStatus.items]
    rw [hv, if_pos ⟨rfl, ha⟩, hzero] at hc
    exact hne (by simpa [WheelView.restingOn] using hc.symm)
  · intro hn
    have htext : (if w = .iso ∧ s.isoAuto then ISO_AUTO else text) = text := by
      split_ifs with ha
      · obtain ⟨rfl, ha⟩ := ha
        have hi0 : i = 0 := by
          by_contra h0
          exact hn ⟨rfl, ha, h0⟩
        subst hi0
        simpa [FullStatus.items] using hi
      · rfl
    rw [htext] at hv hr
    refine ⟨by rw [hv, hidx]; rfl, hr, fun u hu => ?_⟩
    obtain ⟨hv1, hr1⟩ := h1 u
    obtain ⟨hv3, hr3⟩ := h3 u
    rw [hitems, hshown, if_neg hu] at hv3
    rw [hshown, if_neg hu] at hr3
    exact ⟨hv3.trans hv1.symm, hr3.trans hr1.symm⟩

/-- After a status, with every wheel at rest, a selection comes back from the camera
exactly when it is not an ISO value selected while auto ISO is on. -/
theorem selection_round_trip_iff (st : UiState) (s : FullStatus) (w : WheelId) (i : Nat)
    (text : String) (hrest : ∀ u, (st.wheel u).isScrolling = false) (hs : s.WellListed)
    (hi : (s.items w)[i]? = some text) :
    ∃ st1 st2 st3, updateStatus s.toCameraStatus st = .ok () st1 ∧ select w i st1 = .ok () st2 ∧
      updateStatus (settle serve s (posted st1 st2)).toCameraStatus st2 = .ok () st3 ∧
      (RoundTrip st1 st3 w i text ↔ ¬ (w = .iso ∧ s.isoAuto ∧ i ≠ 0)) := by
  let st1 : UiState := { st with activity := s.applyTo st.activity }
  let st2 : UiState := { st1.setWheel w (.restingOn (s.items w) i) with
    tasks := st1.tasks ++ posts st1 w text }
  let s' := settle serve s (posts st1 w text)
  have h1 : ShowsReport s st1 := shows_applyTo hrest hs.values.shown_mem
  have hselect : select w i st1 = .ok () st2 := by
    refine select_resting (h1 w).1 hi fun hij => ?_
    rw [(h1 w).2]
    rw [hij, List.getElem?_eq_getElem (List.idxOf_lt_length_iff.mpr (hs.values.shown_mem w)),
      List.getElem_idxOf] at hi
    exact hi
  have hposted : posted st1 st2 = posts st1 w text := by simp [posted, st2]
  have hs' := settle_posts (h1 w).2 text
  have hin : ∀ u, s'.shown u ∈ s'.items u := by
    intro u
    rw [(hs' u).1, (hs' u).2]
    split_ifs with hu ha
    · rw [hu, ha.1]
      simp [FullStatus.items]
    · rw [hu]
      exact List.mem_of_getElem? hi
    · exact hs.values.shown_mem u
  have hrest2 : ∀ u, (st2.wheel u).isScrolling = false := by
    intro u
    by_cases hu : u = w
    · subst hu
      simp [st2, UiState.wheel_tasks, WheelView.restingOn, WheelView.isScrolling]
    · simp only [st2, UiState.wheel_tasks, UiState.wheel_setWheel_ne _ _ _ hu, (h1 u).1]
      rfl
  refine ⟨st1, st2, { st2 with activity := s'.applyTo st2.activity }, updateStatus_full s st,
    hselect, ?_, ?_⟩
  · rw [hposted]
    exact updateStatus_full s' st2
  · exact roundTrip_iff hs hi h1 (shows_applyTo hrest2 hin) (fun u => (hs' u).1)
      fun u => (hs' u).2

/-- From one ISO value to another. -/
theorem selection_round_trip_iff_iso : ∃ st1 st2 st3,
    updateStatus (sampleStatus ["f/2"] "f/2" ["100", "200"] "100").toCameraStatus {} = .ok () st1 ∧
    select .iso 2 st1 = .ok () st2 ∧
    updateStatus (settle serve (sampleStatus ["f/2"] "f/2" ["100", "200"] "100")
      (posted st1 st2)).toCameraStatus st2 = .ok () st3 ∧
    RoundTrip st1 st3 .iso 2 "200" := by
  have hs : (sampleStatus ["f/2"] "f/2" ["100", "200"] "100").WellListed := by
    refine ⟨?_, ?_, by decide⟩
    · intro w
      cases w <;> decide
    · intro w _
      cases w <;> decide
  have hrest : ∀ u, (({} : UiState).wheel u).isScrolling = false := by
    intro u
    cases u <;> rfl
  obtain ⟨st1, st2, st3, h1, h2, h3, hiff⟩ :=
    selection_round_trip_iff {} _ .iso 2 "200" hrest hs rfl
  exact ⟨st1, st2, st3, h1, h2, h3, hiff.mpr (by decide)⟩

/-- From AUTO to an ISO value: the listener posts the value alone, the camera stays in
auto ISO, and the next status puts the wheel back on AUTO. -/
theorem iso_selected_from_auto_is_lost : ∃ st1 st2 st3,
    updateStatus { sampleStatus ["f/2"] "f/2" ["100", "200"] "100" with
      isoAuto := true }.toCameraStatus {} = .ok () st1 ∧
    select .iso 2 st1 = .ok () st2 ∧
    posted st1 st2 = [.postSettings { iso := some "200" }] ∧
    updateStatus (settle serve { sampleStatus ["f/2"] "f/2" ["100", "200"] "100" with
      isoAuto := true } (posted st1 st2)).toCameraStatus st2 = .ok () st3 ∧
    (st3.wheel .iso).currentItem = 0 ∧ st3.activity.remembered.get .iso = some "AUTO" ∧
    ¬ RoundTrip st1 st3 .iso 2 "200" := by
  refine ⟨_, _, _, rfl, rfl, rfl, rfl, rfl, rfl, fun h => ?_⟩
  exact absurd h.currentItem (by decide)

end CameraClient
