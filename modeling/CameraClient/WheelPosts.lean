import CameraClient.WheelIndex

/-! What the wheels post against the lists of the last applied status. Three of
them install every list at once; the ISO wheel keeps its old one while it
scrolls, and can then post an item the camera no longer lists. -/
namespace CameraClient
open Runs

/-- Every value the settings carry is in the status's list for it; auto ISO is
only ever switched on. -/
structure CameraSettings.ListedIn (c : CameraSettings) (s : FullStatus) : Prop where
  aperture : ∀ t ∈ c.aperture, t ∈ s.lists.aperture
  shutterSpeed : ∀ t ∈ c.shutterSpeed, t ∈ s.lists.shutterSpeed
  exposureMode : ∀ t ∈ c.exposureMode, t ∈ s.lists.exposureMode
  iso : ∀ t ∈ c.iso, t ∈ s.lists.iso
  isoAuto : ∀ b ∈ c.isoAuto, b = true

/-- A status delivered while the ISO wheel scrolls withdraws no item the wheel
goes on offering, but for the one it reports itself. -/
def NothingWithdrawn (st : UiState) : PanelEvent → Prop
  | .status s => (st.wheel .iso).isScrolling → ∀ adapter ∈ (st.wheel .iso).viewAdapter,
      ∀ t, some t ∈ adapter.items → t ∈ s.items .iso ∨ t = s.shown .iso
  | .wheel _ => True

def Offers (last : Option FullStatus) (st : UiState) : Prop :=
  ∀ w, ∀ adapter ∈ (st.wheel w).viewAdapter, ∃ s, last = some s ∧
    st.activity.remembered.get w = some (s.shown w) ∧
    ∀ t, some t ∈ adapter.items → t ∈ s.items w ∨ t = s.shown w

theorem fieldCount_settingsFor (w : WheelId) (t : String) : (settingsFor w t).fieldCount = 1 := by
  cases w with
  | iso =>
    change (isoSettings t).fieldCount = 1
    unfold isoSettings
    split_ifs <;> rfl
  | _ => rfl

theorem settingsFor_listedIn {s : FullStatus} {w : WheelId} {t : String} (h : t ∈ s.items w) :
    (settingsFor w t).ListedIn s := by
  cases w with
  | iso =>
    change (isoSettings t).ListedIn s
    unfold isoSettings
    split_ifs with ha
    · constructor <;> simp
    · have hl : t ∈ s.lists.iso := by simpa [FullStatus.items, ha] using h
      constructor <;> simp [hl]
  | aperture =>
    have hl : t ∈ s.lists.aperture := h
    constructor <;> simp [settingsFor, apertureSettings, hl]
  | shutterSpeed =>
    have hl : t ∈ s.lists.shutterSpeed := h
    constructor <;> simp [settingsFor, shutterSpeedSettings, hl]
  | exposureMode =>
    have hl : t ∈ s.lists.exposureMode := h
    constructor <;> simp [settingsFor, exposureModeSettings, hl]

theorem offers_status {st : UiState} {s : FullStatus} (hc : NothingWithdrawn st (.status s)) :
    Offers (some s) { st with activity := s.applyTo st.activity } := by
  intro w adapter ha
  refine ⟨s, rfl, by simp [FullStatus.applyTo], ?_⟩
  rw [wheel_applyTo] at ha
  unfold FullStatus.showOn at ha
  split_ifs at ha with hi
  · obtain ⟨rfl, hs⟩ := hi
    exact hc hs adapter ha
  · obtain rfl : ArrayWheelAdapter.ofTexts (s.items w) = adapter := by simpa using ha
    intro t ht
    exact .inl (by simpa [ArrayWheelAdapter.ofTexts] using ht)

theorem wheel_event_remembered {st st' : UiState} {e : WheelEvent}
    (h : e.callback st = .ok () st') : st'.activity.remembered = st.activity.remembered := by
  rcases WheelEvent.callback_ok h with ⟨_, _, rfl⟩ | ⟨_, _, -, -, _, _, rfl⟩ <;> rfl

theorem offers_wheel {last : Option FullStatus} {st st' : UiState} {e : WheelEvent}
    (ho : Offers last st) (h : e.callback st = .ok () st') : Offers last st' := by
  intro w adapter ha
  rw [(wheel_event_index h w).1] at ha
  rw [wheel_event_remembered h]
  exact ho w adapter ha

theorem offers_step {last : Option FullStatus} {st st' : UiState} {e : PanelEvent}
    (ho : Offers last st) (hc : NothingWithdrawn st e) (h : panelStep st e = some st') :
    Offers (latest last e) st' := by
  cases e with
  | status s =>
    rw [panelStep_status h]
    exact offers_status hc
  | wheel e => exact offers_wheel ho (panelStep_wheel h).2

theorem offers_initial : Offers none {} := by
  intro w adapter ha
  cases w <;> cases ha

theorem posted_movesTo {st st' : UiState} {w : WheelId} {i : Int} {text : String}
    (h : MovesTo st st' w i text) : posted st st' = posts st w text := by
  obtain ⟨-, -, _, _, rfl⟩ := h
  simp [posted]

/-- From a state whose wheels offer listed items, a step posts at most one
setting, of a listed value. -/
theorem posted_listed {last : Option FullStatus} {st st' : UiState} {e : PanelEvent}
    (ho : Offers last st) (h : panelStep st e = some st') {task : Task} (ht : task ∈ posted st st') :
    ∃ s c, last = some s ∧ task = .postSettings c ∧ c.fieldCount = 1 ∧ c.ListedIn s := by
  cases e with
  | status s =>
    rw [panelStep_status h] at ht
    simp [posted] at ht
  | wheel e =>
    rcases WheelEvent.callback_ok (panelStep_wheel h).2 with ⟨_, _, rfl⟩ | ⟨i, text, hm⟩
    · simp [posted] at ht
    · obtain ⟨adapter, ha, -, -, hitem⟩ := hm.adapter
      obtain ⟨s, hs, hr, hl⟩ := ho e.wheel adapter ha
      rw [posted_movesTo hm, posts, hr] at ht
      split_ifs at ht with he
      · cases ht
      · obtain rfl : task = .postSettings (settingsFor e.wheel text) := by simpa using ht
        have hmem : text ∈ s.items e.wheel := by
          rcases hl text (List.mem_of_getElem? hitem) with hmem | rfl
          · exact hmem
          · exact absurd rfl he
        exact ⟨s, _, hs, rfl, fieldCount_settingsFor _ _, settingsFor_listedIn hmem⟩

def PostsListed (es : List PanelEvent) : Prop :=
  ∀ us e, us ++ [e] <+: es → ∀ st st', run panelStep {} us = some st → panelStep st e = some st' →
    ∀ task ∈ posted st st', ∃ s c, lastStatus us = some s ∧ task = .postSettings c ∧
      c.fieldCount = 1 ∧ c.ListedIn s

theorem postsListed_of_meets {es : List PanelEvent}
    (hc : Meets panelStep NothingWithdrawn {} es) : PostsListed es := by
  intro us e hp st st' hst h task ht
  obtain ⟨vs, rfl⟩ := hp
  rw [List.append_assoc] at hc
  have ho : Offers (lastStatus us) st :=
    run_history_invariant (fun _ _ _ _ => offers_step) offers_initial ((meets_append hst).mp hc).1 hst
  exact posted_listed ho h ht

def AutoOnTop (st : UiState) : Prop :=
  ∀ adapter ∈ (st.wheel .iso).viewAdapter, ∃ isos, adapter = .ofTexts (ISO_AUTO :: isos)

theorem autoOnTop_step {st st' : UiState} {e : PanelEvent} (hi : AutoOnTop st)
    (h : panelStep st e = some st') : AutoOnTop st' := by
  cases e with
  | status s =>
    rw [panelStep_status h]
    intro adapter ha
    rw [wheel_applyTo] at ha
    unfold FullStatus.showOn at ha
    split_ifs at ha
    · exact hi adapter ha
    · exact ⟨s.lists.iso, by simpa [FullStatus.items] using ha.symm⟩
  | wheel e =>
    intro adapter ha
    rw [(wheel_event_index (panelStep_wheel h).2 .iso).1] at ha
    exact hi adapter ha

theorem autoOnTop_run {es : List PanelEvent} {st : UiState} (h : run panelStep {} es = some st) :
    AutoOnTop st :=
  run_invariant (C := fun _ _ => True) (fun _ _ _ hi _ hst => autoOnTop_step hi hst)
    (fun adapter ha => by cases ha) (meets_of_forall (fun _ _ => trivial) _) h

theorem panelStep_moved {st : UiState} {w : WheelId} {texts : List String} {i : Nat} {t : String}
    (ha : (st.wheel w).viewAdapter = some (.ofTexts texts)) (hi : texts[i]? = some t)
    (hne : (i : Int) ≠ (st.wheel w).currentItem) :
    panelStep st (.wheel (.moved w i)) = some { st.setWheel w ((st.wheel w).movedTo i) with
      tasks := st.tasks ++ posts st w t } := by
  have hlt : i < texts.length := (List.getElem?_eq_some_iff.mp hi).1
  have hc : (st.wheel w).checkedIndex i = some (i : Int) :=
    WheelView.checkedIndex_of_lt ha (by omega) (by simpa using hlt)
  have he : (WheelEvent.moved w i).Enabled st := ⟨hc, hne⟩
  rw [panelStep, if_pos he, Ui.outcome_eq_some]
  exact setCurrentItem_item ha hc (ArrayWheelAdapter.getItemText_ofTexts hi) hne

/-- From any state the user can make the ISO wheel post an item it offers other
than AUTO and the remembered one: directly, or by way of AUTO. -/
theorem iso_item_postable {st : UiState} {isos : List String} {t : String}
    (ha : (st.wheel .iso).viewAdapter = some (.ofTexts (ISO_AUTO :: isos)))
    (ht : t ∈ isos) (hauto : t ≠ ISO_AUTO) (hr : st.activity.remembered.get .iso ≠ some t) :
    ∃ (ws : List WheelEvent) (e : WheelEvent) (st1 st2 : UiState),
      run panelStep st (ws.map .wheel) = some st1 ∧ panelStep st1 (.wheel e) = some st2 ∧
      .postSettings { iso := some t } ∈ posted st1 st2 := by
  obtain ⟨i, hi⟩ := List.mem_iff_getElem?.mp ht
  have hi' : (ISO_AUTO :: isos)[i + 1]? = some t := by simpa using hi
  have hset : settingsFor .iso t = { iso := some t } := if_neg hauto
  have hpost (st1 : UiState) (ha1 : (st1.wheel .iso).viewAdapter = (st.wheel .iso).viewAdapter)
      (hr1 : st1.activity.remembered = st.activity.remembered)
      (hne : ((i + 1 : Nat) : Int) ≠ (st1.wheel .iso).currentItem) : ∃ st2,
      panelStep st1 (.wheel (.moved .iso (i + 1 : Nat))) = some st2 ∧
      .postSettings { iso := some t } ∈ posted st1 st2 := by
    refine ⟨_, panelStep_moved (ha1.trans ha) hi' hne, ?_⟩
    simp [posted, posts, hr1, hr, hset]
  by_cases hcur : ((i + 1 : Nat) : Int) = (st.wheel .iso).currentItem
  · have hzero := panelStep_moved (i := 0) ha (t := ISO_AUTO) rfl (by omega)
    obtain ⟨st2, h2, hp⟩ := hpost { st.setWheel .iso ((st.wheel .iso).movedTo 0) with
      tasks := st.tasks ++ posts st .iso ISO_AUTO } (by simp [UiState.wheel_tasks, WheelView.movedTo])
      rfl (by simp [UiState.wheel_tasks, WheelView.movedTo]; omega)
    exact ⟨[.moved .iso 0], _, _, st2, run_cons_iff.mpr ⟨_, hzero, rfl⟩, h2, hp⟩
  · obtain ⟨st2, h2, hp⟩ := hpost st rfl rfl hcur
    exact ⟨[], _, st, st2, rfl, h2, hp⟩

theorem lastStatus_wheels (us : List PanelEvent) (s : FullStatus) (ws : List WheelEvent) :
    lastStatus (us ++ [.status s] ++ ws.map .wheel) = some s := by
  rw [lastStatus, List.foldl_append, List.foldl_append]
  change (ws.map PanelEvent.wheel).foldl latest (some s) = some s
  induction ws with
  | nil => rfl
  | cons e ws ih => exact ih

/-- A status that withdraws an item from under the scrolling ISO wheel leaves the
user a way to post that item. -/
theorem withdrawn_item_postable {us : List PanelEvent} {st : UiState} {s : FullStatus}
    (hst : run panelStep {} us = some st) (hc : ¬ NothingWithdrawn st (.status s)) :
    ∃ ws : List WheelEvent, ¬ PostsListed (us ++ [.status s] ++ ws.map .wheel) := by
  simp only [NothingWithdrawn, not_forall, not_or] at hc
  obtain ⟨hs, adapter, ha, t, ht, hni, hns⟩ := hc
  obtain ⟨isos, rfl⟩ := autoOnTop_run hst adapter ha
  have hauto : t ≠ ISO_AUTO := fun h => hni (by simp [FullStatus.items, h])
  have hmem : t ∈ isos := by
    simpa [ArrayWheelAdapter.ofTexts, hauto] using ht
  have hwheel : ({ st with activity := s.applyTo st.activity } : UiState).wheel .iso = st.wheel .iso := by
    rw [wheel_applyTo]
    simp [FullStatus.showOn, hs]
  obtain ⟨ws, e, st1, st2, h1, h2, hp⟩ := iso_item_postable (hwheel ▸ ha) hmem hauto
    (by simpa [FullStatus.applyTo] using Ne.symm hns)
  refine ⟨ws ++ [e], fun hl => ?_⟩
  have hrun : run panelStep {} (us ++ [.status s] ++ ws.map .wheel) = some st1 := by
    refine run_append_iff.mpr ⟨_, run_append_iff.mpr ⟨st, hst, ?_⟩, h1⟩
    simp [run, panelStep_status_eq]
  obtain ⟨s', c, hs', hc, -, hlist⟩ := hl _ (.wheel e) (by simp) st1 st2 hrun h2 _ hp
  rw [lastStatus_wheels, Option.some.injEq] at hs'
  subst hs'
  obtain rfl : _ = c := by simpa using hc
  exact hni (List.mem_cons_of_mem _ (hlist.iso t rfl))

/-- However the user scrolls, before and after, the wheels post listed values
exactly when no status withdraws an item from under the scrolling ISO wheel. -/
theorem wheel_posts_listed_iff (es : List PanelEvent) :
    (∀ us, us <+: es → ∀ ws : List WheelEvent, PostsListed (us ++ ws.map .wheel)) ↔
      Meets panelStep NothingWithdrawn {} es := by
  constructor
  · intro h
    rw [meets_iff]
    intro us e hp st hst
    cases e with
    | wheel e => trivial
    | status s =>
      by_contra hc
      obtain ⟨ws, hl⟩ := withdrawn_item_postable hst hc
      exact hl (h _ hp ws)
  · rintro hc us ⟨vs, rfl⟩ ws
    refine postsListed_of_meets (hc.of_append.append_of_forall fun e he m => ?_)
    obtain ⟨w, -, rfl⟩ := List.mem_map.mp he
    trivial

/-- The ISO wheel still scrolls over three items when a status comes that lists
only two, and the user still posts the third. -/
theorem scrolling_iso_wheel_posts_withdrawn : ∃ es st st' s,
    run panelStep {} es = some st ∧ lastStatus es = some s ∧
    panelStep st (.wheel (.moved .iso 2)) = some st' ∧
    posted st st' = [.postSettings { iso := some "200" }] ∧
    ¬ CameraSettings.ListedIn { iso := some "200" } s :=
  ⟨[.status (sampleStatus ["f/2"] "f/2" ["100", "200"] "100"), .wheel (.started .iso),
      .status (sampleStatus ["f/2"] "f/2" ["100"] "100")], _, _, _, rfl, rfl, rfl, rfl,
    fun h => absurd (h.iso "200" rfl) (by decide)⟩

end CameraClient
