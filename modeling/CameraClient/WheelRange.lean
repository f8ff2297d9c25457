import CameraClient.WheelRows

/-! A column brought to the range of a draw: children out of the range are set aside, and the
rows of the range that are missing are added. -/
namespace CameraClient
open Runs Slices StateError

namespace WheelItems
variable {st st' : WheelItems} {j : Int}

section Recycle
variable (range : ItemsRange)

theorem recycleView_eq (view : ItemView) (h : st.view.HasItem j) :
    WheelRecycle.recycleView view j st = .ok () { st with items := st.items ++ [view] } := by
  obtain ⟨adapter, ha, h0, hn⟩ := h
  have hin : ¬ (j < 0 ∨ adapter.getItemsCount ≤ j) := by omega
  simp [WheelRecycle.recycleView, ha, hin]

theorem recycleLoop_kept (first : Int) (rest : List ItemView) {kept : List ItemView} {index : Int}
    (hk : kept ≠ []) (hi : range.first ≤ index)
    (hs : IsSlice st.view.textAt index (rest.map ItemView.text)) :
    ∃ mid tails, rest = mid ++ tails ∧
      WheelRecycle.recycleLoop range kept rest index first st =
        .ok (kept ++ mid, first) { st with items := st.items ++ tails } ∧
      (mid ≠ [] → index + mid.length - 1 ≤ range.getLast) := by
  induction rest generalizing st kept index with
  | nil =>
    refine ⟨[], [], rfl, ?_, fun h => absurd rfl h⟩
    simp [WheelRecycle.recycleLoop]
  | cons view rest ih =>
    rw [List.map_cons, isSlice_cons] at hs
    by_cases hc : range.contains index = true
    · have hlast : index ≤ range.getLast := by
        simp only [ItemsRange.contains, decide_eq_true_eq] at hc
        omega
      have hkept : kept ++ [view] ≠ [] := by simp
      obtain ⟨mid, tails, hrest, hr, hb⟩ := ih hkept (by omega) hs.2
      refine ⟨view :: mid, tails, by rw [hrest, List.cons_append], ?_, ?_⟩
      · rw [WheelRecycle.recycleLoop, if_pos hc, hr]
        simp
      · intro _
        rw [List.length_cons]
        by_cases hm : mid = []
        · rw [hm, List.length_nil]
          omega
        · have := hb hm
          omega
    · have hlast : range.getLast < index := by
        simp only [ItemsRange.contains, decide_eq_true_eq] at hc
        omega
      have hview := recycleView_eq view (hasItem_of_textAt hs.1)
      let st1 : WheelItems := { st with items := st.items ++ [view] }
      have hs1 : IsSlice st1.view.textAt (index + 1) (rest.map ItemView.text) := hs.2
      obtain ⟨mid, tails, hrest, hr, hb⟩ := ih hk (by omega) hs1
      have hm : mid = [] := by
        by_contra hm
        have := hb hm
        have := List.length_pos_of_ne_nil hm
        omega
      subst hm
      refine ⟨[], view :: tails, by rw [hrest]; rfl, ?_, fun h => absurd rfl h⟩
      rw [WheelRecycle.recycleLoop, if_neg hc, bind_ok hview, if_neg hk, hr]
      simp [st1]

theorem recycleLoop_eq (rest : List ItemView) {index : Int}
    (hs : IsSlice st.view.textAt index (rest.map ItemView.text)) :
    ∃ heads mid tails, rest = heads ++ mid ++ tails ∧
      WheelRecycle.recycleLoop range [] rest index index st =
        .ok (mid, index + heads.length) { st with items := st.items ++ heads ++ tails } ∧
      (mid ≠ [] → range.first ≤ index + heads.length ∧
        index + heads.length + mid.length - 1 ≤ range.getLast) ∧ (mid = [] → tails = []) := by
  induction rest generalizing st index with
  | nil =>
    refine ⟨[], [], [], rfl, ?_, fun h => absurd rfl h, fun _ => rfl⟩
    simp [WheelRecycle.recycleLoop]
  | cons view rest ih =>
    rw [List.map_cons, isSlice_cons] at hs
    by_cases hc : range.contains index = true
    · have hin : range.first ≤ index ∧ index ≤ range.getLast := by
        simpa only [ItemsRange.contains, decide_eq_true_eq] using hc
      have hkept : [view] ≠ [] := by simp
      obtain ⟨mid, tails, hrest, hr, hb⟩ :=
        recycleLoop_kept range index rest hkept (by omega) hs.2
      refine ⟨[], view :: mid, tails, by rw [hrest]; rfl, ?_, ?_, fun h => by cases h⟩
      · rw [WheelRecycle.recycleLoop, if_pos hc, List.nil_append, hr]
        simp
      · intro _
        rw [List.length_cons, List.length_nil]
        by_cases hm : mid = []
        · rw [hm, List.length_nil]
          omega
        · have := hb hm
          omega
    · have hview := recycleView_eq view (hasItem_of_textAt hs.1)
      let st1 : WheelItems := { st with items := st.items ++ [view] }
      have hs1 : IsSlice st1.view.textAt (index + 1) (rest.map ItemView.text) := hs.2
      obtain ⟨heads, mid, tails, hrest, hr, hb, hnone⟩ := ih hs1
      refine ⟨view :: heads, mid, tails, by rw [hrest]; rfl, ?_, ?_, hnone⟩
      · rw [WheelRecycle.recycleLoop, if_neg hc, bind_ok hview, if_pos rfl, hr, List.length_cons]
        have he : index + 1 + (heads.length : Int) = index + ((heads.length + 1 : Nat) : Int) := by
          omega
        rw [he]
        simp [st1]
      · intro hm
        have := hb hm
        rw [List.length_cons]
        omega

structure Recycled (st : WheelItems) (range : ItemsRange) (first : Int) (st' : WheelItems) :
    Prop where
  pool : st'.Pool
  column : ∃ children, st'.itemsLayout = some children
  view : st'.view = st.view
  total : st'.total = st.total
  created : st'.created = st.created
  rows : IsSlice st.view.textAt first (st'.children.map ItemView.text)
  inside : st'.children ≠ [] →
    range.first ≤ first ∧ first + st'.children.length - 1 ≤ range.getLast
  shown : first = st.firstItem → st'.children <+: st.children
  emptied : st.children ≠ [] → st'.children = [] → st.view.HasItem (first - 1)
  stays : st.children = [] → first = st.firstItem ∧ st'.children = []

theorem recycleItems_eq {children : List ItemView} (hk : st.Kept)
    (hl : st.itemsLayout = some children) : ∃ first st',
      WheelRecycle.recycleItems children st.firstItem range st = .ok first st' ∧
      st'.firstItem = st.firstItem ∧ st.Recycled range first st' := by
  have hc := children_eq hl
  have hrows := hk.rows
  rw [hc] at hrows
  obtain ⟨heads, mid, tails, hsplit, hloop, hin, hnone⟩ :=
    recycleLoop_eq range children hrows
  have hs : IsSlice st.view.textAt (st.firstItem + heads.length) (mid.map ItemView.text) := by
    rw [hsplit, List.map_append, List.map_append] at hrows
    have hm := hrows.middle
    rwa [List.length_map] at hm
  have hperm : (mid ++ (st.items ++ heads ++ tails)).Perm (st.children ++ st.items) := by
    rw [hc, hsplit]
    have h1 : (mid ++ (st.items ++ heads ++ tails)).Perm
        ((st.items ++ heads ++ tails) ++ mid) := List.perm_append_comm
    have h2 : (st.items ++ heads ++ tails ++ mid).Perm (st.items ++ (heads ++ mid ++ tails)) := by
      simp only [List.append_assoc]
      exact (List.perm_append_comm.append_left heads).append_left st.items
    exact h1.trans (h2.trans List.perm_append_comm)
  refine ⟨st.firstItem + heads.length,
    { st with itemsLayout := some mid, items := st.items ++ heads ++ tails }, ?_, rfl, ?_⟩
  · rw [WheelRecycle.recycleItems, bind_ok hloop]
    simp
  · refine ⟨⟨(hperm.map ItemView.id).nodup_iff.mpr hk.distinct, ?_, hk.noEmpty⟩, ⟨mid, rfl⟩, rfl,
      ?_, rfl, hs, hin, ?_, ?_, ?_⟩
    · intro view hv
      exact hk.made view (hperm.mem_iff.mp hv)
    · have hlen := hperm.length_eq
      rw [@List.length_append _ mid, @List.length_append _ st.children] at hlen
      exact hlen
    · intro he
      have hnil : heads = [] := List.length_eq_zero_iff.mp (by omega)
      rw [hnil, List.nil_append] at hsplit
      exact ⟨tails, (hc.trans hsplit).symm⟩
    · intro hne hmid
      have hmid : mid = [] := hmid
      rw [hmid, hnone hmid, List.append_nil, List.append_nil] at hsplit
      have hpos := List.length_pos_of_ne_nil hne
      rw [hc, hsplit] at hpos
      exact hasItem_of_rows hrows (by omega) (by rw [hsplit]; omega)
    · intro hnil
      rw [hc] at hnil
      rw [hnil] at hsplit
      have hz := congrArg List.length hsplit.symm
      rw [List.length_append, List.length_append, List.length_nil] at hz
      have hmid : mid = [] := List.length_eq_zero_iff.mp (by omega)
      exact ⟨by omega, hmid⟩

theorem recycleOrCreate_eq (hk : st.Kept) : ∃ updated st',
    recycleOrCreate range st = .ok updated st' ∧ st.Recycled range st'.firstItem st' ∧
    (updated = false → st'.firstItem = st.firstItem) := by
  cases hl : st.itemsLayout with
  | none =>
    have hc : st.children = [] := by rw [children, hl, Option.getD_none]
    have hd := hk.distinct
    have hm := hk.made
    rw [hc] at hd hm
    refine ⟨true, { st with itemsLayout := some [] }, by simp [recycleOrCreate, hl], ?_, ?_⟩
    · refine ⟨⟨hd, hm, hk.noEmpty⟩, ⟨[], rfl⟩, rfl, by simp [total, children, hl], rfl, trivial,
        fun h => absurd rfl h, fun _ => List.nil_prefix, fun h => absurd hc h, fun _ => ⟨rfl, rfl⟩⟩
    · intro h
      cases h
  | some children =>
    obtain ⟨first, st1, h1, hf, hr⟩ := recycleItems_eq range hk hl
    refine ⟨decide (st.firstItem ≠ first), { st1 with firstItem := first }, ?_, ?_, ?_⟩
    · simp [recycleOrCreate, hl, h1]
    · exact ⟨hr.pool.withFirst first, hr.column, hr.view, hr.total, hr.created, hr.rows, hr.inside, hr.shown,
        hr.emptied, hr.stays⟩
    · intro he
      have hsame : st.firstItem = first := not_not.mp (decide_eq_false_iff_not.mp he)
      exact hsame.symm

/-- The number of the first row is left over from a longer list: the column is empty, and the
loop upwards would start behind the last item. -/
structure Stale (st : WheelItems) (range : ItemsRange) : Prop where
  empty : st.children = []
  above : range.first < st.firstItem
  below : st.firstItem ≤ range.getLast
  past : ∀ j, st.view.HasItem j → j + 1 < st.firstItem

/-- The column `reachFirst` leaves, from whose first row on the rest is filled up. -/
structure Reaches (st : WheelItems) (range : ItemsRange) (st' : WheelItems) : Prop where
  kept : st'.Kept
  extend : ∃ k, st.Extends k st'
  first : range.first ≤ st'.firstItem
  count : st'.children.length ≤ range.count.toNat
  covers : ¬ st.Stale range → ∀ j, st.view.HasItem j → range.first ≤ j → st'.firstItem ≤ j
  stale : st.Stale range → st'.children = [] ∧ st'.firstItem = st.firstItem

variable {range} {children : List ItemView}

theorem reachFirst_yields (hk : st.Kept) (hl : st.itemsLayout = some children)
    (hin : st.children ≠ [] → range.first ≤ st.firstItem ∧
      st.firstItem + st.children.length - 1 ≤ range.getLast) :
    Yields st.view.Raises (reachFirst range) st fun _ st' => st.Reaches range st' := by
  have hlast : range.getLast = range.first + range.count - 1 := rfl
  by_cases hup : st.firstItem > range.first ∧ st.firstItem ≤ range.getLast
  · have hrun : reachFirst range st =
        addAbove (st.firstItem - range.first).toNat (st.firstItem - 1) st := by
      simp [reachFirst, hup]
    rw [Yields, hrun, ← Yields]
    apply (addAbove_yields (st.firstItem - range.first).toNat hk hl rfl).mono
    rintro _ st' ⟨hk', k, hkn, hext, hfirst, hno⟩
    have hcount := hext.count
    have hrows := hk'.rows
    rw [hext.view] at hrows
    refine ⟨hk', ⟨k, hext⟩, by omega, ?_, ?_, ?_⟩
    · by_cases hnil : st.children = []
      · rw [hnil, List.length_nil] at hcount
        omega
      · have := hin hnil
        omega
    · intro hfresh j hj hle
      by_contra hlt
      have hstop := hno (by omega)
      by_cases hnil : st'.children = []
      · rw [hnil, List.length_nil] at hcount
        have hempty : st.children = [] := List.length_eq_zero_iff.mp (by omega)
        apply hfresh
        refine ⟨hempty, hup.1, hup.2, ?_⟩
        intro j' hj'
        by_contra hge
        exact hstop (hasItem_between hj (by omega) (by omega) hj')
      · have hpos := List.length_pos_of_ne_nil hnil
        have hhead := hasItem_of_rows hrows (Int.le_refl _) (by omega)
        exact hstop (hasItem_between hj (by omega) (by omega) hhead)
    · intro hs
      have hzero : k = 0 := by
        by_contra hpos
        have hitem : st.view.HasItem (st.firstItem - 1) :=
          hasItem_of_rows hrows (by omega) (by omega)
        have := hs.past _ hitem
        omega
      rw [hs.empty, List.length_nil] at hcount
      exact ⟨List.length_eq_zero_iff.mp (by omega), by omega⟩
  · have hrun : reachFirst range st = .ok () { st with firstItem := range.first } := by
      simp only [reachFirst, bind_apply, get_apply, if_neg hup, modify_apply]
    have hrows : IsSlice st.view.textAt range.first (st.children.map ItemView.text) := by
      by_cases hnil : st.children = []
      · rw [hnil]
        trivial
      · have hb := hin hnil
        have hpos := List.length_pos_of_ne_nil hnil
        have he : st.firstItem = range.first := by omega
        rw [← he]
        exact hk.rows
    refine yields_ok hrun ⟨⟨hk.toPool.withFirst _, hrows⟩,
      ⟨0, (Extends.refl hk.toPool hl).withFirst _⟩, Int.le_refl _, ?_, ?_, ?_⟩
    · show st.children.length ≤ range.count.toNat
      by_cases hnil : st.children = []
      · simp [hnil]
      · have := hin hnil
        omega
    · intro _ j _ hle
      exact hle
    · intro hs
      exact absurd ⟨hs.above, hs.below⟩ hup

structure Filled (st : WheelItems) (range : ItemsRange) (st' : WheelItems) : Prop where
  kept : st'.Kept
  column : ∃ children, st'.itemsLayout = some children
  view : st'.view = st.view
  total : st'.total ≤ max st.total range.count.toNat
  created : st'.created + st.total = st.created + st'.total
  count : st'.children.length ≤ range.count.toNat
  covers : ¬ st.Stale range → ∀ j, st.view.HasItem j → range.first ≤ j → j ≤ range.getLast →
    st'.firstItem ≤ j ∧ j < st'.firstItem + st'.children.length
  stale : st.Stale range → st'.children = [] ∧ range.getLast < st'.firstItem

theorem fillRange_yields (hk : st.Kept) (hl : st.itemsLayout = some children)
    (hin : st.children ≠ [] → range.first ≤ st.firstItem ∧
      st.firstItem + st.children.length - 1 ≤ range.getLast) :
    Yields st.view.Raises (fillRange range) st fun _ st' => st.Filled range st' := by
  have hlast : range.getLast = range.first + range.count - 1 := rfl
  rw [fillRange]
  apply (reachFirst_yields hk hl hin).bind
  intro _ st1 hr
  obtain ⟨k, hext⟩ := hr.extend
  obtain ⟨children1, hl1⟩ := hext.column
  have hcount := hr.count
  have hfirst := hr.first
  rw [Yields, bind_ok (get_apply _), ← Yields, ← hext.view]
  apply (addBelow_yields (range.count - st1.childCount).toNat hr.kept.toPool hl1 hr.kept.rows
    (by rw [childCount])).bind
  intro first' st2 hb
  obtain ⟨m, hm, hext2⟩ := hb.extend
  have hlen := hext2.count
  have htotal := (hext.trans hext2).total
  have hchild : st1.childCount = st1.children.length := rfl
  refine yields_ok (modify_apply _ _) ⟨⟨hb.extend.choose_spec.2.pool.withFirst _, ?_⟩,
    hext2.column, hext2.view.trans hext.view, ?_, (hext.trans hext2).created, ?_, ?_, ?_⟩
  · show IsSlice st2.view.textAt first' (st2.children.map ItemView.text)
    rw [hext2.view]
    exact hb.rows
  · show st2.total ≤ max st.total range.count.toNat
    omega
  · show st2.children.length ≤ range.count.toNat
    omega
  · intro hfresh j hj hge hle
    have hj1 : st1.view.HasItem j := by
      rw [hext.view]
      exact hj
    exact hb.covers j (hr.covers hfresh j hj hge) (by omega) hj1
  · intro hs
    obtain ⟨hnil, hsame⟩ := hr.stale hs
    have hnone : st2.children = [] := by
      by_contra hne
      have hpos := List.length_pos_of_ne_nil hne
      have hitem := hasItem_of_rows hb.rows (Int.le_refl _) (by omega)
      rw [hext.view] at hitem
      have := hs.past _ hitem
      have := hb.later
      omega
    have hlast1 := hb.none hnone
    have habove := hs.above
    rw [hnil, List.length_nil] at hchild
    refine ⟨hnone, ?_⟩
    show range.getLast < first'
    omega

theorem fillRange_same (hfirst : st.firstItem = range.first) (hcount : st.childCount = range.count) :
    fillRange range st = .ok () st := by
  have hsame : { st with firstItem := range.first } = st := by rw [← hfirst]
  have hup : ¬ (st.firstItem > range.first ∧ st.firstItem ≤ range.getLast) := by omega
  have hreach : reachFirst range st = .ok () st := by
    simp only [reachFirst, bind_apply, get_apply, if_neg hup, modify_apply, hsame]
  have hzero : (range.count - st.childCount).toNat = 0 := by omega
  rw [fillRange, bind_ok hreach, bind_ok (get_apply _), hzero]
  rfl

theorem Recycled.stale_iff {st1 : WheelItems} (h : st.Recycled range st1.firstItem st1) :
    st1.Stale range ↔ st.Stale range := by
  constructor
  · intro hs
    have hempty : st.children = [] := by
      by_contra hne
      have hitem := h.emptied hne hs.empty
      rw [← h.view] at hitem
      have := hs.past _ hitem
      omega
    have hsame := (h.stays hempty).1
    exact ⟨hempty, hsame ▸ hs.above, hsame ▸ hs.below, hsame ▸ h.view ▸ hs.past⟩
  · intro hs
    obtain ⟨hsame, hempty⟩ := h.stays hs.empty
    refine ⟨hempty, hsame ▸ hs.above, hsame ▸ hs.below, ?_⟩
    intro j hj
    rw [h.view] at hj
    rw [hsame]
    exact hs.past j hj

theorem Recycled.filled {st1 st2 : WheelItems} (h : st.Recycled range st1.firstItem st1)
    (hf : st1.Filled range st2) : st.Filled range st2 := by
  refine ⟨hf.kept, hf.column, hf.view.trans h.view, h.total ▸ hf.total, ?_, hf.count, ?_, ?_⟩
  · rw [← h.total, ← h.created]
    exact hf.created
  · intro hfresh j hj
    rw [← h.view] at hj
    exact hf.covers (fun hs => hfresh (h.stale_iff.mp hs)) j hj
  · intro hs
    exact hf.stale (h.stale_iff.mpr hs)

/-- `rebuildItems` fills the range; where it denies that, the column only lost rows at its end. -/
theorem rebuildItems_yields {layout : Layout} (hk : st.Kept)
    (hr : st.getItemsRange layout = some range) :
    Yields st.view.Raises (rebuildItems layout) st fun updated st' =>
      st.Filled range st' ∧ (updated = false → st'.children <+: st.children) := by
  obtain ⟨updated, st1, hrun, hrec, hfalse⟩ := recycleOrCreate_eq range hk
  obtain ⟨children1, hl1⟩ := hrec.column
  have hk1 : st1.Kept := ⟨hrec.pool, by rw [hrec.view]; exact hrec.rows⟩
  have hgoal : rebuildItems layout st = (fillRange range >>= fun _ =>
      pure (updated || decide (st1.firstItem ≠ range.first ∨ st1.childCount ≠ range.count))) st1 := by
    simp only [rebuildItems, bind_apply, get_apply, hr, hrun]
  rw [Yields, hgoal, ← Yields, ← hrec.view]
  have hfill := fillRange_yields hk1 hl1 hrec.inside
  by_cases hdone : st1.firstItem = range.first ∧ st1.childCount = range.count
  · have hsame := fillRange_same hdone.1 hdone.2
    have hf := hfill.of_ok hsame
    have hno : ¬ (st1.firstItem ≠ range.first ∨ st1.childCount ≠ range.count) := by omega
    refine yields_ok (b := updated) (t := st1) ?_ ⟨hrec.filled hf, ?_⟩
    · rw [bind_ok hsame, decide_eq_false hno, Bool.or_false]
      rfl
    · intro h
      exact hrec.shown (hfalse h)
  · apply hfill.bind
    intro _ st2 hf
    refine yields_ok rfl ⟨hrec.filled hf, ?_⟩
    intro h
    rw [Bool.or_eq_false_iff, decide_eq_false_iff_not] at h
    exact absurd (by omega) h.2

end Recycle

end WheelItems

end CameraClient
