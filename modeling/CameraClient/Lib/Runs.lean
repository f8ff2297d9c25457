import Mathlib.Algebra.GroupWithZero.Nat
import Mathlib.Data.List.Basic
import Mathlib.Tactic.Common

/-! Runs of a deterministic labelled machine whose step may be refused.
`Meets` is the per-step side condition of a run, `run_invariant` the one
induction every safety result of a machine goes through. -/
namespace Runs
variable {σ ι : Type*}

/-- Fire the events in order; `none` as soon as one of them is not enabled. -/
def run (step : σ → ι → Option σ) : σ → List ι → Option σ
  | s, [] => some s
  | s, e :: es => (step s e).bind fun s' => run step s' es

/-- Every event of the run satisfies `C` in the state it is fired from. -/
def Meets (step : σ → ι → Option σ) (C : σ → ι → Prop) : σ → List ι → Prop
  | _, [] => True
  | s, e :: es => C s e ∧ ∀ s' ∈ step s e, Meets step C s' es

def trace {τ : Type*} (step : σ → ι → Option σ) (obs : σ → ι → List τ) : σ → List ι → List τ
  | _, [] => []
  | s, e :: es => obs s e ++ ((step s e).elim [] fun s' => trace step obs s' es)

instance decMeets (step : σ → ι → Option σ) (C : σ → ι → Prop) [∀ s e, Decidable (C s e)] :
    ∀ s es, Decidable (Meets step C s es)
  | _, [] => isTrue trivial
  | s, e :: es =>
    have := fun s' => decMeets step C s' es
    inferInstanceAs (Decidable (C s e ∧ ∀ s' ∈ step s e, Meets step C s' es))

variable {step : σ → ι → Option σ} {C D : σ → ι → Prop}

@[simp] theorem run_nil (s : σ) : run step s [] = some s := rfl

theorem run_cons_iff {s t : σ} {e : ι} {es : List ι} :
    run step s (e :: es) = some t ↔ ∃ s', step s e = some s' ∧ run step s' es = some t := by
  simp [run, Option.bind_eq_some_iff]

theorem run_append_iff {s t : σ} {us vs : List ι} :
    run step s (us ++ vs) = some t ↔ ∃ m, run step s us = some m ∧ run step m vs = some t := by
  induction us generalizing s with
  | nil => simp
  | cons e us ih =>
    simp only [List.cons_append, run_cons_iff, ih]
    constructor
    · rintro ⟨s', hs, m, hm, ht⟩
      exact ⟨m, ⟨s', hs, hm⟩, ht⟩
    · rintro ⟨m, ⟨s', hs, hm⟩, ht⟩
      exact ⟨s', hs, m, hm, ht⟩

theorem meets_cons_of_step {s s' : σ} {e : ι} {es : List ι} (h : step s e = some s') :
    Meets step C s (e :: es) ↔ C s e ∧ Meets step C s' es := by
  simp [Meets, h]

theorem meets_append {s m : σ} {us vs : List ι} (h : run step s us = some m) :
    Meets step C s (us ++ vs) ↔ Meets step C s us ∧ Meets step C m vs := by
  induction us generalizing s with
  | nil =>
    obtain rfl : s = m := by simpa using h
    simp [Meets]
  | cons e us ih =>
    obtain ⟨s', hs, hr⟩ := run_cons_iff.mp h
    rw [List.cons_append, meets_cons_of_step hs, meets_cons_of_step hs, ih hr, and_assoc]

theorem meets_iff {s : σ} {es : List ι} : Meets step C s es ↔
    ∀ us e, us ++ [e] <+: es → ∀ m, run step s us = some m → C m e := by
  induction es generalizing s with
  | nil => simp [Meets]
  | cons e es ih =>
    constructor
    · rintro ⟨hc, h⟩ us u hp m hm
      cases us with
      | nil =>
        obtain rfl : u = e := by simpa using hp
        obtain rfl : s = m := by simpa using hm
        exact hc
      | cons v us =>
        obtain ⟨rfl, hq⟩ := List.cons_prefix_cons.mp hp
        obtain ⟨s', hs, hr⟩ := run_cons_iff.mp hm
        exact ih.mp (h s' hs) us u hq m hr
    · intro h
      refine ⟨h [] e (by simp) s rfl, fun s' hs => ih.mpr fun us u hp m hm => ?_⟩
      exact h (e :: us) u (by simpa using hp) m (run_cons_iff.mpr ⟨s', hs, hm⟩)

theorem meets_of_forall {A : ι → Prop} {es : List ι} (h : ∀ e ∈ es, A e) (s : σ) :
    Meets step (fun _ e => A e) s es := by
  induction es generalizing s with
  | nil => trivial
  | cons e es ih =>
    exact ⟨h e (by simp), fun s' _ => ih (fun x hx => h x (List.mem_cons_of_mem e hx)) s'⟩

theorem Meets.of_append {s : σ} {us vs : List ι} (h : Meets step C s (us ++ vs)) :
    Meets step C s us := by
  induction us generalizing s with
  | nil => trivial
  | cons e us ih => exact ⟨h.1, fun s' hs => ih (h.2 s' hs)⟩

theorem Meets.append_of_forall {s : σ} {us vs : List ι} (h : Meets step C s us)
    (hv : ∀ e ∈ vs, ∀ m, C m e) : Meets step C s (us ++ vs) := by
  induction us generalizing s with
  | nil =>
    induction vs generalizing s with
    | nil => trivial
    | cons e vs ih =>
      exact ⟨hv e (by simp) s, fun s' _ => ih (fun x hx => hv x (List.mem_cons_of_mem e hx)) trivial⟩
  | cons e us ih => exact ⟨h.1, fun s' hs => ih (h.2 s' hs)⟩

theorem run_invariant {I : σ → Prop} {s t : σ} {es : List ι}
    (hstep : ∀ s e s', I s → C s e → step s e = some s' → I s')
    (h0 : I s) (hc : Meets step C s es) (h : run step s es = some t) : I t := by
  induction es generalizing s with
  | nil =>
    obtain rfl : s = t := by simpa using h
    exact h0
  | cons e es ih =>
    obtain ⟨s', hs, hr⟩ := run_cons_iff.mp h
    exact ih (hstep s e s' h0 hc.1 hs) (hc.2 s' hs) hr

theorem Meets.mono_of_invariant {I : σ → Prop} {s : σ} {es : List ι}
    (hstep : ∀ s e s', I s → C s e → step s e = some s' → I s')
    (himp : ∀ s e, I s → C s e → D s e) (h0 : I s) (hc : Meets step C s es) :
    Meets step D s es := by
  induction es generalizing s with
  | nil => trivial
  | cons e es ih =>
    exact ⟨himp s e h0 hc.1, fun s' hs => ih (hstep s e s' h0 hc.1 hs) (hc.2 s' hs)⟩

/-- A debt rule: where each step either pays `C` now or passes it on as `P`, a
run pays `C` throughout and ends free of debt exactly when it incurs only `D`. -/
theorem meets_exchange {A : ι → Prop} {P : σ → Prop} {s t : σ} {es : List ι}
    (hstep : ∀ s e s', A e → step s e = some s' → (C s e ∧ P s' ↔ P s ∧ D s e))
    (ha : ∀ e ∈ es, A e) (h : run step s es = some t) :
    (Meets step C s es ∧ P t) ↔ (P s ∧ Meets step D s es) := by
  induction es generalizing s with
  | nil =>
    obtain rfl : s = t := by simpa using h
    simp [Meets]
  | cons e es ih =>
    obtain ⟨s', hs, hr⟩ := run_cons_iff.mp h
    have hse := hstep s e s' (ha e (by simp)) hs
    have hrest := ih (fun x hx => ha x (List.mem_cons_of_mem e hx)) hr
    rw [meets_cons_of_step hs, meets_cons_of_step hs]
    constructor
    · rintro ⟨⟨hc, hm⟩, ht⟩
      obtain ⟨hp', hd'⟩ := hrest.mp ⟨hm, ht⟩
      obtain ⟨hp, hd⟩ := hse.mp ⟨hc, hp'⟩
      exact ⟨hp, hd, hd'⟩
    · rintro ⟨hp, hd, hd'⟩
      obtain ⟨hc, hp'⟩ := hse.mpr ⟨hp, hd⟩
      obtain ⟨hm, ht⟩ := hrest.mpr ⟨hp', hd'⟩
      exact ⟨⟨hc, hm⟩, ht⟩

/-- The same rule for a property that also looks at a record kept of the events. -/
theorem run_history_invariant {η : Type*} {record : η → ι → η} {I : η → σ → Prop}
    {h0 : η} {s t : σ} {es : List ι}
    (hstep : ∀ h s e s', I h s → C s e → step s e = some s' → I (record h e) s')
    (hs : I h0 s) (hc : Meets step C s es) (h : run step s es = some t) :
    I (es.foldl record h0) t := by
  induction es generalizing s h0 with
  | nil =>
    obtain rfl : s = t := by simpa using h
    exact hs
  | cons e es ih =>
    obtain ⟨s', hst, hr⟩ := run_cons_iff.mp h
    exact ih (hstep h0 s e s' hs hc.1 hst) (hc.2 s' hst) hr

/-- A flag that some steps set and others clear is up after a run just when it was and is not
cleared, or some step sets it and none clears it after that. -/
theorem run_flag_iff (flag : σ → Prop) {sets clears : σ → ι → Prop} {s t : σ} {es : List ι}
    (hstep : ∀ s e s', step s e = some s' → (flag s' ↔ sets s e ∨ flag s ∧ ¬ clears s e))
    (h : run step s es = some t) : flag t ↔
      (flag s ∧ Meets step (fun s e => ¬ clears s e) s es) ∨
      ∃ us e vs m m', es = us ++ e :: vs ∧ run step s us = some m ∧ step m e = some m' ∧
        sets m e ∧ Meets step (fun s e => ¬ clears s e) m' vs := by
  induction es generalizing s with
  | nil =>
    obtain rfl : s = t := by simpa using h
    simp [Meets]
  | cons e es ih =>
    obtain ⟨s', hs, hr⟩ := run_cons_iff.mp h
    rw [ih hr, hstep s e s' hs, meets_cons_of_step hs]
    constructor
    · rintro (⟨hset | ⟨hf, hc⟩, hm⟩ | ⟨us, d, vs, m, m', rfl, hus, hd, hset, hm⟩)
      · exact .inr ⟨[], e, es, s, s', rfl, rfl, hs, hset, hm⟩
      · exact .inl ⟨hf, hc, hm⟩
      · exact .inr ⟨e :: us, d, vs, m, m', rfl, run_cons_iff.mpr ⟨s', hs, hus⟩, hd, hset, hm⟩
    · rintro (⟨hf, hc, hm⟩ | ⟨us, d, vs, m, m', he, hus, hd, hset, hm⟩)
      · exact .inl ⟨.inr ⟨hf, hc⟩, hm⟩
      · cases us with
        | nil =>
          obtain ⟨rfl, rfl⟩ := List.cons.inj he
          obtain rfl : s = m := by simpa using hus
          obtain rfl : s' = m' := by simpa [hs] using hd
          exact .inl ⟨.inl hset, hm⟩
        | cons u us =>
          obtain ⟨rfl, rfl⟩ := List.cons.inj he
          obtain ⟨s'', hs', hus⟩ := run_cons_iff.mp hus
          obtain rfl : s' = s'' := by simpa [hs] using hs'
          exact .inr ⟨us, d, vs, m, m', rfl, hus, hd, hset, hm⟩

/-- Where an invariant says which steps are enabled, a run goes through just when its steps are
the ones. -/
theorem exists_run_iff_meets {I : σ → Prop} {A : ι → Prop} {s : σ} {es : List ι}
    (hen : ∀ s e, I s → A e → ((∃ s', step s e = some s') ↔ C s e))
    (hstep : ∀ s e s', I s → A e → step s e = some s' → I s')
    (h0 : I s) (ha : ∀ e ∈ es, A e) : (∃ t, run step s es = some t) ↔ Meets step C s es := by
  induction es generalizing s with
  | nil => exact ⟨fun _ => trivial, fun _ => ⟨s, rfl⟩⟩
  | cons e es ih =>
    have hae := ha e List.mem_cons_self
    have harest : ∀ x ∈ es, A x := fun x hx => ha x (List.mem_cons_of_mem e hx)
    constructor
    · rintro ⟨t, ht⟩
      obtain ⟨s', hs, hr⟩ := run_cons_iff.mp ht
      rw [meets_cons_of_step hs]
      exact ⟨(hen s e h0 hae).mp ⟨s', hs⟩, (ih (hstep s e s' h0 hae hs) harest).mp ⟨t, hr⟩⟩
    · intro hm
      obtain ⟨s', hs⟩ := (hen s e h0 hae).mpr hm.1
      rw [meets_cons_of_step hs] at hm
      obtain ⟨t, ht⟩ := (ih (hstep s e s' h0 hae hs) harest).mpr hm.2
      exact ⟨t, run_cons_iff.mpr ⟨s', hs, ht⟩⟩

theorem run_length_le {I : σ → Prop} {work : σ → Nat} {s t : σ} {es : List ι}
    (hstep : ∀ s e s', I s → C s e → step s e = some s' → I s' ∧ work s' < work s)
    (h0 : I s) (hc : Meets step C s es) (h : run step s es = some t) :
    es.length + work t ≤ work s := by
  induction es generalizing s with
  | nil =>
    obtain rfl : s = t := by simpa using h
    simp
  | cons e es ih =>
    obtain ⟨s', hs, hr⟩ := run_cons_iff.mp h
    obtain ⟨h1, hlt⟩ := hstep s e s' h0 hc.1 hs
    have hle := ih h1 (hc.2 s' hs) hr
    rw [List.length_cons]
    omega

/-- Where every event costs no more than it brings in and the stock it uses up, so
does a whole run. -/
theorem run_cost_le {work : σ → Nat} {cost income : ι → Nat} {s t : σ} {es : List ι}
    (hstep : ∀ s e s', step s e = some s' → cost e + work s' ≤ income e + work s)
    (h : run step s es = some t) : (es.map cost).sum + work t ≤ (es.map income).sum + work s := by
  induction es generalizing s with
  | nil =>
    obtain rfl : s = t := by simpa using h
    exact Nat.le_refl _
  | cons e es ih =>
    obtain ⟨s', hs, hr⟩ := run_cons_iff.mp h
    have h1 := hstep s e s' hs
    have h2 := ih hr
    simp only [List.map_cons, List.sum_cons]
    omega

/-- Where every step serves the front of a queue and appends to its end, what a run
serves and what it leaves begin with the queue it found. -/
theorem run_serves_queue {τ : Type*} {obs : σ → ι → List τ} {queue : σ → List τ} {I : σ → Prop}
    {s t : σ} {es : List ι}
    (hstep : ∀ s e s', I s → C s e → step s e = some s' →
      I s' ∧ queue s <+: obs s e ++ queue s')
    (h0 : I s) (hc : Meets step C s es) (h : run step s es = some t) :
    queue s <+: trace step obs s es ++ queue t := by
  induction es generalizing s with
  | nil =>
    obtain rfl : s = t := by simpa using h
    exact List.prefix_rfl
  | cons e es ih =>
    obtain ⟨s', hs, hr⟩ := run_cons_iff.mp h
    obtain ⟨h1, hq⟩ := hstep s e s' h0 hc.1 hs
    have hrest := ih h1 (hc.2 s' hs) hr
    simp only [trace, hs, Option.elim_some, List.append_assoc]
    exact hq.trans ((List.prefix_append_right_inj _).mpr hrest)

/-- `P` in every state a run passes through. -/
def Always (step : σ → ι → Option σ) (P : σ → Prop) (s : σ) (es : List ι) : Prop :=
  ∀ us, us <+: es → ∀ t, run step s us = some t → P t

theorem always_cons {P : σ → Prop} {s : σ} {e : ι} {es : List ι} :
    Always step P s (e :: es) ↔ P s ∧ ∀ s' ∈ step s e, Always step P s' es := by
  constructor
  · intro h
    refine ⟨h [] (List.nil_prefix) s rfl, fun s' hs us hus t ht => ?_⟩
    exact h (e :: us) (by simpa using hus) t (run_cons_iff.mpr ⟨s', hs, ht⟩)
  · rintro ⟨h0, h⟩ us hus t ht
    cases us with
    | nil =>
      obtain rfl : s = t := by simpa using ht
      exact h0
    | cons u us =>
      obtain ⟨rfl, hp⟩ := List.cons_prefix_cons.mp hus
      obtain ⟨s', hs, hr⟩ := run_cons_iff.mp ht
      exact h s' hs us hp t hr

/-- A step condition that is exactly what keeps `P` from one state to the next
is exactly what makes `P` hold throughout a run. -/
theorem always_iff_meets {P K : σ → Prop} {s : σ} {es : List ι}
    (hK : ∀ s e s', K s → C s e → step s e = some s' → K s')
    (hP : ∀ s e s', K s → P s → step s e = some s' → (P s' ↔ C s e))
    (hnone : ∀ s e, step s e = none → C s e) (h0 : K s) (hs : P s) :
    Always step P s es ↔ Meets step C s es := by
  induction es generalizing s with
  | nil =>
    refine ⟨fun _ => trivial, fun _ us hus t ht => ?_⟩
    obtain rfl : us = [] := by simpa using hus
    obtain rfl : s = t := by simpa using ht
    exact hs
  | cons e es ih =>
    rw [always_cons]
    cases he : step s e with
    | none => simp [Meets, he, hs, hnone s e he]
    | some s' =>
      rw [meets_cons_of_step he]
      have hP' := hP s e s' h0 hs he
      constructor
      · rintro ⟨-, h⟩
        have ha := h s' rfl
        have hs' : P s' := ha [] List.nil_prefix s' rfl
        have hc := hP'.mp hs'
        exact ⟨hc, (ih (hK s e s' h0 hc he) hs').mp ha⟩
      · rintro ⟨hc, hm⟩
        refine ⟨hs, fun s'' hs'' => ?_⟩
        obtain rfl : s' = s'' := by simpa using hs''
        exact (ih (hK s e s' h0 hc he) (hP'.mpr hc)).mpr hm

theorem always_and {P Q : σ → Prop} {s : σ} {es : List ι} :
    Always step (fun s => P s ∧ Q s) s es ↔ Always step P s es ∧ Always step Q s es := by
  constructor
  · intro h
    exact ⟨fun us hu t ht => (h us hu t ht).1, fun us hu t ht => (h us hu t ht).2⟩
  · rintro ⟨hp, hq⟩ us hu t ht
    exact ⟨hp us hu t ht, hq us hu t ht⟩

/-- A counter that grows by what the events are observed to do stays within a
bound exactly when the whole run does no more than that. -/
theorem always_le_iff {τ : Type*} {obs : σ → ι → List τ} {count : σ → Nat} {n : Nat}
    (hstep : ∀ s e s', step s e = some s' → count s' = count s + (obs s e).length)
    (hnone : ∀ s e, step s e = none → obs s e = []) {s : σ} {es : List ι} :
    Always step (fun s => count s ≤ n) s es ↔ count s + (trace step obs s es).length ≤ n := by
  induction es generalizing s with
  | nil =>
    refine ⟨fun h => h [] List.nil_prefix s rfl, fun h us hus t ht => ?_⟩
    obtain rfl : us = [] := by simpa using hus
    obtain rfl : s = t := by simpa using ht
    exact h
  | cons e es ih =>
    rw [always_cons, trace, List.length_append]
    cases he : step s e with
    | none => simp [hnone s e he]
    | some s' =>
      have hc := hstep s e s' he
      simp only [Option.mem_def, Option.some.injEq, forall_eq', ih, Option.elim_some]
      omega

end Runs
