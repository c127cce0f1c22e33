import Mathlib.Logic.Basic

/-!
# Runs of a partial labelled step function

`run step s ls` takes the steps `ls` one after the other and is `none` as soon
as one of them is not possible.  `Along step C s ls` says that each step of the
run, as far as it gets, meets the condition `C` in the state before it.

* `run_inv`: what every step meeting `C` preserves holds after the run;
* `run_inv_labels`: the same for an invariant over the labels taken so far;
* `run_append`, `along_append`: the run from one of its states on;
* `along_at`, `along_of_at`: the condition at one step of the run;
* `along_of_inv`: a condition that an invariant of the run implies;
* `along_of_forall`: a condition that every label meets;
* `along_of_end`: a condition whose failure shows at the end of the run;
* `exists_run`: a run to a goal, from a measure that some step lowers until it is reached;
* `run_view`: a run seen as a run of another system.
-/

namespace Run

variable {σ ℓ : Type} (step : σ → ℓ → Option σ)

def run : σ → List ℓ → Option σ
  | s, [] => some s
  | s, l :: ls =>
    match step s l with
    | none => none
    | some t => run t ls

/-- Every step of the run meets `C` in the state before it. -/
def Along (C : σ → ℓ → Prop) : σ → List ℓ → Prop
  | _, [] => True
  | s, l :: ls => C s l ∧ ∀ t, step s l = some t → Along C t ls

theorem run_cons {s u : σ} {l : ℓ} {ls : List ℓ} (h : run step s (l :: ls) = some u) :
    ∃ t, step s l = some t ∧ run step t ls = some u := by
  unfold run at h
  split at h
  · cases h
  · next t ht => exact ⟨t, ht, h⟩

theorem run_cons_of {s t : σ} {l : ℓ} (h : step s l = some t) (ls : List ℓ) :
    run step s (l :: ls) = run step t ls := by
  simp only [run, h]

/-- A run goes on from where its first part ended. -/
theorem run_append {s t : σ} {pre : List ℓ} (h : run step s pre = some t) (post : List ℓ) :
    run step s (pre ++ post) = run step t post := by
  induction pre generalizing s with
  | nil =>
    cases h
    rfl
  | cons m pre ih =>
    obtain ⟨u, hu, h'⟩ := run_cons step h
    rw [List.cons_append, run_cons_of step hu]
    exact ih h'

theorem along_append (C : σ → ℓ → Prop) {s t : σ} {pre post : List ℓ}
    (ha : Along step C s (pre ++ post)) (h : run step s pre = some t) : Along step C t post := by
  induction pre generalizing s with
  | nil =>
    cases h
    exact ha
  | cons m pre ih =>
    obtain ⟨u, hu, h'⟩ := run_cons step h
    exact ih (ha.2 u hu) h'

theorem along_at (C : σ → ℓ → Prop) {s t : σ} {pre post : List ℓ} {l : ℓ}
    (ha : Along step C s (pre ++ l :: post)) (h : run step s pre = some t) : C t l :=
  (along_append step C ha h).1

/-- A condition that holds at each step of the run. -/
theorem along_of_at (C : σ → ℓ → Prop) {s : σ} {ls : List ℓ}
    (h : ∀ pre l post t, ls = pre ++ l :: post → run step s pre = some t → C t l) :
    Along step C s ls := by
  induction ls generalizing s with
  | nil => trivial
  | cons l ls ih =>
    refine ⟨h [] l ls s rfl rfl, ?_⟩
    intro t ht
    apply ih
    intro pre m post u heq hu
    exact h (l :: pre) m post u (by rw [heq]; rfl) (by rw [run_cons_of step ht, hu])

/-- **Invariant rule.**  `I` is kept by every step that meets `C`. -/
theorem run_inv (I : σ → Prop) (C : σ → ℓ → Prop)
    (hstep : ∀ s l t, I s → C s l → step s l = some t → I t)
    {s u : σ} {ls : List ℓ} (hs : I s) (ha : Along step C s ls) (h : run step s ls = some u) :
    I u := by
  induction ls generalizing s with
  | nil =>
    cases h
    exact hs
  | cons l ls ih =>
    obtain ⟨t, ht, h'⟩ := run_cons step h
    exact ih (hstep s l t hs ha.1 ht) (ha.2 t ht) h'

/-- The invariant rule for an invariant over the labels taken so far as well. -/
theorem run_inv_labels (I : List ℓ → σ → Prop) (C : σ → ℓ → Prop)
    (hstep : ∀ ls s l t, I ls s → C s l → step s l = some t → I (ls ++ [l]) t)
    {done : List ℓ} {s u : σ} {ls : List ℓ} (hs : I done s) (ha : Along step C s ls)
    (h : run step s ls = some u) : I (done ++ ls) u := by
  induction ls generalizing s done with
  | nil =>
    cases h
    rw [List.append_nil]
    exact hs
  | cons l ls ih =>
    obtain ⟨t, ht, h'⟩ := run_cons step h
    have := ih (hstep done s l t hs ha.1 ht) (ha.2 t ht) h'
    rwa [List.append_assoc, List.singleton_append] at this

/-- An invariant gives the condition it implies at each step of a run. -/
theorem along_of_inv (I : σ → Prop) (C D : σ → ℓ → Prop)
    (hstep : ∀ s l t, I s → C s l → step s l = some t → I t) (hD : ∀ s l, I s → D s l)
    {s : σ} {ls : List ℓ} (hs : I s) (ha : Along step C s ls) : Along step D s ls := by
  induction ls generalizing s with
  | nil => trivial
  | cons l ls ih => exact ⟨hD s l hs, fun t ht => ih (hstep s l t hs ha.1 ht) (ha.2 t ht)⟩

/-- A condition on the labels alone, met by all of them. -/
theorem along_of_forall (C : ℓ → Prop) {ls : List ℓ} (h : ∀ l ∈ ls, C l) (s : σ) :
    Along step (fun _ l => C l) s ls := by
  induction ls generalizing s with
  | nil => trivial
  | cons l ls ih =>
    rw [List.forall_mem_cons] at h
    exact ⟨h.1, fun t _ => ih h.2 t⟩

/-- Every step meets the condition that is always true. -/
theorem along_true (s : σ) (ls : List ℓ) : Along step (fun _ _ => True) s ls :=
  along_of_forall step (fun _ => True) (fun _ _ => trivial) s

/-- **Converse of the invariant rule.**  A step that fails `C` leads to `B`, which is never left
again; a run that ends outside of `B` has met `C` at every step. -/
theorem along_of_end (I B : σ → Prop) (C : σ → ℓ → Prop)
    (hstep : ∀ s l t, I s → step s l = some t → I t ∧ C s l ∨ B t)
    (hB : ∀ s l t, B s → step s l = some t → B t)
    {s u : σ} {ls : List ℓ} (hs : I s) (h : run step s ls = some u) (hu : ¬ B u) :
    Along step C s ls := by
  induction ls generalizing s with
  | nil => trivial
  | cons l ls ih =>
    obtain ⟨t, ht, h'⟩ := run_cons step h
    rcases hstep s l t hs ht with ⟨hi, hc⟩ | hb
    · refine ⟨hc, ?_⟩
      intro t' ht'
      rw [ht] at ht'
      cases ht'
      exact ih hi h'
    · have hend : B u := run_inv step B (fun _ _ => True) (fun s l t hb _ => hB s l t hb) hb
        (along_true step t ls) h'
      exact absurd hend hu

/-- **Progress rule.**  Outside of `P` some step meeting `C` keeps `I` and lowers the measure, so a
run of such steps leads to `P`. -/
theorem exists_run (I P : σ → Prop) (C : ℓ → Prop) (μ : σ → Nat)
    (hstep : ∀ s, I s → ¬ P s → ∃ l t, C l ∧ step s l = some t ∧ I t ∧ μ t < μ s)
    {s : σ} (hs : I s) : ∃ ls t, (∀ l ∈ ls, C l) ∧ run step s ls = some t ∧ I t ∧ P t := by
  induction hn : μ s using Nat.strongRecOn generalizing s with
  | ind n ih =>
    by_cases hp : P s
    · exact ⟨[], s, by simp, rfl, hs, hp⟩
    · obtain ⟨l, t, hl, ht, hi, hlt⟩ := hstep s hs hp
      rw [hn] at hlt
      obtain ⟨ls, u, hls, hu, hend⟩ := ih (μ t) hlt hi rfl
      exact ⟨l :: ls, u, List.forall_mem_cons.mpr ⟨hl, hls⟩, (run_cons_of step ht ls).trans hu, hend⟩

/-- **Simulation rule.**  Seen through `view`, each step is a run of another system; so is a run. -/
theorem run_view {σ' ℓ' : Type} (step' : σ' → ℓ' → Option σ') (view : σ → σ') (I : σ → Prop)
    (hstep : ∀ s l t, I s → step s l = some t →
      I t ∧ ∃ ms, run step' (view s) ms = some (view t))
    {s u : σ} {ls : List ℓ} (hs : I s) (h : run step s ls = some u) :
    I u ∧ ∃ ms, run step' (view s) ms = some (view u) := by
  induction ls generalizing s with
  | nil =>
    cases h
    exact ⟨hs, [], rfl⟩
  | cons l ls ih =>
    obtain ⟨t, ht, h'⟩ := run_cons step h
    obtain ⟨hi, ms, hms⟩ := hstep s l t hs ht
    obtain ⟨hu, ns, hns⟩ := ih hi h'
    exact ⟨hu, ms ++ ns, (run_append step' hms ns).trans hns⟩

end Run
