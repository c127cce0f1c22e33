import TrezorPlugin.Lib.Run
import Mathlib.Logic.Function.Basic

/-!
# A mutex locked and unlocked by hand

Threads run operations; the part of an operation that matters here is its list
of actions: lock, unlock, and what it does in between.  `Balanced held l`: the
actions `l`, begun with the mutex held or not, take it only when it is free of
this thread, give it up only when held, and end without it.

* `Sections.balanced`: a list of critical sections is balanced;
* `released`: if every operation started is balanced, then in every state any
  interleaving reaches, the thread that holds the mutex is inside an operation
  that still unlocks it.
-/

namespace Mutex

inductive Act (α : Type) where
  | lock
  | unlock
  | act (a : α)
  deriving DecidableEq

variable {α : Type}

/-- One critical section. -/
def critical (calls : List α) : List (Act α) := .lock :: (calls.map .act ++ [.unlock])

/-- Critical sections one after the other, every call in them satisfying `P`. -/
inductive Sections (P : α → Prop) : List (Act α) → Prop
  | nil : Sections P []
  | cons {calls : List α} {rest : List (Act α)} :
      (∀ c ∈ calls, P c) → Sections P rest → Sections P (critical calls ++ rest)

theorem Sections.one {P : α → Prop} {calls : List α} (h : ∀ c ∈ calls, P c) :
    Sections P (critical calls) := by
  have := Sections.cons h .nil
  rwa [List.append_nil] at this

theorem Sections.append {P : α → Prop} {l m : List (Act α)} (hl : Sections P l)
    (hm : Sections P m) : Sections P (l ++ m) := by
  induction hl with
  | nil => exact hm
  | cons h _ ih =>
    rw [List.append_assoc]
    exact .cons h ih

theorem Sections.mono {P Q : α → Prop} (hPQ : ∀ c, P c → Q c) {l : List (Act α)}
    (h : Sections P l) : Sections Q l := by
  induction h with
  | nil => exact .nil
  | cons h _ ih => exact .cons (fun c hc => hPQ c (h c hc)) ih

/-- Every call in the sections satisfies `P`. -/
theorem Sections.acts {P : α → Prop} {l : List (Act α)} (h : Sections P l) {c : α}
    (hc : .act c ∈ l) : P c := by
  induction h with
  | nil => cases hc
  | @cons calls rest hP _ ih =>
    rcases List.mem_append.mp hc with hc | hc
    · apply hP c
      simpa [critical] using hc
    · exact ih hc

/-- The actions take and give up the mutex in turn and end without it. -/
def Balanced : Bool → List (Act α) → Prop
  | held, [] => held = false
  | held, .lock :: l => held = false ∧ Balanced true l
  | held, .unlock :: l => held = true ∧ Balanced false l
  | held, .act _ :: l => Balanced held l

/-- Whether the mutex is held after the actions. -/
def held (l : List (Act α)) : Bool :=
  l.foldl (fun held a => match a with
    | .lock => true
    | .unlock => false
    | .act _ => held) false

theorem balanced_acts (calls : List α) (l : List (Act α)) (held : Bool) :
    Balanced held (calls.map .act ++ l) ↔ Balanced held l := by
  induction calls with
  | nil => rfl
  | cons c calls ih => exact ih

theorem Sections.balanced {P : α → Prop} {l : List (Act α)} (h : Sections P l) :
    Balanced false l := by
  induction h with
  | nil => rfl
  | @cons calls rest _ _ ih =>
    refine ⟨rfl, ?_⟩
    show Balanced true (calls.map .act ++ [.unlock] ++ rest)
    rw [List.append_assoc, balanced_acts]
    exact ⟨rfl, ih⟩

theorem Balanced.unlocks {l : List (Act α)} (h : Balanced true l) : .unlock ∈ l := by
  induction l with
  | nil => cases h
  | cons a l ih =>
    cases a with
    | lock => cases h.1
    | unlock => exact List.mem_cons_self
    | act a => exact List.mem_cons_of_mem _ (ih h)

/-! ## Threads -/

/-- Who holds the mutex, and what each thread still has to do of its operation. -/
structure Threads (θ α : Type) where
  holder : Option θ
  todo : θ → Option (List (Act α))

inductive Label (θ ω : Type) where
  /-- An idle thread starts an operation. -/
  | start (t : θ) (op : ω)
  /-- A thread takes the next action of its operation, or leaves it. -/
  | next (t : θ)

section
variable {θ ω : Type} [DecidableEq θ] (actions : ω → List (Act α))

/-- No thread is in an operation. -/
def Threads.idle : Threads θ α := ⟨none, fun _ => none⟩

/-- The step relation; `lock` blocks while the mutex is held. -/
def step (s : Threads θ α) : Label θ ω → Option (Threads θ α)
  | .start t op =>
    match s.todo t with
    | none => some { s with todo := Function.update s.todo t (some (actions op)) }
    | some _ => none
  | .next t =>
    match s.todo t with
    | none => none
    | some [] => some { s with todo := Function.update s.todo t none }
    | some (.lock :: l) =>
      if s.holder = none then some ⟨some t, Function.update s.todo t (some l)⟩ else none
    | some (.unlock :: l) => some ⟨none, Function.update s.todo t (some l)⟩
    | some (.act _ :: l) => some { s with todo := Function.update s.todo t (some l) }

/-- A thread outside its operations does not hold the mutex; one inside ends without it. -/
def Inv (s : Threads θ α) : Prop :=
  ∀ t, match s.todo t with
    | none => s.holder ≠ some t
    | some l => Balanced (decide (s.holder = some t)) l

theorem inv_idle : Inv (Threads.idle : Threads θ α) := by
  intro t
  simp [Threads.idle]

theorem inv_update {s : Threads θ α} {h' : Option θ} (hs : Inv s) (t : θ)
    (rest : Option (List (Act α)))
    (ho : ∀ u, u ≠ t → (h' = some u ↔ s.holder = some u))
    (ht : match rest with
      | none => h' ≠ some t
      | some l => Balanced (decide (h' = some t)) l) :
    Inv ⟨h', Function.update s.todo t rest⟩ := by
  intro u
  by_cases hu : u = t
  · subst hu
    simp only [Function.update_self]
    exact ht
  · have hu' := hs u
    simp only [Function.update_of_ne hu]
    cases e : s.todo u with
    | none =>
      simp only [e] at hu' ⊢
      rwa [Ne, ho u hu]
    | some l =>
      simp only [e] at hu' ⊢
      simpa only [ho u hu] using hu'

/-- One step keeps the invariant, when the operations started are balanced. -/
theorem step_inv {s s' : Threads θ α} {l : Label θ ω} (hs : Inv s)
    (hop : ∀ t op, l = .start t op → Balanced false (actions op))
    (h : step actions s l = some s') : Inv s' := by
  cases l with
  | start t op =>
    have ht := hs t
    simp only [step] at h
    split at h
    · next e =>
      simp only [e] at ht
      cases h
      apply inv_update hs t _ (fun u _ => Iff.rfl)
      simpa only [ht, decide_false] using hop t op rfl
    · cases h
  | next t =>
    have ht := hs t
    simp only [step] at h
    split at h
    · cases h
    · next e =>
      simp only [e, Balanced] at ht
      cases h
      exact inv_update hs t _ (fun u _ => Iff.rfl) (by simpa using ht)
    · next l e =>
      simp only [e, Balanced] at ht
      split at h
      · next hn =>
        cases h
        refine inv_update hs t _ ?_ (by simpa using ht.2)
        intro u hu
        simp [hn, Ne.symm hu]
      · cases h
    · next l e =>
      simp only [e, Balanced, decide_eq_true_eq] at ht
      cases h
      refine inv_update hs t _ ?_ (by simpa using ht.2)
      intro u hu
      simp [ht.1, Ne.symm hu]
    · next a l e =>
      simp only [e, Balanced] at ht
      cases h
      exact inv_update hs t _ (fun u _ => Iff.rfl) ht

/-- **The mutex is always released.**  Whoever holds it is inside an operation that unlocks it. -/
theorem released {ls : List (Label θ ω)} {s : Threads θ α}
    (hop : Run.Along (step actions) (fun _ l => ∀ t op, l = .start t op → Balanced false (actions op))
      Threads.idle ls)
    (h : Run.run (step actions) Threads.idle ls = some s) (t : θ) (ht : s.holder = some t) :
    ∃ l, s.todo t = some l ∧ .unlock ∈ l := by
  have hinv : Inv s := Run.run_inv (step actions) Inv _
    (fun s l s' hs hc hstep => step_inv actions hs hc hstep) inv_idle hop h
  have := hinv t
  split at this
  · exact absurd ht this
  · next l e =>
    simp only [ht, decide_true] at this
    exact ⟨l, e, this.unlocks⟩

end

end Mutex
