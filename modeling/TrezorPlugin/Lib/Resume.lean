import TrezorPlugin.Lib.Exec

/-!
# Operations that wait for input

The state of an operation holds the inputs to come, and `more s us` is `s` with
the inputs `us` after those.  An operation that runs out of them ends in the
exception `wait`; asked again with one input more, it goes on from there.

* `Steady x`: `x` looks at no input, so it does the same whatever is to come;
* `Resumes x s`: more input changes nothing in an `x` that has come to its end,
  and an `x` that waits ends in one of `ends` when its next input is idle;
* `WaitsIn I x`: where `x` waits, `I` holds;
* `Steady.resumes`, `Resumes.bind`, `WaitsIn.bind`: the rules for sequences.
-/

namespace Resume

variable {ε σ τ α β : Type} (more : σ → List τ → σ) (wait : ε) (idle : σ → τ → Prop)
variable (ends : ε → Prop)

def Steady (x : EStateM ε σ α) : Prop :=
  ∀ s, match x s with
    | .ok a s' => ∀ us, x (more s us) = .ok a (more s' us)
    | .error e s' => e ≠ wait ∧ ∀ us, x (more s us) = .error e (more s' us)

/-- `idle s' t` says of the state `s'` in which the operation waits that the input `t` brings it
nothing. -/
def Resumes (x : EStateM ε σ α) (s : σ) : Prop :=
  match x s with
  | .ok a s' => ∀ us, x (more s us) = .ok a (more s' us)
  | .error e s' =>
    (e ≠ wait → ∀ us, x (more s us) = .error e (more s' us)) ∧
    (e = wait → ∀ t, idle s' t → ∃ e' s'', x (more s [t]) = .error e' s'' ∧ ends e')

def WaitsIn (I : σ → Prop) (x : EStateM ε σ α) : Prop := ∀ s s', x s = .error wait s' → I s'

variable {more wait idle ends}

theorem Steady.resumes {x : EStateM ε σ α} (h : Steady more wait x) (s : σ) :
    Resumes more wait idle ends x s := by
  have hs := h s
  unfold Resumes
  cases hx : x s with
  | ok a s' =>
    rw [hx] at hs
    exact hs
  | error e s' =>
    rw [hx] at hs
    exact ⟨fun _ => hs.2, fun he => absurd he hs.1⟩

theorem Steady.pure (a : α) : Steady more wait (Pure.pure a : EStateM ε σ α) := fun _ _ => rfl

theorem Steady.throw {e : ε} (h : e ≠ wait) :
    Steady more wait (throw e : EStateM ε σ α) := fun _ => ⟨h, fun _ => rfl⟩

theorem Steady.modify {f : σ → σ} (h : ∀ s us, f (more s us) = more (f s) us) :
    Steady more wait (modify f : EStateM ε σ PUnit) := by
  intro s us
  show EStateM.Result.ok PUnit.unit (f (more s us)) = .ok PUnit.unit (more (f s) us)
  rw [h]

theorem Resumes.congr {x y : EStateM ε σ α} {s s' : σ} (h : Resumes more wait idle ends y s')
    (hs : x s = y s') (hmore : ∀ us, x (more s us) = y (more s' us)) :
    Resumes more wait idle ends x s := by
  unfold Resumes at h ⊢
  rw [hs]
  simp only [hmore]
  exact h

/-- An operation that returned does so with more input as well. -/
theorem Resumes.of_ok {x : EStateM ε σ α} {a : α} {s s' : σ}
    (h : Resumes more wait idle ends x s) (hx : x s = .ok a s') (us : List τ) :
    x (more s us) = .ok a (more s' us) := by
  unfold Resumes at h
  rw [hx] at h
  exact h us

/-- **The rule for sequences.**  One that waits does so in its first part, or in the second part
begun where the first one ended. -/
theorem Resumes.bind {x : EStateM ε σ α} {f : α → EStateM ε σ β} {s : σ}
    (hx : Resumes more wait idle ends x s)
    (hf : ∀ a s', x s = .ok a s' → Resumes more wait idle ends (f a) s') :
    Resumes more wait idle ends (x >>= f) s := by
  rcases Exec.bind_cases x f s with ⟨a, s1, hs1, heq⟩ | ⟨e, s1, hs1, heq⟩
  · have hmore : ∀ us, (x >>= f) (more s us) = f a (more s1 us) := fun us =>
      Exec.bind_ok (hx.of_ok hs1 us)
    have h := hf a s1 hs1
    unfold Resumes at h ⊢
    rw [heq]
    simp only [hmore]
    exact h
  · unfold Resumes at hx ⊢
    rw [hs1] at hx
    rw [heq]
    constructor
    · intro he us
      exact Exec.bind_error (hx.1 he us)
    · intro he t ht
      obtain ⟨e', s'', hx', hends⟩ := hx.2 he t ht
      exact ⟨e', s'', Exec.bind_error hx', hends⟩

theorem Steady.waitsIn {x : EStateM ε σ α} (h : Steady more wait x) (I : σ → Prop) :
    WaitsIn wait I x := by
  intro s s' hx
  have hs := h s
  rw [hx] at hs
  exact absurd rfl hs.1

theorem WaitsIn.bind {I : σ → Prop} {x : EStateM ε σ α} {f : α → EStateM ε σ β}
    (hx : WaitsIn wait I x) (hf : ∀ a, WaitsIn wait I (f a)) : WaitsIn wait I (x >>= f) := by
  intro s s' h
  rcases Exec.bind_cases x f s with ⟨a, s1, hs1, heq⟩ | ⟨e, s1, hs1, heq⟩
  · rw [heq] at h
    exact hf a s1 s' h
  · rw [heq] at h
    cases h
    exact hx s s' hs1

end Resume
