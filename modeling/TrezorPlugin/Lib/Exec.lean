import Mathlib.Data.List.Forall2

/-!
# Operations that keep their state when they fail

`EStateM ε σ` runs an operation on a state and gives back a state however the
operation ends, as a C++ function does that throws half-way.

* `bind_ok`, `bind_error`, `bind_cases`, `of_bind_ok`: running one operation after another;
* `mapM_eq_ok`: a loop of operations that keep no state;
* `Keeps R x`: the operation `x` leads from every state to one related by `R`,
  on every exit; `Keeps.bind` and `Keeps.bind_inv` are the rules for sequences;
* `Returns P x Q`: from a state with `P`, the operation `x` only returns with `Q`;
  `Returns.bind` and `Returns.foldlM` are the rules for sequences and loops;
* `Total x`: the operation `x` returns from every state; `Total.run` is what it returns;
* `Exits I K x`: every exit of `x` keeps `I`, and is by an exception only where `K` allows it;
  `Exits.bind` is the rule for sequences.
-/

namespace Exec

variable {ε σ α β : Type}

/-- The state an operation leaves behind, however it ends. -/
def final : EStateM.Result ε σ α → σ
  | .ok _ s => s
  | .error _ s => s

@[simp] theorem final_ok (a : α) (s : σ) : final (.ok a s : EStateM.Result ε σ α) = s := rfl

@[simp] theorem final_error (e : ε) (s : σ) : final (.error e s : EStateM.Result ε σ α) = s := rfl

theorem bind_ok {x : EStateM ε σ α} {f : α → EStateM ε σ β} {a : α} {s s' : σ}
    (h : x s = .ok a s') : (x >>= f) s = f a s' := by
  show EStateM.bind x f s = _
  simp only [EStateM.bind, h]

theorem bind_error {x : EStateM ε σ α} {f : α → EStateM ε σ β} {e : ε} {s s' : σ}
    (h : x s = .error e s') : (x >>= f) s = .error e s' := by
  show EStateM.bind x f s = _
  simp only [EStateM.bind, h]

/-- A sequence stops in its first part or runs its second part from where the first one ended. -/
theorem bind_cases (x : EStateM ε σ α) (f : α → EStateM ε σ β) (s : σ) :
    (∃ a s', x s = .ok a s' ∧ (x >>= f) s = f a s') ∨
    (∃ e s', x s = .error e s' ∧ (x >>= f) s = .error e s') := by
  cases h : x s with
  | ok a s' => exact .inl ⟨a, s', rfl, bind_ok h⟩
  | error e s' => exact .inr ⟨e, s', rfl, bind_error h⟩

/-- A sequence that returns has run both of its parts. -/
theorem of_bind_ok {x : EStateM ε σ α} {f : α → EStateM ε σ β} {b : β} {s s' : σ}
    (h : (x >>= f) s = .ok b s') : ∃ a t, x s = .ok a t ∧ f a t = .ok b s' := by
  rcases bind_cases x f s with ⟨a, t, hx, heq⟩ | ⟨e, t, -, heq⟩
  · exact ⟨a, t, hx, heq ▸ h⟩
  · rw [heq] at h
    cases h

@[simp] theorem except_ok_bind (a : α) (f : α → Except ε β) : (Except.ok a >>= f) = f a := rfl

@[simp] theorem except_error_bind (e : ε) (f : α → Except ε β) :
    (Except.error e >>= f) = Except.error e := rfl

theorem except_bind_eq_ok {x : Except ε α} {f : α → Except ε β} {b : β} :
    (x >>= f) = .ok b ↔ ∃ a, x = .ok a ∧ f a = .ok b := by
  cases x with
  | ok a => simp
  | error e => simp

theorem except_return_eq_ok {x : Except ε α} {f : α → β} {b : β} :
    (do return f (← x)) = .ok b ↔ ∃ a, x = .ok a ∧ f a = b := by
  rw [except_bind_eq_ok]
  exact exists_congr fun a => and_congr_right fun _ => ⟨Except.ok.inj, congrArg _⟩

theorem exists_except_return {x : Except ε α} {f : α → β} :
    (∃ b, (do return f (← x)) = Except.ok b) ↔ ∃ a, x = .ok a := by
  simp only [except_return_eq_ok]
  constructor
  · rintro ⟨-, a, ha, -⟩
    exact ⟨a, ha⟩
  · rintro ⟨a, ha⟩
    exact ⟨f a, a, ha, rfl⟩

/-- A loop that may fail goes through exactly when each of its rounds does. -/
theorem mapM_eq_ok {f : α → Except ε β} {l : List α} {r : List β} :
    l.mapM f = .ok r ↔ List.Forall₂ (fun a b => f a = .ok b) l r := by
  induction l generalizing r with
  | nil =>
    rw [List.mapM_nil, List.forall₂_nil_left_iff]
    constructor
    · intro h
      exact (Except.ok.inj h).symm
    · rintro rfl
      rfl
  | cons a l ih =>
    simp only [List.mapM_cons, except_bind_eq_ok, ih, List.forall₂_cons_left_iff]
    constructor
    · rintro ⟨b, hb, bs, hbs, h⟩
      exact ⟨b, bs, hb, hbs, (Except.ok.inj h).symm⟩
    · rintro ⟨b, bs, hb, hbs, rfl⟩
      exact ⟨b, hb, bs, hbs, rfl⟩

theorem mapM_of_forall {f : α → Except ε β} {g : α → β} {l : List α}
    (h : ∀ a ∈ l, f a = .ok (g a)) : l.mapM f = .ok (l.map g) := by
  rw [mapM_eq_ok, List.forall₂_map_right_iff]
  exact List.forall₂_same.mpr h

/-- What holds of all that a round can give holds of all that the loop gives. -/
theorem forall_mem_of_forall₂ {R : α → β → Prop} {p : β → Prop} {l : List α} {r : List β}
    (h : List.Forall₂ R l r) (hp : ∀ a ∈ l, ∀ b, R a b → p b) : ∀ b ∈ r, p b := by
  induction h with
  | nil => exact nofun
  | cons hab _ ih =>
    rw [List.forall_mem_cons] at hp ⊢
    exact ⟨hp.1 _ hab, ih hp.2⟩

theorem exists_mapM_eq_ok {f : α → Except ε β} {l : List α} :
    (∃ r, l.mapM f = .ok r) ↔ ∀ a ∈ l, ∃ b, f a = .ok b := by
  simp only [mapM_eq_ok]
  induction l with
  | nil => simp
  | cons a l ih =>
    rw [List.forall_mem_cons, ← ih]
    simp only [List.forall₂_cons_left_iff]
    constructor
    · rintro ⟨_, b, r, hb, hr, rfl⟩
      exact ⟨⟨b, hb⟩, r, hr⟩
    · rintro ⟨⟨b, hb⟩, r, hr⟩
      exact ⟨_, b, r, hb, hr, rfl⟩

theorem mapM_imp {f g : α → Except ε β} {l : List α} {r : List β}
    (h : ∀ a b, f a = .ok b → g a = .ok b) (hf : l.mapM f = .ok r) : l.mapM g = .ok r :=
  mapM_eq_ok.mpr ((mapM_eq_ok.mp hf).imp h)

/-- Two loops, the first of which does nothing the second would not do: they agree when, where the
second goes through, the first does. -/
theorem mapM_agree_iff {f g : α → Except ε β} {l : List α} (h : ∀ a b, f a = .ok b → g a = .ok b) :
    (∀ r, l.mapM f = .ok r ↔ l.mapM g = .ok r) ↔
      ((∀ a ∈ l, ∃ b, g a = .ok b) → ∀ a ∈ l, ∃ b, f a = .ok b) := by
  rw [← exists_mapM_eq_ok, ← exists_mapM_eq_ok]
  constructor
  · rintro hagree ⟨r, hr⟩
    exact ⟨r, (hagree r).mpr hr⟩
  · intro himp r
    refine ⟨mapM_imp h, ?_⟩
    intro hg
    obtain ⟨r', hf⟩ := himp ⟨r, hg⟩
    exact Except.ok.inj ((mapM_imp h hf).symm.trans hg) ▸ hf

/-! ## What every exit of an operation keeps -/

/-- Every exit of `x` is related by `R` to where `x` began. -/
def Keeps (R : σ → σ → Prop) (x : EStateM ε σ α) : Prop := ∀ s, R s (final (x s))

theorem Keeps.of_ok {R : σ → σ → Prop} {x : EStateM ε σ α} {a : α} {s s' : σ} (h : Keeps R x)
    (hok : x s = .ok a s') : R s s' := by
  have hs := h s
  rwa [hok] at hs

theorem Keeps.pure {R : σ → σ → Prop} (hrefl : ∀ s, R s s) (a : α) :
    Keeps R (Pure.pure a : EStateM ε σ α) := fun s => hrefl s

theorem Keeps.throw {R : σ → σ → Prop} (hrefl : ∀ s, R s s) (e : ε) :
    Keeps R (throw e : EStateM ε σ α) := fun s => hrefl s

theorem Keeps.bind {R : σ → σ → Prop} (htrans : ∀ a b c, R a b → R b c → R a c)
    {x : EStateM ε σ α} {f : α → EStateM ε σ β} (hx : Keeps R x) (hf : ∀ a, Keeps R (f a)) :
    Keeps R (x >>= f) := by
  intro s
  have h := hx s
  rcases bind_cases x f s with ⟨a, s', hs, heq⟩ | ⟨e, s', hs, heq⟩
  · rw [hs] at h
    rw [heq]
    exact htrans _ _ _ h (hf a s')
  · rw [hs] at h
    rw [heq]
    exact h

/-- The rule for sequences of operations that keep an invariant. -/
theorem Keeps.bind_inv {I : σ → Prop} {x : EStateM ε σ α} {f : α → EStateM ε σ β}
    (hx : Keeps (fun s s' => I s → I s') x) (hf : ∀ a, Keeps (fun s s' => I s → I s') (f a)) :
    Keeps (fun s s' => I s → I s') (x >>= f) :=
  Keeps.bind (fun _ _ _ h1 h2 h => h2 (h1 h)) hx hf

/-! ## What holds where an operation returns -/

/-- From a state with `P`, `x` only returns a value and a state with `Q`. -/
def Returns (P : σ → Prop) (x : EStateM ε σ α) (Q : α → σ → Prop) : Prop :=
  ∀ s a s', P s → x s = .ok a s' → Q a s'

variable {P : σ → Prop} {Q : α → σ → Prop}

theorem Returns.pure {a : α} (h : ∀ s, P s → Q a s) :
    Returns P (Pure.pure a : EStateM ε σ α) Q := by
  intro s b s' hs hok
  cases hok
  exact h s hs

theorem Returns.throw {e : ε} : Returns P (throw e : EStateM ε σ α) Q := by
  intro s a s' _ hok
  cases hok

theorem Returns.bind {R : β → σ → Prop} {x : EStateM ε σ β} {f : β → EStateM ε σ α}
    (hx : Returns P x R) (hf : ∀ b, Returns (R b) (f b) Q) : Returns P (x >>= f) Q := by
  intro s a s' hs hok
  obtain ⟨b, t, hb, ha⟩ := of_bind_ok hok
  exact hf b t a s' (hx s b t hs hb) ha

theorem Returns.mono {P' : σ → Prop} {Q' : α → σ → Prop} {x : EStateM ε σ α}
    (h : Returns P x Q) (hP : ∀ s, P' s → P s) (hQ : ∀ a s, Q a s → Q' a s) :
    Returns P' x Q' := fun s a s' hs hok => hQ a s' (h s a s' (hP s hs) hok)

theorem Returns.ite {p : Prop} [Decidable p] {x y : EStateM ε σ α}
    (hx : p → Returns P x Q) (hy : ¬ p → Returns P y Q) :
    Returns P (if p then x else y) Q := by
  split
  · exact hx ‹p›
  · exact hy ‹¬ p›

/-- The rule for loops: `I l a` before the rounds for `l`, with `a` so far. -/
theorem Returns.foldlM {I : List β → α → σ → Prop} {f : α → β → EStateM ε σ α}
    (hf : ∀ b l a, Returns (I (b :: l) a) (f a b) (I l)) (l : List β) (a : α) :
    Returns (I l a) (l.foldlM f a) (I []) := by
  induction l generalizing a with
  | nil => exact .pure fun _ h => h
  | cons b l ih =>
    rw [List.foldlM_cons]
    exact .bind (hf b l a) ih

/-- `x` returns from every state. -/
def Total (x : EStateM ε σ α) : Prop := ∀ s, ∃ a s', x s = .ok a s'

theorem Total.pure (a : α) : Total (Pure.pure a : EStateM ε σ α) := fun s => ⟨a, s, rfl⟩

theorem Total.bind {x : EStateM ε σ β} {f : β → EStateM ε σ α} (hx : Total x)
    (hf : ∀ b, Total (f b)) : Total (x >>= f) := by
  intro s
  obtain ⟨b, t, hb⟩ := hx s
  obtain ⟨a, s', ha⟩ := hf b t
  exact ⟨a, s', by rw [bind_ok hb, ha]⟩

theorem Total.ite {p : Prop} [Decidable p] {x y : EStateM ε σ α} (hx : Total x) (hy : Total y) :
    Total (if p then x else y) := by
  split
  · exact hx
  · exact hy

theorem Total.foldlM {f : α → β → EStateM ε σ α} (hf : ∀ a b, Total (f a b)) (l : List β) (a : α) :
    Total (l.foldlM f a) := by
  induction l generalizing a with
  | nil => exact .pure a
  | cons b l ih =>
    rw [List.foldlM_cons]
    exact .bind (hf a b) ih

/-- What an operation returns that always does. -/
def Total.run {x : EStateM ε σ α} (h : Total x) (s : σ) : α × σ :=
  match hrun : x s with
  | .ok a s' => (a, s')
  | .error _ _ => absurd (h s) (by rw [hrun]; nofun)

theorem Total.run_spec {x : EStateM ε σ α} (h : Total x) (s : σ) :
    x s = .ok (h.run s).1 (h.run s).2 := by
  unfold Total.run
  split
  · next a s' hrun => exact hrun
  · next e s' hrun =>
    obtain ⟨a, t, hok⟩ := h s
    cases hok.symm.trans hrun

/-! ## Exceptions that only come somewhere -/

/-- The operation ends with `I`, in an exception only where `K` allows it. -/
def Exited (I : σ → Prop) (K : ε → σ → Prop) : EStateM.Result ε σ α → Prop
  | .ok _ s => I s
  | .error e s => K e s ∧ I s

/-- From a state with `I`, every exit of `x` keeps `I`, and is by an exception only where `K` allows
it. -/
def Exits (I : σ → Prop) (K : ε → σ → Prop) (x : EStateM ε σ α) : Prop :=
  ∀ s, I s → Exited I K (x s)

variable {I : σ → Prop} {K : ε → σ → Prop}

theorem Exits.of_keeps {x : EStateM ε σ α} (hx : Keeps (fun s s' => I s → I s') x)
    (h : ∀ s e s', I s → x s = .error e s' → K e s') : Exits I K x := by
  intro s hs
  have hkept := hx s hs
  have hallowed := h s
  cases hr : x s with
  | ok a s' =>
    rw [hr] at hkept
    exact hkept
  | error e s' =>
    rw [hr] at hkept
    exact ⟨hallowed e s' hs hr, hkept⟩

theorem Exits.bind {x : EStateM ε σ β} {f : β → EStateM ε σ α} (hx : Exits I K x)
    (hf : ∀ b, Exits I K (f b)) : Exits I K (x >>= f) := by
  intro s hs
  have h := hx s hs
  rcases bind_cases x f s with ⟨b, s', hb, heq⟩ | ⟨e, s', hb, heq⟩
  · rw [hb] at h
    rw [heq]
    exact hf b s' h
  · rw [hb] at h
    rw [heq]
    exact h

theorem Exits.pure (a : α) : Exits I K (Pure.pure a : EStateM ε σ α) := fun _ hs => hs

theorem Exits.throw {e : ε} (h : ∀ s, K e s) : Exits I K (throw e : EStateM ε σ α) :=
  fun s hs => ⟨h s, hs⟩

theorem Exits.modify {f : σ → σ} (h : ∀ s, I s → I (f s)) :
    Exits I K (modify f : EStateM ε σ PUnit) := h

theorem Exits.ite {p : Prop} [Decidable p] {x y : EStateM ε σ α} (hx : Exits I K x)
    (hy : Exits I K y) : Exits I K (if p then x else y) := by
  split
  · exact hx
  · exact hy

end Exec
