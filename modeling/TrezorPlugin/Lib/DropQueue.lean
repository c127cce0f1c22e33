import Mathlib.Data.List.Basic

/-!
# A bounded queue that evicts its oldest element

An element pushed onto a queue with `limit` elements in it evicts the oldest one.  Elements leave
at the front only: taken by a reader, evicted, or cleared away at the end.

    left ++ queue = pushed                                  (Sound.conserved)
    evicted elements had `limit` newer ones behind them     (Sound.late)

`Sound.empty`, `Sound.push` and `Sound.exit` carry both along the life of a queue;
`Sound.taken_sublist` and `Sound.lossless` read off what a reader gets.
-/

namespace DropQueue

variable {α ε : Type}

/-- How an element leaves; `ε` is what is known about its reader. -/
inductive Exit (ε : Type)
  | taken (e : ε)
  | evicted
  | cleared
  deriving DecidableEq

structure State (α ε : Type) where
  queue : List α
  left : List (α × Exit ε)

/-- The first element leaves. -/
def State.exit (q : State α ε) (e : Exit ε) : State α ε :=
  match q.queue with
  | [] => q
  | a :: rest => ⟨rest, q.left ++ [(a, e)]⟩

def State.push (limit : Nat) (q : State α ε) (a : α) : State α ε :=
  let q' : State α ε := ⟨q.queue ++ [a], q.left⟩
  if limit < q'.queue.length then q'.exit .evicted else q'

def Exit.reader : Exit ε → Option ε
  | .taken e => some e
  | .evicted => none
  | .cleared => none

/-- What readers took, in order. -/
def State.taken (q : State α ε) : List (α × ε) :=
  q.left.filterMap fun x => x.2.reader.map (x.1, ·)

structure Sound (limit : Nat) (pushed : List α) (q : State α ε) : Prop where
  conserved : q.left.map Prod.fst ++ q.queue = pushed
  bounded : q.queue.length ≤ limit
  late : ∀ i a, q.left[i]? = some (a, .evicted) → i + limit < pushed.length

variable {limit : Nat} {pushed : List α} {q : State α ε}

theorem Sound.empty (limit : Nat) : Sound limit [] (⟨[], []⟩ : State α ε) where
  conserved := rfl
  bounded := Nat.zero_le limit
  late := by simp

theorem Sound.length (h : Sound limit pushed q) :
    q.left.length + q.queue.length = pushed.length := by
  have := congrArg List.length h.conserved
  simpa using this

/-- The first element leaves with `limit` newer ones behind it, or in another way. -/
theorem conserved_exit (h : q.left.map Prod.fst ++ q.queue = pushed) (e : Exit ε) :
    (q.exit e).left.map Prod.fst ++ (q.exit e).queue = pushed := by
  unfold State.exit
  split
  · exact h
  · next a rest hq =>
    rw [hq] at h
    simpa using h

theorem late_exit (hlate : ∀ i a, q.left[i]? = some (a, Exit.evicted) → i + limit < pushed.length)
    (e : Exit ε) (he : e = .evicted → q.left.length + limit < pushed.length) :
    ∀ i a, (q.exit e).left[i]? = some (a, Exit.evicted) → i + limit < pushed.length := by
  intro i a hi
  unfold State.exit at hi
  split at hi
  · exact hlate i a hi
  · simp only [List.getElem?_append] at hi
    by_cases hlt : i < q.left.length
    · rw [if_pos hlt] at hi
      exact hlate i a hi
    · rw [if_neg hlt, List.getElem?_singleton] at hi
      by_cases h0 : i - q.left.length = 0
      · rw [if_pos h0, Option.some.injEq, Prod.mk.injEq] at hi
        have := he hi.2
        omega
      · rw [if_neg h0] at hi
        cases hi

theorem Sound.push (h : Sound limit pushed q) (a : α) :
    Sound limit (pushed ++ [a]) (q.push limit a) := by
  have hlength := h.length
  have hlate : ∀ i b, q.left[i]? = some (b, Exit.evicted) → i + limit < (pushed ++ [a]).length := by
    intro i b hi
    have := h.late i b hi
    rw [List.length_append]
    omega
  have hconserved : q.left.map Prod.fst ++ (q.queue ++ [a]) = pushed ++ [a] := by
    rw [← List.append_assoc, h.conserved]
  unfold State.push
  simp only []
  by_cases hfull : limit < (q.queue ++ [a]).length
  · rw [if_pos hfull]
    refine ⟨conserved_exit (q := ⟨q.queue ++ [a], q.left⟩) hconserved .evicted, ?_, ?_⟩
    · have hbounded := h.bounded
      cases hq : q.queue with
      | nil => exact Nat.zero_le limit
      | cons b rest =>
        rw [hq] at hbounded
        simpa [State.exit] using hbounded
    · apply late_exit (q := ⟨q.queue ++ [a], q.left⟩) hlate
      intro _
      rw [List.length_append, List.length_singleton] at hfull ⊢
      show q.left.length + limit < pushed.length + 1
      omega
  · rw [if_neg hfull]
    exact ⟨hconserved, Nat.le_of_not_lt hfull, hlate⟩

theorem Sound.exit (h : Sound limit pushed q) {e : Exit ε} (he : e ≠ .evicted) :
    Sound limit pushed (q.exit e) where
  conserved := conserved_exit h.conserved e
  bounded := by
    have hbounded := h.bounded
    unfold State.exit
    split
    · exact hbounded
    · next a rest hq =>
      rw [hq, List.length_cons] at hbounded
      exact Nat.le_of_succ_le hbounded
  late := late_exit h.late e (fun h' => absurd h' he)

theorem mem_left_exit {e : Exit ε} {x : α × Exit ε} (h : x ∈ (q.exit e).left) :
    x ∈ q.left ∨ x.2 = e := by
  unfold State.exit at h
  split at h
  · exact .inl h
  · rcases List.mem_append.mp h with h | h
    · exact .inl h
    · rw [List.mem_singleton.mp h]
      exact .inr rfl

theorem mem_left_push {a : α} {x : α × Exit ε} (h : x ∈ (q.push limit a).left) :
    x ∈ q.left ∨ x.2 = .evicted := by
  unfold State.push at h
  simp only [] at h
  split at h
  · exact mem_left_exit (q := ⟨q.queue ++ [a], q.left⟩) h
  · exact .inl h

theorem map_fst_taken (q : State α ε) :
    q.taken.map Prod.fst = (q.left.filter (·.2.reader.isSome)).map Prod.fst := by
  unfold State.taken
  induction q.left with
  | nil => rfl
  | cons x left ih =>
    cases hx : x.2.reader with
    | none => simp [hx, ih]
    | some e => simp [hx, ih]

/-- **In order, none twice.**  What readers took and what is queued is part of what was pushed. -/
theorem Sound.taken_sublist (h : Sound limit pushed q) :
    (q.taken.map Prod.fst ++ q.queue).Sublist pushed := by
  rw [← h.conserved, map_fst_taken]
  exact (List.filter_sublist.map Prod.fst).append_right q.queue

/-- **Nothing lost** while nothing is evicted or cleared away. -/
theorem Sound.lossless (h : Sound limit pushed q) (hleft : ∀ x ∈ q.left, x.2.reader.isSome) :
    q.taken.map Prod.fst ++ q.queue = pushed := by
  rw [← h.conserved, map_fst_taken, List.filter_eq_self.mpr hleft]

end DropQueue
