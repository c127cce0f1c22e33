import Mathlib.Data.List.Nodup

/-!
# Lookup by key

`l.find? (key · = k)` takes the first element of `l` with the key `k`.  Over
unique keys there is only one to take, and the order of `l` is of no matter.

* `find_key_eq_some`: what a lookup finds;
* `find_key_congr`: lists with the same elements have the same lookups;
* `unique_append`: keys stay unique when new, distinct ones are appended;
* `length_flatMap_le_one`: where only one element has a contribution, of at most one,
  so has the whole list.
-/

namespace Keys

variable {α κ : Type} {key : α → κ} {l m : List α}

/-- No two elements of the list have one key. -/
def Unique (key : α → κ) (l : List α) : Prop := ∀ x ∈ l, ∀ y ∈ l, key x = key y → x = y

theorem unique_of_nodup (h : (l.map key).Nodup) : Unique key l :=
  fun _ hx _ hy hxy => List.inj_on_of_nodup_map h hx hy hxy

theorem unique_append (hl : Unique key l) (hm : Unique key m)
    (hnew : ∀ x ∈ l, ∀ y ∈ m, key x ≠ key y) : Unique key (l ++ m) := by
  intro x hx y hy hxy
  rcases List.mem_append.mp hx with hx | hx <;> rcases List.mem_append.mp hy with hy | hy
  · exact hl x hx y hy hxy
  · exact absurd hxy (hnew x hx y hy)
  · exact absurd hxy.symm (hnew y hy x hx)
  · exact hm x hx y hy hxy

theorem length_flatMap_le_one {β : Type} {f : α → List β} (hl : l.Nodup)
    (hone : ∀ x ∈ l, (f x).length ≤ 1)
    (heq : ∀ x ∈ l, ∀ y ∈ l, f x ≠ [] → f y ≠ [] → x = y) : (l.flatMap f).length ≤ 1 := by
  induction l with
  | nil => exact Nat.zero_le 1
  | cons x l ih =>
    rw [List.nodup_cons] at hl
    rw [List.flatMap_cons]
    by_cases hx : f x = []
    · rw [hx, List.nil_append]
      exact ih hl.2 (fun y hy => hone y (List.mem_cons_of_mem x hy)) fun y hy z hz =>
        heq y (List.mem_cons_of_mem x hy) z (List.mem_cons_of_mem x hz)
    · have hrest : l.flatMap f = [] := by
        apply List.flatMap_eq_nil_iff.mpr
        intro y hy
        by_contra hne
        have := heq x (List.mem_cons_self ..) y (List.mem_cons_of_mem x hy) hx hne
        exact hl.1 (this ▸ hy)
      rw [hrest, List.append_nil]
      exact hone x (List.mem_cons_self ..)

variable [DecidableEq κ]

theorem find_key_eq_some (h : Unique key l) {k : κ} {x : α} :
    l.find? (key · = k) = some x ↔ x ∈ l ∧ key x = k := by
  constructor
  · intro hx
    exact ⟨List.mem_of_find?_eq_some hx, by simpa using List.find?_some hx⟩
  · rintro ⟨hx, rfl⟩
    cases hf : l.find? (key · = key x) with
    | none => exact absurd (List.find?_eq_none.mp hf x hx) (by simp)
    | some y =>
      have hy : key y = key x := by simpa using List.find?_some hf
      rw [h y (List.mem_of_find?_eq_some hf) x hx hy]

theorem find_key_congr (h : Unique key l) (hlm : ∀ x, x ∈ l ↔ x ∈ m) (k : κ) :
    l.find? (key · = k) = m.find? (key · = k) := by
  have hm : Unique key m := fun x hx y hy => h x ((hlm x).mpr hx) y ((hlm y).mpr hy)
  apply Option.ext
  intro x
  rw [find_key_eq_some h, find_key_eq_some hm, hlm]

end Keys
