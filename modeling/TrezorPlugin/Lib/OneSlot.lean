import TrezorPlugin.Lib.Run
import Mathlib.Data.List.Basic

/-!
# One request at a time

A requester and a server share one slot.  The requester puts a request there, the server answers it
once, and the requester collects the answer, now or much later; only then is the slot free for the
next request.

    collected ++ held = answers      (sound_run)

So every answer is collected once, in order, but for the one that may still be in the slot.
-/

namespace OneSlot

variable {α ρ : Type}

inductive Slot (α : Type)
  | free
  | requested
  | answered (a : α)
  deriving DecidableEq

/-- The answers so far, and those that have been collected; `ρ` is what is known about the collector. -/
structure State (α ρ : Type) where
  slot : Slot α
  answers : List α
  collected : List (α × ρ)

inductive Act (α ρ : Type)
  | request
  | answer (a : α)
  | collect (r : ρ)

def step (s : State α ρ) : Act α ρ → Option (State α ρ)
  | .request =>
    match s.slot with
    | .free => some { s with slot := .requested }
    | _ => none
  | .answer a =>
    match s.slot with
    | .requested => some { s with slot := .answered a, answers := s.answers ++ [a] }
    | _ => none
  | .collect r =>
    match s.slot with
    | .answered a => some { s with slot := .free, collected := s.collected ++ [(a, r)] }
    | _ => none

/-- The answer in the slot. -/
def Slot.held : Slot α → List α
  | .answered a => [a]
  | _ => []

def State.Sound (s : State α ρ) : Prop := s.collected.map Prod.fst ++ s.slot.held = s.answers

variable {s t : State α ρ}

theorem State.Sound.step {l : Act α ρ} (h : s.Sound) (hstep : step s l = some t) : t.Sound := by
  unfold State.Sound at h ⊢
  cases l with
  | request =>
    rw [OneSlot.step] at hstep
    split at hstep
    · next hfree =>
      cases hstep
      rw [hfree] at h
      exact h
    · cases hstep
  | answer a =>
    rw [OneSlot.step] at hstep
    split at hstep
    · next hreq =>
      cases hstep
      rw [hreq] at h
      simpa [Slot.held] using h
    · cases hstep
  | collect r =>
    rw [OneSlot.step] at hstep
    split at hstep
    · next a ha =>
      cases hstep
      rw [ha] at h
      simpa [Slot.held] using h
    · cases hstep

/-- **Every answer is collected once, in order**, but for the one in the slot. -/
theorem sound_run {ls : List (Act α ρ)} (hs : s.Sound) (h : Run.run step s ls = some t) : t.Sound :=
  Run.run_inv step State.Sound (fun _ _ => True) (fun _ _ _ hs _ hstep => hs.step hstep) hs
    (Run.along_true step s ls) h

end OneSlot
