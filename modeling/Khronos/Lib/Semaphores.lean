import Mathlib.Data.List.Basic

namespace Khronos.Lib

/-- What asking a semaphore for a permit comes to: to wait on, to a permit, or to nothing. -/
inductive Acquired (σ : Type) where
  | pending
  | granted (s : σ)
  | closed

/-- A semaphore hands out at most its permits and takes them back. `new` may refuse a number. -/
structure Semaphore (σ : Type) where
  new : Nat → Option σ
  availablePermits : σ → Nat
  isClosed : σ → Bool
  acquire : σ → Acquired σ
  release : σ → σ
  new_permits : ∀ n s, new n = some s → availablePermits s = n
  new_open : ∀ n s, new n = some s → isClosed s = false
  acquire_permits : ∀ s s', acquire s = .granted s' →
    availablePermits s = availablePermits s' + 1
  acquire_open : ∀ s s', acquire s = .granted s' → isClosed s' = isClosed s
  acquire_closed : ∀ s, acquire s = .closed → isClosed s = true
  release_permits : ∀ s, availablePermits (release s) = availablePermits s + 1
  release_open : ∀ s, isClosed (release s) = isClosed s

namespace Semaphore

/-- The semaphore that counts its permits, and is never closed. -/
def counting : Semaphore Nat where
  new := some
  availablePermits s := s
  isClosed _ := false
  acquire
    | 0 => .pending
    | s + 1 => .granted s
  release s := s + 1
  new_permits := by
    intro n s h
    exact (Option.some.inj h).symm
  new_open := fun _ _ _ => rfl
  acquire_permits := by
    intro s s' h
    cases s with
    | zero => cases h
    | succ s =>
      cases h
      rfl
  acquire_open := fun _ _ _ => rfl
  acquire_closed := by
    intro s h
    cases s <;> cases h
  release_permits := fun _ => rfl
  release_open := fun _ => rfl

variable {S : Semaphore σ} {s s' : σ} {n held : Nat}

/-- Of the `n` permits of an open semaphore this many are held. -/
structure Shares (S : Semaphore σ) (n : Nat) (s : σ) (held : Nat) : Prop where
  conserved : S.availablePermits s + held = n
  isOpen : S.isClosed s = false

theorem Shares.new (h : S.new n = some s) : S.Shares n s 0 :=
  ⟨S.new_permits n s h, S.new_open n s h⟩

theorem Shares.granted (h : S.Shares n s held) (ha : S.acquire s = .granted s') :
    S.Shares n s' (held + 1) := by
  have hpermits := S.acquire_permits s s' ha
  have hconserved := h.conserved
  refine ⟨by omega, ?_⟩
  rw [S.acquire_open s s' ha]
  exact h.isOpen

theorem Shares.released (h : S.Shares n s (held + 1)) : S.Shares n (S.release s) held := by
  have hconserved := h.conserved
  refine ⟨?_, ?_⟩
  · rw [S.release_permits s]
    omega
  · rw [S.release_open s]
    exact h.isOpen

theorem Shares.not_closed (h : S.Shares n s held) : S.acquire s ≠ .closed := by
  intro hc
  have hclosed := S.acquire_closed s hc
  rw [h.isOpen] at hclosed
  cases hclosed

theorem Shares.held_le (h : S.Shares n s held) : held ≤ n := by
  have hconserved := h.conserved
  omega

end Semaphore

/-- Those of a list that have a property, when one entry of it changes. -/
theorem countP_changed {l : List α} {a b : α} (h : l[i]? = some a) (p : α → Bool) :
    (l.set i b).countP p + (if p a then 1 else 0) = l.countP p + (if p b then 1 else 0) := by
  obtain ⟨hi, rfl⟩ := List.getElem?_eq_some_iff.mp h
  have hle := List.boole_getElem_le_countP (p := p) hi
  rw [List.countP_set hi]
  omega

end Khronos.Lib
