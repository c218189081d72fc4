import Mathlib.Logic.Basic

namespace Khronos.Lib
variable {σ κ ν α β : Type}

/-- Two forms of one operation that is about a region of the state, in the states in which it is
meant for it: both leave what the other regions show as it is, and what one answers and makes of
its region the other does wherever the region shows the same. -/
structure Local (view : κ → σ → ν) (Safe Meant : σ → Prop) (k : κ) (p p' : σ → α × σ) : Prop where
  meant : ∀ s t, Safe s → Safe t → view k s = view k t → Meant s → Meant t
  safe : ∀ s, Safe s → Meant s → Safe (p s).2 ∧ Safe (p' s).2
  leaves : ∀ s, Safe s → Meant s → ∀ l, l ≠ k →
    view l (p s).2 = view l s ∧ view l (p' s).2 = view l s
  alike : ∀ s t, Safe s → Safe t → Meant s → view k s = view k t →
    (p s).1 = (p' t).1 ∧ view k (p s).2 = view k (p' t).2

variable {view : κ → σ → ν} {Safe Meant Meant' : σ → Prop} {k l : κ} {p p' : σ → α × σ}
  {q q' : σ → β × σ}

/-- Operations on different regions commute: in either order each answers the same, and every
region shows the same in the end. -/
theorem Local.commute (hp : Local view Safe Meant k p p') (hq : Local view Safe Meant' l q q')
    (hkl : k ≠ l) {s : σ} (hs : Safe s) (hm : Meant s) (hm' : Meant' s) :
    (p s).1 = (p' (q' s).2).1 ∧ (q (p s).2).1 = (q' s).1 ∧
      ∀ m, view m (q (p s).2).2 = view m (p' (q' s).2).2 := by
  have hsp := (hp.safe s hs hm).1
  have hsq := (hq.safe s hs hm').2
  -- Each finds its region after the other as it finds it before.
  have hk : view k (q' s).2 = view k s := (hq.leaves s hs hm' k hkl).2
  have hl : view l (p s).2 = view l s := (hp.leaves s hs hm l hkl.symm).1
  have hmp : Meant (q' s).2 := hp.meant s _ hs hsq hk.symm hm
  have hmq : Meant' (p s).2 := hq.meant s _ hs hsp hl.symm hm'
  obtain ⟨hanswer, hregion⟩ := hp.alike s (q' s).2 hs hsq hm hk.symm
  obtain ⟨hanswer', hregion'⟩ := hq.alike (p s).2 s hsp hs hmq hl
  refine ⟨hanswer, hanswer', fun m => ?_⟩
  by_cases hmk : m = k
  · rw [hmk]
    exact (hq.leaves _ hsp hmq k hkl).1.trans hregion
  · have hlast := (hp.leaves _ hsq hmp m hmk).2
    by_cases hml : m = l
    · rw [hml] at hlast ⊢
      exact hregion'.trans hlast.symm
    · calc view m (q (p s).2).2 = view m (p s).2 := (hq.leaves _ hsp hmq m hml).1
        _ = view m s := (hp.leaves s hs hm m hmk).1
        _ = view m (q' s).2 := (hq.leaves s hs hm' m hml).2.symm
        _ = view m (p' (q' s).2).2 := hlast.symm

end Khronos.Lib
