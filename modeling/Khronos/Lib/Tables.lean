import Mathlib.Data.List.Nodup
import Mathlib.Data.List.Sort

namespace Khronos.Lib.Table

/-- `UPDATE t SET f WHERE p`. -/
def update (p : ρ → Bool) (f : ρ → ρ) (t : List ρ) : List ρ :=
  t.map (fun r => if p r then f r else r)

/-- Rows are told apart by their key. -/
def Keyed (key : ρ → κ) (t : List ρ) : Prop := (t.map key).Nodup

theorem mem_update {p : ρ → Bool} {f : ρ → ρ} {t : List ρ} {r' : ρ} :
    r' ∈ update p f t ↔ ∃ r ∈ t, r' = if p r then f r else r := by
  rw [update, List.mem_map]
  exact exists_congr (fun r => and_congr_right (fun _ => eq_comm))

theorem update_mem {p : ρ → Bool} {f : ρ → ρ} {t : List ρ} {r : ρ} (hr : r ∈ t) :
    (if p r then f r else r) ∈ update p f t :=
  mem_update.mpr ⟨r, hr, rfl⟩

/-- What an update keeps on the rows it selects holds of the whole table again. -/
theorem forall_update {P : ρ → Prop} {p : ρ → Bool} {f : ρ → ρ} {t : List ρ}
    (hf : ∀ r, p r = true → P r → P (f r)) (h : ∀ r ∈ t, P r) : ∀ r ∈ update p f t, P r := by
  intro r' hr'
  obtain ⟨r, hr, rfl⟩ := mem_update.mp hr'
  split
  · exact hf r ‹_› (h r hr)
  · exact h r hr

/-- A statement that selects no row changes nothing. -/
theorem update_none {p : ρ → Bool} {f : ρ → ρ} {t : List ρ} (h : ∀ r ∈ t, p r = false) :
    update p f t = t := by
  conv_rhs => rw [← List.map_id t]
  apply List.map_congr_left
  intro r hr
  simp [h r hr]

theorem update_unselected {p : ρ → Bool} {f : ρ → ρ} {t : List ρ}
    (h : (t.filter p).length = 0) : update p f t = t := by
  have hnone := List.filter_eq_nil_iff.mp (List.length_eq_zero_iff.mp h)
  apply update_none
  intro r hr
  simpa using hnone r hr

/-- An update of rows that a query does not select, before or after, does not show in it. -/
theorem filter_update {p q : ρ → Bool} {f : ρ → ρ} {t : List ρ}
    (h : ∀ r ∈ t, p r = true → q r = false ∧ q (f r) = false) :
    (update p f t).filter q = t.filter q := by
  induction t with
  | nil => rfl
  | cons r t ih =>
    have ht := ih (fun s hs => h s (by simp [hs]))
    rw [update] at ht ⊢
    cases hp : p r with
    | false => simp [List.filter_cons, hp, ht]
    | true =>
      obtain ⟨hr, hf⟩ := h r (by simp) hp
      simp [hp, hr, hf, ht]

/-- Tables that agree on some rows agree on any selection among them. -/
theorem filter_agree {p q : ρ → Bool} {t u : List ρ} (h : t.filter q = u.filter q)
    (ht : ∀ r ∈ t, p r = true → q r = true) (hu : ∀ r ∈ u, p r = true → q r = true) :
    t.filter p = u.filter p := by
  have hsub : ∀ v : List ρ, (∀ r ∈ v, p r = true → q r = true) →
      v.filter p = (v.filter q).filter p := by
    intro v hv
    rw [List.filter_filter]
    apply List.filter_congr
    intro r hr
    cases hp : p r with
    | false => rfl
    | true => rw [hv r hr hp, Bool.and_self]
  rw [hsub t ht, hsub u hu, h]

/-- An update that keeps a column keeps the whole column. -/
theorem update_column {p : ρ → Bool} {f : ρ → ρ} (key : ρ → κ) (t : List ρ)
    (hk : ∀ r ∈ t, p r = true → key (f r) = key r) : (update p f t).map key = t.map key := by
  rw [update, List.map_map]
  apply List.map_congr_left
  intro r hr
  cases hp : p r with
  | true => simp [hp, hk r hr hp]
  | false => simp [hp]

/-- The same for a column of selected rows. -/
theorem update_selected {p q : ρ → Bool} {f : ρ → ρ} (key : ρ → κ) (t : List ρ)
    (h : ∀ r, q (f r) = q r ∧ key (f r) = key r) :
    ((update p f t).filter q).map key = (t.filter q).map key := by
  induction t with
  | nil => rfl
  | cons r t ih =>
    rw [update, List.map_cons, ← update]
    cases hp : p r <;> cases hq : q r <;> simp [hq, h, ih]

theorem Keyed.update {key : ρ → κ} {t : List ρ} (h : Keyed key t) (p : ρ → Bool) (f : ρ → ρ)
    (hk : ∀ r ∈ t, p r = true → key (f r) = key r) : Keyed key (update p f t) := by
  unfold Keyed
  rw [update_column key t hk]
  exact h

theorem Keyed.append {key : ρ → κ} {t : List ρ} (h : Keyed key t) (r : ρ)
    (hn : ∀ q ∈ t, key q ≠ key r) : Keyed key (t ++ [r]) := by
  unfold Keyed
  rw [List.map_append]
  refine List.Nodup.append h (by simp) ?_
  intro k hk hr
  obtain ⟨q, hq, rfl⟩ := List.mem_map.mp hk
  exact hn q hq (by simpa using hr)

/-- A key names one row. -/
theorem Keyed.unique {key : ρ → κ} {t : List ρ} (h : Keyed key t) {r q : ρ} (hr : r ∈ t)
    (hq : q ∈ t) (hk : key r = key q) : r = q :=
  List.inj_on_of_nodup_map h hr hq hk

/-- A lookup by key finds exactly the row with that key. -/
theorem Keyed.find_iff [DecidableEq κ] {key : ρ → κ} {t : List ρ} (h : Keyed key t) {k : κ}
    {r : ρ} : t.find? (fun q => decide (key q = k)) = some r ↔ r ∈ t ∧ key r = k := by
  constructor
  · intro hf
    exact ⟨List.mem_of_find?_eq_some hf, by simpa using List.find?_some hf⟩
  · rintro ⟨hr, rfl⟩
    cases hf : t.find? (fun q => decide (key q = key r)) with
    | none =>
      have hn := List.find?_eq_none.mp hf r hr
      simp at hn
    | some q =>
      have hk : key q = key r := by simpa using List.find?_some hf
      rw [h.unique (List.mem_of_find?_eq_some hf) hr hk]

/-- An update by the key of a row replaces this row where it stands. -/
theorem Keyed.update_split [DecidableEq κ] {key : ρ → κ} {t : List ρ} (h : Keyed key t) {r : ρ}
    (hr : r ∈ t) (f : ρ → ρ) : ∃ pre post, t = pre ++ r :: post ∧
      Table.update (fun q => key q = key r) f t = pre ++ f r :: post := by
  obtain ⟨pre, post, rfl⟩ := List.append_of_mem hr
  refine ⟨pre, post, rfl, ?_⟩
  unfold Keyed at h
  rw [List.map_append, List.map_cons, List.nodup_append] at h
  obtain ⟨-, hpost, hpre⟩ := h
  have hbefore : ∀ q ∈ pre, key q ≠ key r := fun q hq =>
    hpre _ (List.mem_map_of_mem hq) _ List.mem_cons_self
  have hafter : ∀ q ∈ post, key q ≠ key r := fun q hq he =>
    (List.nodup_cons.mp hpost).1 (he ▸ List.mem_map_of_mem hq)
  have hnone : ∀ {u : List ρ}, (∀ q ∈ u, key q ≠ key r) →
      Table.update (fun q => key q = key r) f u = u :=
    fun hu => update_none (fun q hq => decide_eq_false (hu q hq))
  have hself : (if decide (key r = key r) then f r else r) = f r := if_pos (by simp)
  rw [Table.update, List.map_append, List.map_cons, ← Table.update, ← Table.update, hnone hbefore,
    hnone hafter, hself]

/-- An update that does not touch what a lookup compares commutes with it. -/
theorem find_update (p q : ρ → Bool) (f : ρ → ρ) (t : List ρ)
    (hq : ∀ r, q (f r) = q r) :
    (update p f t).find? q = (t.find? q).map (fun r => if p r then f r else r) := by
  have hp : q ∘ (fun r => if p r then f r else r) = q := by
    funext r
    by_cases h : p r = true <;> simp [h, hq]
  rw [update, List.find?_map, hp]

/-- An update that does not change which rows a query selects happens within them. -/
theorem filter_update_within {p q : ρ → Bool} {f : ρ → ρ} (hq : ∀ r, q (f r) = q r) (t : List ρ) :
    (update p f t).filter q = update p f (t.filter q) := by
  unfold update
  rw [List.filter_map]
  congr 1
  apply List.filter_congr
  intro r _
  rw [Function.comp_apply]
  split
  · rw [hq]
  · rfl

theorem any_update {p q : ρ → Bool} {f : ρ → ρ} (hq : ∀ r, q (f r) = q r) (t : List ρ) :
    (update p f t).any q = t.any q := by
  unfold update
  rw [List.any_map]
  congr 1
  funext r
  rw [Function.comp_apply]
  split
  · rw [hq]
  · rfl

/-- What two functions make alike of rows that look alike, they make alike of tables that do. -/
theorem map_alike {g : ρ → ν} {h h' : ρ → μ} (hg : ∀ r r', g r = g r' → h r = h' r')
    {t u : List ρ} (ht : t.map g = u.map g) : t.map h = u.map h' := by
  induction t generalizing u with
  | nil =>
    cases u with
    | nil => rfl
    | cons r' u => cases ht
  | cons r t ih =>
    cases u with
    | nil => cases ht
    | cons r' u =>
      obtain ⟨hr, ht⟩ := List.cons.inj ht
      rw [List.map_cons, List.map_cons, hg r r' hr, ih ht]

theorem update_alike {g : ρ → ν} {p p' : ρ → Bool} {f f' : ρ → ρ}
    (hp : ∀ r r', g r = g r' → p r = p' r') (hf : ∀ r r', g r = g r' → g (f r) = g (f' r'))
    {t u : List ρ} (ht : t.map g = u.map g) : (update p f t).map g = (update p' f' u).map g := by
  unfold update
  rw [List.map_map, List.map_map]
  refine map_alike (g := g) (fun r r' hr => ?_) ht
  simp only [Function.comp_apply, hp r r' hr]
  split
  · exact hf r r' hr
  · exact hr

/-- Statements that select rows in parts of two tables that look alike select as many. -/
theorem count_alike {g : ρ → ν} {p p' q q' : ρ → Bool} (hp : ∀ r r', g r = g r' → p r = p' r')
    {t u : List ρ} (ht : ∀ r ∈ t, p r = true → q r = true) (hu : ∀ r ∈ u, p' r = true → q' r = true)
    (h : (t.filter q).map g = (u.filter q').map g) : (t.filter p).length = (u.filter p').length := by
  have hwithin : ∀ {p q : ρ → Bool} {t : List ρ}, (∀ r ∈ t, p r = true → q r = true) →
      (t.filter p).length = ((t.filter q).map p).count true := by
    intro p q t ht
    rw [List.count, List.countP_map, List.countP_eq_length_filter, List.filter_filter]
    congr 1
    apply List.filter_congr
    intro r hr
    cases hpr : p r with
    | false => simp [hpr]
    | true => simp [hpr, ht r hr hpr]
  rw [hwithin ht, hwithin hu, map_alike hp h]

/-- A table is known from the order of its classes and the rows of each. -/
theorem ext_of_classes [DecidableEq κ] {c : ρ → κ} {t u : List ρ} (hc : t.map c = u.map c)
    (h : ∀ k ∈ t.map c, t.filter (fun r => c r = k) = u.filter (fun r => c r = k)) : t = u := by
  induction t generalizing u with
  | nil =>
    cases u with
    | nil => rfl
    | cons r' u => cases hc
  | cons r t ih =>
    cases u with
    | nil => cases hc
    | cons r' u =>
      obtain ⟨hr, htail⟩ := List.cons.inj hc
      have hfirst := h (c r) List.mem_cons_self
      rw [List.filter_cons_of_pos (by simp), List.filter_cons_of_pos (by simp [hr])] at hfirst
      obtain ⟨rfl, -⟩ := List.cons.inj hfirst
      refine congrArg (r :: ·) (ih htail (fun k hk => ?_))
      have hrest := h k (List.mem_cons_of_mem _ hk)
      by_cases hkr : c r = k
      · rw [List.filter_cons_of_pos (by simpa using hkr),
          List.filter_cons_of_pos (by simpa using hkr)] at hrest
        exact (List.cons.inj hrest).2
      · rw [List.filter_cons_of_neg (by simpa using hkr),
          List.filter_cons_of_neg (by simpa using hkr)] at hrest
        exact hrest

/-- An update that keeps what a relation looks at keeps a table's order by it. -/
theorem pairwise_update {R : ρ → ρ → Prop} {p : ρ → Bool} {f : ρ → ρ} {t : List ρ}
    (hf : ∀ a b, R a b → R (f a) b ∧ R a (f b) ∧ R (f a) (f b)) (h : t.Pairwise R) :
    (update p f t).Pairwise R := by
  rw [update, List.pairwise_map]
  refine h.imp (fun {a b} hab => ?_)
  obtain ⟨hl, hr, hlr⟩ := hf a b hab
  cases p a <;> cases p b <;> simpa

section OrderBy
variable {le : ρ → ρ → Prop} [DecidableRel le]

/-- A search of a sorted table after the insertion of a row stops at that row, unless the
table has an earlier match that is strictly smaller. -/
theorem find_orderedInsert [IsTrans ρ le] (p : ρ → Bool) {a : ρ} (ha : p a = true) {t : List ρ}
    (ht : t.Pairwise le) :
    (t.orderedInsert le a).find? p = match t.find? p with
      | some x => if le a x then some a else some x
      | none => some a := by
  induction t with
  | nil => simp [ha]
  | cons b t ih =>
    obtain ⟨hb, ht⟩ := List.pairwise_cons.mp ht
    by_cases hab : le a b
    · rw [List.orderedInsert_cons_of_le le t hab, List.find?_cons_of_pos ha]
      cases hf : (b :: t).find? p with
      | none => rfl
      | some x =>
        have hax : le a x := by
          rcases List.mem_cons.mp (List.mem_of_find?_eq_some hf) with rfl | hx
          · exact hab
          · exact Trans.trans hab (hb x hx)
        simp [hax]
    · rw [List.orderedInsert_of_not_le le t hab]
      cases hpb : p b with
      | true => simp [hpb, hab]
      | false => simp [hpb, ih ht]

theorem find_orderedInsert_of_not (p : ρ → Bool) {a : ρ} (ha : p a = false) (t : List ρ) :
    (t.orderedInsert le a).find? p = t.find? p := by
  induction t with
  | nil => simp [ha]
  | cons b t ih =>
    by_cases hab : le a b
    · rw [List.orderedInsert_cons_of_le le t hab, List.find?_cons_of_neg (by simp [ha])]
    · rw [List.orderedInsert_of_not_le le t hab, List.find?_cons, List.find?_cons, ih]

/-- `ORDER BY ... LIMIT 1`: a search of the sorted table finds the first of the smallest
matches, where the table holds it. -/
theorem find_insertionSort [IsTrans ρ le] [Std.Total le] {p : ρ → Bool} {t : List ρ} {x : ρ}
    (h : (t.insertionSort le).find? p = some x) :
    ∃ pre post, t = pre ++ x :: post ∧ (∀ y ∈ pre, p y = true → ¬ le y x) ∧
      ∀ y ∈ post, p y = true → le x y := by
  induction t generalizing x with
  | nil => cases h
  | cons a t ih =>
    rw [List.insertionSort_cons] at h
    cases ha : p a with
    | false =>
      rw [find_orderedInsert_of_not p ha] at h
      obtain ⟨pre, post, rfl, hpre, hpost⟩ := ih h
      refine ⟨a :: pre, post, rfl, ?_, hpost⟩
      rintro y (_ | ⟨_, hy⟩) hp
      · rw [ha] at hp
        cases hp
      · exact hpre y hy hp
    | true =>
      rw [find_orderedInsert p ha (List.pairwise_insertionSort le t)] at h
      cases hf : (t.insertionSort le).find? p with
      | none =>
        rw [hf] at h
        cases h
        refine ⟨[], t, rfl, by simp, ?_⟩
        intro y hy hp
        exact absurd hp (List.find?_eq_none.mp hf y ((List.mem_insertionSort le).mpr hy))
      | some z =>
        obtain ⟨pre, post, rfl, hpre, hpost⟩ := ih hf
        simp only [hf] at h
        by_cases haz : le a z
        · rw [if_pos haz] at h
          cases h
          refine ⟨[], pre ++ z :: post, rfl, by simp, ?_⟩
          intro y hy hp
          rcases List.mem_append.mp hy with hy | hy
          · exact Trans.trans haz ((Std.Total.total y z).resolve_left (hpre y hy hp))
          · rcases List.mem_cons.mp hy with rfl | hy
            · exact haz
            · exact Trans.trans haz (hpost y hy hp)
        · rw [if_neg haz] at h
          cases h
          refine ⟨a :: pre, post, rfl, ?_, hpost⟩
          rintro y (_ | ⟨_, hy⟩) hp
          · exact haz
          · exact hpre y hy hp

end OrderBy

end Khronos.Lib.Table
