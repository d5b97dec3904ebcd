import ItemStore.Value.Equality
import Mathlib.Data.List.Basic

/-! The members of a set.

`distinct` lets a value in if no member is the same yet. No two of its members are the same, all
of them were there before, and each value is one of them or has its like among them: the one that
came first. A list without repetitions stays as it is. -/
namespace ItemStore.Value

/-- No two of the values are the same. -/
def Distinct (vs : List Value) : Prop := vs.Pairwise fun a b => a.same b = false

instance (vs : List Value) : Decidable (Distinct vs) :=
  inferInstanceAs (Decidable (vs.Pairwise fun a b => a.same b = false))

/-- Lets a value in unless a member is the same. -/
def enroll (seen : List Value) (v : Value) : List Value :=
  if seen.any (fun u => same u v) then seen else seen ++ [v]

/-! ### One value -/

theorem enroll_of_same {seen : List Value} {v : Value} (h : ∃ u ∈ seen, u.same v = true) :
    enroll seen v = seen := by
  rw [enroll, if_pos (List.any_eq_true.mpr h)]

theorem enroll_of_new {seen : List Value} {v : Value} (h : ∀ u ∈ seen, u.same v = false) :
    enroll seen v = seen ++ [v] := by
  rw [enroll, if_neg]
  intro hany
  obtain ⟨u, hu, hs⟩ := List.any_eq_true.mp hany
  rw [h u hu] at hs
  cases hs

/-- A value is let in, or its like is there. -/
theorem same_or_new (seen : List Value) (v : Value) :
    (∃ u ∈ seen, u.same v = true) ∨ ∀ u ∈ seen, u.same v = false := by
  by_cases h : ∃ u ∈ seen, u.same v = true
  · exact .inl h
  · exact .inr fun u hu => Bool.eq_false_iff.mpr fun hs => h ⟨u, hu, hs⟩

theorem Distinct.enroll {seen : List Value} (h : Distinct seen) (v : Value) :
    Distinct (enroll seen v) := by
  rcases same_or_new seen v with hold | hnew
  · rwa [enroll_of_same hold]
  · rw [enroll_of_new hnew]
    refine List.pairwise_append.mpr ⟨h, List.pairwise_singleton .., ?_⟩
    intro u hu w hw
    rw [List.mem_singleton.mp hw]
    exact hnew u hu

theorem mem_enroll {seen : List Value} {u v : Value} (h : u ∈ enroll seen v) :
    u ∈ seen ∨ u = v := by
  rcases same_or_new seen v with hold | hnew
  · rw [enroll_of_same hold] at h
    exact .inl h
  · rw [enroll_of_new hnew] at h
    simpa using h

theorem subset_enroll (seen : List Value) (v : Value) : seen ⊆ enroll seen v := by
  rcases same_or_new seen v with hold | hnew
  · rw [enroll_of_same hold]
    exact List.Subset.refl _
  · rw [enroll_of_new hnew]
    exact List.subset_append_left ..

theorem mem_or_same_enroll (seen : List Value) (v : Value) :
    v ∈ enroll seen v ∨ ∃ u ∈ enroll seen v, u.same v = true := by
  rcases same_or_new seen v with hold | hnew
  · rw [enroll_of_same hold]
    exact .inr hold
  · rw [enroll_of_new hnew]
    exact .inl (List.mem_append_right _ (List.mem_singleton_self v))

/-! ### All values one after the other -/

theorem Distinct.foldl_enroll {seen : List Value} (h : Distinct seen) (vs : List Value) :
    Distinct (vs.foldl Value.enroll seen) := by
  induction vs generalizing seen with
  | nil => exact h
  | cons v vs ih => exact ih (h.enroll v)

theorem mem_foldl_enroll {u : Value} {vs seen : List Value} (h : u ∈ vs.foldl enroll seen) :
    u ∈ seen ∨ u ∈ vs := by
  induction vs generalizing seen with
  | nil => exact .inl h
  | cons v vs ih =>
    rcases ih h with h | h
    · rcases mem_enroll h with h | rfl
      · exact .inl h
      · exact .inr (List.mem_cons_self ..)
    · exact .inr (List.mem_cons_of_mem _ h)

theorem subset_foldl_enroll (vs seen : List Value) : seen ⊆ vs.foldl enroll seen := by
  induction vs generalizing seen with
  | nil => exact List.Subset.refl _
  | cons v vs ih => exact List.Subset.trans (subset_enroll seen v) (ih _)

theorem mem_or_same_foldl_enroll {v : Value} {vs : List Value} (h : v ∈ vs) (seen : List Value) :
    v ∈ vs.foldl enroll seen ∨ ∃ u ∈ vs.foldl enroll seen, u.same v = true := by
  induction vs generalizing seen with
  | nil => cases h
  | cons x vs ih =>
    rcases List.mem_cons.mp h with rfl | h
    · rcases mem_or_same_enroll seen v with hmem | ⟨u, hu, hs⟩
      · exact .inl (subset_foldl_enroll vs _ hmem)
      · exact .inr ⟨u, subset_foldl_enroll vs _ hu, hs⟩
    · exact ih h _

theorem foldl_enroll_eq {seen vs : List Value} (h : Distinct (seen ++ vs)) :
    vs.foldl enroll seen = seen ++ vs := by
  induction vs generalizing seen with
  | nil => rw [List.append_nil, List.foldl_nil]
  | cons v vs ih =>
    have hnew : ∀ u ∈ seen, u.same v = false := fun u hu =>
      (List.pairwise_append.mp h).2.2 u hu v (List.mem_cons_self ..)
    rw [List.append_cons] at h ⊢
    rw [List.foldl_cons, enroll_of_new hnew]
    exact ih h

/-! ### The members of a set -/

theorem distinct_distinct (vs : List Value) : Distinct (distinct vs) :=
  Distinct.foldl_enroll .nil vs

theorem mem_of_mem_distinct {u : Value} {vs : List Value} (h : u ∈ distinct vs) : u ∈ vs :=
  (mem_foldl_enroll h).resolve_left (List.not_mem_nil)

/-- A value is a member, or its like is. -/
theorem mem_or_same_distinct {v : Value} {vs : List Value} (h : v ∈ vs) :
    v ∈ distinct vs ∨ ∃ u ∈ distinct vs, u.same v = true :=
  mem_or_same_foldl_enroll h []

/-- Each value that is the same as itself has its like among the members. -/
theorem exists_same_mem_distinct {v : Value} {vs : List Value} (hv : v.same v = true)
    (h : v ∈ vs) : ∃ u ∈ distinct vs, u.same v = true :=
  (mem_or_same_distinct h).elim (fun hmem => ⟨v, hmem, hv⟩) id

theorem Distinct.distinct_eq {vs : List Value} (h : Distinct vs) : distinct vs = vs :=
  @foldl_enroll_eq [] vs h

end ItemStore.Value
