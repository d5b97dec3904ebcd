import ItemStore.Fault
import Mathlib.Data.List.Forall2

/-! Outcomes.

A computation that needs others succeeds exactly if they do. `bind_ok` opens one step of it, and
`mapM_ok` a computation made for each member of a list. A computation that carries a state opens
in the same way, with the state between its steps. Two computations agree if they succeed and fail
together (`Agree`), and then so do those that need them. -/
namespace ItemStore.Outcome

variable {α β : Type}

theorem bind_ok {x : Except Fault α} {f : α → Except Fault β} {b : β} :
    (x >>= f) = .ok b ↔ ∃ a, x = .ok a ∧ f a = .ok b := by
  cases x <;> simp [bind, Except.bind]

theorem ok_bind {a : α} {f : α → Except Fault β} : (Except.ok a >>= f) = f a := rfl

theorem pure_ok {a b : α} : (pure a : Except Fault α) = .ok b ↔ a = b := by
  simp [pure, Except.pure]

theorem map_ok {x : Except Fault α} {f : α → β} {b : β} :
    x.map f = .ok b ↔ ∃ a, x = .ok a ∧ f a = b := by
  cases x <;> simp [Except.map]

theorem mapM_ok {f : α → Except Fault β} {xs : List α} {ys : List β} :
    xs.mapM f = .ok ys ↔ List.Forall₂ (fun x y => f x = .ok y) xs ys := by
  induction xs generalizing ys with
  | nil => cases ys <;> simp [pure_ok]
  | cons x xs ih =>
    rw [List.mapM_cons, bind_ok]
    simp only [bind_ok, pure_ok, ih]
    constructor
    · intro h
      obtain ⟨y, hy, ys, hys, rfl⟩ := h
      exact .cons hy hys
    · intro h
      obtain _ | ⟨hy, hys⟩ := h
      exact ⟨_, hy, _, hys, rfl⟩

theorem filterAuxM_ok {f : α → Except Fault Bool} {p : α → Bool} (h : ∀ x, f x = .ok (p x))
    (xs kept : List α) : xs.filterAuxM f kept = .ok ((xs.filter p).reverse ++ kept) := by
  induction xs generalizing kept with
  | nil => rfl
  | cons x xs ih =>
    rw [List.filterAuxM, h, ok_bind]
    cases hx : p x with
    | true =>
      rw [cond_true, ih, List.filter_cons_of_pos hx]
      simp
    | false =>
      rw [cond_false, ih, List.filter_cons_of_neg (by simp [hx])]

/-- A selection by a test that never fails. -/
theorem filterM_ok {f : α → Except Fault Bool} {p : α → Bool} (h : ∀ x, f x = .ok (p x))
    (xs : List α) : xs.filterM f = .ok (xs.filter p) := by
  rw [List.filterM, filterAuxM_ok h, ok_bind, List.append_nil, List.reverse_reverse]
  rfl

/-! ### Computations with a state -/

section Stateful
variable {σ : Type} {p q : σ}

theorem run_bind {x : ExceptT Fault (StateM σ) α} {f : α → ExceptT Fault (StateM σ) β} {b : β} :
    (x >>= f) p = (.ok b, q) ↔ ∃ a r, x p = (.ok a, r) ∧ f a r = (.ok b, q) := by
  have hbind : (x >>= f) p = ExceptT.bindCont f (x p).1 (x p).2 := rfl
  rw [hbind]
  constructor
  · intro h
    rcases hx : x p with ⟨e | a, r⟩
    · rw [hx] at h
      cases h
    · rw [hx] at h
      exact ⟨a, r, rfl, h⟩
  · intro h
    obtain ⟨a, r, hx, hf⟩ := h
    rw [hx]
    exact hf

theorem run_bind_of_ok {x : ExceptT Fault (StateM σ) α} {f : α → ExceptT Fault (StateM σ) β} {a : α}
    (hx : x p = (.ok a, q)) : (x >>= f) p = f a q := by
  show ExceptT.bindCont f (x p).1 (x p).2 = _
  rw [hx]
  rfl

theorem run_bind_of_error {x : ExceptT Fault (StateM σ) α} {f : α → ExceptT Fault (StateM σ) β}
    {e : Fault} (hx : x p = (.error e, q)) : (x >>= f) p = (.error e, q) := by
  show ExceptT.bindCont f (x p).1 (x p).2 = _
  rw [hx]
  rfl

theorem run_ok_bind {f : α → ExceptT Fault (StateM σ) β} (a : α) :
    ((liftM (Except.ok a : Except Fault α) : ExceptT Fault (StateM σ) α) >>= f) p = f a p := rfl

theorem run_error_bind {f : α → ExceptT Fault (StateM σ) β} (e : Fault) :
    ((liftM (Except.error e : Except Fault α) : ExceptT Fault (StateM σ) α) >>= f) p =
      (.error e, p) := rfl

/-- A step without effect. -/
theorem run_lift {x : Except Fault α} {a : α} :
    (liftM x : ExceptT Fault (StateM σ) α) p = (.ok a, q) ↔ x = .ok a ∧ q = p := by
  show (x, p) = (.ok a, q) ↔ _
  rw [Prod.mk.injEq, eq_comm (a := p)]

theorem run_pure {a b : α} :
    (pure a : ExceptT Fault (StateM σ) α) p = (.ok b, q) ↔ a = b ∧ q = p := by
  show (Except.ok a, p) = (.ok b, q) ↔ _
  rw [Prod.mk.injEq, Except.ok.injEq, eq_comm (a := p)]

theorem run_get {f : σ → ExceptT Fault (StateM σ) α} : (get >>= f) p = f p p := rfl

theorem run_set {f : PUnit → ExceptT Fault (StateM σ) α} : (set q >>= f) p = f ⟨⟩ q := rfl

end Stateful

/-! ### Two computations -/

/-- Both computations succeed, with results that are related, or both fail. -/
inductive Agree (R : α → β → Prop) : Except Fault α → Except Fault β → Prop
  | ok {a : α} {b : β} (h : R a b) : Agree R (.ok a) (.ok b)
  | error (e f : Fault) : Agree R (.error e) (.error f)

namespace Agree

variable {γ δ : Type} {R : α → β → Prop} {S : γ → δ → Prop} {x : Except Fault α}
  {y : Except Fault β}

theorem refl {R : α → α → Prop} (hR : ∀ a, R a a) (x : Except Fault α) : Agree R x x := by
  cases x with
  | ok a => exact .ok (hR a)
  | error e => exact .error e e

theorem bind {f : α → Except Fault γ} {g : β → Except Fault δ} (hxy : Agree R x y)
    (hfg : ∀ a b, R a b → Agree S (f a) (g b)) : Agree S (x >>= f) (y >>= g) := by
  cases hxy with
  | ok h => exact hfg _ _ h
  | error e f => exact .error e f

theorem of_ok (hx : ∀ a, x = .ok a → ∃ b, y = .ok b ∧ R a b)
    (hy : ∀ b, y = .ok b → ∃ a, x = .ok a) : Agree R x y := by
  cases x with
  | ok a =>
    obtain ⟨b, rfl, h⟩ := hx a rfl
    exact .ok h
  | error e =>
    cases y with
    | ok b =>
      obtain ⟨a, ha⟩ := hy b rfl
      cases ha
    | error f => exact .error e f

theorem exists_iff (h : Agree R x y) : (∃ a, x = .ok a) ↔ ∃ b, y = .ok b := by
  cases h with
  | ok h => exact iff_of_true ⟨_, rfl⟩ ⟨_, rfl⟩
  | error e f => simp

theorem related (h : Agree R x y) {a : α} {b : β} (hx : x = .ok a) (hy : y = .ok b) : R a b := by
  cases h with
  | ok h =>
    cases hx
    cases hy
    exact h
  | error e f => cases hx

end Agree

/-! ### Lists member by member -/

variable {R : α → β → Prop} {xs : List α} {ys : List β}

theorem exists_of_mem_left (h : List.Forall₂ R xs ys) : ∀ x ∈ xs, ∃ y ∈ ys, R x y := by
  induction h with
  | nil => simp
  | cons hxy _ ih =>
    intro x hx
    rcases List.mem_cons.mp hx with rfl | hx
    · exact ⟨_, List.mem_cons_self .., hxy⟩
    · obtain ⟨y, hy, hr⟩ := ih x hx
      exact ⟨y, List.mem_cons_of_mem _ hy, hr⟩

theorem exists_of_mem_right (h : List.Forall₂ R xs ys) : ∀ y ∈ ys, ∃ x ∈ xs, R x y :=
  exists_of_mem_left h.flip

/-- What follows for each member follows for the lists. -/
theorem forall₂_of_mem {S : α → β → Prop} (hS : ∀ x ∈ xs, ∀ y, R x y → S x y)
    (h : List.Forall₂ R xs ys) : List.Forall₂ S xs ys :=
  ((List.forall₂_and_left xs ys).mpr ⟨hS, h⟩).imp fun _ y hxy => hxy.1 y hxy.2

/-- Entries that have their keys in common, and values that are related. -/
theorem forall₂_entries_iff {κ : Type} {es : List (κ × α)} {fs : List (κ × β)} :
    List.Forall₂ (fun e f => e.1 = f.1 ∧ R e.2 f.2) es fs ↔
      es.map (·.1) = fs.map (·.1) ∧ List.Forall₂ R (es.map (·.2)) (fs.map (·.2)) := by
  induction es generalizing fs with
  | nil => cases fs <;> simp
  | cons e es ih => cases fs <;> simp [ih, and_assoc, and_left_comm]

theorem exists_forall₂ (h : ∀ x ∈ xs, ∃ y, R x y) : ∃ ys, List.Forall₂ R xs ys := by
  induction xs with
  | nil => exact ⟨[], .nil⟩
  | cons x xs ih =>
    obtain ⟨y, hy⟩ := h x (List.mem_cons_self ..)
    obtain ⟨ys, hys⟩ := ih fun z hz => h z (List.mem_cons_of_mem _ hz)
    exact ⟨y :: ys, .cons hy hys⟩

theorem forall_mem_split {p : α → Prop} {before after : List α} {x : α} :
    (∀ y ∈ before ++ x :: after, p y) ↔ (∀ y ∈ before, p y) ∧ p x ∧ ∀ y ∈ after, p y := by
  rw [List.forall_mem_append, List.forall_mem_cons]

/-- A member of the second list gives way to one that is related to as much. -/
theorem forall₂_replace_right {xs : List α} {before after : List β} {y y' : β}
    (hy : ∀ x, R x y → R x y') (h : List.Forall₂ R xs (before ++ y :: after)) :
    List.Forall₂ R xs (before ++ y' :: after) := by
  induction before generalizing xs with
  | nil =>
    obtain _ | ⟨hxy, h⟩ := h
    exact .cons (hy _ hxy) h
  | cons b before ih =>
    obtain _ | ⟨hxb, h⟩ := h
    exact .cons hxb (ih h)

theorem forall₂_replace_left {ys : List β} {before after : List α} {x x' : α}
    (hx : ∀ y, R x y → R x' y) (h : List.Forall₂ R (before ++ x :: after) ys) :
    List.Forall₂ R (before ++ x' :: after) ys :=
  (forall₂_replace_right (R := flip R) hx h.flip).flip

end ItemStore.Outcome
