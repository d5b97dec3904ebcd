import ItemStore.Proofs.Outcome

/-! Failures.

Beside what a computation gives when it succeeds there is what it can fail with. `FailsAs P` says
that each of its faults is of the kind `P`: a computation made of others fails as they do, where
each may rely on the success of those before it. A computation that carries a state is looked at
from one state on. -/
namespace ItemStore

namespace Fault

/-- A value has not the shape that was asked for. -/
def isShape : Fault → Bool
  | .missingEntry _ => true
  | .noEntries => true
  | .wrongType => true
  | .malformed => true
  | .incomparable => true
  | _ => false

/-- A fault of the data at hand: not one of the four kinds that are meant for callers, and no error
of the service. -/
def isData : Fault → Bool
  | .caller _ => false
  | .notFound => false
  | .conflict _ => false
  | .internal .. => false
  | .service _ => false
  | _ => true

/-- An error of the service, interpreted or not. -/
def isOfService : Fault → Bool
  | .conflict _ => true
  | .internal .. => true
  | .service _ => true
  | _ => false

theorem not_isData_of_isOfService {f : Fault} (h : f.isOfService = true) : f.isData = false := by
  cases f with
  | conflict e => rfl
  | internal code e => rfl
  | service e => rfl
  | _ => cases h

theorem isData_of_isShape {f : Fault} (h : f.isShape = true) : f.isData = true := by
  cases f <;> first | rfl | cases h

end Fault

namespace Outcome

variable {α β : Type} {P Q : Fault → Prop}

/-- Every fault is of one kind. -/
def FailsAs (P : Fault → Prop) (x : Except Fault α) : Prop := ∀ f, x = .error f → P f

/-- Every fault is one of the data at hand. -/
abbrev FailsAsData (x : Except Fault α) : Prop := FailsAs (fun f => f.isData = true) x

/-- Every fault is a mistake of the caller. -/
abbrev FailsAsCaller (x : Except Fault α) : Prop := FailsAs (fun f => ∃ c, f = .caller c) x

/-- Every fault says that a value has not its shape. -/
abbrev FailsAsShape (x : Except Fault α) : Prop := FailsAs (fun f => f.isShape = true) x

/-- Every fault says that a value has not its shape, and there is none where it has. -/
abbrev FailsUnless (Shaped : Prop) (x : Except Fault α) : Prop :=
  FailsAs (fun f => f.isShape = true ∧ ¬ Shaped) x

theorem FailsAs.ok (a : α) : FailsAs P (.ok a : Except Fault α) := by
  intro f h
  cases h

theorem FailsAs.pure (a : α) : FailsAs P (Pure.pure a : Except Fault α) := FailsAs.ok a

theorem FailsAs.error {f : Fault} (hf : P f) : FailsAs P (.error f : Except Fault α) := by
  intro g h
  cases h
  exact hf

theorem FailsAs.mono {x : Except Fault α} (hx : FailsAs P x) (h : ∀ f, P f → Q f) : FailsAs Q x :=
  fun f hf => h f (hx f hf)

theorem FailsAsShape.data {x : Except Fault α} (hx : FailsAsShape x) : FailsAsData x :=
  hx.mono fun _ => Fault.isData_of_isShape

theorem FailsUnless.data {Shaped : Prop} {x : Except Fault α} (hx : FailsUnless Shaped x) :
    FailsAsData x :=
  hx.mono fun _ h => Fault.isData_of_isShape h.1

/-- What comes later may rely on the success of what came before. -/
theorem FailsAs.bind {x : Except Fault α} {f : α → Except Fault β} (hx : FailsAs P x)
    (hf : ∀ a, x = .ok a → FailsAs P (f a)) : FailsAs P (x >>= f) := by
  intro g h
  cases x with
  | error e =>
    cases h
    exact hx _ rfl
  | ok a => exact hf a rfl g h

theorem FailsAs.ite {c : Prop} [Decidable c] {x y : Except Fault α} (hx : FailsAs P x)
    (hy : FailsAs P y) : FailsAs P (if c then x else y) := by
  split
  · exact hx
  · exact hy

theorem FailsAs.map {x : Except Fault α} (hx : FailsAs P x) (f : α → β) : FailsAs P (x.map f) := by
  intro g h
  cases x with
  | error e =>
    cases h
    exact hx _ rfl
  | ok a => cases h

theorem FailsAs.mapM {f : α → Except Fault β} {xs : List α} (h : ∀ x ∈ xs, FailsAs P (f x)) :
    FailsAs P (xs.mapM f) := by
  induction xs with
  | nil => exact .pure []
  | cons x xs ih =>
    rw [List.mapM_cons]
    refine .bind (h x (List.mem_cons_self ..)) fun y _ => ?_
    exact .bind (ih fun z hz => h z (List.mem_cons_of_mem _ hz)) fun ys _ => .pure _

theorem FailsAs.foldlM {f : β → α → Except Fault β} {xs : List α}
    (h : ∀ b, ∀ x ∈ xs, FailsAs P (f b x)) (b : β) : FailsAs P (xs.foldlM f b) := by
  induction xs generalizing b with
  | nil => exact .pure b
  | cons x xs ih =>
    rw [List.foldlM_cons]
    refine .bind (h b x (List.mem_cons_self ..)) fun c _ => ?_
    exact ih (fun b y hy => h b y (List.mem_cons_of_mem _ hy)) c

/-! ### Computations with a state -/

section Stateful
variable {σ : Type} {p : σ}

/-- From one state on, every fault is of one kind. -/
def FailsFrom (P : Fault → Prop) (p : σ) (x : ExceptT Fault (StateM σ) α) : Prop :=
  FailsAs P (x p).1

theorem FailsFrom.pure (a : α) : FailsFrom P p (Pure.pure a) := FailsAs.ok a

theorem FailsFrom.throw {f : Fault} (hf : P f) :
    FailsFrom P p (MonadExcept.throw f : ExceptT Fault (StateM σ) α) := FailsAs.error hf

/-- A step without effect. -/
theorem FailsFrom.lift {x : Except Fault α} (hx : FailsAs P x) :
    FailsFrom P p (liftM x : ExceptT Fault (StateM σ) α) := hx

theorem FailsFrom.bind {x : ExceptT Fault (StateM σ) α} {f : α → ExceptT Fault (StateM σ) β}
    (hx : FailsFrom P p x) (hf : ∀ a q, x p = (.ok a, q) → FailsFrom P q (f a)) :
    FailsFrom P p (x >>= f) := by
  have hbind : (x >>= f) p = ExceptT.bindCont f (x p).1 (x p).2 := rfl
  intro g h
  rw [hbind] at h
  rcases hxp : x p with ⟨e | a, q⟩
  · rw [hxp] at h
    cases h
    exact hx _ (congrArg Prod.fst hxp)
  · rw [hxp] at h
    exact hf a q hxp g h

/-- A step without effect comes first, and leaves the state as it is. -/
theorem FailsFrom.lift_bind {x : Except Fault α} {f : α → ExceptT Fault (StateM σ) β}
    (hx : FailsAs P x) (hf : ∀ a, x = .ok a → FailsFrom P p (f a)) :
    FailsFrom P p (liftM x >>= f) := by
  refine .bind (.lift hx) fun a q hq => ?_
  obtain ⟨ha, rfl⟩ := run_lift.mp hq
  exact hf a ha

end Stateful

end Outcome

end ItemStore
