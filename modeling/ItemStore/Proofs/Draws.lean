import ItemStore.Proofs.Lifecycle

/-! What a write draws.

What is drawn stays drawn, whatever a computation comes to: `DrawsAtMost` bounds it from any state
on, and the bounds of steps add up. A write draws one reading at most, and an identifier only for a
new record that needs one. Where it succeeds, what it drew is in the fields it manages. -/
namespace ItemStore

/-- Between two states of the sources at most so many identifiers and readings were drawn. -/
structure Draws.Within (ids readings : Nat) (before after : Draws) : Prop where
  ids_le : before.ids ≤ after.ids
  le_ids : after.ids ≤ before.ids + ids
  readings_le : before.readings ≤ after.readings
  le_readings : after.readings ≤ before.readings + readings

theorem Draws.Within.refl (ids readings : Nat) (d : Draws) : d.Within ids readings d :=
  ⟨Nat.le_refl _, Nat.le_add_right .., Nat.le_refl _, Nat.le_add_right ..⟩

namespace Outcome

variable {α β σ : Type} {draws : σ → Draws} {i j r s : Nat}

/-- Whatever it comes to, a computation draws at most so many identifiers and readings. -/
def DrawsAtMost (draws : σ → Draws) (ids readings : Nat) (x : ExceptT Fault (StateM σ) α) : Prop :=
  ∀ p, (draws p).Within ids readings (draws (x p).2)

theorem DrawsAtMost.pure (a : α) : DrawsAtMost draws i r (Pure.pure a) := fun _ => .refl ..

theorem DrawsAtMost.lift (x : Except Fault α) :
    DrawsAtMost draws 0 0 (liftM x : ExceptT Fault (StateM σ) α) := fun _ => .refl ..

theorem DrawsAtMost.mono {x : ExceptT Fault (StateM σ) α} (h : DrawsAtMost draws i r x)
    (hi : i ≤ j) (hr : r ≤ s) : DrawsAtMost draws j s x := by
  intro p
  have hp := h p
  exact ⟨hp.ids_le, by have := hp.le_ids; omega, hp.readings_le, by have := hp.le_readings; omega⟩

theorem DrawsAtMost.bind {x : ExceptT Fault (StateM σ) α} {f : α → ExceptT Fault (StateM σ) β}
    (hx : DrawsAtMost draws i r x) (hf : ∀ a, DrawsAtMost draws j s (f a)) :
    DrawsAtMost draws (i + j) (r + s) (x >>= f) := by
  intro p
  have hbind : (x >>= f) p = ExceptT.bindCont f (x p).1 (x p).2 := rfl
  have hp := hx p
  rw [hbind]
  cases (x p).1 with
  | error e => exact hx.mono (Nat.le_add_right ..) (Nat.le_add_right ..) p
  | ok a =>
    have hq := hf a (x p).2
    have hids := hp.le_ids
    have hids' := hq.le_ids
    have hreadings := hp.le_readings
    have hreadings' := hq.le_readings
    refine ⟨Nat.le_trans hp.ids_le hq.ids_le, ?_, Nat.le_trans hp.readings_le hq.readings_le, ?_⟩
    · show (draws (f a (x p).2).2).ids ≤ _
      omega
    · show (draws (f a (x p).2).2).readings ≤ _
      omega

/-- Only what comes later draws. -/
theorem DrawsAtMost.later {x : ExceptT Fault (StateM σ) α} {f : α → ExceptT Fault (StateM σ) β}
    (hx : DrawsAtMost draws 0 0 x) (hf : ∀ a, DrawsAtMost draws i r (f a)) :
    DrawsAtMost draws i r (x >>= f) :=
  (hx.bind hf).mono (Nat.le_of_eq (Nat.zero_add i)) (Nat.le_of_eq (Nat.zero_add r))

/-- Only the first step draws. -/
theorem DrawsAtMost.first {x : ExceptT Fault (StateM σ) α} {f : α → ExceptT Fault (StateM σ) β}
    (hx : DrawsAtMost draws i r x) (hf : ∀ a, DrawsAtMost draws 0 0 (f a)) :
    DrawsAtMost draws i r (x >>= f) :=
  hx.bind hf

end Outcome

open Outcome

namespace Lifecycle

variable {schema : Schema} {src : Sources} {d d' : Draws}

/-! ### How much is drawn -/

theorem stamp_draws (src : Sources) (d : Draws) :
    (src.stamp d).2 = { d with readings := d.readings + 1 } := by
  rw [stamp_run]

theorem drawsAtMost_stamp : DrawsAtMost id 0 1 src.stamp := by
  intro d
  show d.Within 0 1 (src.stamp d).2
  rw [stamp_draws]
  exact ⟨Nat.le_refl _, Nat.le_refl _, Nat.le_succ _, Nat.le_refl _⟩

theorem drawsAtMost_freshStamp : DrawsAtMost id 0 1 (freshStamp schema src) := by
  unfold freshStamp
  split
  · exact .first drawsAtMost_stamp fun _ => .pure _
  · exact .pure _

theorem drawsAtMost_newStamps : DrawsAtMost id 0 1 (newStamps schema src) := by
  unfold newStamps
  split
  · exact .first drawsAtMost_stamp fun _ => .pure _
  · exact .pure _

theorem drawsAtMost_newId (v : Value) :
    DrawsAtMost id (schema.newIds v) 0 (newId schema src v) := by
  unfold newId Schema.newIds
  cases schema.managesId with
  | false => exact .pure _
  | true =>
    cases v.isTruthy with
    | true => exact .pure _
    | false => exact fun d => ⟨Nat.le_succ _, Nat.le_refl _, Nat.le_refl _, Nat.le_refl _⟩

/-- How many identifiers a write may draw. -/
def newIds (schema : Schema) : RecordWrite → Nat
  | .create _ id => schema.newIds id
  | _ => 0

theorem drawsAtMost_stampWrite (write : RecordWrite) :
    DrawsAtMost id (newIds schema write) 1 (stampWrite schema src write) := by
  cases write with
  | create item v =>
    refine .later (.lift _) fun _ =>
      DrawsAtMost.bind (j := 0) (s := 1) (drawsAtMost_newId v) fun _ => ?_
    exact .first drawsAtMost_newStamps fun _ => .pure _
  | replace key item =>
    exact .later (.lift _) fun _ => .first drawsAtMost_freshStamp fun _ =>
      .later (.lift _) fun _ => .pure _
  | update key attributes =>
    exact .later (.lift _) fun _ => .first drawsAtMost_freshStamp fun _ =>
      .later (.lift _) fun _ => .pure _

/-! ### Where it goes -/

theorem freshStamp_drawn {managed : Fields} (h : freshStamp schema src d = (.ok managed, d'))
    (hmanages : schema.managesUpdated = true) :
    ∃ s, NextStamp src d s ∧ d'.readings = d.readings + 1 ∧
      managed = [(.text "updated", .text s)] := by
  rw [freshStamp_run, if_pos hmanages] at h
  obtain ⟨hfields, rfl⟩ := Prod.mk.inj h
  obtain ⟨s, hs, rfl⟩ := map_ok.mp hfields
  exact ⟨s, nextStamp_ok_iff.mp hs, rfl, if_pos hmanages⟩

theorem newStamps_drawn {managed : Fields} (h : newStamps schema src d = (.ok managed, d')) :
    d'.ids = d.ids ∧ (schema.managesCreated = true ∨ schema.managesUpdated = true →
      ∃ s, NextStamp src d s ∧ d'.readings = d.readings + 1 ∧
        managed = (if schema.managesCreated then [(.text "created", .text s)] else []) ++
          (if schema.managesUpdated then [(.text "updated", .text s)] else [])) := by
  rw [newStamps_run] at h
  split at h
  · obtain ⟨hfields, rfl⟩ := Prod.mk.inj h
    obtain ⟨s, hs, rfl⟩ := map_ok.mp hfields
    exact ⟨rfl, fun _ => ⟨s, nextStamp_ok_iff.mp hs, rfl, rfl⟩⟩
  · next hnone =>
    cases h
    rw [Bool.or_eq_true] at hnone
    exact ⟨rfl, fun hmanages => absurd hmanages hnone⟩

theorem newId_drawn {v : Value} {managed : Fields} (h : newId schema src v d = (.ok managed, d'))
    (hmanages : schema.managesId = true) (hfalsy : v.isTruthy = false) :
    d'.ids = d.ids + 1 ∧ managed = [(.text "id", .text (src.ids d.ids))] := by
  rw [newId_run, idFields, Schema.newIds, hmanages, hfalsy] at h
  cases h
  exact ⟨rfl, rfl⟩

end Lifecycle

end ItemStore
