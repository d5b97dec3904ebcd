import ItemStore.Proofs.Update.Meaning

/-! One field of an update.

What the text of an update does to the field of a name can be told field by field, whatever the
other keys of the attributes are: a field that is assigned holds the wire form of its value, one
that is removed is gone, and one that the update does not have is as it was. -/
namespace ItemStore.Update

open Outcome
open Wire (encodeValue)

/-- What an update by some fields leaves under a name. -/
structure Leaves (fs item item' : Fields) (name : String) : Prop where
  assigned : ∀ v, fs.get? name = some v → v.isDeleteSentinel = false →
    ∃ w, encodeValue v = .ok w ∧ item'.get? name = some w
  removed : ∀ v, fs.get? name = some v → v.isDeleteSentinel = true → item'.get? name = none
  kept : fs.get? name = none → item'.get? name = item.get? name

/-- What a field holds where a value may be asked for it. -/
def settled (asked held : Option Value) : Option Value :=
  match asked with
  | some v => if v.isDeleteSentinel then none else (encodeValue v).toOption
  | none => held

theorem Leaves.get?_eq {fs item item' : Fields} {name : String} (h : Leaves fs item item' name) :
    item'.get? name = settled (fs.get? name) (item.get? name) := by
  cases hv : fs.get? name with
  | none => exact h.kept hv
  | some v =>
    rw [settled]
    by_cases hs : v.isDeleteSentinel = true
    · simp [hs, h.removed v hv hs]
    · obtain ⟨w, hw, hfound⟩ := h.assigned v hv (Bool.eq_false_iff.mpr hs)
      simp [hs, hw, hfound, Except.toOption]

section Clauses
variable {names values : Fields} {fs : List Numbered}

/-- The first clause gives each name the value that is assigned to it. -/
theorem get?_assign (hresolves : ∀ f ∈ fs, Resolves names values f)
    (hassigned : ∀ f ∈ fs, f.isRemoved = false) (hmap : Fields.IsMap (fs.map Numbered.entry))
    (item : Fields) :
    ∃ item', UpdateExpression.assign names values (fs.map Numbered.assignment) item = some item' ∧
      ∀ name, (∀ v, Fields.get? (fs.map Numbered.entry) name = some v →
          ∃ w, encodeValue v = .ok w ∧ item'.get? name = some w) ∧
        (Fields.get? (fs.map Numbered.entry) name = none → item'.get? name = item.get? name) := by
  induction fs generalizing item with
  | nil => exact ⟨item, rfl, fun name => ⟨by simp [Fields.get?_nil], fun _ => rfl⟩⟩
  | cons f fs ih =>
    have hf := hresolves f (List.mem_cons_self ..)
    obtain ⟨w, hw, hvalue⟩ := hf.value (hassigned f (List.mem_cons_self ..))
    obtain ⟨item', hrun, hfound⟩ := ih (fun g hg => hresolves g (List.mem_cons_of_mem _ hg))
      (fun g hg => hassigned g (List.mem_cons_of_mem _ hg)) hmap.tail (item.putKey f.name w)
    refine ⟨item', ?_, fun name => ?_⟩
    · simp [UpdateExpression.assign, Numbered.assignment, hf.name, hvalue] at hrun ⊢
      exact hrun
    · have hlater := hfound name
      rw [Fields.get?_putKey] at hlater
      rw [List.map_cons, Fields.get?_cons]
      by_cases hname : f.name = .text name
      · -- No later assignment has this name, so what is assigned here stays.
        have hnone := hlater.2 (hmap.get?_tail hname)
        rw [if_pos hname] at hnone
        have hsame : f.entry.1.same (.text name) = true := Value.same_text_iff.mpr hname
        rw [if_pos hsame]
        exact ⟨fun v hv => ⟨w, Option.some.inj hv ▸ hw, hnone⟩, fun h => absurd h (by simp)⟩
      · have hother : f.entry.1.same (.text name) = false :=
          Fields.same_text_eq_false_iff.mpr hname
        rw [if_neg hname] at hlater
        rw [hother]
        exact hlater

/-- The second clause takes away the names it lists. -/
theorem get?_remove (hresolves : ∀ f ∈ fs, Resolves names values f) (item : Fields) :
    ∃ item', UpdateExpression.remove names (fs.map Numbered.nameRef) item = some item' ∧
      ∀ name, item'.get? name =
        if Fields.has (fs.map Numbered.entry) name then none else item.get? name := by
  induction fs generalizing item with
  | nil => exact ⟨item, rfl, fun _ => rfl⟩
  | cons f fs ih =>
    have hf := hresolves f (List.mem_cons_self ..)
    obtain ⟨item', hrun, hfound⟩ := ih (fun g hg => hresolves g (List.mem_cons_of_mem _ hg))
      (item.eraseKey f.name)
    refine ⟨item', ?_, fun name => ?_⟩
    · simp [UpdateExpression.remove, hf.name, hrun]
    · rw [hfound, Fields.get?_eraseKey, Fields.has_eq_isSome, Fields.has_eq_isSome, List.map_cons,
        Fields.get?_cons]
      by_cases hname : f.name = .text name
      · have hsame : f.entry.1.same (.text name) = true := Value.same_text_iff.mpr hname
        simp [hname, hsame]
      · have hother : f.entry.1.same (.text name) = false :=
          Fields.same_text_eq_false_iff.mpr hname
        simp [hname, hother]

end Clauses

/-- The fields of one clause are those fields of the update that belong there. -/
theorem filter_entries (u : Update) (p : Value → Bool) :
    (u.numbered.filter fun f => p f.value).map Numbered.entry = u.fields.filter fun e => p e.2 := by
  rw [← numbered_entries, List.filter_map]
  rfl

theorem assigned_entries (u : Update) :
    u.assigned.map Numbered.entry = u.fields.filter fun e => !e.2.isDeleteSentinel :=
  u.filter_entries fun v => !v.isDeleteSentinel

theorem removed_entries (u : Update) :
    u.removed.map Numbered.entry = u.fields.filter fun e => e.2.isDeleteSentinel :=
  u.filter_entries Value.isDeleteSentinel

/-- **One field.** A request with an update in it leaves each name of any record as the update has
it. -/
theorem leaves_attach {u : Update} {req req' : Fields} (hmap : u.fields.IsMap)
    (h : u.attach.result req = .ok req') (item : Fields) :
    ∃ item', UpdateExpression.perform req' item = some item' ∧
      ∀ name, Leaves u.fields item item' name := by
  obtain ⟨names, values, htables, rfl⟩ := attach_ok.mp h
  have hresolves := tables_resolve htables
  have hassigned : ∀ f ∈ u.assigned, Resolves names values f :=
    fun f hf => hresolves f (List.mem_of_mem_filter hf)
  have hremoved : ∀ f ∈ u.removed, Resolves names values f :=
    fun f hf => hresolves f (List.mem_of_mem_filter hf)
  obtain ⟨mid, hassign, hmid⟩ := get?_assign hassigned
    (fun f hf => by simpa using (List.mem_filter.mp hf).2) (u.assigned_entries ▸ hmap.filter _) item
  obtain ⟨item', hremove, hitem'⟩ := get?_remove hremoved mid
  refine ⟨item', ?_, fun name => ?_⟩
  · rw [perform_write, UpdateExpression.apply, hassign]
    exact hremove
  · have hset := hmid name
    have hgone := hitem' name
    rw [u.assigned_entries, Fields.get?_filter hmap] at hset
    rw [u.removed_entries, Fields.has_eq_isSome, Fields.get?_filter hmap] at hgone
    constructor
    · intro v hv hs
      obtain ⟨w, hw, hfound⟩ := hset.1 v (by simp [hv, hs])
      refine ⟨w, hw, ?_⟩
      simpa [hv, hs, hfound] using hgone
    · intro v hv hs
      simpa [hv, hs] using hgone
    · intro hnone
      rw [← hset.2 (by simp [hnone])]
      simpa [hnone] using hgone

end ItemStore.Update
