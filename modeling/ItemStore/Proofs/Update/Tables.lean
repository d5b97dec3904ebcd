import ItemStore.Proofs.Update.Meaning

/-! The tables of an update.

A request with an update in it has two tables, and each is what the caller had in it followed by
the placeholders of the update: none of these was there before, so none of the caller's entries is
written over. `tables_ok` says this of both tables. What the text of the request assigns is read off
its tables (`Assigns`): exactly the wire forms of the fields that the update assigns. -/
namespace ItemStore

open Outcome
open Wire (encodeValue)

namespace Update

/-- New placeholders go behind what is there. -/
theorem addNew_eq {collision : Text.Points → CallerFault} {fs fs' : Fields} {rs : References}
    (h : addNew collision fs rs = .ok fs') : fs' = fs ++ rs.toFields := by
  induction rs generalizing fs with
  | nil =>
    cases h
    exact (List.append_nil _).symm
  | cons r rs ih =>
    rw [addNew] at h
    split at h
    · cases h
    · next hfree =>
      rw [ih h, Fields.put, Fields.putKey_of_new (Bool.eq_false_iff.mpr hfree), List.append_assoc]
      rfl

theorem tables_ok {u : Update} {req names values : Fields}
    (h : u.tables req = .ok (names, values)) :
    ∃ callerNames callerValues present refs,
      (req.getD "ExpressionAttributeNames").toFieldsOrEmpty = .ok callerNames ∧
      names = callerNames ++ u.names.toFields ∧
      Update.callerValues (req.getD "ExpressionAttributeValues") = .ok callerValues ∧
      Wire.encodeFields callerValues = .ok present ∧ encodeReferences u.values = .ok refs ∧
      values = present ++ refs.toFields := by
  simp only [tables, bind_ok, pure_ok] at h
  obtain ⟨callerNames, hcallerNames, names', hnames, callerValues, hcallerValues, present, hpresent,
    refs, hrefs, values', hvalues, heq⟩ := h
  obtain ⟨rfl, rfl⟩ := Prod.mk.inj heq
  exact ⟨callerNames, callerValues, present, refs, hcallerNames, addNew_eq hnames, hcallerValues,
    hpresent, hrefs, addNew_eq hvalues⟩

/-- The wire values of an update are those of the fields that it assigns. -/
theorem exists_assigned_of_mem {u : Update} {refs : References}
    (hrefs : encodeReferences u.values = .ok refs) {r : String × Value} (hr : r ∈ refs) :
    ∃ f ∈ u.assigned, f.valueRef = r.1 ∧ encodeValue f.value = .ok r.2 := by
  obtain ⟨r', hr', hk, hw⟩ := exists_of_mem_right (encodeReferences_ok.mp hrefs) r hr
  obtain ⟨f, hf, rfl⟩ := List.mem_map.mp hr'
  exact ⟨f, hf, hk, hw⟩

end Update

/-! ### What a request assigns -/

/-- The text of the request assigns the value to the field, through its two tables. -/
structure Assigns (req : Fields) (k w : Value) : Prop where
  exists_refs : ∃ (text : String) (expression : UpdateExpression) (names values : Fields),
    req.get? "UpdateExpression" = some (.text text) ∧
    UpdateExpression.read? text = some expression ∧
    req.get? "ExpressionAttributeNames" = some (.map names) ∧
    req.get? "ExpressionAttributeValues" = some (.map values) ∧
    ∃ a ∈ expression.assigned, names.get? a.1 = some k ∧ values.get? a.2 = some w

namespace Update

variable {u : Update} {req req' names values : Fields} {k w : Value}

/-- No other parameter of a request has a part in what it assigns. -/
theorem assigns_congr (h : ∀ n ∈ meaningParams, req.get? n = req'.get? n) :
    Assigns req k w ↔ Assigns req' k w := by
  have hiff (r : Fields) : Assigns r k w ↔ _ := ⟨Assigns.exists_refs, Assigns.mk⟩
  rw [hiff req, hiff req', h "UpdateExpression" (by decide),
    h "ExpressionAttributeNames" (by decide), h "ExpressionAttributeValues" (by decide)]

theorem stays_of_mem_assigned {f : Numbered} (hf : f ∈ u.assigned) :
    f.value.isDeleteSentinel = false := by
  simpa [Numbered.isRemoved] using (List.mem_filter.mp hf).2

/-- A table of values in a request with an update in it is the one that was written. -/
theorem values_of_write {table : Fields}
    (h : (u.write (names, values) req).get? "ExpressionAttributeValues" = some (.map table)) :
    table = values := by
  rw [get?_write, if_pos rfl] at h
  split at h
  · cases h
  · cases h
    rfl

/-- What the tables say of a field that is assigned. -/
theorem resolves_assigned (htables : u.tables req = .ok (names, values)) {f : Numbered}
    (hf : f ∈ u.assigned) : names.get? f.nameRef = some f.name ∧
      ∃ w, encodeValue f.value = .ok w ∧ values.get? f.valueRef = some w := by
  have hresolves := tables_resolve htables f (List.mem_of_mem_filter hf)
  exact ⟨hresolves.name, hresolves.value (stays_of_mem_assigned hf)⟩

section Written
variable (htables : u.tables req = .ok (names, values))
include htables

/-- A field that does not ask for removal can be put on the wire, and is assigned. -/
theorem assigns_of_mem {e : Value × Value} (he : e ∈ u.fields)
    (hstays : e.2.isDeleteSentinel = false) :
    ∃ w, encodeValue e.2 = .ok w ∧ Assigns (u.write (names, values) req) e.1 w := by
  rw [← numbered_entries] at he
  obtain ⟨f, hf, rfl⟩ := List.mem_map.mp he
  have hassigned : f ∈ u.assigned := List.mem_filter.mpr ⟨hf, by
    have hkept : f.isRemoved = false := hstays
    rw [hkept]
    rfl⟩
  obtain ⟨hname, w, hw, hvalue⟩ := resolves_assigned htables hassigned
  -- The table of values is not empty, for it holds this one.
  have hne : values.isEmpty = false := by
    cases values with
    | nil => cases hvalue
    | cons e values => rfl
  have hvalues : (u.write (names, values) req).get? "ExpressionAttributeValues" =
      if values.isEmpty then none else some (.map values) := get?_write ..
  rw [hne] at hvalues
  exact ⟨w, hw, _, _, names, values, get?_write .., u.read?_expression, get?_write .., hvalues,
    f.assignment, List.mem_map_of_mem hassigned, hname, hvalue⟩

/-- A request with an update in it assigns exactly the wire forms of the fields that do not ask for
removal. -/
theorem assigns_write : Assigns (u.write (names, values) req) k w ↔
    ∃ e ∈ u.fields, e.2.isDeleteSentinel = false ∧ e.1 = k ∧ encodeValue e.2 = .ok w := by
  constructor
  · intro h
    obtain ⟨text, expression, names', values', htext, hread, hnames, hvalues, a, ha, hk, hw⟩ :=
      h.exists_refs
    cases values_of_write hvalues
    have htext' : (u.write (names, values) req).get? "UpdateExpression" =
        some (.text u.expression) := get?_write ..
    rw [htext'] at htext
    cases htext
    rw [read?_expression] at hread
    cases hread
    have hnames' : (u.write (names, values) req).get? "ExpressionAttributeNames" =
        some (.map names) := get?_write ..
    rw [hnames'] at hnames
    cases hnames
    obtain ⟨f, hf, rfl⟩ := List.mem_map.mp ha
    obtain ⟨hname, w', hw', hvalue⟩ := resolves_assigned htables hf
    have hentry : f.entry ∈ u.fields := mem_fields_iff.mpr
      (List.mem_append_left _ (List.mem_map_of_mem hf))
    refine ⟨f.entry, hentry, stays_of_mem_assigned hf, ?_, ?_⟩
    · exact Option.some.inj (hname.symm.trans hk)
    · rw [← Option.some.inj (hvalue.symm.trans hw)]
      exact hw'
  · intro h
    obtain ⟨e, he, hstays, rfl, hw⟩ := h
    obtain ⟨w', hw', hassigns⟩ := assigns_of_mem htables he hstays
    have hsame : w = w' := Except.ok.inj (hw.symm.trans hw')
    exact hsame ▸ hassigns

end Written

end Update

end ItemStore
