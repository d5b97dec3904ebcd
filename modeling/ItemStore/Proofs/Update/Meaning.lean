import Mathlib
import ItemStore.Proofs.Update.Text
import ItemStore.Proofs.Wire.Parts

/-! What an update does to a record.

The tables of a request know every placeholder of the update that is in it (`Resolves`), for no
placeholder could be added that was there before. So the text of the request, read and resolved,
is the update itself: `perform_attach` says that it makes the update of any record (`Made`), and
`compile_meaning` the same of an update that was made from a key and attributes. -/
namespace ItemStore.Update

open ItemStore.Outcome
open Wire (encodeValue)

/-! ### Placeholders are resolved -/

theorem encodeReferences_ok {rs ws : References} :
    encodeReferences rs = .ok ws ↔ List.Forall₂ (Wire.KeepsKey encodeValue) rs ws :=
  Wire.entries_ok (by rw [encodeReferences]) fun k v es => by rw [encodeReferences]

variable {collision : Text.Points → CallerFault} {fs fs' : Fields}

/-- Adding placeholders changes none that is there. -/
theorem addNew_keeps {rs : References} (h : addNew collision fs rs = .ok fs') {n : String}
    {v : Value} (hn : fs.get? n = some v) : fs'.get? n = some v := by
  induction rs generalizing fs with
  | nil =>
    cases h
    exact hn
  | cons r rs ih =>
    rw [addNew] at h
    split at h
    · cases h
    · next hfree =>
      refine ih h ?_
      have hne : r.1 ≠ n := by
        intro hr
        rw [Fields.has_eq_isSome, hr, hn] at hfree
        exact hfree rfl
      rw [Fields.get?_put, if_neg hne, hn]

/-- What a new placeholder stands for is found under it. -/
theorem addNew_adds {rs : References} (h : addNew collision fs rs = .ok fs') :
    ∀ r ∈ rs, fs'.get? r.1 = some r.2 := by
  induction rs generalizing fs with
  | nil => simp
  | cons r rs ih =>
    rw [addNew] at h
    split at h
    · cases h
    · intro r' hr'
      rcases List.mem_cons.mp hr' with rfl | hr'
      · exact addNew_keeps h (by rw [Fields.get?_put, if_pos rfl])
      · exact ih h r' hr'

/-- The tables know a field and, if it is assigned, the wire form of its value. -/
structure Resolves (names values : Fields) (f : Numbered) : Prop where
  name : names.get? f.nameRef = some f.name
  value : f.isRemoved = false →
    ∃ w, encodeValue f.value = .ok w ∧ values.get? f.valueRef = some w

theorem tables_resolve {u : Update} {req names values : Fields}
    (h : u.tables req = .ok (names, values)) : ∀ f ∈ u.numbered, Resolves names values f := by
  simp only [tables, bind_ok, pure_ok] at h
  obtain ⟨_, _, names', hnames, _, _, present, _, refs, hrefs, values', hvalues, heq⟩ := h
  obtain ⟨rfl, rfl⟩ := Prod.mk.inj heq
  intro f hf
  constructor
  · exact addNew_adds hnames (f.nameRef, f.name) (List.mem_map.mpr ⟨f, hf, rfl⟩)
  · intro hassigned
    have hmem : (f.valueRef, f.value) ∈ u.values := by
      refine List.mem_map.mpr ⟨f, List.mem_filter.mpr ⟨hf, ?_⟩, rfl⟩
      rw [hassigned]
      rfl
    obtain ⟨r, hr, hk, hw⟩ := exists_of_mem_left (encodeReferences_ok.mp hrefs) _ hmem
    have hadded := addNew_adds hvalues r hr
    rw [← hk] at hadded
    exact ⟨r.2, hw, hadded⟩

/-! ### What is written is what is read -/

theorem attach_ok {u : Update} {req req' : Fields} :
    u.attach.result req = .ok req' ↔
      ∃ names values, u.tables req = .ok (names, values) ∧ u.write (names, values) req = req' := by
  rw [attach, Amendment.result_checked, map_ok]
  simp

/-- A request with the update in it, parameter by parameter. -/
theorem get?_write (u : Update) (names values req : Fields) (n : String) :
    (u.write (names, values) req).get? n =
      if n = "ExpressionAttributeValues" then
        if values.isEmpty then none else some (.map values)
      else if n = "ExpressionAttributeNames" then some (.map names)
      else if n = "UpdateExpression" then some (.text u.expression)
      else req.get? n := by
  rw [write]
  by_cases h : values.isEmpty = true
  · rw [if_pos h, if_pos h, Fields.get?_erase, Fields.get?_put, Fields.get?_put]
    simp only [eq_comm]
  · rw [if_neg h, if_neg h, Fields.get?_put, Fields.get?_put, Fields.get?_put]
    simp only [eq_comm]

theorem perform_write (u : Update) (names values req item : Fields) :
    UpdateExpression.perform (u.write (names, values) req) item =
      UpdateExpression.apply ⟨u.assigned.map Numbered.assignment, u.removed.map Numbered.nameRef⟩
        names values item := by
  have htext : (u.write (names, values) req).getD "UpdateExpression" = .text u.expression := by
    rw [Fields.getD, get?_write]
    rfl
  have hnames : (u.write (names, values) req).getD "ExpressionAttributeNames" = .map names := by
    rw [Fields.getD, get?_write]
    rfl
  have hvalues : UpdateExpression.table
      ((u.write (names, values) req).getD "ExpressionAttributeValues") = values := by
    rw [Fields.getD, get?_write, if_pos rfl]
    cases values <;> rfl
  rw [UpdateExpression.perform, htext, hnames, hvalues]
  simp [u.read?_expression, UpdateExpression.table]

/-- The parameters of an update that say what it does. -/
def meaningParams : List String :=
  ["UpdateExpression", "ExpressionAttributeNames", "ExpressionAttributeValues"]

/-- No other parameter of a request has a part in its meaning. -/
theorem perform_congr {req req' : Fields} (h : ∀ n ∈ meaningParams, req.get? n = req'.get? n)
    (item : Fields) : UpdateExpression.perform req item = UpdateExpression.perform req' item := by
  have hparam (n : String) (hn : n ∈ meaningParams) : req.getD n = req'.getD n := by
    rw [Fields.getD, Fields.getD, h n hn]
  rw [UpdateExpression.perform, UpdateExpression.perform, hparam _ (by decide),
    hparam _ (by decide), hparam _ (by decide)]

/-! ### Field by field -/

/-- A record with fields updated: assigned fields hold the wire form of their value, removed fields
are gone, and all others are as they were. -/
structure Made (fs item item' : Fields) : Prop where
  assigned : ∀ e ∈ fs, e.2.isDeleteSentinel = false →
    ∃ w, encodeValue e.2 = .ok w ∧ item'.getKey? e.1 = some w
  removed : ∀ e ∈ fs, e.2.isDeleteSentinel = true → item'.getKey? e.1 = none
  kept : ∀ k, k ∉ fs.map (·.1) → item'.getKey? k = item.getKey? k
  isMap : item.IsMap → item'.IsMap
  isNamed : item.IsNamed → item'.IsNamed

theorem Made.nil (item : Fields) : Made [] item item where
  assigned := by simp
  removed := by simp
  kept _ _ := rfl
  isMap h := h
  isNamed h := h

theorem Made.put {n v w : Value} (hn : Wire.isText n = true) (hv : v.isDeleteSentinel = false)
    (hw : encodeValue v = .ok w) (item : Fields) : Made [(n, v)] item (item.putKey n w) where
  assigned e he _ := by
    rw [List.mem_singleton.mp he, Fields.getKey?_put hn, if_pos rfl]
    exact ⟨w, hw, rfl⟩
  removed e he hs := by
    rw [List.mem_singleton.mp he, hv] at hs
    cases hs
  kept k hk := by
    rw [Fields.getKey?_put hn, if_neg (by simpa [eq_comm] using hk)]
  isMap h := h.put n w
  isNamed h := h.put hn w

theorem Made.erase {n v : Value} (hn : Wire.isText n = true) (hv : v.isDeleteSentinel = true)
    (item : Fields) : Made [(n, v)] item (item.eraseKey n) where
  assigned e he hs := by
    rw [List.mem_singleton.mp he, hv] at hs
    cases hs
  removed e he _ := by
    rw [List.mem_singleton.mp he, Fields.getKey?_erase hn, if_pos rfl]
  kept k hk := by
    rw [Fields.getKey?_erase hn, if_neg (by simpa [eq_comm] using hk)]
  isMap h := h.erase n
  isNamed h := h.filter _

/-- Updates of different fields add up. -/
theorem Made.append {fs gs item mid item' : Fields} (hf : Made fs item mid) (hg : Made gs mid item')
    (hdisjoint : ∀ e ∈ fs, e.1 ∉ gs.map (·.1)) : Made (fs ++ gs) item item' where
  assigned e he hs := by
    rcases List.mem_append.mp he with he | he
    · rw [hg.kept e.1 (hdisjoint e he)]
      exact hf.assigned e he hs
    · exact hg.assigned e he hs
  removed e he hs := by
    rcases List.mem_append.mp he with he | he
    · rw [hg.kept e.1 (hdisjoint e he)]
      exact hf.removed e he hs
    · exact hg.removed e he hs
  kept k hk := by
    rw [List.map_append, List.mem_append, not_or] at hk
    rw [hg.kept k hk.2, hf.kept k hk.1]
  isMap h := hg.isMap (hf.isMap h)
  isNamed h := hg.isNamed (hf.isNamed h)

/-- Only which fields are updated matters, not their order. -/
theorem Made.congr {fs gs item item' : Fields} (h : Made fs item item')
    (hmem : ∀ e, e ∈ gs ↔ e ∈ fs) : Made gs item item' where
  assigned e he := h.assigned e ((hmem e).mp he)
  removed e he := h.removed e ((hmem e).mp he)
  kept k hk := h.kept k fun hm => by
    obtain ⟨e, he, rfl⟩ := List.mem_map.mp hm
    exact hk (List.mem_map_of_mem ((hmem e).mpr he))
  isMap := h.isMap
  isNamed := h.isNamed

/-- What is found under a key of the record, whatever the key. -/
theorem Made.getKey? {fs item item' : Fields} (h : Made fs item item') (hmap : fs.IsMap)
    (hnamed : fs.IsNamed) (k : Value) :
    item'.getKey? k =
      match fs.getKey? k with
      | some v => if v.isDeleteSentinel then none else (encodeValue v).toOption
      | none => item.getKey? k := by
  cases hk : fs.getKey? k with
  | some v =>
    have hmem := (Fields.getKey?_eq_some_iff hmap hnamed).mp hk
    dsimp only
    split
    · next hs => exact h.removed _ hmem hs
    · next hs =>
      obtain ⟨w, hw, hfound⟩ := h.assigned _ hmem (Bool.eq_false_iff.mpr hs)
      rw [hfound, hw]
      rfl
  | none =>
    refine h.kept k fun hm => ?_
    obtain ⟨e, he, rfl⟩ := List.mem_map.mp hm
    rw [(Fields.getKey?_eq_some_iff hmap hnamed).mpr he] at hk
    cases hk

/-! ### Clause by clause -/

def Numbered.entry (f : Numbered) : Value × Value := (f.name, f.value)

variable {names values : Fields}

theorem assign_made {fs : List Numbered} (hresolves : ∀ f ∈ fs, Resolves names values f)
    (hassigned : ∀ f ∈ fs, f.isRemoved = false) (hmap : Fields.IsMap (fs.map Numbered.entry))
    (hnamed : Fields.IsNamed (fs.map Numbered.entry)) (item : Fields) :
    ∃ item', UpdateExpression.assign names values (fs.map Numbered.assignment) item = some item' ∧
      Made (fs.map Numbered.entry) item item' := by
  induction fs generalizing item with
  | nil => exact ⟨item, rfl, .nil item⟩
  | cons f fs ih =>
    have hf := hresolves f (List.mem_cons_self ..)
    have hs := hassigned f (List.mem_cons_self ..)
    obtain ⟨w, hw, hvalue⟩ := hf.value hs
    obtain ⟨item', hrun, hmade⟩ := ih (fun g hg => hresolves g (List.mem_cons_of_mem _ hg))
      (fun g hg => hassigned g (List.mem_cons_of_mem _ hg)) hmap.tail hnamed.tail
      (item.putKey f.name w)
    refine ⟨item', ?_, ?_⟩
    · simp [UpdateExpression.assign, Numbered.assignment, hf.name, hvalue] at hrun ⊢
      exact hrun
    · refine (Made.put hnamed.head hs hw item).append hmade fun e he => ?_
      rw [List.mem_singleton.mp he]
      exact hmap.notMem_tail hnamed.head

theorem remove_made {fs : List Numbered} (hresolves : ∀ f ∈ fs, Resolves names values f)
    (hremoved : ∀ f ∈ fs, f.isRemoved = true) (hmap : Fields.IsMap (fs.map Numbered.entry))
    (hnamed : Fields.IsNamed (fs.map Numbered.entry)) (item : Fields) :
    ∃ item', UpdateExpression.remove names (fs.map Numbered.nameRef) item = some item' ∧
      Made (fs.map Numbered.entry) item item' := by
  induction fs generalizing item with
  | nil => exact ⟨item, rfl, .nil item⟩
  | cons f fs ih =>
    have hf := hresolves f (List.mem_cons_self ..)
    have hs := hremoved f (List.mem_cons_self ..)
    obtain ⟨item', hrun, hmade⟩ := ih (fun g hg => hresolves g (List.mem_cons_of_mem _ hg))
      (fun g hg => hremoved g (List.mem_cons_of_mem _ hg)) hmap.tail hnamed.tail
      (item.eraseKey f.name)
    refine ⟨item', ?_, ?_⟩
    · simp [UpdateExpression.remove, hf.name, hrun]
    · refine (Made.erase hnamed.head hs item).append hmade fun e he => ?_
      rw [List.mem_singleton.mp he]
      exact hmap.notMem_tail hnamed.head

/-! ### The update of a request -/

theorem numberFrom_entries (i : Nat) (fs : Fields) : (numberFrom i fs).map Numbered.entry = fs := by
  induction fs generalizing i with
  | nil => rfl
  | cons e fs ih => rw [numberFrom, List.map_cons, ih]; rfl

theorem numbered_entries (u : Update) : u.numbered.map Numbered.entry = u.fields :=
  numberFrom_entries 1 u.fields

theorem mem_fields_iff {u : Update} {e : Value × Value} :
    e ∈ u.fields ↔ e ∈ (u.assigned.map Numbered.entry) ++ (u.removed.map Numbered.entry) := by
  rw [← numbered_entries, List.mem_append, List.mem_map, List.mem_map, List.mem_map]
  constructor
  · intro h
    obtain ⟨f, hf, rfl⟩ := h
    cases hs : f.isRemoved
    · exact .inl ⟨f, List.mem_filter.mpr ⟨hf, by simp [hs]⟩, rfl⟩
    · exact .inr ⟨f, List.mem_filter.mpr ⟨hf, hs⟩, rfl⟩
  · intro h
    rcases h with ⟨f, hf, rfl⟩ | ⟨f, hf, rfl⟩
    · exact ⟨f, List.mem_of_mem_filter hf, rfl⟩
    · exact ⟨f, List.mem_of_mem_filter hf, rfl⟩

/-- No field is in both clauses. -/
theorem assigned_disjoint {u : Update} (hmap : u.fields.IsMap) (hnamed : u.fields.IsNamed) :
    ∀ e ∈ u.assigned.map Numbered.entry, e.1 ∉ (u.removed.map Numbered.entry).map (·.1) := by
  intro e he hm
  obtain ⟨e', he', hk⟩ := List.mem_map.mp hm
  have h := (Fields.getKey?_eq_some_iff hmap hnamed).mpr
    (mem_fields_iff.mpr (List.mem_append_left _ he))
  have h' := (Fields.getKey?_eq_some_iff hmap hnamed).mpr
    (mem_fields_iff.mpr (List.mem_append_right _ he'))
  have hv : e.2 = e'.2 := by
    rw [hk, h] at h'
    exact Option.some.inj h'
  obtain ⟨f, hf, rfl⟩ := List.mem_map.mp he
  obtain ⟨g, hg, rfl⟩ := List.mem_map.mp he'
  have hfs : f.value.isDeleteSentinel = false := by
    simpa [Numbered.isRemoved] using (List.mem_filter.mp hf).2
  have hgs : g.value.isDeleteSentinel = true := (List.mem_filter.mp hg).2
  have hfg : f.value = g.value := hv
  rw [hfg, hgs] at hfs
  cases hfs

theorem clause_sublist (u : Update) (p : Numbered → Bool) :
    List.Sublist ((u.numbered.filter p).map Numbered.entry) u.fields := by
  rw [← numbered_entries]
  exact List.filter_sublist.map _

/-- A request with an update in it makes that update of any record. -/
theorem perform_attach {u : Update} {req req' : Fields} (hmap : u.fields.IsMap)
    (hnamed : u.fields.IsNamed) (h : u.attach.result req = .ok req') (item : Fields) :
    ∃ item', UpdateExpression.perform req' item = some item' ∧ Made u.fields item item' := by
  obtain ⟨names, values, htables, rfl⟩ := attach_ok.mp h
  have hresolves := tables_resolve htables
  have hmaps (p : Numbered → Bool) : Fields.IsMap ((u.numbered.filter p).map Numbered.entry) :=
    List.Pairwise.sublist (clause_sublist u p) hmap
  have hnames (p : Numbered → Bool) : Fields.IsNamed ((u.numbered.filter p).map Numbered.entry) :=
    fun e he => hnamed e ((clause_sublist u p).subset he)
  obtain ⟨mid, hassign, hmid⟩ := assign_made
    (fun f hf => hresolves f (List.mem_of_mem_filter hf))
    (fun f hf => by simpa using (List.mem_filter.mp hf).2)
    (hmaps fun f => !f.isRemoved) (hnames fun f => !f.isRemoved) item
  obtain ⟨item', hremove, hmade⟩ := remove_made
    (fun f hf => hresolves f (List.mem_of_mem_filter hf))
    (fun f hf => (List.mem_filter.mp hf).2)
    (hmaps Numbered.isRemoved) (hnames Numbered.isRemoved) mid
  refine ⟨item', ?_, (hmid.append hmade (assigned_disjoint hmap hnamed)).congr fun _ =>
    mem_fields_iff⟩
  rw [perform_write, UpdateExpression.apply]
  have hassign' : UpdateExpression.assign names values (u.assigned.map Numbered.assignment) item =
    some mid := hassign
  have hremove' : UpdateExpression.remove names (u.removed.map Numbered.nameRef) mid =
    some item' := hremove
  simp [hassign', hremove']

/-! ### The update of a key and attributes -/

theorem compile_ok {key attributes : Fields} {u : Update} (h : compile key attributes = .ok u) :
    u.fields = attributes.filter fun a => !key.hasKey a.1 := by
  rw [compile] at h
  cases hf : attributes.filter fun a => !key.hasKey a.1 with
  | nil =>
    rw [hf] at h
    cases h
  | cons a as =>
    rw [hf] at h
    cases h
    rfl

theorem isDeleteSentinel_iff {v : Value} : v.isDeleteSentinel = true ↔ v = .text "" := by
  cases v <;> simp [Value.isDeleteSentinel]

theorem isDeleteSentinel_eq_false_iff {v : Value} : v.isDeleteSentinel = false ↔ v ≠ .text "" := by
  rw [← Bool.not_eq_true, isDeleteSentinel_iff]

/-- **What a compiled update means.** If attributes are compiled against a key and the update is
put into a request, whatever placeholders the caller has in it, then the text of the request, read
by its grammar and resolved through its two tables, takes any record to one in which an attribute
that is no key field holds the wire form of its value, or is gone if its value is the empty text,
and every other field, key fields included, is as it was. -/
theorem compile_meaning {key attributes req req' : Fields} {u : Update} (hmap : attributes.IsMap)
    (hnamed : attributes.IsNamed) (hcompile : compile key attributes = .ok u)
    (hattach : u.attach.result req = .ok req') (item : Fields) :
    ∃ item', UpdateExpression.perform req' item = some item' ∧
      (∀ k v, attributes.getKey? k = some v → key.hasKey k = false → v ≠ .text "" →
        ∃ w, encodeValue v = .ok w ∧ item'.getKey? k = some w) ∧
      (∀ k, attributes.getKey? k = some (.text "") → key.hasKey k = false →
        item'.getKey? k = none) ∧
      (∀ k, attributes.getKey? k = none ∨ key.hasKey k = true →
        item'.getKey? k = item.getKey? k) ∧
      (item.IsMap → item'.IsMap) := by
  have hfields := compile_ok hcompile
  have hmap' : u.fields.IsMap := hfields ▸ hmap.filter _
  have hnamed' : u.fields.IsNamed := hfields ▸ hnamed.filter _
  have hmem {k v : Value} (hk : attributes.getKey? k = some v) (hkey : key.hasKey k = false) :
      (k, v) ∈ u.fields := by
    rw [hfields, List.mem_filter]
    exact ⟨(Fields.getKey?_eq_some_iff hmap hnamed).mp hk, by simp [hkey]⟩
  obtain ⟨item', hrun, hmade⟩ := perform_attach hmap' hnamed' hattach item
  refine ⟨item', hrun, ?_, ?_, ?_, hmade.isMap⟩
  · intro k v hk hkey hv
    refine hmade.assigned _ (hmem hk hkey) ?_
    rw [Bool.eq_false_iff, Ne, isDeleteSentinel_iff]
    exact hv
  · intro k hk hkey
    exact hmade.removed _ (hmem hk hkey) rfl
  · intro k hk
    refine hmade.kept k fun hm => ?_
    obtain ⟨e, he, rfl⟩ := List.mem_map.mp hm
    rw [hfields, List.mem_filter] at he
    rcases hk with hk | hk
    · rw [(Fields.getKey?_eq_some_iff hmap hnamed).mpr he.1] at hk
      cases hk
    · simp [hk] at he

/-- An update with both clauses, in a request that has placeholders of its own. -/
theorem compile_meaning_mixed :
    let key : Fields := [(.text "id", .text "k")]
    let attributes : Fields :=
      [(.text "id", .text "l"), (.text "size", .int 3), (.text "note", .text "")]
    let req : Fields := [(.text "ExpressionAttributeNames", .map [(.text "#n", .text "note")]),
      (.text "ExpressionAttributeValues", .map [(.text ":v", .bool true)])]
    let item : Fields := [(.text "note", WireType.text.wrap (.text "old"))]
    ∃ u req' item', compile key attributes = .ok u ∧ u.attach.result req = .ok req' ∧
      UpdateExpression.perform req' item = some item' ∧
      item'.getKey? (.text "size") = some (WireType.number.wrap (.text "3")) ∧
      item'.getKey? (.text "note") = none ∧
      item'.getKey? (.text "id") = item.getKey? (.text "id") := by
  intro key attributes req item
  have hcompile : compile key attributes =
      .ok ⟨[(.text "size", .int 3), (.text "note", .text "")]⟩ := by cbv
  obtain ⟨req', hattach⟩ : ∃ req', Amendment.result
      (attach ⟨[(.text "size", .int 3), (.text "note", .text "")]⟩) req = .ok req' :=
    ⟨_, by cbv⟩
  obtain ⟨item', hrun, hassigned, hremoved, hkept, -⟩ :=
    compile_meaning (by decide +kernel) (by decide +kernel) hcompile hattach item
  obtain ⟨w, hw, hsize⟩ := hassigned (.text "size") (.int 3) (by cbv) (by cbv) (by decide)
  have hthree : encodeValue (.int 3) = .ok (WireType.number.wrap (.text "3")) := by cbv
  rw [hthree] at hw
  cases hw
  exact ⟨_, req', item', hcompile, hattach, hrun, hsize, hremoved (.text "note") (by cbv) (by cbv),
    hkept (.text "id") (.inr (by cbv))⟩

end ItemStore.Update
