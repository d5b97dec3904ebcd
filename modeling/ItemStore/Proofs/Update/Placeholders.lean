import ItemStore.Proofs.Update.Tables

/-! The placeholders of an update.

The fields that are left of the attributes are numbered in their order, and the number tells the
placeholder of a name and that of a value apart from all others. The words of the text that are
placeholders can be told by their first letter: each name stands in it once, among the assignments
or among the removals, and each value once, behind its name (`Placed`). So what a request with the
update in it adds to the two tables is what its text uses, no more and no less. -/
namespace ItemStore

open Outcome

namespace UpdateExpression

/-! ### Words with a mark -/

/-- The word, if it begins with the mark. -/
def Token.marked? (mark : Char) : Token → Option String
  | .word w => if w.toList.head? = some mark then some w else none
  | _ => none

/-- The words of a text that begin with a mark, in order. -/
def markedWords (mark : Char) (text : String) : List String :=
  (tokens text).filterMap (Token.marked? mark)

variable {mark : Char}

theorem marked_intercalate (parts : List (List Token)) :
    ([.comma].intercalate parts).filterMap (Token.marked? mark) =
      parts.flatMap fun ts => ts.filterMap (Token.marked? mark) := by
  induction parts with
  | nil => rfl
  | cons part parts ih =>
    cases parts with
    | nil => simp
    | cons next parts =>
      rw [List.intercalate_cons_cons, List.filterMap_append, List.filterMap_append, ih,
        List.flatMap_cons]
      simp [Token.marked?]

/-- The keyword of a clause has no mark. -/
theorem marked_clauseTokens {keyword : String} (hk : keyword.toList.head? ≠ some mark)
    (parts : List (List Token)) :
    (clauseTokens keyword parts).filterMap (Token.marked? mark) =
      parts.flatMap fun ts => ts.filterMap (Token.marked? mark) := by
  cases parts with
  | nil => rfl
  | cons part parts =>
    have hkeyword : Token.marked? mark (.word keyword) = none := if_neg hk
    rw [clauseTokens_cons, List.filterMap_cons, hkeyword]
    exact marked_intercalate _

end UpdateExpression

namespace Update

open UpdateExpression

/-! ### Numbers -/

theorem numberFrom_eq_mapIdx (i : Nat) (fs : Fields) :
    numberFrom i fs = fs.mapIdx fun j e => ⟨i + j, e.1, e.2⟩ := by
  induction fs generalizing i with
  | nil => rfl
  | cons e fs ih =>
    rw [numberFrom, ih, List.mapIdx_cons]
    simp only [Nat.add_zero, Nat.add_assoc, Nat.add_comm 1]

/-- The fields are numbered in their order. -/
theorem numberFrom_increasing (i : Nat) (fs : Fields) :
    (numberFrom i fs).Pairwise fun f g => f.index < g.index := by
  rw [numberFrom_eq_mapIdx, List.pairwise_iff_getElem]
  intro j k hj hk hjk
  simpa using hjk

theorem numbered_increasing (u : Update) : u.numbered.Pairwise fun f g => f.index < g.index :=
  numberFrom_increasing 1 u.fields

theorem assigned_increasing (u : Update) : u.assigned.Pairwise fun f g => f.index < g.index :=
  u.numbered_increasing.filter _

/-- Numbers behind one stem are told apart. -/
theorem numberedRef_injective (stem : String) {i j : Nat}
    (h : stem ++ toString i = stem ++ toString j) : i = j :=
  Nat.repr_injective ((String.append_right_inj stem).mp h)

theorem nodup_refs {fs : List Numbered} (hfs : fs.Pairwise fun f g => f.index < g.index)
    (stem : String) : (fs.map fun f => stem ++ toString f.index).Nodup := by
  refine hfs.map _ fun f g hlt heq => ?_
  have hsame := numberedRef_injective stem heq
  omega

theorem nodup_nameRefs {fs : List Numbered} (hfs : fs.Pairwise fun f g => f.index < g.index) :
    (fs.map Numbered.nameRef).Nodup :=
  nodup_refs hfs "#param"

theorem nodup_valueRefs {fs : List Numbered} (hfs : fs.Pairwise fun f g => f.index < g.index) :
    (fs.map Numbered.valueRef).Nodup :=
  nodup_refs hfs ":val"

/-- A field of an update is known by its placeholder. -/
theorem mem_map_ref_iff {u : Update} {f : Numbered} {fs : List Numbered} (hf : f ∈ u.numbered)
    (hfs : ∀ g ∈ fs, g ∈ u.numbered) (stem : String) :
    stem ++ toString f.index ∈ fs.map (fun g => stem ++ toString g.index) ↔ f ∈ fs := by
  constructor
  · intro h
    obtain ⟨g, hg, hsame⟩ := List.mem_map.mp h
    have heq : g = f :=
      List.inj_on_of_nodup_map (nodup_refs u.numbered_increasing stem) (hfs g hg) hf hsame
    exact heq ▸ hg
  · exact fun h => List.mem_map_of_mem h

/-! ### Tables by position -/

theorem names_eq_mapIdx (u : Update) :
    u.names = u.fields.mapIdx fun i e => ("#param" ++ toString (i + 1), e.1) := by
  rw [names, numbered, numberFrom_eq_mapIdx]
  refine List.ext_getElem (by simp) fun i _ _ => ?_
  simp [Numbered.nameRef, Nat.add_comm 1]

theorem values_eq_mapIdx (u : Update) :
    u.values = (u.fields.mapIdx fun i e => (":val" ++ toString (i + 1), e.2)).filter
      fun r => !r.2.isDeleteSentinel := by
  have hall : u.numbered.map (fun f => (f.valueRef, f.value)) =
      u.fields.mapIdx fun i e => (":val" ++ toString (i + 1), e.2) := by
    rw [numbered, numberFrom_eq_mapIdx]
    refine List.ext_getElem (by simp) fun i _ _ => ?_
    simp [Numbered.valueRef, Nat.add_comm 1]
  rw [← hall, List.filter_map]
  rfl

/-- The field at a place of the update, with its number. -/
theorem getElem_numbered (u : Update) {i : Nat} (h : i < u.fields.length) :
    ⟨i + 1, u.fields[i].1, u.fields[i].2⟩ ∈ u.numbered := by
  rw [numbered, numberFrom_eq_mapIdx, List.mem_mapIdx]
  exact ⟨i, h, by rw [Nat.add_comm]⟩

/-! ### Words of the text -/

theorem tokens_setClause (u : Update) :
    tokens u.setClause =
      clauseTokens "SET" ((u.assigned.map Numbered.assignment).map assignmentTokens) := by
  have h := tokensFrom_clause (fun f : Numbered => assignmentText f.assignment)
    (fun f => assignmentTokens f.assignment)
    (fun f rest h => tokensFrom_assignment f.isWord_nameRef f.isWord_valueRef h)
    isWord_set u.assigned endsWord_nil
  rw [List.append_nil] at h
  rw [tokens, List.map_map]
  exact h.trans (List.append_nil _)

theorem tokens_removeClause (u : Update) :
    tokens u.removeClause =
      clauseTokens "REMOVE" ((u.removed.map Numbered.nameRef).map fun n => [.word n]) := by
  have h := tokensFrom_clause Numbered.nameRef (fun f => [.word f.nameRef])
    (fun f rest h => tokensFrom_word f.isWord_nameRef h) isWord_remove u.removed endsWord_nil
  rw [List.append_nil] at h
  rw [tokens, List.map_map]
  exact h.trans (List.append_nil _)

theorem markedWords_expression (mark : Char) (u : Update) :
    markedWords mark u.expression =
      markedWords mark u.setClause ++ markedWords mark u.removeClause := by
  rw [markedWords, tokens_expression, ← tokens_setClause, ← tokens_removeClause,
    List.filterMap_append]
  rfl

/-- A name and a value are told apart by their marks. -/
theorem marked_assignment (f : Numbered) :
    (assignmentTokens f.assignment).filterMap (Token.marked? '#') = [f.nameRef] ∧
      (assignmentTokens f.assignment).filterMap (Token.marked? ':') = [f.valueRef] := by
  have hname (mark : Char) : Token.marked? mark (.word f.nameRef) =
      if '#' = mark then some f.nameRef else none := by
    simp [Token.marked?, Numbered.nameRef]
  have hvalue (mark : Char) : Token.marked? mark (.word f.valueRef) =
      if ':' = mark then some f.valueRef else none := by
    simp [Token.marked?, Numbered.valueRef]
  have hequals (mark : Char) : Token.marked? mark .equals = none := rfl
  constructor <;>
    simp [assignmentTokens, Numbered.assignment, hname, hvalue, hequals]

theorem markedWords_setClause {mark : Char} (hmark : "SET".toList.head? ≠ some mark)
    (u : Update) :
    markedWords mark u.setClause =
      u.assigned.flatMap fun f =>
        (assignmentTokens f.assignment).filterMap (Token.marked? mark) := by
  rw [markedWords, tokens_setClause, marked_clauseTokens hmark, List.flatMap_map, List.flatMap_map]

theorem names_setClause (u : Update) :
    markedWords '#' u.setClause = u.assigned.map Numbered.nameRef := by
  rw [markedWords_setClause (by decide), List.map_eq_flatMap]
  simp only [(marked_assignment _).1]

theorem values_setClause (u : Update) :
    markedWords ':' u.setClause = u.assigned.map Numbered.valueRef := by
  rw [markedWords_setClause (by decide), List.map_eq_flatMap]
  simp only [(marked_assignment _).2]

theorem names_removeClause (u : Update) :
    markedWords '#' u.removeClause = u.removed.map Numbered.nameRef := by
  rw [markedWords, tokens_removeClause, marked_clauseTokens (by decide), List.flatMap_map,
    List.flatMap_map, List.map_eq_flatMap]
  simp [Token.marked?, Numbered.nameRef]

theorem values_removeClause (u : Update) : markedWords ':' u.removeClause = [] := by
  rw [markedWords, tokens_removeClause, marked_clauseTokens (by decide), List.flatMap_map,
    List.flatMap_map]
  simp [Token.marked?, Numbered.nameRef]

/-! ### Placeholders and fields -/

theorem mem_removed_iff {u : Update} {f : Numbered} :
    f ∈ u.removed ↔ f ∈ u.numbered ∧ f.value = .text "" := by
  rw [removed, List.mem_filter, Numbered.isRemoved, isDeleteSentinel_iff]

theorem mem_assigned_iff {u : Update} {f : Numbered} :
    f ∈ u.assigned ↔ f ∈ u.numbered ∧ f.value ≠ .text "" := by
  rw [assigned, List.mem_filter, Numbered.isRemoved, ← isDeleteSentinel_eq_false_iff,
    Bool.not_eq_true']

/-- Without a value there is nothing to assign. -/
theorem values_eq_nil_iff (u : Update) : u.values = [] ↔ u.setClause = "" := by
  rw [values, List.map_eq_nil_iff, setClause]
  cases u.assigned with
  | nil => simp [clause]
  | cons f fs => simp [clause]

/-- Every field has its name in the text, in one clause or the other. -/
theorem perm_clauses (u : Update) : (u.assigned ++ u.removed).Perm u.numbered := by
  have h := List.filter_append_perm (fun f : Numbered => !f.isRemoved) u.numbered
  simp only [Bool.not_not] at h
  exact h

/-! ### What the text and the tables have in common -/

/-- The placeholders of an update by some fields: in its tables, which are in order, and among the
words of its text. -/
structure Placed (u : Update) (fs : Fields) : Prop where
  names : u.names = fs.mapIdx fun i e => ("#param" ++ toString (i + 1), e.1)
  values : u.values = (fs.mapIdx fun i e => (":val" ++ toString (i + 1), e.2)).filter
    fun r => !r.2.isDeleteSentinel
  nameWords : (markedWords '#' u.expression).Perm (u.names.map Prod.fst)
  namesOnce : (markedWords '#' u.expression).Nodup
  assigned : ∀ i (h : i < fs.length),
    "#param" ++ toString (i + 1) ∈ markedWords '#' u.setClause ↔ fs[i].2 ≠ .text ""
  removed : ∀ i (h : i < fs.length),
    "#param" ++ toString (i + 1) ∈ markedWords '#' u.removeClause ↔ fs[i].2 = .text ""
  valued : ∀ i (h : i < fs.length),
    ":val" ++ toString (i + 1) ∈ u.values.map Prod.fst ↔ fs[i].2 ≠ .text ""
  valueWords : markedWords ':' u.expression = u.values.map Prod.fst
  valuesOnce : (markedWords ':' u.expression).Nodup
  unassigned : u.values = [] ↔ u.setClause = ""

theorem placed_fields (u : Update) : Placed u u.fields := by
  have hnames : markedWords '#' u.expression = (u.assigned ++ u.removed).map Numbered.nameRef := by
    rw [markedWords_expression, names_setClause, names_removeClause, List.map_append]
  have hkeys : u.names.map Prod.fst = u.numbered.map Numbered.nameRef := List.map_map ..
  have hwords : (markedWords '#' u.expression).Perm (u.names.map Prod.fst) := by
    rw [hnames, hkeys]
    exact u.perm_clauses.map _
  have hvalues : markedWords ':' u.expression = u.assigned.map Numbered.valueRef := by
    rw [markedWords_expression, values_setClause, values_removeClause, List.append_nil]
  have hvalueKeys : u.values.map Prod.fst = u.assigned.map Numbered.valueRef := List.map_map ..
  have hassigned : ∀ f ∈ u.assigned, f ∈ u.numbered := fun f hf => (mem_assigned_iff.mp hf).1
  have hremoved : ∀ f ∈ u.removed, f ∈ u.numbered := fun f hf => (mem_removed_iff.mp hf).1
  refine ⟨u.names_eq_mapIdx, u.values_eq_mapIdx, hwords, ?_, ?_, ?_, ?_, ?_, ?_,
    u.values_eq_nil_iff⟩
  · rw [hwords.nodup_iff, hkeys]
    exact nodup_nameRefs u.numbered_increasing
  · intro i h
    have hf := u.getElem_numbered h
    rw [names_setClause]
    exact (mem_map_ref_iff hf hassigned _).trans (mem_assigned_iff.trans (and_iff_right hf))
  · intro i h
    have hf := u.getElem_numbered h
    rw [names_removeClause]
    exact (mem_map_ref_iff hf hremoved _).trans (mem_removed_iff.trans (and_iff_right hf))
  · intro i h
    have hf := u.getElem_numbered h
    rw [hvalueKeys]
    exact (mem_map_ref_iff hf hassigned _).trans (mem_assigned_iff.trans (and_iff_right hf))
  · rw [hvalues, hvalueKeys]
  · rw [hvalues]
    exact nodup_valueRefs u.assigned_increasing

/-- The tables of a request have what its text uses and, apart from what the caller had in them,
nothing else. -/
structure Covered (callerNames callerValues : Fields) (text : String) (names values : Fields) :
    Prop where
  named : ∀ ref ∈ markedWords '#' text, names.has ref = true
  valued : ∀ ref ∈ markedWords ':' text, values.has ref = true
  nameUsed : ∀ e ∈ names, e ∈ callerNames ∨ ∃ ref ∈ markedWords '#' text, e.1 = .text ref
  valueUsed : ∀ e ∈ values, e.1 ∈ callerValues.map Prod.fst ∨
    ∃ ref ∈ markedWords ':' text, e.1 = .text ref

theorem References.has_toFields {rs : References} {ref : String} (h : ref ∈ rs.map Prod.fst)
    (fs : Fields) : Fields.has (fs ++ rs.toFields) ref = true := by
  obtain ⟨r, hr, rfl⟩ := List.mem_map.mp h
  rw [Fields.has, Fields.hasKey, List.any_append, Bool.or_eq_true, List.any_eq_true,
    List.any_eq_true]
  exact .inr ⟨(.text r.1, r.2), List.mem_map_of_mem hr, Value.same_text_iff.mpr rfl⟩

theorem covered_tables {u : Update} {req names values : Fields}
    (h : u.tables req = .ok (names, values)) :
    ∃ callerNames callerValues,
      (req.getD "ExpressionAttributeNames").toFieldsOrEmpty = .ok callerNames ∧
      Update.callerValues (req.getD "ExpressionAttributeValues") = .ok callerValues ∧
      Covered callerNames callerValues u.expression names values := by
  obtain ⟨callerNames, callerValues, present, refs, hnames, rfl, hvalues, hpresent, hrefs, rfl⟩ :=
    tables_ok h
  have hplaced := u.placed_fields
  have hkeys : refs.map Prod.fst = u.values.map Prod.fst :=
    Wire.keys_eq (fun _ _ he => he.1) (encodeReferences_ok.mp hrefs)
  refine ⟨callerNames, callerValues, hnames, hvalues, ?_, ?_, ?_, ?_⟩
  · intro ref href
    exact References.has_toFields (hplaced.nameWords.mem_iff.mp href) _
  · intro ref href
    rw [hplaced.valueWords, ← hkeys] at href
    exact References.has_toFields href _
  · intro e he
    rcases List.mem_append.mp he with he | he
    · exact .inl he
    · obtain ⟨r, hr, rfl⟩ := List.mem_map.mp he
      exact .inr ⟨r.1, hplaced.nameWords.mem_iff.mpr (List.mem_map_of_mem hr), rfl⟩
  · intro e he
    rcases List.mem_append.mp he with he | he
    · rw [← Wire.keys_eq (fun _ _ he => he.1) (Wire.encodeFields_ok.mp hpresent)]
      exact .inl (List.mem_map_of_mem he)
    · obtain ⟨r, hr, rfl⟩ := List.mem_map.mp he
      refine .inr ⟨r.1, ?_, rfl⟩
      rw [hplaced.valueWords, ← hkeys]
      exact List.mem_map_of_mem hr

/-! ### Compiled updates -/

/-- A key and attributes that are maps are compiled as such. -/
theorem compileValues_map (key attributes : Fields) :
    compileValues (.map key) (.map attributes) = compile key attributes := by
  have hkept := filterM_ok (f := fun a : Value × Value => do
    return !(← (Value.map key).mentions a.1)) (p := fun a => !key.hasKey a.1) (fun _ => rfl)
    attributes
  rw [compileValues, Value.fields, ok_bind, hkept]
  rfl

theorem ofFields_error {fs : Fields} {f : Fault} :
    ofFields fs = .error f ↔ fs = [] ∧ f = .caller .noUpdates := by
  cases fs <;> simp [ofFields, eq_comm]

/-- **Placeholders are defined exactly as used.** Attributes are not compiled exactly if the key has
every one of them, and then for want of updates. Otherwise the fields that are left are numbered in
their order: the names among the words of the text are those of the table, each of them once, and in
the second clause exactly if the field asks for removal; the values among the words are those of
their table, each of them once, and a field has one exactly if it does not ask for removal. So a
request that the update is put into has a name or a value for each placeholder of its text, and none
that neither its text uses nor its caller had there. -/
theorem compile_places (key attributes : Fields) :
    let compiled := compileValues (.map key) (.map attributes)
    (compiled = .error (.caller .noUpdates) ↔ ∀ a ∈ attributes, key.hasKey a.1 = true) ∧
    (∀ f, compiled = .error f → f = .caller .noUpdates) ∧
    (∀ u, compiled = .ok u → Placed u (attributes.filter fun a => !key.hasKey a.1)) ∧
    ∀ u req req', compiled = .ok u → u.attach.result req = .ok req' →
      ∃ callerNames callerValues names values,
        (req.getD "ExpressionAttributeNames").toFieldsOrEmpty = .ok callerNames ∧
        Update.callerValues (req.getD "ExpressionAttributeValues") = .ok callerValues ∧
        req'.get? "UpdateExpression" = some (.text u.expression) ∧
        req'.get? "ExpressionAttributeNames" = some (.map names) ∧
        req'.get? "ExpressionAttributeValues" =
          (if values.isEmpty then none else some (.map values)) ∧
        Covered callerNames callerValues u.expression names values := by
  intro compiled
  have hcompiled : compiled = compile key attributes := compileValues_map key attributes
  rw [hcompiled]
  refine ⟨?_, ?_, ?_, ?_⟩
  · rw [compile, ofFields_error, List.filter_eq_nil_iff]
    simp
  · intro f h
    exact (ofFields_error.mp h).2
  · intro u h
    rw [← compile_ok h]
    exact u.placed_fields
  · intro u req req' _ h
    obtain ⟨names, values, htables, rfl⟩ := attach_ok.mp h
    obtain ⟨callerNames, callerValues, hnames, hvalues, hcovered⟩ := covered_tables htables
    exact ⟨callerNames, callerValues, names, values, hnames, hvalues, get?_write .., get?_write ..,
      get?_write .., hcovered⟩

/-- A removal, an assignment and a field of the key. -/
theorem compile_places_mixed :
    let key : Fields := [(.text "id", .text "k")]
    let attributes : Fields :=
      [(.text "note", .text ""), (.text "id", .text "l"), (.text "size", .int 3)]
    let u : Update := ⟨[(.text "note", .text ""), (.text "size", .int 3)]⟩
    compileValues (.map key) (.map attributes) = .ok u ∧
      markedWords '#' u.expression = ["#param2", "#param1"] ∧
      markedWords ':' u.expression = [":val2"] ∧
      Placed u u.fields := by
  intro key attributes u
  have hcompiled : compileValues (.map key) (.map attributes) = .ok u := by cbv
  have hleft : attributes.filter (fun a => !key.hasKey a.1) = u.fields := by cbv
  have hplaced := (compile_places key attributes).2.2.1 u hcompiled
  rw [hleft] at hplaced
  exact ⟨hcompiled, by decide +kernel, by decide +kernel, hplaced⟩

end Update

end ItemStore
