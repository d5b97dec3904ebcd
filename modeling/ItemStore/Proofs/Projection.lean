import ItemStore.Proofs.Memory.Request

/-! Projections resolve to their fields.

A list of fields is taken apart at its commas, and put together again as placeholders with a comma
and a blank between them. No placeholder has a comma in it, so a reader who takes the new text apart
at each comma with a blank gets the placeholders, and the table of names turns each of them into its
field. The table is the caller's with what it lacked behind it; only a placeholder that means
something else to the caller is in the way. -/
namespace ItemStore

open Outcome
open ItemStore.Text (Point prepend split)

/-! ### Runs between separators -/

namespace Text

variable {α : Type} [DecidableEq α]

/-- The runs between pairs that separate, looked for from the left. -/
def splitPair (first second : α) : List α → List (List α)
  | [] => [[]]
  | [c] => [[c]]
  | c :: d :: cs =>
    if c = first ∧ d = second then [] :: splitPair first second cs
    else prepend c (splitPair first second (d :: cs))

variable {sep first second : α}

theorem split_ne_nil (sep : α) (cs : List α) : split sep cs ≠ [] := by
  cases cs with
  | nil => simp [split]
  | cons c cs =>
    rw [split]
    split
    · simp
    · cases split sep cs <;> simp [prepend]

/-- No separator is left in a run. -/
theorem notMem_of_mem_split {cs run : List α} (h : run ∈ split sep cs) : sep ∉ run := by
  induction cs generalizing run with
  | nil => simp_all [split]
  | cons c cs ih =>
    rw [split] at h
    split at h
    · rcases List.mem_cons.mp h with rfl | h
      · simp
      · exact ih h
    · next hc =>
      obtain ⟨first, runs, hruns⟩ := List.exists_cons_of_ne_nil (split_ne_nil sep cs)
      rw [hruns] at h ih
      rcases List.mem_cons.mp h with rfl | h
      · rw [List.mem_cons, not_or]
        exact ⟨Ne.symm hc, ih (List.mem_cons_self ..)⟩
      · exact ih (List.mem_cons_of_mem _ h)

theorem splitPair_cons {c : α} (hc : c ≠ first) (cs : List α) :
    splitPair first second (c :: cs) = prepend c (splitPair first second cs) := by
  cases cs with
  | nil => rfl
  | cons d cs => rw [splitPair, if_neg fun h => hc h.1]

theorem splitPair_of_notMem {run : List α} (h : first ∉ run) :
    splitPair first second run = [run] := by
  induction run with
  | nil => rfl
  | cons c run ih =>
    rw [List.mem_cons, not_or] at h
    rw [splitPair_cons (Ne.symm h.1), ih h.2, prepend]

theorem splitPair_append {run : List α} (h : first ∉ run) (cs : List α) :
    splitPair first second (run ++ first :: second :: cs) =
      run :: splitPair first second cs := by
  induction run with
  | nil => simp [splitPair]
  | cons c run ih =>
    rw [List.mem_cons, not_or] at h
    rw [List.cons_append, splitPair_cons (Ne.symm h.1), ih h.2, prepend]

/-- Runs without the separator are found again. -/
theorem splitPair_intercalate {runs : List (List α)} (hne : runs ≠ [])
    (h : ∀ run ∈ runs, first ∉ run) :
    splitPair first second ([first, second].intercalate runs) = runs := by
  induction runs with
  | nil => exact absurd rfl hne
  | cons run runs ih =>
    obtain ⟨hrun, hruns⟩ := List.forall_mem_cons.mp h
    cases runs with
    | nil =>
      rw [List.intercalate_singleton]
      exact splitPair_of_notMem hrun
    | cons next runs =>
      rw [List.intercalate_cons_cons, List.append_assoc]
      exact (splitPair_append hrun _).trans (congrArg (run :: ·) (ih (by simp) hruns))

end Text

/-! ### Texts by their points -/

namespace Value

theorem points?_ofPoints (ps : List Point) : (ofPoints ps).points? = some ps := by
  unfold ofPoints
  split
  · rfl
  · next hwhole =>
    have hchar : ∀ p ∈ ps, Point.char p.shown = p := by
      intro p hp
      cases p with
      | char c => rfl
      | half u => exact absurd (List.any_eq_true.mpr ⟨_, hp, rfl⟩) hwhole
    rw [points?, Text.points, String.toList_ofList, List.map_map]
    exact congrArg some ((List.map_congr_left hchar).trans (List.map_id ps))

theorem ofPoints_inj {ps qs : List Point} : ofPoints ps = ofPoints qs ↔ ps = qs := by
  refine ⟨fun h => ?_, congrArg ofPoints⟩
  have := congrArg points? h
  rw [points?_ofPoints, points?_ofPoints] at this
  exact Option.some.inj this

end Value

/-! ### Tables of names -/

namespace Projection

/-- The entry of a field in a table of names. -/
def nameEntry (f : List Point) : Value × Value := (.ofPoints (ref f), .ofPoints f)

/-- The placeholder of a field means something else. -/
def Clashes (names : Fields) (f : List Point) : Prop :=
  ∃ v, names.getKey? (.ofPoints (ref f)) = some v ∧ v ≠ .ofPoints f

instance (names : Fields) (f : List Point) : Decidable (Clashes names f) :=
  match h : names.getKey? (.ofPoints (ref f)) with
  | none => isFalse fun hclash => by simp [Clashes, h] at hclash
  | some v => decidable_of_iff (v ≠ .ofPoints f) (by simp [Clashes, h])

theorem ref_inj {f g : List Point} : ref f = ref g ↔ f = g := List.cons_inj_right _

variable {p : Projection}

theorem getKey?_overlay_entries (fields : List (List Point)) (fs : Fields) (f : List Point) :
    (fs.overlay (fields.map nameEntry)).getKey? (.ofPoints (ref f)) =
      if f ∈ fields then some (.ofPoints f) else fs.getKey? (.ofPoints (ref f)) := by
  induction fields generalizing fs with
  | nil => rfl
  | cons g fields ih =>
    show ((fs.putKey _ _).overlay (fields.map nameEntry)).getKey? _ = _
    rw [ih, nameEntry, Fields.getKey?_put (Wire.isText_ofPoints _)]
    simp only [Value.ofPoints_inj, ref_inj, List.mem_cons]
    by_cases hf : f ∈ fields
    · simp [hf]
    · by_cases hg : g = f
      · simp [hg]
      · simp [hf, hg, Ne.symm hg]

theorem getKey?_names (p : Projection) (f : List Point) :
    p.names.getKey? (.ofPoints (ref f)) = if f ∈ p.fields then some (.ofPoints f) else none :=
  getKey?_overlay_entries p.fields [] f

theorem isMap_names (p : Projection) : p.names.IsMap :=
  Fields.IsMap.overlay .nil _

theorem isNamed_names (p : Projection) : p.names.IsNamed := by
  refine Fields.IsNamed.overlay (fun e he => by cases he) fun e he => ?_
  obtain ⟨f, -, rfl⟩ := List.mem_map.mp he
  exact Wire.isText_ofPoints _

/-- Each entry is that of a field. -/
theorem exists_of_mem_names {e : Value × Value} (he : e ∈ p.names) :
    ∃ f ∈ p.fields, e = nameEntry f := by
  have hkeys : ∃ f ∈ p.fields, e.1 = .ofPoints (ref f) := by
    rcases Fields.mem_keys_overlay (List.mem_map_of_mem he) with hk | hk
    · cases hk
    · obtain ⟨_, hmem, hk⟩ := List.mem_map.mp hk
      obtain ⟨f, hf, rfl⟩ := List.mem_map.mp hmem
      exact ⟨f, hf, hk.symm⟩
  obtain ⟨f, hf, hkey⟩ := hkeys
  have hfound := (Fields.getKey?_eq_some_iff (isMap_names p) (isNamed_names p)).mpr he
  rw [hkey, getKey?_names, if_pos hf] at hfound
  exact ⟨f, hf, Prod.ext hkey (Option.some.inj hfound).symm⟩

/-! ### Adding names -/

section AddNames
variable {table es : Fields} {k f v : Value}

/-- A placeholder that is new, or means this already, is written. -/
theorem addNames_cons (hf : Wire.isText f = true)
    (h : ∀ v, table.getKey? k = some v → v = f) :
    addNames table ((k, f) :: es) = addNames (table.putKey k f) es := by
  have hsame : ((table.getKey? k).getD f).same f = true := by
    cases hk : table.getKey? k with
    | none => exact Fields.name_same_self hf
    | some v => exact (Fields.same_name_iff hf).mpr (h v hk)
  rw [addNames, if_pos hsame]

theorem addNames_clash (hf : Wire.isText f = true) (hk : table.getKey? k = some v) (hv : v ≠ f) :
    addNames table ((k, f) :: es) =
      .error (.caller (.nameCollision (k.points?.getD []))) := by
  have hother : ¬ v.same f = true := fun hsame => hv ((Fields.same_name_iff hf).mp hsame)
  rw [addNames, hk, Option.getD_some, if_neg hother]

/-- A write leaves what is found under the keys to come. -/
theorem getKey?_put_head (table : Fields) (hmap : Fields.IsMap ((k, f) :: es))
    (hnamed : Fields.IsNamed ((k, f) :: es)) {e : Value × Value} (he : e ∈ es) :
    (table.putKey k f).getKey? e.1 = table.getKey? e.1 := by
  rw [Fields.getKey?_put hnamed.head, if_neg]
  rintro rfl
  exact hmap.notMem_tail hnamed.head (List.mem_map.mpr ⟨e, he, rfl⟩)

/-- Where no placeholder means something else, those that are not there are added. -/
theorem addNames_free (hmap : es.IsMap) (hnamed : es.IsNamed)
    (htexts : ∀ e ∈ es, Wire.isText e.2 = true)
    (h : ∀ e ∈ es, ∀ v, table.getKey? e.1 = some v → v = e.2) :
    addNames table es = .ok (table ++ es.filter fun e => !table.hasKey e.1) := by
  induction es generalizing table with
  | nil => simp [addNames]
  | cons e es ih =>
    obtain ⟨k, f⟩ := e
    have hput {e : Value × Value} (he : e ∈ es) := getKey?_put_head table hmap hnamed he
    obtain ⟨hhead, htail⟩ := List.forall_mem_cons.mp h
    have hfilter : (es.filter fun e => !(table.putKey k f).hasKey e.1) =
        es.filter fun e => !table.hasKey e.1 := by
      refine List.filter_congr fun e he => ?_
      rw [Fields.hasKey_eq_isSome, Fields.hasKey_eq_isSome, hput he]
    rw [addNames_cons (htexts _ (List.mem_cons_self ..)) hhead,
      ih hmap.tail hnamed.tail (fun e he => htexts e (List.mem_cons_of_mem _ he))
        (fun e he v hv => htail e he v (hput he ▸ hv)), hfilter]
    cases hk : table.getKey? k with
    | none =>
      have hnew := Fields.getKey?_eq_none_iff.mp hk
      rw [Fields.putKey_of_new hnew, List.filter_cons, if_pos (by simp [hnew]), List.append_assoc]
      rfl
    | some v =>
      have hthere : table.hasKey k = true := by rw [Fields.hasKey_eq_isSome, hk, Option.isSome_some]
      have hmeans : table.getKey? k = some f := by rw [hk, hhead v hk]
      rw [Fields.putKey_of_getKey? hmeans, List.filter_cons,
        if_neg (by simp [hthere])]

/-- A placeholder that means something else is refused, the first if there are more. -/
theorem addNames_refused (hmap : es.IsMap) (hnamed : es.IsNamed)
    (htexts : ∀ e ∈ es, Wire.isText e.2 = true)
    (h : ∃ e ∈ es, ∃ v, table.getKey? e.1 = some v ∧ v ≠ e.2) :
    ∃ e ∈ es, (∃ v, table.getKey? e.1 = some v ∧ v ≠ e.2) ∧
      addNames table es = .error (.caller (.nameCollision (e.1.points?.getD []))) := by
  induction es generalizing table with
  | nil =>
    obtain ⟨e, he, -⟩ := h
    cases he
  | cons e es ih =>
    obtain ⟨k, f⟩ := e
    have hf : Wire.isText f = true := htexts _ (List.mem_cons_self ..)
    by_cases hhead : ∃ v, table.getKey? k = some v ∧ v ≠ f
    · obtain ⟨v, hk, hv⟩ := hhead
      exact ⟨(k, f), List.mem_cons_self .., ⟨v, hk, hv⟩, addNames_clash hf hk hv⟩
    · have hput {e : Value × Value} (he : e ∈ es) :=
        getKey?_put_head table hmap hnamed he
      have hclash : ∃ e ∈ es, ∃ v, (table.putKey k f).getKey? e.1 = some v ∧ v ≠ e.2 := by
        obtain ⟨e, he, hclash⟩ := h
        rcases List.mem_cons.mp he with rfl | he
        · exact absurd hclash hhead
        · exact ⟨e, he, (hput he).symm ▸ hclash⟩
      obtain ⟨e, he, hclash, hrun⟩ := ih hmap.tail hnamed.tail
        (fun e he => htexts e (List.mem_cons_of_mem _ he)) hclash
      refine ⟨e, List.mem_cons_of_mem _ he, hput he ▸ hclash, ?_⟩
      rw [addNames_cons hf fun v hv => by_contra fun hne => hhead ⟨v, hv, hne⟩, hrun]

end AddNames

/-! ### The request -/

section Request
variable {text : List Point} {req passed : Fields}

/-- The fields of a list between commas. -/
def listed (text : List Point) : List (List Point) := split (.char ',') text

/-- The parameter is none that a projection writes. -/
def isOther (e : Value × Value) : Bool :=
  !e.1.same (.text "ProjectionExpression") && !e.1.same (.text "ExpressionAttributeNames")

/-- The request with its projection spelled out: its text comes apart into placeholders that mean
the listed fields one by one, the names that the caller passed are there with placeholders of
listed fields behind them that they lacked, and the other parameters are in their places. -/
structure SpelledOut (text : List Point) (passed added req req' : Fields) : Prop where
  resolves : ∃ expression, req'.get? "ProjectionExpression" = some (.ofPoints expression) ∧
    ((Text.splitPair (.char ',') (.char ' ') expression).map fun piece =>
      Fields.getKey? (passed ++ added) (.ofPoints piece)) =
        (listed text).map fun f => some (.ofPoints f)
  means : req'.get? "ExpressionAttributeNames" = some (.map (passed ++ added))
  lacked : ∀ e ∈ added, passed.hasKey e.1 = false ∧ ∃ f ∈ listed text, e = nameEntry f
  others : req'.filter isOther = req.filter isOther

/-- What becomes of a request with a list of fields for a projection. -/
structure Resolved (text : List Point) (req : Fields) (outcome : Except Fault Unit)
    (req' : Fields) : Prop where
  empty : text = [] → outcome = .ok () ∧ req' = req.erase "ProjectionExpression"
  failed : ∀ f, outcome = .error f → req' = req
  clash : (∃ c, outcome = .error (.caller c)) ↔ text ≠ [] ∧
    ∃ passed, (req.getD "ExpressionAttributeNames").toFieldsOrEmpty = .ok passed ∧
      ∃ f ∈ listed text, Clashes passed f
  spelledOut : text ≠ [] →
    ∀ passed, (req.getD "ExpressionAttributeNames").toFieldsOrEmpty = .ok passed →
      (∀ f ∈ listed text, ¬ Clashes passed f) →
        outcome = .ok () ∧ ∃ added, SpelledOut text passed added req req'

theorem requested?_of_points {v : Value} (h : v.points? = some text) :
    requested? v = .ok (ofPoints? text) := by
  cases v <;> cases h <;> rfl

theorem table?_empty (htext : (req.getD "ProjectionExpression").points? = some []) :
    table? req = .ok none := by
  rw [table?, requested?_of_points htext]
  rfl

theorem table?_listed (htext : (req.getD "ProjectionExpression").points? = some text)
    (hne : text ≠ []) : table? req = do
      let passed ← (req.getD "ExpressionAttributeNames").toFieldsOrEmpty
      return some (⟨listed text⟩, ← addNames passed (names ⟨listed text⟩)) := by
  have hp : ofPoints? text = some ⟨listed text⟩ := if_neg (by simpa using hne)
  rw [table?, requested?_of_points htext, hp]
  rfl

theorem isText_of_mem_names {p : Projection} {e : Value × Value} (he : e ∈ p.names) :
    Wire.isText e.2 = true := by
  obtain ⟨f, -, rfl⟩ := exists_of_mem_names he
  exact Wire.isText_ofPoints f

/-- The placeholders of listed fields that a table of names lacks. -/
def lacking (text : List Point) (passed : Fields) : Fields :=
  (names ⟨listed text⟩).filter fun e => !passed.hasKey e.1

theorem addNames_listed (h : ∀ f ∈ listed text, ¬ Clashes passed f) :
    addNames passed (names ⟨listed text⟩) = .ok (passed ++ lacking text passed) := by
  refine addNames_free (isMap_names _) (isNamed_names _) (fun e he => isText_of_mem_names he) ?_
  intro e he v hv
  obtain ⟨f, hf, rfl⟩ := exists_of_mem_names he
  exact by_contra fun hne => h f hf ⟨v, hv, hne⟩

theorem addNames_clashing (h : ∃ f ∈ listed text, Clashes passed f) :
    ∃ c, addNames passed (names ⟨listed text⟩) = .error (.caller c) := by
  obtain ⟨f, hf, v, hv, hne⟩ := h
  have hmem : nameEntry f ∈ names ⟨listed text⟩ := by
    rw [nameEntry, ← Fields.getKey?_eq_some_iff (isMap_names _) (isNamed_names _), getKey?_names,
      if_pos hf]
  obtain ⟨e, -, -, hrun⟩ := addNames_refused (isMap_names _) (isNamed_names _)
    (fun e he => isText_of_mem_names he) ⟨_, hmem, v, hv, hne⟩
  exact ⟨_, hrun⟩

/-- With these added the placeholder of each listed field means it. -/
theorem getKey?_lacking (h : ∀ f ∈ listed text, ¬ Clashes passed f) {f : List Point}
    (hf : f ∈ listed text) :
    Fields.getKey? (passed ++ lacking text passed) (.ofPoints (ref f)) = some (.ofPoints f) := by
  rw [Fields.getKey?_append, lacking,
    Fields.getKey?_filter (isMap_names _) (isNamed_names _) (fun e => !passed.hasKey e.1),
    getKey?_names, if_pos hf]
  dsimp only
  rw [Fields.hasKey_eq_isSome]
  cases hv : passed.getKey? (.ofPoints (ref f)) with
  | none => rfl
  | some v => exact congrArg some (by_contra fun hne => h f hf ⟨v, hv, hne⟩)

/-- The text of the projection comes apart into the placeholders. -/
theorem splitPair_expression (text : List Point) :
    Text.splitPair (.char ',') (.char ' ')
      ((Text.points ", ").intercalate ((listed text).map ref)) = (listed text).map ref := by
  have hne : (listed text).map ref ≠ [] :=
    fun h => Text.split_ne_nil _ text (List.map_eq_nil_iff.mp h)
  refine Text.splitPair_intercalate hne fun run hrun => ?_
  obtain ⟨f, hf, rfl⟩ := List.mem_map.mp hrun
  rw [ref, List.mem_cons, not_or]
  exact ⟨by decide, Text.notMem_of_mem_split hf⟩

theorem filter_isOther_write (found : Option (Projection × Fields)) (req : Fields) :
    (write found req).filter isOther = req.filter isOther := by
  have hprojection (e : Value × Value) (h : e.1.same (.text "ProjectionExpression") = true) :
      isOther e = false := by simp [isOther, h]
  have hnames (e : Value × Value) (h : e.1.same (.text "ExpressionAttributeNames") = true) :
      isOther e = false := by simp [isOther, h]
  cases found with
  | none => exact Fields.filter_erase hprojection req
  | some found => rw [write, Fields.filter_put hnames, Fields.filter_put hprojection]

theorem spelledOut_write (h : ∀ f ∈ listed text, ¬ Clashes passed f) :
    SpelledOut text passed (lacking text passed) req
      (write (some (⟨listed text⟩, passed ++ lacking text passed)) req) := by
  refine ⟨⟨(Text.points ", ").intercalate ((listed text).map ref), ?_, ?_⟩,
    Fields.get?_put_self .., fun e he => ?_, filter_isOther_write ..⟩
  · exact (Fields.get?_put ..).trans ((if_neg (by decide)).trans (Fields.get?_put_self ..))
  · rw [splitPair_expression, List.map_map]
    exact List.map_congr_left fun f hf => getKey?_lacking h hf
  · obtain ⟨he, hnew⟩ := List.mem_filter.mp he
    exact ⟨by simpa using hnew, exists_of_mem_names he⟩

/-- A request with a list of fields is resolved. -/
theorem resolved_amend (htext : (req.getD "ProjectionExpression").points? = some text) :
    Resolved text req (spellOut.amend req).1 (spellOut.amend req).2 := by
  rw [spellOut, Amendment.amend_checked]
  rcases eq_or_ne text [] with rfl | hne
  · rw [table?_empty htext]
    exact ⟨fun _ => ⟨rfl, rfl⟩, fun f h => (by cases h), by simp, fun h => absurd rfl h⟩
  rw [table?_listed htext hne]
  cases hpassed : (req.getD "ExpressionAttributeNames").toFieldsOrEmpty with
  | error f =>
    have hshape := (Value.toFieldsOrEmpty_fails _ f hpassed).1
    refine ⟨fun h => absurd h hne, fun _ _ => rfl, ⟨?_, ?_⟩, fun _ passed h => ?_⟩
    · rintro ⟨c, hc⟩
      obtain rfl := Except.error.inj hc
      cases hshape
    · rintro ⟨-, passed, h, -⟩
      cases hpassed.symm.trans h
    · cases hpassed.symm.trans h
  | ok passed =>
    rw [ok_bind]
    by_cases hclash : ∃ f ∈ listed text, Clashes passed f
    · obtain ⟨c, hc⟩ := addNames_clashing hclash
      rw [hc]
      refine ⟨fun h => absurd h hne, fun _ _ => rfl, ?_, fun _ passed' h hfree => ?_⟩
      · exact iff_of_true ⟨c, rfl⟩ ⟨hne, passed, hpassed, hclash⟩
      · obtain rfl := Except.ok.inj (hpassed.symm.trans h)
        obtain ⟨f, hf, hv⟩ := hclash
        exact absurd hv (hfree f hf)
    · have hfree : ∀ f ∈ listed text, ¬ Clashes passed f := fun f hf hv => hclash ⟨f, hf, hv⟩
      rw [addNames_listed hfree, ok_bind]
      refine ⟨fun h => absurd h hne, fun f h => (by cases h), ⟨?_, ?_⟩, fun _ passed' h _ => ?_⟩
      · rintro ⟨c, hc⟩
        cases hc
      · rintro ⟨-, passed', h, hclash'⟩
        obtain rfl := Except.ok.inj (hpassed.symm.trans h)
        exact absurd hclash' hclash
      · obtain rfl := Except.ok.inj (hpassed.symm.trans h)
        exact ⟨rfl, lacking text passed, spelledOut_write hfree⟩

end Request

/-- **Projections resolve to their fields.** For every request in memory with a text for a
projection: the projection is refused exactly if the placeholder of a listed field means something
else to the caller, and after any fault the request is as it was. An empty text is taken out. Any
other comes apart into placeholders that mean the listed fields in order; the caller's names stay,
only placeholders of listed fields are added, and the other parameters are as they were. Nothing in
memory changes but the request. A read, which has its projection spelled out in a copy of what was
passed, leaves that and everything else in memory as it was, whether or not it can be built. -/
theorem spellOut_resolves (m : Memory) :
    (∀ r text, m.HasParams (.request r) →
      ((m.view r).getD "ProjectionExpression").points? = some text →
      ∃ outcome m', Memory.spellOut r m = (outcome, m') ∧ Memory.Changes r m m' ∧
        Resolved text (m.view r) outcome (m'.view r)) ∧
    ∀ params, m.HasParams params →
      ∃ outcome m', Memory.buildRead params m = (outcome, m') ∧ m.Keeps m' ∧
        m'.passed params = m.passed params ∧
        outcome.map m'.view = ReadRequest.build (m.passed params) := by
  refine ⟨fun r text hr htext => ?_, fun params hparams => ?_⟩
  · obtain ⟨m', hrun, hm'⟩ := Memory.spellOut_run hr.1 hr.2
    exact ⟨_, m', hrun, hm'.changes, hm'.view ▸ resolved_amend htext⟩
  · obtain ⟨outcome, m', hrun, hkeeps, hbuild⟩ := Memory.buildRead_run hparams
    exact ⟨outcome, m', hrun, hkeeps, hkeeps.passed hparams, hbuild⟩

/-- Two requests with their names in memory: one lists a field twice, one with a blank in it and one
without a name; the other lists a field whose placeholder means something else. -/
theorem spellOut_resolves_twice :
    let names : Fields := [(.text "#a", .text "a")]
    let text := Text.points "a,b c,,a"
    let text' := Text.points "x,a"
    let m : Memory := ⟨[names, [(.text "#a", .text "b")]],
      [[(.text "ProjectionExpression", .value (.text "a,b c,,a")),
          (.text "ExpressionAttributeNames", .table 0)],
        [(.text "ProjectionExpression", .value (.text "x,a")),
          (.text "ExpressionAttributeNames", .table 1)]]⟩
    m.HasParams (.request 0) ∧ m.HasParams (.request 1) ∧
      ((m.view 0).getD "ProjectionExpression").points? = some text ∧
      ((m.view 1).getD "ProjectionExpression").points? = some text' ∧
      (∃ m' added, Memory.spellOut 0 m = (.ok (), m') ∧ Memory.Changes 0 m m' ∧
        SpelledOut text names added (m.view 0) (m'.view 0)) ∧
      (∃ c m', Memory.spellOut 1 m = (.error (.caller c), m') ∧ m'.view 1 = m.view 1) ∧
      ∃ f m', Memory.buildRead (.request 1) m = (.error f, m') ∧
        m'.passed (.request 1) = m.passed (.request 1) := by
  intro names text text' m
  have hholds (r : Nat) (hr : r = 0 ∨ r = 1) : m.HasParams (.request r) := by
    rcases hr with rfl | rfl <;> refine ⟨by decide, ?_⟩ <;>
      simp [m, Memory.HasAll, Memory.request, Memory.Has]
  have htext : ((m.view 0).getD "ProjectionExpression").points? = some text := by decide +kernel
  have htext' : ((m.view 1).getD "ProjectionExpression").points? = some text' := by decide +kernel
  refine ⟨hholds 0 (.inl rfl), hholds 1 (.inr rfl), htext, htext', ?_, ?_, ?_⟩
  · obtain ⟨outcome, m', hrun, hchanges, hresolved⟩ :=
      (spellOut_resolves m).1 0 text (hholds 0 (.inl rfl)) htext
    obtain ⟨rfl, added, hspelled⟩ :=
      hresolved.spelledOut (by decide) names (by decide +kernel) (by decide +kernel)
    exact ⟨m', added, hrun, hchanges, hspelled⟩
  · obtain ⟨outcome, m', hrun, -, hresolved⟩ :=
      (spellOut_resolves m).1 1 text' (hholds 1 (.inr rfl)) htext'
    obtain ⟨c, rfl⟩ := hresolved.clash.mpr
      ⟨by decide, [(.text "#a", .text "b")], by decide +kernel, by decide +kernel⟩
    exact ⟨c, m', hrun, hresolved.failed _ rfl⟩
  · obtain ⟨outcome, m', hrun, -, hpassed, hbuild⟩ :=
      (spellOut_resolves m).2 (.request 1) (hholds 1 (.inr rfl))
    obtain ⟨f, hf⟩ : ∃ f, ReadRequest.build (m.passed (.request 1)) = .error f := ⟨_, by cbv⟩
    rw [hf] at hbuild
    cases outcome with
    | error e => exact ⟨e, m', hrun, hpassed⟩
    | ok r => cases hbuild

end Projection

end ItemStore
