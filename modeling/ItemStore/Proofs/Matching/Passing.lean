import ItemStore.Proofs.Fields
import ItemStore.Proofs.Matching
import ItemStore.Proofs.Wire.Wrapper
import Mathlib.Logic.Relation

/-! What passes a check.

A check passes exactly if the value matches and every key on the way can be written into the path
(`check_ok_iff`). An expectation asks for less if a part of it gives way to the wildcard or an entry
is left out, at any depth of its maps and lists (`Eases`); a value offers more if a map in it gets
another key (`Grows`). Neither step, nor any number of them, makes a check fail that passed. -/
namespace ItemStore.Matching

open Outcome
open ItemStore.Text (Points points)

variable {path : Points} {e v : Value}

/-! ### Keys in a path -/

/-- A key is a step of a path: it is no binary data in a wrapper, and no integer in it has too many
digits to be written out. -/
def IsStep (k : Value) : Prop := k.isWrapped = false ∧ k.isWritable = true

/-- Every key on the way into an expectation is a step of a path. -/
inductive Legible : Value → Prop
  | wildcard : Legible .wildcard
  | map {es : Fields} (hkeys : ∀ x ∈ es, IsStep x.1) (h : ∀ x ∈ es, Legible x.2) :
    Legible (.map es)
  | list {es : List Value} (h : ∀ x ∈ es, Legible x) : Legible (.list es)
  | whole {e : Value} (h : isWhole e = true) : Legible e

theorem legible_map_iff {es : Fields} :
    Legible (.map es) ↔ ∀ x ∈ es, IsStep x.1 ∧ Legible x.2 := by
  constructor
  · rintro (_ | ⟨hkeys, h⟩ | _ | ⟨⟨⟩⟩)
    exact fun x hx => ⟨hkeys x hx, h x hx⟩
  · exact fun h => .map (fun x hx => (h x hx).1) fun x hx => (h x hx).2

theorem legible_list_iff {es : List Value} : Legible (.list es) ↔ ∀ x ∈ es, Legible x := by
  constructor
  · rintro (_ | _ | h | ⟨⟨⟩⟩)
    exact h
  · exact .list

/-- Wrapped bytes have no text of their own, and all else has one. -/
theorem shown?_eq_none_iff {k : Value} : k.shown? = none ↔ k.isWrapped = true := by
  cases k with
  | bytes form data => cases hform : form.wrapped <;> simp [Value.shown?, Value.isWrapped, hform]
  | _ => simp [Value.shown?, Value.isWrapped]

theorem keyStep_ok_iff {k : Value} : (∃ step, keyStep path k = .ok step) ↔ IsStep k := by
  rw [IsStep, ← Bool.not_eq_true, ← shown?_eq_none_iff]
  simp only [keyStep, bind_ok, pure_ok, Value.shown_ok_iff]
  cases k.shown? <;> simp

/-! ### What passes -/

mutual

/-- What matches passes unless a key is in the way that cannot be written out. -/
theorem check_ok_iff_legible : ∀ {path : Points} {e v : Value}, Matches e v →
    (check path e v = .ok () ↔ Legible e)
  | path, e, v, h => by
    cases e with
    | wildcard =>
      rw [check]
      exact iff_of_true rfl .wildcard
    | map es =>
      cases h with
      | map hfinds h =>
        rw [check_map, legible_map_iff]
        exact checkEntries_ok_iff hfinds h
      | same hwhole => cases hwhole
    | list es =>
      cases h with
      | list h =>
        rw [check_list, legible_list_iff]
        dsimp only
        rw [if_pos h.length_eq]
        exact checkItems_ok_iff h
      | same hwhole => cases hwhole
    | _ =>
      cases h with
      | same hwhole hequals =>
        rw [check_whole hwhole, hequals]
        exact iff_of_true rfl (.whole hwhole)

theorem checkEntries_ok_iff : ∀ {path : Points} {es fs : Fields} {vs : List Value},
    List.Forall₂ (Finds fs) es vs → List.Forall₂ Matches (es.map Prod.snd) vs →
      (checkEntries path es fs = .ok () ↔ ∀ x ∈ es, IsStep x.1 ∧ Legible x.2)
  | _, [], _, _, _, _ => iff_of_true rfl nofun
  | path, (k, e) :: es, fs, _, .cons hfound hfinds, .cons he hes => by
    have hfound : fs.getKey? k = some _ := hfound
    rw [checkEntries, hfound, List.forall_mem_cons, ← @keyStep_ok_iff path k]
    simp only [bind_ok, check_ok_iff_legible he, checkEntries_ok_iff hfinds hes, exists_const,
      exists_and_right, and_assoc]

theorem checkItems_ok_iff : ∀ {path : Points} {i : Nat} {es vs : List Value},
    List.Forall₂ Matches es vs → (checkItems path i es vs = .ok () ↔ ∀ x ∈ es, Legible x)
  | _, _, [], _, _ => iff_of_true rfl nofun
  | path, i, e :: es, _, .cons he hes => by
    rw [checkItems, List.forall_mem_cons, bind_ok]
    simp only [check_ok_iff_legible he, checkItems_ok_iff hes, exists_const]

end

/-- A check passes exactly if the value matches and each key on the way can be written out. -/
theorem check_ok_iff : check path e v = .ok () ↔ Matches e v ∧ Legible e := by
  constructor
  · intro h
    have hmatches := matches_of_check h
    exact ⟨hmatches, (check_ok_iff_legible hmatches).mp h⟩
  · rintro ⟨hmatches, hlegible⟩
    exact (check_ok_iff_legible hmatches).mpr hlegible

/-! ### Matching part by part -/

/-- An expected map is matched by a map in which each of its entries is found and matches. -/
theorem matches_map_iff {es : Fields} :
    Matches (.map es) v ↔
      ∃ fs, v = .map fs ∧ ∀ x ∈ es, ∃ w, Finds fs x w ∧ Matches x.2 w := by
  constructor
  · rintro (_ | ⟨hfinds, h⟩ | _ | ⟨⟨⟩⟩)
    rw [List.forall₂_map_left_iff] at h
    have hboth : List.Forall₂ (fun x w => Finds _ x w ∧ Matches x.2 w) es _ :=
      hfinds.mp (fun _ _ => And.intro) h
    refine ⟨_, rfl, fun x hx => ?_⟩
    obtain ⟨w, -, hw⟩ := exists_of_mem_left hboth x hx
    exact ⟨w, hw⟩
  · rintro ⟨fs, rfl, h⟩
    obtain ⟨ws, hws⟩ := exists_forall₂ h
    exact .map (hws.imp fun _ _ => And.left)
      (List.forall₂_map_left_iff.mpr (hws.imp fun _ _ => And.right))

/-- An expected list is matched by a list of the same length, item by item. -/
theorem matches_list_iff {es : List Value} :
    Matches (.list es) v ↔ ∃ vs, v = .list vs ∧ List.Forall₂ Matches es vs := by
  constructor
  · rintro (_ | _ | h | ⟨⟨⟩⟩)
    exact ⟨_, rfl, h⟩
  · rintro ⟨vs, rfl, h⟩
    exact .list h

/-- What is expected as a whole is the same as such values only. -/
theorem isWhole_of_equals (hwhole : isWhole e = true) (h : e.equals v = .ok true) :
    isWhole v = true := by
  cases v with
  | wildcard | map | list =>
    have hsame : e.same _ = true := Value.same_of_equals rfl h
    cases e with
    | wildcard | map | list => cases hwhole
    | _ => simp [Value.same, Value.sameScalar, Value.number?] at hsame
  | _ => rfl

/-- Only the wildcard and maps are matched by a map. -/
theorem eq_of_matches_map {fs : Fields} (h : Matches e (.map fs)) :
    e = .wildcard ∨ ∃ es, e = .map es := by
  cases h with
  | wildcard => exact .inl rfl
  | map => exact .inr ⟨_, rfl⟩
  | same hwhole hequals => cases isWhole_of_equals hwhole hequals

/-- Only the wildcard and lists are matched by a list. -/
theorem eq_of_matches_list {vs : List Value} (h : Matches e (.list vs)) :
    e = .wildcard ∨ ∃ es, e = .list es ∧ List.Forall₂ Matches es vs := by
  cases h with
  | wildcard => exact .inl rfl
  | list h => exact .inr ⟨_, rfl, h⟩
  | same hwhole hequals => cases isWhole_of_equals hwhole hequals

/-! ### Asking for less -/

/-- One part of an expectation gives way to the wildcard, or one entry of a map in it is left out,
at any depth of maps and lists. -/
inductive Eases : Value → Value → Prop
  | wildcard (e : Value) : Eases e .wildcard
  | dropped (before after : Fields) (x : Value × Value) :
    Eases (.map (before ++ x :: after)) (.map (before ++ after))
  | entry (before after : Fields) (k : Value) {e e' : Value} (h : Eases e e') :
    Eases (.map (before ++ (k, e) :: after)) (.map (before ++ (k, e') :: after))
  | item (before after : List Value) {e e' : Value} (h : Eases e e') :
    Eases (.list (before ++ e :: after)) (.list (before ++ e' :: after))

theorem Matches.of_eases {e e' : Value} (he : Eases e e') {v : Value} (h : Matches e v) :
    Matches e' v := by
  induction he generalizing v with
  | wildcard => exact .wildcard v
  | dropped before after x =>
    obtain ⟨fs, rfl, hall⟩ := matches_map_iff.mp h
    obtain ⟨hbefore, -, hafter⟩ := forall_mem_split.mp hall
    exact matches_map_iff.mpr ⟨fs, rfl, List.forall_mem_append.mpr ⟨hbefore, hafter⟩⟩
  | entry before after k he ih =>
    obtain ⟨fs, rfl, hall⟩ := matches_map_iff.mp h
    obtain ⟨hbefore, ⟨w, hfinds, hw⟩, hafter⟩ := forall_mem_split.mp hall
    exact matches_map_iff.mpr
      ⟨fs, rfl, forall_mem_split.mpr ⟨hbefore, ⟨w, hfinds, ih hw⟩, hafter⟩⟩
  | item before after he ih =>
    obtain ⟨vs, rfl, hall⟩ := matches_list_iff.mp h
    exact .list (forall₂_replace_left (fun _ => ih) hall)

theorem Legible.of_eases {e e' : Value} (he : Eases e e') (h : Legible e) : Legible e' := by
  induction he with
  | wildcard => exact .wildcard
  | dropped before after x =>
    obtain ⟨hbefore, -, hafter⟩ := forall_mem_split.mp (legible_map_iff.mp h)
    exact legible_map_iff.mpr (List.forall_mem_append.mpr ⟨hbefore, hafter⟩)
  | entry before after k he ih =>
    obtain ⟨hbefore, ⟨hk, he⟩, hafter⟩ := forall_mem_split.mp (legible_map_iff.mp h)
    exact legible_map_iff.mpr (forall_mem_split.mpr ⟨hbefore, ⟨hk, ih he⟩, hafter⟩)
  | item before after he ih =>
    obtain ⟨hbefore, he, hafter⟩ := forall_mem_split.mp (legible_list_iff.mp h)
    exact legible_list_iff.mpr (forall_mem_split.mpr ⟨hbefore, ih he, hafter⟩)

/-! ### Offering more -/

/-- A map gets another key, at any depth of maps and lists. -/
inductive Grows : Value → Value → Prop
  | added (fs : Fields) (k w : Value) (hnew : fs.hasKey k = false) :
    Grows (.map fs) (.map (fs.putKey k w))
  | entry (before after : Fields) (k : Value) {v v' : Value} (h : Grows v v') :
    Grows (.map (before ++ (k, v) :: after)) (.map (before ++ (k, v') :: after))
  | item (before after : List Value) {v v' : Value} (h : Grows v v') :
    Grows (.list (before ++ v :: after)) (.list (before ++ v' :: after))

/-- If one value of a map gives way to another, any key finds what it found, or the new value in the
place of the old. -/
theorem finds_replaced {before after : Fields} {k v w : Value} {x : Value × Value}
    (h : Finds (before ++ (k, v) :: after) x w) (v' : Value) :
    Finds (before ++ (k, v') :: after) x w ∨
      w = v ∧ Finds (before ++ (k, v') :: after) x v' := by
  rw [Finds, Fields.getKey?_append, Fields.getKey?_cons] at h
  rw [Finds, Finds, Fields.getKey?_append, Fields.getKey?_cons]
  cases hbefore : Fields.getKey? before x.1 with
  | some u =>
    rw [hbefore] at h
    exact .inl h
  | none =>
    rw [hbefore, Option.none_or] at h
    cases hk : k.same x.1 with
    | true =>
      rw [if_pos hk, Option.some_inj] at h
      exact .inr ⟨h.symm, rfl⟩
    | false =>
      rw [if_neg (by simp [hk])] at h
      exact .inl h

theorem Matches.of_grows {v v' : Value} (hv : Grows v v') {e : Value} (h : Matches e v) :
    Matches e v' := by
  induction hv generalizing e with
  | added fs k w hnew =>
    obtain rfl | ⟨es, rfl⟩ := eq_of_matches_map h
    · exact .wildcard _
    · obtain ⟨fs, ⟨⟩, hall⟩ := matches_map_iff.mp h
      refine matches_map_iff.mpr ⟨_, rfl, fun x hx => ?_⟩
      obtain ⟨u, hfinds, hu⟩ := hall x hx
      have hfound : fs.getKey? x.1 = some u := hfinds
      refine ⟨u, ?_, hu⟩
      rw [Finds, Fields.putKey_of_new hnew, Fields.getKey?_append, hfound]
      rfl
  | entry before after k hv ih =>
    obtain rfl | ⟨es, rfl⟩ := eq_of_matches_map h
    · exact .wildcard _
    · obtain ⟨fs, ⟨⟩, hall⟩ := matches_map_iff.mp h
      refine matches_map_iff.mpr ⟨_, rfl, fun x hx => ?_⟩
      obtain ⟨u, hfinds, hu⟩ := hall x hx
      rcases finds_replaced hfinds _ with hsame | ⟨rfl, hnew⟩
      · exact ⟨u, hsame, hu⟩
      · exact ⟨_, hnew, ih hu⟩
  | item before after hv ih =>
    obtain rfl | ⟨es, rfl, hall⟩ := eq_of_matches_list h
    · exact .wildcard _
    · exact .list (forall₂_replace_right (fun _ => ih) hall)

/-! ### Any number of steps -/

open Relation (ReflTransGen)

variable {e' v' : Value}

/-- What passes still does if less is asked for and more is offered, under whatever path. -/
theorem check_ok_of_steps (he : ReflTransGen Eases e e') (hv : ReflTransGen Grows v v')
    (h : check path e v = .ok ()) (path' : Points) : check path' e' v' = .ok () := by
  obtain ⟨hmatches, hlegible⟩ := check_ok_iff.mp h
  have hless : Matches e' v ∧ Legible e' := by
    induction he with
    | refl => exact ⟨hmatches, hlegible⟩
    | tail _ hstep ih => exact ⟨ih.1.of_eases hstep, ih.2.of_eases hstep⟩
  have hmore : Matches e' v' := by
    induction hv with
    | refl => exact hless.1
    | tail _ hstep ih => exact ih.of_grows hstep
  exact check_ok_iff.mpr ⟨hmore, hless.2⟩

/-- **Matching.** A check passes exactly if the value matches what is expected and every key on the
way can be written into a path, whatever the path is. And it still passes after parts of what is
expected gave way to the wildcard, entries of it were left out, and maps in the value got other
keys. -/
theorem check_exact_monotone (e v : Value) :
    (∀ path, check path e v = .ok () ↔ Matches e v ∧ Legible e) ∧
    ∀ path path' e' v', ReflTransGen Eases e e' → ReflTransGen Grows v v' →
      check path e v = .ok () → check path' e' v' = .ok () :=
  ⟨fun _ => check_ok_iff, fun _ path' _ _ he hv h => check_ok_of_steps he hv h path'⟩

/-- The name of the table is left out, a field of the key and a tag give way to the wildcard, and
the key of the request gets another field. The other tag is there as a truth value. -/
theorem check_exact_monotone_nested :
    let id : Value := .map [(.text "S", .text "a")]
    let key (v : Value) : Value × Value := (.text "Key", .map [(.text "id", v)])
    let tags (v : Value) : Value × Value := (.text "Tags", .list [.int 1, v])
    let name : Value × Value := (.text "TableName", .text "records")
    let found : Fields := [(.text "id", id)]
    let request (fs : Fields) : Value :=
      .map [(.text "Tags", .list [.bool true, .int 2]), (.text "Key", .map fs), name]
    let expected : Value := .map [name, key id, tags (.int 2)]
    let eased : Value := .map [key .wildcard, tags .wildcard]
    let grown : Fields := found.putKey (.text "sort") (.int 7)
    ReflTransGen Eases expected eased ∧ ReflTransGen Grows (request found) (request grown) ∧
      check (points "query") expected (request found) = .ok () ∧
      check (points "query") eased (request grown) = .ok () := by
  intro id key tags name found request expected eased grown
  have hleft : Eases expected (.map [key id, tags (.int 2)]) := .dropped [] _ name
  have hkey : Eases (.map [key id, tags (.int 2)]) (.map [key .wildcard, tags (.int 2)]) :=
    .entry [] _ (.text "Key") (.entry [] [] (.text "id") (.wildcard id))
  have htag : Eases (.map [key .wildcard, tags (.int 2)]) eased :=
    .entry [key .wildcard] [] (.text "Tags") (.item [.int 1] [] (.wildcard (.int 2)))
  have hgrown : Grows (request found) (request grown) :=
    .entry [(.text "Tags", _)] [name] (.text "Key") (.added found _ _ (by decide +kernel))
  have heased := ((ReflTransGen.single hleft).tail hkey).tail htag
  have hpasses : check (points "query") expected (request found) = .ok () := by decide +kernel
  exact ⟨heased, .single hgrown, hpasses,
    (check_exact_monotone expected (request found)).2 _ _ _ _ heased (.single hgrown) hpasses⟩

/-- A value may match and not pass: binary data in a wrapper cannot be written into the path. -/
theorem wrapped_key_stops_check :
    ¬ ∀ (path : Points) (e v : Value), check path e v = .ok () ↔ Matches e v := by
  intro h
  let wrapped : Value := .bytes ⟨false, true⟩ [1]
  let data : Fields := [(wrapped, .int 1)]
  let v : Value := .map [(.text "a", .map data)]
  have hfound : data.getKey? wrapped = some (.int 1) := by decide +kernel
  have hone : Matches (.int 1) (.int 1) := .same rfl (by decide +kernel)
  have hdata : Matches (.map data) (.map data) :=
    matches_map_iff.mpr ⟨data, rfl, List.forall_mem_singleton.mpr ⟨.int 1, hfound, hone⟩⟩
  have hmatches : Matches v v :=
    matches_map_iff.mpr ⟨_, rfl, List.forall_mem_singleton.mpr
      ⟨.map data, Fields.get?_cons_self "a" (.map data) [], hdata⟩⟩
  have hstops : check (points "put_item") v v = .error .wrongType := by decide +kernel
  rw [(h (points "put_item") v v).mpr hmatches] at hstops
  cases hstops

end ItemStore.Matching
