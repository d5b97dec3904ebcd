import ItemStore.Value.Fields
import ItemStore.Wire.Encode
import Mathlib.Data.List.Basic

/-! Maps.

A list of entries is a map if no two of its keys are the same. Fields of records have names, that
is texts for keys, torn ones included, and a name is the same as itself and nothing else. So in a
map each name has at most one entry, and the writes, removals and selections below are known by
what is found under every key. `getKey?_overlay` says that of a map written over another. -/
namespace ItemStore.Fields

open Value (same_text_iff text_same)
open Wire (isText)

/-- No two keys are the same. -/
def IsMap (fs : Fields) : Prop := fs.Pairwise fun a b => a.1.same b.1 = false

/-- Every key is a name. -/
def IsNamed (fs : Fields) : Prop := ∀ e ∈ fs, isText e.1 = true

instance (fs : Fields) : Decidable fs.IsMap :=
  inferInstanceAs (Decidable (fs.Pairwise fun a b => a.1.same b.1 = false))

instance (fs : Fields) : Decidable fs.IsNamed :=
  inferInstanceAs (Decidable (∀ e ∈ fs, isText e.1 = true))

theorem same_name_iff {n v : Value} (h : isText n = true) : v.same n = true ↔ v = n := by
  cases n <;> simp [isText, Value.points?] at h
  · exact Value.same_text_iff
  · cases v <;> simp [Value.same, Value.sameScalar, Value.number?]

theorem name_same_iff {n v : Value} (h : isText n = true) : n.same v = true ↔ n = v := by
  cases n <;> simp [isText, Value.points?] at h <;>
    cases v <;> simp [Value.same, Value.sameScalar, Value.number?]

theorem name_same_self {n : Value} (h : isText n = true) : n.same n = true :=
  (same_name_iff h).mpr rfl

theorem name_same_eq_false {n v : Value} (h : isText n = true) (hne : n ≠ v) :
    n.same v = false := by
  rw [Bool.eq_false_iff]
  exact fun hs => hne ((name_same_iff h).mp hs)

/-! ### What is found under a key -/

theorem getKey?_nil (k : Value) : getKey? [] k = none := rfl

theorem getKey?_cons (e : Value × Value) (fs : Fields) (k : Value) :
    getKey? (e :: fs) k = if e.1.same k then some e.2 else getKey? fs k := by
  cases h : e.1.same k <;> simp [getKey?, h]

theorem getKey?_put {n : Value} (hn : isText n = true) (fs : Fields) (v k : Value) :
    getKey? (putKey fs n v) k = if n = k then some v else getKey? fs k := by
  induction fs with
  | nil =>
    rw [putKey, getKey?_cons, getKey?_nil]
    by_cases hk : n = k
    · simp [← hk, name_same_self hn]
    · simp [hk, name_same_eq_false hn hk]
  | cons e fs ih =>
    rw [putKey]
    by_cases he : e.1.same n = true
    · have hen := (same_name_iff hn).mp he
      rw [if_pos he, getKey?_cons, getKey?_cons, hen]
      by_cases hk : n = k
      · simp [← hk, name_same_self hn]
      · simp [hk, name_same_eq_false hn hk]
    · rw [if_neg he, getKey?_cons, getKey?_cons, ih]
      by_cases hk : n = k
      · simp [← hk, he]
      · simp [hk]

theorem getKey?_erase {n : Value} (hn : isText n = true) (fs : Fields) (k : Value) :
    getKey? (eraseKey fs n) k = if n = k then none else getKey? fs k := by
  induction fs with
  | nil => simp [eraseKey, getKey?_nil]
  | cons e fs ih =>
    rw [eraseKey] at ih ⊢
    rw [List.filter_cons, getKey?_cons]
    by_cases he : e.1.same n = true
    · have hen := (same_name_iff hn).mp he
      rw [if_neg (by simp [he]), ih, hen]
      by_cases hk : n = k
      · simp [hk]
      · simp [hk, name_same_eq_false hn hk]
    · rw [if_pos (by simp [he]), getKey?_cons, ih]
      by_cases hk : n = k
      · simp [← hk, he]
      · simp [hk]

theorem getKey?_append (fs gs : Fields) (k : Value) :
    getKey? (fs ++ gs) k = (getKey? fs k).or (getKey? gs k) := by
  rw [getKey?, getKey?, getKey?, List.find?_append]
  cases fs.find? fun e => e.1.same k <;> rfl

theorem getKey?_eq_none_iff {fs : Fields} {k : Value} :
    getKey? fs k = none ↔ hasKey fs k = false := by
  simp [getKey?, hasKey]

theorem hasKey_eq_isSome (fs : Fields) (k : Value) : hasKey fs k = (getKey? fs k).isSome := by
  cases h : getKey? fs k with
  | none => exact getKey?_eq_none_iff.mp h
  | some v =>
    cases hh : hasKey fs k
    · rw [getKey?_eq_none_iff.mpr hh] at h
      cases h
    · rfl

/-- A value found under a name stands in an entry of that name. -/
theorem mem_of_getKey? {fs : Fields} {n v : Value} (hn : isText n = true)
    (h : getKey? fs n = some v) : (n, v) ∈ fs := by
  induction fs with
  | nil => cases h
  | cons e fs ih =>
    rw [getKey?_cons] at h
    split at h
    · next he =>
      have hen := (same_name_iff hn).mp he
      cases h
      rw [← hen]
      exact List.mem_cons_self ..
    · exact List.mem_cons_of_mem _ (ih h)

/-! ### Maps of names -/

theorem IsMap.tail {e : Value × Value} {fs : Fields} (h : IsMap (e :: fs)) : IsMap fs :=
  (List.pairwise_cons.mp h).2

theorem IsNamed.head {e : Value × Value} {fs : Fields} (h : IsNamed (e :: fs)) :
    isText e.1 = true :=
  h e (List.mem_cons_self ..)

theorem IsNamed.tail {e : Value × Value} {fs : Fields} (h : IsNamed (e :: fs)) : IsNamed fs :=
  fun a ha => h a (List.mem_cons_of_mem _ ha)

/-- The first key of a map stands nowhere else in it. -/
theorem IsMap.notMem_tail {e : Value × Value} {fs : Fields} (h : IsMap (e :: fs))
    (hn : isText e.1 = true) : e.1 ∉ fs.map (·.1) := by
  intro hm
  obtain ⟨a, ha, hk⟩ := List.mem_map.mp hm
  have hsame := (List.pairwise_cons.mp h).1 a ha
  rw [hk, name_same_self hn] at hsame
  cases hsame

theorem IsMap.getKey?_tail {e : Value × Value} {fs : Fields} (h : IsMap (e :: fs))
    (hn : isText e.1 = true) : getKey? fs e.1 = none := by
  cases hk : getKey? fs e.1 with
  | none => rfl
  | some v => exact absurd (List.mem_map_of_mem (mem_of_getKey? hn hk)) (h.notMem_tail hn)

theorem getKey?_eq_some_iff {fs : Fields} (hmap : IsMap fs) (hnamed : IsNamed fs) {k v : Value} :
    getKey? fs k = some v ↔ (k, v) ∈ fs := by
  induction fs with
  | nil => simp [getKey?_nil]
  | cons e fs ih =>
    have ih := ih hmap.tail hnamed.tail
    rw [getKey?_cons, List.mem_cons]
    by_cases he : e.1 = k
    · have hnone : (k, v) ∉ fs := fun hm => by
        have := ih.mpr hm
        rw [← he, hmap.getKey?_tail hnamed.head] at this
        cases this
      rw [he, if_pos (name_same_self (he ▸ hnamed.head))]
      simp [hnone, Prod.ext_iff, he, eq_comm]
    · rw [name_same_eq_false hnamed.head he, if_neg (by decide), ih]
      simp [Prod.ext_iff, Ne.symm he]

theorem IsMap.nodup {fs : Fields} (h : IsMap fs) (hnamed : IsNamed fs) : fs.Nodup := by
  refine List.Pairwise.imp_of_mem (fun {a b} ha _ hs hab => ?_) h
  rw [← hab, name_same_self (hnamed a ha)] at hs
  cases hs

/-- Maps in which the same is found under every key have the same entries. -/
theorem perm_of_getKey? {fs gs : Fields} (hf : IsMap fs) (hfn : IsNamed fs) (hg : IsMap gs)
    (hgn : IsNamed gs) (h : ∀ k, getKey? fs k = getKey? gs k) : fs.Perm gs := by
  refine (List.perm_ext_iff_of_nodup (hf.nodup hfn) (hg.nodup hgn)).mpr fun e => ?_
  rw [← getKey?_eq_some_iff hf hfn, ← getKey?_eq_some_iff hg hgn, h]

theorem IsMap.filter {fs : Fields} (h : IsMap fs) (p : Value × Value → Bool) :
    IsMap (fs.filter p) :=
  List.Pairwise.filter _ h

theorem IsNamed.filter {fs : Fields} (h : IsNamed fs) (p : Value × Value → Bool) :
    IsNamed (fs.filter p) :=
  fun e he => h e (List.mem_of_mem_filter he)

/-- A selection of entries keeps the values that are selected with their key. -/
theorem getKey?_filter {fs : Fields} (hmap : IsMap fs) (hnamed : IsNamed fs)
    (p : Value × Value → Bool) (k : Value) :
    getKey? (fs.filter p) k = (getKey? fs k).filter fun v => p (k, v) := by
  ext v
  rw [getKey?_eq_some_iff (hmap.filter p) (hnamed.filter p), List.mem_filter,
    Option.filter_eq_some_iff, getKey?_eq_some_iff hmap hnamed]

/-! ### Writes -/

/-- A write adds a key at the end or none at all. -/
theorem keys_put (fs : Fields) (k v : Value) :
    (putKey fs k v).map (·.1) =
      if hasKey fs k then fs.map (·.1) else fs.map (·.1) ++ [k] := by
  induction fs with
  | nil => rfl
  | cons e fs ih =>
    rw [putKey, hasKey, List.any_cons]
    cases he : e.1.same k
    · rw [if_neg (by decide), List.map_cons, ih, Bool.false_or, hasKey]
      cases fs.any fun e => e.1.same k <;> rfl
    · simp

theorem isMap_iff_keys {fs : Fields} :
    IsMap fs ↔ (fs.map (·.1)).Pairwise fun a b => a.same b = false := by
  rw [IsMap, List.pairwise_map]

theorem isNamed_iff_keys {fs : Fields} : IsNamed fs ↔ ∀ k ∈ fs.map (·.1), isText k = true := by
  simp [IsNamed]

theorem IsMap.erase {fs : Fields} (h : IsMap fs) (k : Value) : IsMap (eraseKey fs k) :=
  h.filter _

theorem IsMap.put {fs : Fields} (h : IsMap fs) (k v : Value) : IsMap (putKey fs k v) := by
  rw [isMap_iff_keys] at h ⊢
  rw [keys_put]
  cases hk : hasKey fs k
  · simp only [hasKey, List.any_eq_false, Bool.not_eq_true] at hk
    rw [if_neg (by decide), List.pairwise_append]
    refine ⟨h, List.pairwise_singleton .., fun a ha b hb => ?_⟩
    obtain ⟨e, he, rfl⟩ := List.mem_map.mp ha
    rw [List.mem_singleton.mp hb]
    exact hk e he
  · rw [if_pos rfl]
    exact h

theorem IsNamed.put {fs : Fields} (h : IsNamed fs) {n : Value} (hn : isText n = true) (v : Value) :
    IsNamed (putKey fs n v) := by
  rw [isNamed_iff_keys] at h ⊢
  intro k hk
  rw [keys_put] at hk
  split at hk
  · exact h k hk
  · rcases List.mem_append.mp hk with hk | hk
    · exact h k hk
    · rw [List.mem_singleton.mp hk]
      exact hn

theorem IsMap.overlay {fs : Fields} (h : IsMap fs) (upper : Fields) : IsMap (overlay fs upper) := by
  induction upper generalizing fs with
  | nil => exact h
  | cons e upper ih => exact ih (h.put e.1 e.2)

theorem IsNamed.overlay {fs upper : Fields} (h : IsNamed fs) (hupper : IsNamed upper) :
    IsNamed (overlay fs upper) := by
  induction upper generalizing fs with
  | nil => exact h
  | cons e upper ih => exact ih (h.put hupper.head e.2) hupper.tail

/-- A value of a map was there before the write, or was written. -/
theorem mem_putKey {fs : Fields} {k v : Value} {e : Value × Value} (h : e ∈ putKey fs k v) :
    (∃ a ∈ fs, a.2 = e.2) ∨ e.2 = v := by
  induction fs with
  | nil =>
    rw [putKey, List.mem_singleton] at h
    exact .inr (congrArg Prod.snd h)
  | cons a fs ih =>
    rw [putKey] at h
    split at h
    · rcases List.mem_cons.mp h with rfl | h
      · exact .inr rfl
      · exact .inl ⟨e, List.mem_cons_of_mem _ h, rfl⟩
    · rcases List.mem_cons.mp h with rfl | h
      · exact .inl ⟨e, List.mem_cons_self .., rfl⟩
      · rcases ih h with ⟨b, hb, hv⟩ | hv
        · exact .inl ⟨b, List.mem_cons_of_mem _ hb, hv⟩
        · exact .inr hv

theorem mem_overlay {fs upper : Fields} {e : Value × Value} (h : e ∈ overlay fs upper) :
    (∃ a ∈ fs, a.2 = e.2) ∨ ∃ a ∈ upper, a.2 = e.2 := by
  induction upper generalizing fs with
  | nil => exact .inl ⟨e, h, rfl⟩
  | cons u upper ih =>
    have hstep : overlay fs (u :: upper) = overlay (putKey fs u.1 u.2) upper := rfl
    rw [hstep] at h
    rcases ih h with ⟨a, ha, hv⟩ | ⟨a, ha, hv⟩
    · rcases mem_putKey ha with ⟨b, hb, hba⟩ | hau
      · exact .inl ⟨b, hb, hba.trans hv⟩
      · exact .inr ⟨u, List.mem_cons_self .., hau.symm.trans hv⟩
    · exact .inr ⟨a, List.mem_cons_of_mem _ ha, hv⟩

theorem putKey_of_new {fs : Fields} {k : Value} (h : fs.hasKey k = false) (v : Value) :
    fs.putKey k v = fs ++ [(k, v)] := by
  induction fs with
  | nil => rfl
  | cons e fs ih =>
    simp only [hasKey, List.any_cons, Bool.or_eq_false_iff] at h ih
    rw [putKey, if_neg (by simp [h.1]), ih h.2, List.cons_append]

/-- What is there already is written in its place. -/
theorem putKey_of_getKey? {fs : Fields} {k v : Value} (h : fs.getKey? k = some v) :
    fs.putKey k v = fs := by
  induction fs with
  | nil => cases h
  | cons e fs ih =>
    rw [getKey?_cons] at h
    rw [putKey]
    split at h
    · next hsame =>
      rw [if_pos hsame, ← Option.some.inj h]
    · next hsame => rw [if_neg hsame, ih h]

theorem mem_putKey_of_mem {fs : Fields} {e : Value × Value} {k : Value} (he : e ∈ fs)
    (hk : e.1.same k = false) (v : Value) : e ∈ fs.putKey k v := by
  induction fs with
  | nil => cases he
  | cons a fs ih =>
    rw [putKey]
    split
    · next hsame =>
      rcases List.mem_cons.mp he with rfl | he
      · rw [hk] at hsame
        cases hsame
      · exact List.mem_cons_of_mem _ he
    · rcases List.mem_cons.mp he with rfl | he
      · exact List.mem_cons_self ..
      · exact List.mem_cons_of_mem _ (ih he)

/-- An entry stays where no entry of its key is written. -/
theorem mem_overlay_of_mem {fs upper : Fields} {e : Value × Value} (he : e ∈ fs)
    (hnamed : upper.IsNamed) (hnot : e.1 ∉ upper.map (·.1)) : e ∈ fs.overlay upper := by
  induction upper generalizing fs with
  | nil => exact he
  | cons u upper ih =>
    have hstep : fs.overlay (u :: upper) = (fs.putKey u.1 u.2).overlay upper := rfl
    rw [List.map_cons, List.mem_cons, not_or] at hnot
    obtain ⟨hne, hnot⟩ := hnot
    have hother : e.1.same u.1 = false :=
      Bool.eq_false_iff.mpr fun hsame => hne ((same_name_iff hnamed.head).mp hsame)
    rw [hstep]
    exact ih (mem_putKey_of_mem he hother u.2) hnamed.tail hnot

theorem mem_of_mem_putKey {fs : Fields} {e : Value × Value} {k v : Value} (hk : isText k = true)
    (hne : e.1 ≠ k) (h : e ∈ fs.putKey k v) : e ∈ fs := by
  induction fs with
  | nil =>
    rw [putKey, List.mem_singleton] at h
    exact absurd (congrArg Prod.fst h) hne
  | cons a fs ih =>
    rw [putKey] at h
    split at h
    · next hsame =>
      rcases List.mem_cons.mp h with rfl | h
      · exact absurd ((same_name_iff hk).mp hsame) hne
      · exact List.mem_cons_of_mem _ h
    · rcases List.mem_cons.mp h with rfl | h
      · exact List.mem_cons_self ..
      · exact List.mem_cons_of_mem _ (ih h)

/-- Under a key that is not written to, a map has the entries it had. -/
theorem mem_overlay_iff {fs upper : Fields} {e : Value × Value} (hnamed : upper.IsNamed)
    (hnot : e.1 ∉ upper.map (·.1)) : e ∈ fs.overlay upper ↔ e ∈ fs := by
  refine ⟨fun h => ?_, fun he => mem_overlay_of_mem he hnamed hnot⟩
  induction upper generalizing fs with
  | nil => exact h
  | cons u upper ih =>
    rw [List.map_cons, List.mem_cons, not_or] at hnot
    exact mem_of_mem_putKey hnamed.head hnot.1 (ih hnamed.tail hnot.2 h)

theorem hasKey_of_notMem {fs : Fields} {k : Value} (hnamed : fs.IsNamed) (hnot : k ∉ fs.map (·.1)) :
    fs.hasKey k = false := by
  rw [hasKey, List.any_eq_false]
  intro e he hsame
  rw [name_same_iff (hnamed e he)] at hsame
  exact hnot (hsame ▸ List.mem_map_of_mem he)

/-- What is written on top is found first. -/
theorem getKey?_overlay {upper : Fields} (hmap : IsMap upper) (hnamed : IsNamed upper)
    (fs : Fields) (k : Value) :
    getKey? (overlay fs upper) k = (getKey? upper k).or (getKey? fs k) := by
  induction upper generalizing fs with
  | nil => rfl
  | cons e upper ih =>
    have hstep : overlay fs (e :: upper) = overlay (putKey fs e.1 e.2) upper := rfl
    rw [hstep, ih hmap.tail hnamed.tail, getKey?_put hnamed.head, getKey?_cons]
    by_cases hk : e.1 = k
    · rw [← hk, hmap.getKey?_tail hnamed.head, if_pos rfl, if_pos (name_same_self hnamed.head)]
      rfl
    · rw [name_same_eq_false hnamed.head hk, if_neg hk, if_neg (by decide)]

/-- No key is lost by what is written on top. -/
theorem keys_subset_overlay (fs upper : Fields) :
    fs.map (·.1) ⊆ (fs.overlay upper).map (·.1) := by
  induction upper generalizing fs with
  | nil => exact List.Subset.refl _
  | cons e upper ih =>
    have hput : fs.map (·.1) ⊆ (fs.putKey e.1 e.2).map (·.1) := by
      rw [keys_put]
      split
      · exact List.Subset.refl _
      · exact List.subset_append_left _ _
    exact List.Subset.trans hput (ih _)

theorem mem_keys_overlay {fs upper : Fields} {k : Value}
    (h : k ∈ (fs.overlay upper).map (·.1)) : k ∈ fs.map (·.1) ∨ k ∈ upper.map (·.1) := by
  induction upper generalizing fs with
  | nil => exact .inl h
  | cons e upper ih =>
    rw [List.map_cons, List.mem_cons]
    rcases ih (show k ∈ ((fs.putKey e.1 e.2).overlay upper).map (·.1) from h) with h | h
    · rw [keys_put] at h
      split at h
      · exact .inl h
      · rcases List.mem_append.mp h with h | h
        · exact .inl h
        · exact .inr (.inl (List.mem_singleton.mp h))
    · exact .inr (.inr h)

/-- Of maps with names only, each entry of the one on top of the other was in one of them. -/
theorem mem_of_mem_overlay {fs upper : Fields} (hfs : fs.IsMap) (hnamed : fs.IsNamed)
    (hupper : upper.IsMap) (hunamed : upper.IsNamed) {e : Value × Value}
    (h : e ∈ fs.overlay upper) : e ∈ fs ∨ e ∈ upper := by
  have hfound := (getKey?_eq_some_iff (hfs.overlay upper) (hnamed.overlay hunamed)).mpr h
  rw [getKey?_overlay hupper hunamed, Option.or_eq_some_iff] at hfound
  rcases hfound with hfound | ⟨-, hfound⟩
  · exact .inr ((getKey?_eq_some_iff hupper hunamed).mp hfound)
  · exact .inl ((getKey?_eq_some_iff hfs hnamed).mp hfound)

/-! ### What is found under a name, whatever the other keys -/

theorem get?_cons_self (name : String) (v : Value) (fs : Fields) :
    get? ((.text name, v) :: fs) name = some v := by
  rw [get?_cons, if_pos (same_text_iff.mpr rfl)]

/-- Keys decide whether a name is there. -/
theorem has_congr {fs gs : Fields} (h : fs.map (·.1) = gs.map (·.1)) (n : String) :
    fs.has n = gs.has n := by
  have hany (fs : Fields) : fs.has n = (fs.map (·.1)).any fun k => k.same (.text n) := by
    rw [List.any_map]
    rfl
  rw [hany, hany, h]

theorem same_text_eq_false_iff {k : Value} {name : String} :
    k.same (.text name) = false ↔ k ≠ .text name := by
  rw [Bool.eq_false_iff, ne_eq, ne_eq, same_text_iff]

/-- Two keys that are the same have the same name, or have none. -/
theorem same_text_of_same {k l : Value} {name : String} (h : k.same l = true)
    (hl : l ≠ .text name) :
    k.same (.text name) = false := by
  rw [same_text_eq_false_iff]
  intro hk
  rw [hk] at h
  exact hl ((name_same_iff rfl).mp h).symm

theorem get?_putKey (fs : Fields) (k v : Value) (name : String) :
    get? (putKey fs k v) name = if k = .text name then some v else get? fs name := by
  by_cases hk : k = .text name
  · rw [hk, if_pos rfl]
    show get? (put fs name v) name = _
    rw [get?_put, if_pos rfl]
  · rw [if_neg hk]
    induction fs with
    | nil =>
      rw [putKey, get?_cons, same_text_eq_false_iff.mpr hk]
      rfl
    | cons e fs ih =>
      rw [putKey]
      split
      · next hsame => simp [get?_cons, same_text_of_same hsame hk]
      · rw [get?_cons, get?_cons, ih]

theorem get?_put_self (fs : Fields) (name : String) (v : Value) :
    get? (put fs name v) name = some v := by
  rw [get?_put, if_pos rfl]

theorem get?_eraseKey (fs : Fields) (k : Value) (name : String) :
    get? (eraseKey fs k) name = if k = .text name then none else get? fs name := by
  by_cases hk : k = .text name
  · rw [hk, if_pos rfl]
    show get? (erase fs name) name = _
    rw [get?_erase, if_pos rfl]
  · rw [if_neg hk]
    induction fs with
    | nil => rfl
    | cons e fs ih =>
      rw [eraseKey] at ih ⊢
      cases hsame : e.1.same k with
      | true => simp [hsame, get?_cons, same_text_of_same hsame hk, ih]
      | false => simp [hsame, get?_cons, ih]

theorem IsMap.get?_tail {e : Value × Value} {fs : Fields} {name : String} (h : IsMap (e :: fs))
    (he : e.1 = .text name) : get? fs name = none := by
  have htail := h.getKey?_tail (he ▸ rfl)
  rw [he] at htail
  exact htail

theorem get?_filter {fs : Fields} (hmap : IsMap fs) (p : Value × Value → Bool) (name : String) :
    get? (fs.filter p) name = (get? fs name).filter fun v => p (.text name, v) := by
  induction fs with
  | nil => rfl
  | cons e fs ih =>
    have ih := ih hmap.tail
    obtain ⟨k, v⟩ := e
    by_cases hk : k = .text name
    · subst hk
      rw [hmap.get?_tail rfl] at ih
      cases hp : p (.text name, v) <;> simp [hp, get?_cons, text_same, ih, Option.filter_some]
    · have hother := same_text_eq_false_iff.mpr hk
      cases hp : p (k, v) <;> simp [hp, get?_cons, hother, ih]

/-- What is found stays found if it passes, whatever else is left out. -/
theorem get?_filter_of_get? {fs : Fields} {p : Value → Bool} {name : String} {v : Value}
    (h : get? fs name = some v) (hp : p v = true) :
    get? (fs.filter fun e => p e.2) name = some v := by
  induction fs with
  | nil => cases h
  | cons e fs ih =>
    rw [get?_cons] at h
    cases hsame : e.1.same (.text name) with
    | true =>
      rw [hsame, if_pos rfl] at h
      cases h
      rw [List.filter_cons, if_pos hp, get?_cons, hsame, if_pos rfl]
    | false =>
      rw [hsame] at h
      rw [List.filter_cons]
      split
      · rw [get?_cons, hsame]
        exact ih h
      · exact ih h

theorem get?_overlay {upper : Fields} (hmap : IsMap upper) (fs : Fields) (name : String) :
    get? (overlay fs upper) name = (get? upper name).or (get? fs name) := by
  induction upper generalizing fs with
  | nil => rfl
  | cons e upper ih =>
    have hstep : overlay fs (e :: upper) = overlay (putKey fs e.1 e.2) upper := rfl
    rw [hstep, ih hmap.tail, get?_putKey, get?_cons]
    by_cases hk : e.1 = .text name
    · simp [hmap.get?_tail hk, hk, text_same]
    · simp [hk, same_text_eq_false_iff.mpr hk]

/-! ### Entries that a write leaves alone -/

theorem filter_put {p : Value × Value → Bool} {name : String}
    (hp : ∀ e : Value × Value, e.1.same (.text name) = true → p e = false)
    (fs : Fields) (v : Value) : (fs.put name v).filter p = fs.filter p := by
  induction fs with
  | nil => simp [put, putKey, hp, text_same]
  | cons e fs ih =>
    simp only [put, putKey] at ih ⊢
    by_cases hsame : e.1.same (.text name) = true
    · have hwritten : p (e.1, v) = false := hp _ hsame
      simp [hsame, hp e hsame, hwritten]
    · simp [hsame, List.filter_cons, ih]

theorem filter_erase {p : Value × Value → Bool} {name : String}
    (hp : ∀ e : Value × Value, e.1.same (.text name) = true → p e = false)
    (fs : Fields) : (fs.erase name).filter p = fs.filter p := by
  rw [erase, eraseKey, List.filter_filter]
  refine List.filter_congr fun e _ => ?_
  cases hsame : e.1.same (.text name) with
  | true => simp [hp e hsame]
  | false => simp

/-! ### A removal among other writes -/

theorem erase_put_self (fs : Fields) (name : String) (v : Value) :
    (fs.put name v).erase name = fs.erase name :=
  filter_put (fun e he => by simp [he]) fs v

theorem erase_erase (fs : Fields) (n m : String) :
    (fs.erase n).erase m = (fs.erase m).erase n := by
  simp only [erase, eraseKey, List.filter_filter, Bool.and_comm]

theorem erase_put {n m : String} (h : n ≠ m) (fs : Fields) (v : Value) :
    (fs.put n v).erase m = (fs.erase m).put n v := by
  induction fs with
  | nil => simp [put, putKey, erase, eraseKey, Value.text_same, h]
  | cons e fs ih =>
    simp only [put, putKey, erase, eraseKey, List.filter_cons] at ih ⊢
    cases hn : e.1.same (.text n) with
    | true => simp [Value.same_text_ne hn h, putKey, hn]
    | false => cases hm : e.1.same (.text m) <;> simp [putKey, hn, hm, ih]

theorem getD_erase {n m : String} (h : n ≠ m) (fs : Fields) :
    (fs.erase m).getD n = fs.getD n := by
  rw [getD, getD, get?_erase, if_neg h.symm]

theorem has_erase {n m : String} (h : n ≠ m) (fs : Fields) : (fs.erase m).has n = fs.has n := by
  rw [has_eq_isSome, has_eq_isSome, get?_erase, if_neg h.symm]

end ItemStore.Fields
