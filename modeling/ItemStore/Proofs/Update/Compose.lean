import ItemStore.Proofs.Update.Field
import ItemStore.Proofs.Update.Merge

/-! Updates one after the other.

What an update leaves in a field is what it asks for there or, if it asks for nothing, what the
field held (`settled`). So of two updates one after the other the second has its way where it asks
for something and the first elsewhere, as in one update by the attributes of the first with those
of the second written on top (`settled_settled`). The three texts number their placeholders each in
its own way, and none of that shows in the record. -/
namespace ItemStore

open Outcome
open Wire (encodeValue)

namespace Update

/-! ### One field -/

/-- The second value asked for has its way. -/
theorem settled_settled (first second held : Option Value) :
    settled second (settled first held) = settled (second.or first) held := by
  cases second <;> rfl

/-! ### Compiled updates -/

theorem compile_eq_ok {key attributes : Fields}
    (h : attributes.filter (fun a => !key.hasKey a.1) ≠ []) :
    compile key attributes = .ok ⟨attributes.filter fun a => !key.hasKey a.1⟩ := by
  rw [compile]
  cases hleft : attributes.filter fun a => !key.hasKey a.1 with
  | nil => exact absurd hleft h
  | cons a as => rfl

variable {key first second : Fields} {u v : Update}

/-- What is left of the first attributes is left of both together. -/
theorem compile_overlay (h : compile key first = .ok u) (second : Fields) :
    ∃ w, compile key (first.overlay second) = .ok w := by
  refine ⟨_, compile_eq_ok fun hnil => ?_⟩
  have hleft : first.filter (fun a => !key.hasKey a.1) ≠ [] := by
    intro hfirst
    rw [compile, hfirst] at h
    cases h
  obtain ⟨a, ha⟩ := List.exists_mem_of_ne_nil _ hleft
  rw [List.mem_filter] at ha
  obtain ⟨e, he, hkey⟩ :=
    List.mem_map.mp (Fields.keys_subset_overlay first second (List.mem_map_of_mem ha.1))
  have hgone := List.filter_eq_nil_iff.mp hnil e he
  rw [hkey] at hgone
  exact hgone ha.2

theorem get?_fields (hmap : first.IsMap) (h : compile key first = .ok u) (name : String) :
    u.fields.get? name = (first.get? name).filter fun _ => !key.has name := by
  rw [compile_ok h, Fields.get?_filter hmap]
  rfl

theorem getKey?_fields (hmap : first.IsMap) (hnamed : first.IsNamed)
    (h : compile key first = .ok u) (k : Value) :
    u.fields.getKey? k = (first.getKey? k).filter fun _ => !key.hasKey k := by
  rw [compile_ok h, Fields.getKey?_filter hmap hnamed]

theorem filter_or (b : Bool) (x y : Option Value) :
    (x.filter fun _ => b).or (y.filter fun _ => b) = (x.or y).filter fun _ => b := by
  cases b <;> cases x <;> simp [Option.filter_some]

/-- An update whose values all have a wire form can be put into an empty request. -/
theorem attach_empty (h : ∀ e ∈ u.fields, e.2.isDeleteSentinel = false →
    ∃ w, encodeValue e.2 = .ok w) : ∃ req, u.attach.result [] = .ok req := by
  have hencodes : ∀ r ∈ u.values, ∃ w, Wire.KeepsKey encodeValue r w := by
    intro r hr
    obtain ⟨f, hf, rfl⟩ := List.mem_map.mp hr
    have hmem : f.entry ∈ u.fields :=
      mem_fields_iff.mpr (List.mem_append_left _ (List.mem_map_of_mem hf))
    obtain ⟨w, hw⟩ := h _ hmem (stays_of_mem_assigned hf)
    exact ⟨(f.valueRef, w), rfl, hw⟩
  obtain ⟨refs, hrefs⟩ := exists_forall₂ hencodes
  have hreads : Reads u [] [] [] [] refs := ⟨rfl, rfl, rfl, encodeReferences_ok.mpr hrefs⟩
  exact ⟨_, attach_ok.mpr ⟨_, _, tables_merged hreads (fun _ _ => rfl) (fun _ _ => rfl), rfl⟩⟩

/-- The values of an update that was put into a request have a wire form. -/
theorem encodes_of_attach {req req' : Fields} (h : u.attach.result req = .ok req')
    {e : Value × Value} (he : e ∈ u.fields) (hstays : e.2.isDeleteSentinel = false) :
    ∃ w, encodeValue e.2 = .ok w := by
  obtain ⟨names, values, htables, -⟩ := attach_ok.mp h
  obtain ⟨w, hw, -⟩ := assigns_of_mem htables he hstays
  exact ⟨w, hw⟩

/-! ### One record -/

/-- The record with fields settled. Under a key that is no name only an update without such keys is
told apart from another. -/
structure Settles (fs item item' : Fields) : Prop where
  names : ∀ name, item'.get? name = settled (fs.get? name) (item.get? name)
  keys : fs.IsNamed → ∀ k, item'.getKey? k = settled (fs.getKey? k) (item.getKey? k)
  isMap : fs.IsNamed → item.IsMap → item'.IsMap
  isNamed : fs.IsNamed → item.IsNamed → item'.IsNamed

theorem Made.settled {fs item item' : Fields} (h : Made fs item item') (hmap : fs.IsMap)
    (hnamed : fs.IsNamed) (k : Value) :
    item'.getKey? k = settled (fs.getKey? k) (item.getKey? k) := by
  rw [h.getKey? hmap hnamed]
  cases fs.getKey? k <;> rfl

theorem settles_attach {req req' : Fields} (hmap : u.fields.IsMap)
    (h : u.attach.result req = .ok req') (item : Fields) :
    ∃ item', UpdateExpression.perform req' item = some item' ∧ Settles u.fields item item' := by
  obtain ⟨item', hrun, hleaves⟩ := leaves_attach hmap h item
  have hmade (hnamed : u.fields.IsNamed) : Made u.fields item item' := by
    obtain ⟨made, hrun', hmade⟩ := perform_attach hmap hnamed h item
    rw [hrun] at hrun'
    cases hrun'
    exact hmade
  exact ⟨item', hrun, fun name => (hleaves name).get?_eq,
    fun hnamed => (hmade hnamed).settled hmap hnamed, fun hnamed => (hmade hnamed).isMap,
    fun hnamed => (hmade hnamed).isNamed⟩

/-- Two records have the same fields: the same is found under each name, and where there are names
only, they have the same entries. -/
structure SameFields (namesOnly : Prop) (item item' : Fields) : Prop where
  names : ∀ name, item.get? name = item'.get? name
  entries : namesOnly → item.Perm item'

/-- Fields settled one after the other are the fields of both settled once. -/
theorem Settles.sameFields {fs gs hs item mid after once : Fields} {namesOnly : Prop}
    (hf : Settles fs item mid) (hg : Settles gs mid after) (hh : Settles hs item once)
    (hnames : ∀ name, hs.get? name = (gs.get? name).or (fs.get? name))
    (hkeys : namesOnly → ∀ k, hs.getKey? k = (gs.getKey? k).or (fs.getKey? k))
    (hfields : namesOnly → fs.IsNamed ∧ gs.IsNamed ∧ hs.IsNamed)
    (hitem : namesOnly → item.IsMap ∧ item.IsNamed) : SameFields namesOnly after once where
  names name := by
    rw [hg.names, hf.names, settled_settled, ← hnames, hh.names]
  entries h := by
    obtain ⟨hfn, hgn, hhn⟩ := hfields h
    obtain ⟨hmap, hnamed⟩ := hitem h
    refine Fields.perm_of_getKey? (hg.isMap hgn (hf.isMap hfn hmap))
      (hg.isNamed hgn (hf.isNamed hfn hnamed)) (hh.isMap hhn hmap) (hh.isNamed hhn hnamed) ?_
    intro k
    rw [hg.keys hgn, hf.keys hfn, settled_settled, ← hkeys h, hh.keys hhn]

/-! ### Two updates of one key -/

variable {p q req req' : Fields}

theorem isMap_fields (hmap : first.IsMap) (h : compile key first = .ok u) : u.fields.IsMap :=
  compile_ok h ▸ hmap.filter _

theorem isNamed_fields (hnamed : first.IsNamed) (h : compile key first = .ok u) :
    u.fields.IsNamed :=
  compile_ok h ▸ hnamed.filter _

/-- What both updates ask for, the update of both together can ask for too. -/
theorem attach_overlay {w : Update} (hfirst : first.IsMap) (hsecond : second.IsMap)
    (hfn : first.IsNamed) (hsn : second.IsNamed) (hu : compile key first = .ok u)
    (hv : compile key second = .ok v) (hw : compile key (first.overlay second) = .ok w)
    (hreq : u.attach.result p = .ok req) (hreq' : v.attach.result q = .ok req') :
    ∃ r, w.attach.result [] = .ok r := by
  refine attach_empty fun e he hstays => ?_
  rw [compile_ok hw, List.mem_filter] at he
  obtain ⟨he, hkey⟩ := he
  rcases Fields.mem_of_mem_overlay hfirst hfn hsecond hsn he with he | he
  · exact encodes_of_attach hreq (compile_ok hu ▸ List.mem_filter.mpr ⟨he, hkey⟩) hstays
  · exact encodes_of_attach hreq' (compile_ok hv ▸ List.mem_filter.mpr ⟨he, hkey⟩) hstays

/-- **Updates compose.** Two attributes that leave something to update are compiled against one key,
and each update is put into a request of its own. Then their overlay has an update as well, which
can be put into a request if the keys are names; and any request with it takes any record to the
same fields as the two requests, one after the other. A request that is carried out a second time
changes nothing. -/
theorem updates_compose (hfirst : first.IsMap) (hsecond : second.IsMap)
    (hu : compile key first = .ok u) (hv : compile key second = .ok v)
    (hreq : u.attach.result p = .ok req) (hreq' : v.attach.result q = .ok req') :
    (∃ w, compile key (first.overlay second) = .ok w ∧
      (first.IsNamed → second.IsNamed → ∃ r, w.attach.result [] = .ok r) ∧
      ∀ base r, w.attach.result base = .ok r → ∀ item, ∃ mid after once,
        UpdateExpression.perform req item = some mid ∧
        UpdateExpression.perform req' mid = some after ∧
        UpdateExpression.perform r item = some once ∧
        SameFields (first.IsNamed ∧ second.IsNamed ∧ item.IsMap ∧ item.IsNamed) after once) ∧
    ∀ item, ∃ mid again, UpdateExpression.perform req item = some mid ∧
      UpdateExpression.perform req mid = some again ∧
      SameFields (first.IsNamed ∧ item.IsMap ∧ item.IsNamed) again mid := by
  constructor
  · obtain ⟨w, hw⟩ := compile_overlay hu second
    refine ⟨w, hw, fun hfn hsn => attach_overlay hfirst hsecond hfn hsn hu hv hw hreq hreq', ?_⟩
    intro base r hr item
    have hboth := hfirst.overlay second
    obtain ⟨mid, hrun, hmid⟩ := settles_attach (isMap_fields hfirst hu) hreq item
    obtain ⟨after, hrun', hafter⟩ := settles_attach (isMap_fields hsecond hv) hreq' mid
    obtain ⟨once, honce, hsettled⟩ := settles_attach (isMap_fields hboth hw) hr item
    refine ⟨mid, after, once, hrun, hrun', honce, hmid.sameFields hafter hsettled ?_ ?_ ?_ ?_⟩
    · intro name
      rw [get?_fields hboth hw, get?_fields hsecond hv, get?_fields hfirst hu, filter_or,
        Fields.get?_overlay hsecond]
    · rintro ⟨hfn, hsn, -⟩ k
      rw [getKey?_fields hboth (hfn.overlay hsn) hw, getKey?_fields hsecond hsn hv,
        getKey?_fields hfirst hfn hu, filter_or, Fields.getKey?_overlay hsecond hsn]
    · rintro ⟨hfn, hsn, -⟩
      exact ⟨isNamed_fields hfn hu, isNamed_fields hsn hv, isNamed_fields (hfn.overlay hsn) hw⟩
    · exact fun h => h.2.2
  · intro item
    obtain ⟨mid, hrun, hmid⟩ := settles_attach (isMap_fields hfirst hu) hreq item
    obtain ⟨again, hrun', hagain⟩ := settles_attach (isMap_fields hfirst hu) hreq mid
    refine ⟨mid, again, hrun, hrun', hmid.sameFields hagain hmid ?_ ?_ ?_ ?_⟩
    · exact fun name => Option.or_self.symm
    · exact fun _ k => Option.or_self.symm
    · exact fun h => ⟨isNamed_fields h.1 hu, isNamed_fields h.1 hu, isNamed_fields h.1 hu⟩
    · exact fun h => h.2

/-- Fields that the one assigns and the other removes, and a field of the key. -/
theorem updates_compose_overlap :
    let key : Fields := [(.text "id", .text "k")]
    let first : Fields := [(.text "size", .int 1), (.text "note", .text ""), (.text "id", .int 2)]
    let second : Fields := [(.text "note", .text "new"), (.text "size", .text "")]
    let item : Fields := [(.text "note", WireType.text.wrap (.text "old"))]
    ∃ u v w req req' r mid after once,
      compile key first = .ok u ∧ u.attach.result [] = .ok req ∧
      compile key second = .ok v ∧ v.attach.result [] = .ok req' ∧
      compile key (first.overlay second) = .ok w ∧ w.attach.result [] = .ok r ∧
      UpdateExpression.perform req item = some mid ∧
      UpdateExpression.perform req' mid = some after ∧
      UpdateExpression.perform r item = some once ∧
      once = [(.text "note", WireType.text.wrap (.text "new"))] ∧ after.Perm once := by
  intro key first second item
  let u : Update := ⟨[(.text "size", .int 1), (.text "note", .text "")]⟩
  let v : Update := ⟨[(.text "note", .text "new"), (.text "size", .text "")]⟩
  let both : Update := ⟨[(.text "size", .text ""), (.text "note", .text "new")]⟩
  have hu : compile key first = .ok u := by cbv
  have hv : compile key second = .ok v := by cbv
  obtain ⟨req, hreq⟩ : ∃ req, u.attach.result [] = .ok req := ⟨_, by cbv⟩
  obtain ⟨req', hreq'⟩ : ∃ req', v.attach.result [] = .ok req' := ⟨_, by cbv⟩
  have hnamed : first.IsNamed ∧ second.IsNamed ∧ item.IsMap ∧ item.IsNamed := by decide +kernel
  obtain ⟨⟨w, hw, hexists, hall⟩, -⟩ := updates_compose (by decide +kernel) (by decide +kernel)
    hu hv hreq hreq'
  obtain ⟨r, hr⟩ := hexists hnamed.1 hnamed.2.1
  obtain ⟨mid, after, once, hmid, hafter, honce, hsame⟩ := hall [] r hr item
  have hrecord : once = [(.text "note", WireType.text.wrap (.text "new"))] := by
    have hboth : compile key (first.overlay second) = .ok both := by cbv
    obtain rfl : w = both := Except.ok.inj (hw.symm.trans hboth)
    have hperformed : (both.attach.result []).map (UpdateExpression.perform · item) =
        .ok (some [(.text "note", WireType.text.wrap (.text "new"))]) := by cbv
    rw [hr] at hperformed
    exact Option.some.inj (honce.symm.trans (Except.ok.inj hperformed))
  exact ⟨u, v, w, req, req', r, mid, after, once, hu, hreq, hv, hreq', hw, hr, hmid, hafter, honce,
    hrecord, hsame.entries hnamed⟩

end Update

end ItemStore
