import ItemStore.Proofs.Table.Agreement
import ItemStore.Proofs.Table.Frame
import ItemStore.Proofs.Update.Tables

/-! What asks for removal is not stored.

The empty text asks for a field to be removed. A full write leaves out the fields that hold it, and
a partial update takes them away; the fields that the library writes itself and those of a key are
never empty texts. So no write stores one, and every other field of the caller is sent in wire
form, unless the library or the key has a field of its name. -/
namespace ItemStore

open Outcome
open Wire (encodeValue)

/-! ### The empty text on the wire -/

namespace Wire

theorem wrap_ne_text {t : WireType} {v x : Value} (ht : t ≠ .text) :
    (Except.ok (t.wrap v) : Except Fault Value) ≠ .ok (WireType.text.wrap x) :=
  fun h => ht (WireType.wrap_inj.mp (Except.ok.inj h)).1

theorem bind_wrap_ne_text {α : Type} {y : Except Fault α} {t : WireType} {f : α → Value} {x : Value}
    (ht : t ≠ .text) :
    (y >>= fun a => pure (t.wrap (f a))) ≠ .ok (WireType.text.wrap x) := by
  intro h
  obtain ⟨a, -, ha⟩ := bind_ok.mp h
  exact wrap_ne_text ht ha

theorem encodeSet_ne_text {frozen : Bool} {xs : List Value} {x : Value} :
    encodeSet frozen xs ≠ .ok (WireType.text.wrap x) := by
  intro h
  generalize hw : WireType.text.wrap x = w at h
  replace h := encodeSet_ok.mp h
  cases h <;> cases (WireType.wrap_inj.mp hw).1

/-- Only a text goes on the wire as a text, and as it is. -/
theorem eq_of_encode_text {v x : Value} (h : encode v = .ok (WireType.text.wrap x)) : v = x := by
  cases v with
  | text s => exact (WireType.wrap_inj.mp (Except.ok.inj h)).2
  | torn t => exact (WireType.wrap_inj.mp (Except.ok.inj h)).2
  | null => exact absurd h (wrap_ne_text (by decide))
  | bool b => exact absurd h (wrap_ne_text (by decide))
  | bytes form data => exact absurd h (wrap_ne_text (by decide))
  | int n => exact absurd h (bind_wrap_ne_text (by decide))
  | decimal d => exact absurd h (bind_wrap_ne_text (by decide))
  | list xs => exact absurd h (bind_wrap_ne_text (by decide))
  | tuple xs => exact absurd h (bind_wrap_ne_text (by decide))
  | map es => exact absurd h (bind_wrap_ne_text (by decide))
  | set frozen xs => exact absurd h encodeSet_ne_text
  | _ => cases h

theorem eq_of_settle_text {v : Value} {s : String} (h : settle v = .text s) : v = .text s := by
  cases v with
  | set frozen members => cases frozen <;> simp [settle] at h
  | _ => simp_all [settle]

/-- The wire form of the empty text. -/
def emptyText : Value := WireType.text.wrap (.text "")

theorem encodeValue_ne_emptyText {v w : Value} (hv : v.isDeleteSentinel = false)
    (h : encodeValue v = .ok w) : w ≠ emptyText := by
  rintro rfl
  rw [eq_of_settle_text (eq_of_encode_text h)] at hv
  cases hv

end Wire

/-! ### Records -/

namespace Fields

/-- No field asks for removal. -/
def Stays (fs : Fields) : Prop := ∀ e ∈ fs, e.2.isDeleteSentinel = false

variable {fs upper : Fields}

theorem Stays.overlay (h : fs.Stays) (hupper : upper.Stays) : (fs.overlay upper).Stays := by
  intro e he
  rcases mem_overlay he with ⟨a, ha, hv⟩ | ⟨a, ha, hv⟩
  · exact hv ▸ h a ha
  · exact hv ▸ hupper a ha

theorem Stays.append (h : fs.Stays) (hupper : upper.Stays) : Stays (fs ++ upper) := by
  intro e he
  rcases List.mem_append.mp he with he | he
  · exact h e he
  · exact hupper e he

end Fields

/-- The names of the fields that a schema manages. -/
def Schema.managed (schema : Schema) : List String :=
  (if schema.managesId then ["id"] else []) ++
    (if schema.managesCreated then ["created"] else []) ++
      (if schema.managesUpdated then ["updated"] else [])

/-- The managed fields of a record that is written again. -/
def Schema.restamped (schema : Schema) : List String :=
  if schema.managesUpdated then ["updated"] else []

namespace Lifecycle

variable {schema : Schema} {src : Sources} {d d' : Draws} {managed : Fields}

theorem storable_stays (fs : Fields) : (storable fs).Stays := by
  intro e he
  simpa using (List.mem_filter.mp he).2

theorem newId_stays {id : Value} (hids : ∀ n, src.ids n ≠ "")
    (h : newId schema src id d = (.ok managed, d')) : managed.Stays := by
  rcases (newId_ok h).2 with ⟨-, rfl⟩ | ⟨-, rfl⟩
  · exact List.forall_mem_nil _
  · refine List.forall_mem_singleton.mpr ?_
    split
    · next hid =>
      refine Update.isDeleteSentinel_eq_false_iff.mpr ?_
      rintro rfl
      cases hid
    · exact Update.isDeleteSentinel_eq_false_iff.mpr (by simpa using hids d.ids)

theorem newStamps_stays (h : newStamps schema src d = (.ok managed, d')) : managed.Stays := by
  obtain ⟨s, hs, rfl⟩ := newStamps_ok h
  have hstamp (name : String) : Fields.Stays [(.text name, .text s)] :=
    List.forall_mem_singleton.mpr
      (Update.isDeleteSentinel_eq_false_iff.mpr (by simpa using hs))
  refine .append ?_ ?_
  · split
    · exact hstamp _
    · exact List.forall_mem_nil _
  · split
    · exact hstamp _
    · exact List.forall_mem_nil _

/-- The fields that are written into a new record are the managed ones. -/
theorem created_names {id : Value} {ids stamps : Fields} {r : Draws}
    (hids : newId schema src id d = (.ok ids, r))
    (hstamps : newStamps schema src r = (.ok stamps, d')) :
    (ids ++ stamps).map (·.1) = schema.managed.map Value.text := by
  obtain ⟨s, -, rfl⟩ := newStamps_ok hstamps
  rcases (newId_ok hids).2 with ⟨hno, rfl⟩ | ⟨hyes, rfl⟩
  · cases hc : schema.managesCreated <;> cases hu : schema.managesUpdated <;>
      simp [Schema.managed, hno, hc, hu]
  · cases hc : schema.managesCreated <;> cases hu : schema.managesUpdated <;>
      simp [Schema.managed, hyes, hc, hu]

theorem freshStamp_names (h : freshStamp schema src d = (.ok managed, d')) :
    managed.map (·.1) = schema.restamped.map Value.text := by
  rcases freshStamp_ok h with ⟨hno, rfl⟩ | ⟨hyes, m, s, -, -, rfl⟩
  · simp [Schema.restamped, hno]
  · simp [Schema.restamped, hyes]

end Lifecycle

theorem Key.stays_of_validate {v : Value} {ks : Fields} (h : validate v = .ok ks) : ks.Stays := by
  intro e he
  have hvalue := (fieldFault?_eq_none_iff.mp ((validate_ok.mp h).2.2.2 e he)).2.2
  refine Update.isDeleteSentinel_eq_false_iff.mpr fun hempty => ?_
  rw [hempty] at hvalue
  cases hvalue

/-! ### Requests -/

namespace Table

/-- The item that the request puts holds no empty text, and it holds every one of the fields, but
for those that ask for removal or whose key is taken. -/
structure Stores (req fs : Fields) (taken : List Value) : Prop where
  exists_item : ∃ stored : Fields, req.get? "Item" = some (.map stored) ∧
    (∀ e ∈ stored, e.2 ≠ Wire.emptyText) ∧
    ∀ e ∈ fs, e.2 ≠ .text "" → e.1 ∉ taken →
      ∃ w, encodeValue e.2 = .ok w ∧ (e.1, w) ∈ stored

/-- The request assigns no empty text, nor does it send one under a placeholder that is not the
caller's, and it assigns every one of the fields, but for those that ask for removal or whose key is
taken. -/
structure Amends (req : Fields) (params : Value) (fs : Fields) (taken : List Value) : Prop where
  exists_callers : ∃ passed callers, params.toFieldsOrEmpty = .ok passed ∧
    Update.callerValues (passed.getD "ExpressionAttributeValues") = .ok callers ∧
    ∀ values, req.get? "ExpressionAttributeValues" = some (.map values) →
      ∀ e ∈ values, e.1 ∉ callers.map (·.1) → e.2 ≠ Wire.emptyText
  assigned : ∀ k w, Assigns req k w → w ≠ Wire.emptyText
  assigns : ∀ e ∈ fs, e.2 ≠ .text "" → e.1 ∉ taken →
    ∃ w, encodeValue e.2 = .ok w ∧ Assigns req e.1 w

variable {t : Table} {s : Session} {key fs req : Fields} {id params : Value}

theorem stores_of_encode {record passed : Fields} {taken : List Value} {w : Value}
    (hitem : Wire.encodeItem (.map record) = .ok w) (hstays : record.Stays)
    (hkept : ∀ e ∈ Lifecycle.storable fs, e.1 ∉ taken → e ∈ record) :
    Stores ((t.extend passed).put "Item" w) fs taken := by
  obtain ⟨_, stored, ⟨⟩, hfields, rfl⟩ := Wire.encodeItem_ok.mp hitem
  have hpairs := Wire.encodeFields_ok.mp hfields
  refine ⟨stored, Fields.get?_put_self .., fun w hw => ?_, fun e he hstay hfree => ?_⟩
  · obtain ⟨e, he, -, hencode⟩ := exists_of_mem_right hpairs w hw
    exact Wire.encodeValue_ne_emptyText (hstays e he) hencode
  · have hstorable : e ∈ Lifecycle.storable fs := List.mem_filter.mpr
      ⟨he, by simpa using Update.isDeleteSentinel_eq_false_iff.mpr hstay⟩
    obtain ⟨w, hw, hkey, hencode⟩ := exists_of_mem_left hpairs e (hkept e hstorable hfree)
    exact ⟨w.2, hencode, by rw [hkey]; exact hw⟩

theorem stores_create (hids : ∀ n, t.sources.ids n ≠ "")
    (hsent : t.Sends (.create (.map fs) id params) s req) :
    Stores req fs (t.schema.managed.map .text) := by
  obtain ⟨p, progress, hp, rfl, -⟩ := sends_iff.mp hsent
  obtain ⟨_, stamped, d, passed, w, ⟨⟩, hstamped, -, hitem, rfl, -⟩ := prepare_create hp
  obtain ⟨ids, stamps, r, hid, hstamps, rfl⟩ := Lifecycle.stampWrite_create hstamped
  have hnames := Lifecycle.created_names hid hstamps
  have hnamed : (ids ++ stamps).IsNamed := by
    rw [Fields.isNamed_iff_keys, hnames]
    exact List.forall_mem_map.mpr fun _ _ => rfl
  refine stores_of_encode hitem ?_ fun e he hfree => ?_
  · exact (Lifecycle.storable_stays fs).overlay
      ((Lifecycle.newId_stays hids hid).append (Lifecycle.newStamps_stays hstamps))
  · exact Fields.mem_overlay_of_mem he hnamed (hnames ▸ hfree)

/-- The keys of a record written again that a field of the caller does not get past. -/
def rewrittenKeys (t : Table) (key : Fields) : List Value :=
  t.schema.restamped.map .text ++ key.map (·.1)

theorem stores_replace (hsent : t.Sends (.replace (.map key) (.map fs) params) s req) :
    Stores req fs (t.rewrittenKeys key) := by
  obtain ⟨p, progress, hp, rfl, -⟩ := sends_iff.mp hsent
  obtain ⟨ks, _, stamped, d, passed, w, hks, ⟨⟩, hstamped, -, hitem, rfl, -⟩ := prepare_replace hp
  obtain ⟨⟨⟩, -⟩ := Key.validate_ok.mp hks
  obtain ⟨managed, hfresh, rfl⟩ := Lifecycle.stampWrite_replace hstamped
  have hmanaged := Lifecycle.freshStamp_isManaged hfresh
  refine stores_of_encode hitem ?_ fun e he hfree => ?_
  · exact ((Lifecycle.storable_stays fs).overlay hmanaged.stays).overlay (Key.stays_of_validate hks)
  · rw [rewrittenKeys, ← Lifecycle.freshStamp_names hfresh, List.mem_append, not_or] at hfree
    exact Fields.mem_overlay_of_mem (Fields.mem_overlay_of_mem he hmanaged.isNamed hfree.1)
      (Key.isNamed_of_validate hks) hfree.2

theorem amends_update (hsent : t.Sends (.update (.map key) (.map fs) params) s req) :
    Amends req params fs (t.rewrittenKeys key) := by
  obtain ⟨p, progress, hp, rfl, -⟩ := sends_iff.mp hsent
  obtain ⟨ks, _, stamped, d, u, passed, built, w, hks, ⟨⟩, hstamped, hu, hpassed, hbuilt, -, rfl,
    -⟩ := prepare_update hp
  obtain ⟨⟨⟩, -⟩ := Key.validate_ok.mp hks
  obtain ⟨managed, hfresh, rfl⟩ := Lifecycle.stampWrite_update hstamped
  have hmanaged := Lifecycle.freshStamp_isManaged hfresh
  obtain ⟨names, values, htables, rfl⟩ := Update.attach_ok.mp hbuilt
  have hassigns (k x : Value) :
      Assigns ((t.extend (u.write (names, values) passed)).put "Key" w) k x ↔
        Assigns (u.write (names, values) passed) k x :=
    Update.assigns_congr (get?_extend_of_meaning _ w)
  have hfields := Update.compile_ok hu
  constructor
  · obtain ⟨_, callers, present, refs, -, -, hcallers, hpresent, hrefs, rfl⟩ :=
      Update.tables_ok htables
    refine ⟨passed, callers, freeParams_ok hpassed, hcallers, fun values hvalues e he hnew => ?_⟩
    rw [get?_extend_of_meaning _ _ _ (by decide)] at hvalues
    cases Update.values_of_write hvalues
    -- An entry that is not the caller's is one that the update put there.
    rcases List.mem_append.mp he with he | he
    · obtain ⟨c, hc, hkey, -⟩ := exists_of_mem_right (Wire.encodeFields_ok.mp hpresent) e he
      exact absurd (List.mem_map.mpr ⟨c, hc, hkey⟩) hnew
    · obtain ⟨r, hr, rfl⟩ := List.mem_map.mp he
      obtain ⟨f, hf, -, hencode⟩ := Update.exists_assigned_of_mem hrefs hr
      exact Wire.encodeValue_ne_emptyText (Update.stays_of_mem_assigned hf) hencode
  · intro k x hx
    obtain ⟨e, -, hstays, -, hencode⟩ := (Update.assigns_write htables).mp ((hassigns k x).mp hx)
    exact Wire.encodeValue_ne_emptyText hstays hencode
  · intro e he hstay hfree
    rw [rewrittenKeys, ← Lifecycle.freshStamp_names hfresh, List.mem_append, not_or] at hfree
    have hkept : e ∈ u.fields := by
      rw [hfields]
      refine List.mem_filter.mpr ⟨Fields.mem_overlay_of_mem he hmanaged.isNamed hfree.1, ?_⟩
      rw [Fields.hasKey_of_notMem (Key.isNamed_of_validate hks) hfree.2]
      rfl
    obtain ⟨x, hx, hassigned⟩ := Update.assigns_of_mem htables hkept
      (Update.isDeleteSentinel_eq_false_iff.mpr hstay)
    exact ⟨x, hx, (hassigns _ _).mpr hassigned⟩

/-- **Removal.** Let no identifier that is drawn be empty. Then no write of a record sends the empty
text: neither in an item that is put, nor under a placeholder that an update adds. Every field of
the caller that does not ask for removal is sent in wire form, but for one whose name the library
writes itself, or the key has. -/
theorem empty_text_never_stored (hids : ∀ n, t.sources.ids n ≠ "") (s : Session)
    (params : Value) (fs req : Fields) :
    (∀ id, t.Sends (.create (.map fs) id params) s req →
      Stores req fs (t.schema.managed.map .text)) ∧
    (∀ key, t.Sends (.replace (.map key) (.map fs) params) s req →
      Stores req fs (t.rewrittenKeys key)) ∧
    ∀ key, t.Sends (.update (.map key) (.map fs) params) s req →
      Amends req params fs (t.rewrittenKeys key) := by
  refine ⟨fun id hsent => ?_, fun key hsent => ?_, fun key hsent => ?_⟩
  · exact stores_create hids hsent
  · exact stores_replace hsent
  · exact amends_update hsent

/-- Fields that ask for removal beside falsy ones that stay, in a new record, in a replacement and
in an update. -/
theorem empty_text_never_stored_falsy :
    let sources : Sources := ⟨fun _ => some ⟨0, some 0⟩, fun _ => "i"⟩
    let t : Table := ⟨"records", ⟨true, false, true⟩, sources, "account"⟩
    let s := Session.start []
    let fs : Fields := [(.text "note", .text ""), (.text "done", .bool false),
      (.text "size", .int 0), (.text "tags", .list [])]
    let key : Fields := [(.text "id", .text "k")]
    (∀ n, t.sources.ids n ≠ "") ∧
      (∃ req, t.Sends (.create (.map fs) (.text "") .null) s req ∧
        Stores req fs (t.schema.managed.map .text)) ∧
      (∃ req, t.Sends (.replace (.map key) (.map fs) .null) s req ∧
        Stores req fs (t.rewrittenKeys key)) ∧
      ∃ req, t.Sends (.update (.map key) (.map fs) .null) s req ∧
        Amends req .null fs (t.rewrittenKeys key) := by
  intro sources t s fs key
  have hids : ∀ n, t.sources.ids n ≠ "" := fun _ => (by decide : "i" ≠ "")
  obtain ⟨reqC, hcreate⟩ : ∃ req, t.Sends (.create (.map fs) (.text "") .null) s req :=
    exists_sends (by cbv) (by cbv)
  obtain ⟨reqR, hreplace⟩ : ∃ req, t.Sends (.replace (.map key) (.map fs) .null) s req :=
    exists_sends (by cbv) (by cbv)
  obtain ⟨reqU, hupdate⟩ : ∃ req, t.Sends (.update (.map key) (.map fs) .null) s req :=
    exists_sends (by cbv) (by cbv)
  refine ⟨hids, ⟨reqC, hcreate, ?_⟩, ⟨reqR, hreplace, ?_⟩, reqU, hupdate, ?_⟩
  · exact (empty_text_never_stored hids s .null fs reqC).1 _ hcreate
  · exact (empty_text_never_stored hids s .null fs reqR).2.1 _ hreplace
  · exact (empty_text_never_stored hids s .null fs reqU).2.2 _ hupdate

end Table

end ItemStore
