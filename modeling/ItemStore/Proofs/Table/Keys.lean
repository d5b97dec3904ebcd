import ItemStore.Proofs.Table.Numeral

/-! Keys on the wire.

An operation that looks for a record sends the key that was passed, after it has passed the check:
the fields are put on the wire one by one, in order and under their names. What can stand in a key
goes there as a text that is not empty, as a number or as binary data, so these are the only fields
that the key of a request has; and the same holds of the requests of a batch that delete. -/
namespace ItemStore

open Outcome
open Wire (encodeValue encodeFields KeepsKey)

namespace Key

/-- The wire form of what can stand in a key. -/
inductive WireValue : Value → Prop
  | text {v : Value} (h : IsName v) : WireValue (WireType.text.wrap v)
  | number {d : Decimal} (h : d.Fits ∨ d.IsMarked) : WireValue (WireType.number.wrap (.text d.text))
  | bytes {form : BytesForm} (data : List UInt8) (h : form.wrapped = false) :
    WireValue (WireType.binary.wrap (.bytes form data))

/-- A key on the wire. -/
structure IsWireKey (ws : Fields) : Prop where
  nonempty : ws ≠ []
  atMostTwo : ws.length ≤ 2
  names : ∀ e ∈ ws, IsName e.1
  values : ∀ e ∈ ws, WireValue e.2

theorem wireValue_number {d : Decimal} {w : Value}
    (h : (do return WireType.number.wrap (.text (← Wire.numberText d))) =
      Except.ok (ε := Fault) w) : WireValue w := by
  obtain ⟨s, hs, h⟩ := bind_ok.mp h
  obtain ⟨hpasses, rfl⟩ := Wire.numberText_ok_iff.mp hs
  cases h
  exact .number hpasses

theorem Admissible.wireValue {v w : Value} (hv : Admissible v) (h : encodeValue v = .ok w) :
    WireValue w := by
  cases hv with
  | text hname =>
    rcases Wire.isText_iff.mp hname.1 with ⟨s, rfl⟩ | ⟨t, rfl⟩
    · cases h
      exact .text hname
    · cases h
      exact .text hname
  | int n => exact wireValue_number h
  | decimal d => exact wireValue_number h
  | bytes form data =>
    cases h
    exact .bytes data rfl

/-- A well-formed key goes on the wire as one. -/
theorem IsKey.isWireKey {ks ws : Fields} (hkey : IsKey ks) (h : encodeFields ks = .ok ws) :
    IsWireKey ws := by
  have hfields := Wire.encodeFields_ok.mp h
  refine ⟨?_, hfields.length_eq ▸ hkey.atMostTwo, fun e he => ?_, fun e he => ?_⟩
  · rintro rfl
    exact hkey.nonempty (List.forall₂_nil_right_iff.mp hfields)
  · obtain ⟨k, hk, hname, -⟩ := exists_of_mem_right hfields e he
    exact hname ▸ (hkey.fields k hk).name
  · obtain ⟨k, hk, -, hvalue⟩ := exists_of_mem_right hfields e he
    exact (hkey.fields k hk).value.wireValue hvalue

/-- A well-formed key and the key on the wire that comes of it, field by field. -/
structure Sent (ks ws : Fields) : Prop where
  isKey : IsKey ks
  fields : List.Forall₂ (KeepsKey encodeValue) ks ws
  isWireKey : IsWireKey ws

theorem sent_of_validate {key : Value} {ks ws : Fields} (hkey : validate key = .ok ks)
    (hws : encodeFields ks = .ok ws) : key = .map ks ∧ Sent ks ws := by
  obtain ⟨rfl, hks⟩ := validate_ok_iff.mp hkey
  exact ⟨rfl, hks, Wire.encodeFields_ok.mp hws, hks.isWireKey hws⟩

end Key

namespace Table

variable {t : Table} {op : Operation} {s : Session} {req : Fields}

theorem sent_of_sends {key : Value} (hkey : op.sentKey? = some key) (hsent : t.Sends op s req) :
    ∃ ks ws, key = .map ks ∧ Key.Sent ks ws ∧ req.get? "Key" = some (.map ws) := by
  obtain ⟨ks, ws, hks, hws, hreq⟩ := sends_key hkey hsent
  obtain ⟨hmap, hkeys⟩ := Key.sent_of_validate hks hws
  exact ⟨ks, ws, hmap, hkeys, hreq⟩

/-- What a batch carries for one request: an item to put, or the key of a record to delete. -/
def KeySent (op w : Value) : Prop :=
  (∃ item, w = Batch.put item) ∨
    ∃ ks ws, Batch.Removes op (.map ks) ∧ Key.Sent ks ws ∧ w = Batch.remove ws

theorem keySent_of_encodeRequest {op w : Value} (h : Batch.encodeRequest op = .ok w) :
    KeySent op w := by
  cases Batch.encodeRequest_ok.mp h with
  | put => exact .inl ⟨_, rfl⟩
  | remove hremoves hkey hws =>
    obtain ⟨-, hkeys⟩ := Key.sent_of_validate hkey hws
    exact .inr ⟨_, _, hremoves, hkeys, rfl⟩

theorem keySent_of_sends {requests account : Value}
    (hsent : t.Sends (.batchWrite requests account) s req) :
    ∃ ops wires, requests.elements = .ok ops ∧ t.Carries req wires ∧
      List.Forall₂ KeySent ops wires := by
  obtain ⟨ops, wires, hops, hwires, rfl⟩ := sends_batchWrite_iff.mp hsent
  exact ⟨ops, wires, hops, carries_batchRequest wires,
    hwires.imp fun _ _ => keySent_of_encodeRequest⟩

/-- **Keys.** Just the well-formed keys pass the check, as they are, and so pass it again; whatever
else it is given is refused for the first field that offends, and for the number of fields only if
none does. That is a mistake of the caller, unless it would quote a name that cannot be written out.
So the key of a record goes on the wire as one or two fields that the store has for a key, on its
own or in a batch. -/
theorem keys_checked (v : Value) (t : Table) (s : Session) (req : Fields) :
    (∀ es, Key.validate v = .ok es ↔ v = .map es ∧ Key.IsKey es) ∧
    (∀ es, Key.validate v = .ok es → Key.validate (.map es) = .ok es) ∧
    (∀ f, Key.validate v = .error f ↔ ∃ c, Key.Refuses v c ∧ Key.Says c f) ∧
    (∀ op key, op.sentKey? = some key → t.Sends op s req →
      ∃ ks ws, key = .map ks ∧ Key.Sent ks ws ∧ req.get? "Key" = some (.map ws)) ∧
    ∀ requests account, t.Sends (.batchWrite requests account) s req →
      ∃ ops wires, requests.elements = .ok ops ∧ t.Carries req wires ∧
        List.Forall₂ KeySent ops wires := by
  refine ⟨fun es => Key.validate_ok_iff, fun es hes => ?_, fun f => Key.validate_error_iff, ?_, ?_⟩
  · obtain ⟨rfl, -⟩ := Key.validate_ok_iff.mp hes
    exact hes
  · exact fun op key => sent_of_sends
  · exact fun requests account => keySent_of_sends

/-- Of three fields the second offends. A record is looked up under a number and bytes, and deleted
in a batch under a text. -/
theorem keys_checked_offends :
    let t : Table := ⟨"records", ⟨false, false, false⟩, ⟨fun _ => none, fun _ => ""⟩, "accountId"⟩
    let v : Value := .map [(.text "id", .int 7), (.text "part", .bool true), (.text "at", .int 1)]
    let part : CallerFault := .keyValue (Text.points "part")
    let key : Fields := [(.text "id", .int 7), (.text "part", .bytes ⟨true, true⟩ [0])]
    let requests : Value := .list [Batch.remove [(.text "id", .text "k")]]
    let s := Session.start []
    Key.validate v = .error (.caller part) ∧ Key.Refuses v part ∧
      (∃ req ws, t.Sends (.get (.map key) .null) s req ∧ Key.Sent key ws ∧
        req.get? "Key" = some (.map ws)) ∧
      ∃ req ops wires, t.Sends (.batchWrite requests .null) s req ∧
        requests.elements = .ok ops ∧ t.Carries req wires ∧ List.Forall₂ KeySent ops wires := by
  intro t v part key requests s
  have hv : Key.validate v = .error (.caller part) := rfl
  obtain ⟨req, hsent⟩ : ∃ req, t.Sends (.get (.map key) .null) s req :=
    exists_sends (by cbv) (by cbv)
  obtain ⟨batch, hbatch⟩ : ∃ req, t.Sends (.batchWrite requests .null) s req :=
    exists_sends (by cbv) (by cbv)
  obtain ⟨-, -, hrefuses, hkey, -⟩ := keys_checked v t s req
  obtain ⟨-, -, -, -, hcarries⟩ := keys_checked v t s batch
  obtain ⟨c, hrefused, hsaid⟩ := (hrefuses _).mp hv
  obtain ⟨ks, ws, hks, hkeys, hreq⟩ := hkey _ _ rfl hsent
  obtain ⟨ops, wires, hops, hwires, hall⟩ := hcarries _ _ hbatch
  cases hsaid
  cases hks
  exact ⟨hv, hrefused, ⟨req, ws, hsent, hkeys, hreq⟩, batch, ops, wires, hbatch, hops, hwires, hall⟩

/-- Not every value that is refused as a key is a mistake of the caller: an integer in the place of
a name, with one digit more than is written out, is not. -/
theorem key_not_refused_as_caller :
    ¬ ∀ v f, Key.validate v = .error f → ∃ c, f = .caller c := by
  intro h
  let name : Value := .int (Decimal.tenTo Decimal.maxDigits)
  have hrefuses : Key.Refuses (.map [(name, .text "x")]) (.keyName name) :=
    @Key.Refuses.field [] [] _ _ (List.forall_mem_nil _)
      (.name fun hname => Bool.false_ne_true hname.1)
  have hwritable : name.isWritable = false := by
    rw [Value.isWritable, decide_eq_false_iff_not, Int.natAbs_natCast]
    exact Nat.lt_irrefl _
  obtain ⟨c, hc⟩ := h _ _ (Key.validate_error_iff.mpr ⟨_, hrefuses, .unwritten hwritable⟩)
  cases hc

end Table

end ItemStore
