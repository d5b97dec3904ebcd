import ItemStore.Proofs.Requests
import ItemStore.Proofs.Table.Agreement
import ItemStore.Proofs.Table.Prepared
import ItemStore.Proofs.Wire.Canonical

/-! Going on from a page.

A page is read off a response, the key to go on from included, and the next read is asked to start
from that key. The key is then sent back as it came: texts and binary data do not change, and a
number is written as the very decimal that it was read as, so a numeral changes at most in its
spelling. Apart from the key the request is the one that is sent without it. -/
namespace ItemStore

open Outcome

/-! ### Values of a key -/

namespace Wire

/-- A value of a key as the service sends it: a text, binary data, or a numeral for a number that
the store can hold, in whichever way it is spelled. -/
inductive KeyValue : Value → Prop
  | text {v : Value} (h : isText v = true) : KeyValue (WireType.text.wrap v)
  | binary (mutable : Bool) (data : List UInt8) :
    KeyValue (WireType.binary.wrap (.bytes ⟨mutable, false⟩ data))
  | number {s : String} {d : Decimal} (hread : Decimal.read? s = some d) (h : d.Fits) :
    KeyValue (WireType.number.wrap (.text s))

/-- A value of a key and the value sent back for it. -/
inductive Resumes : Value → Value → Prop
  | text {v : Value} (h : isText v = true) :
    Resumes (WireType.text.wrap v) (WireType.text.wrap v)
  | binary (mutable : Bool) (data : List UInt8) :
    Resumes (WireType.binary.wrap (.bytes ⟨mutable, false⟩ data))
      (WireType.binary.wrap (.bytes ⟨mutable, false⟩ data))
  /-- Both texts are read as one decimal, and a text that the store writes itself stays. -/
  | number {s s' : String} {d : Decimal} (h : Decimal.read? s = some d)
    (h' : Decimal.read? s' = some d) (hsame : ∀ e : Decimal, e.Fits → s = e.text → s' = s) :
    Resumes (WireType.number.wrap (.text s)) (WireType.number.wrap (.text s'))

theorem read?_text_of_fits {d : Decimal} (h : d.Fits) : Decimal.read? d.text = some d := by
  cases d with
  | finite negative c e => exact Decimal.read?_text negative c e
  | infinity => cases h
  | nan => cases h

/-- A numeral for a number that fits is read as that number. -/
theorem decodeNumber_of_read {s : String} {d : Decimal} (hread : Decimal.read? s = some d)
    (h : d.Fits) : decodeNumber (.text s) = .ok (.decimal d) := by
  have hs : Decimal.acceptText s = Decimal.acceptText d.text := by
    rw [Decimal.acceptText, Decimal.acceptText, hread, read?_text_of_fits h]
  rw [decodeNumber, hs]
  exact decodeNumber_text h

theorem resumes_number {s : String} {d : Decimal} (hread : Decimal.read? s = some d)
    (h : d.Fits) :
    Resumes (WireType.number.wrap (.text s)) (WireType.number.wrap (.text d.text)) := by
  refine .number hread (read?_text_of_fits h) fun e he hs => ?_
  rw [hs, read?_text_of_fits he] at hread
  cases hread
  exact hs.symm

/-- Off the wire and onto it again. -/
theorem KeyValue.resumes {w : Value} (h : KeyValue w) :
    ∃ v w', decodeValue w = .ok v ∧ encodeValue v = .ok w' ∧ Resumes w w' := by
  cases h with
  | @text v h =>
    refine ⟨v, _, ?_, ?_, .text h⟩
    · rw [decodeValue, decode_wrap]
      rcases isText_iff.mp h with ⟨s, rfl⟩ | ⟨t, rfl⟩ <;> rfl
    · rcases isText_iff.mp h with ⟨s, rfl⟩ | ⟨t, rfl⟩ <;> rfl
  | binary mutable data =>
    refine ⟨.bytes ⟨mutable, false⟩ data, _, ?_, rfl, .binary mutable data⟩
    rw [decodeValue, decode_wrap]
    rfl
  | @number s d hread h =>
    refine ⟨.decimal d, _, ?_, encode_number (v := .decimal d) rfl h, resumes_number hread h⟩
    rw [decodeValue, decode_wrap, readUnder, decodeNumber_of_read hread h]
    rfl

/-- A key off the wire, and the same key onto it again. -/
theorem exists_resumed {key : Fields} (h : ∀ e ∈ key, KeyValue e.2) :
    ∃ last sent, decodeFields key = .ok last ∧ encodeFields last = .ok sent ∧
      List.Forall₂ (fun e w => e.1 = w.1 ∧ Resumes e.2 w.2) key sent := by
  simp only [decodeFields_ok, encodeFields_ok]
  induction key with
  | nil => exact ⟨[], [], .nil, .nil, .nil⟩
  | cons e key ih =>
    obtain ⟨he, hkey⟩ := List.forall_mem_cons.mp h
    obtain ⟨v, w, hv, hw, hresumes⟩ := he.resumes
    obtain ⟨last, sent, hlast, hsent, hall⟩ := ih hkey
    exact ⟨(e.1, v) :: last, (e.1, w) :: sent, .cons ⟨rfl, hv⟩ hlast, .cons ⟨rfl, hw⟩ hsent,
      .cons ⟨rfl, hresumes⟩ hall⟩

end Wire

/-! ### Pages -/

namespace Page

/-- The wire items of a response, in order. -/
def wireItems (response : Fields) : Except Fault (List Value) :=
  match response.get? "Items" with
  | none => .ok []
  | some v => v.elements

/-- The page has an item for each wire item of the response, and the key to go on from. -/
structure Shows (page : Page) (response last : Fields) : Prop where
  items : ∃ wires, wireItems response = .ok wires ∧
    List.Forall₂ (fun w item => Wire.decodeItem w = .ok item) wires page.items
  last : page.last = some last
  count : countOf response "Count" page.items.length = .ok page.count
  scanned : countOf response "ScannedCount" page.items.length = .ok page.scanned
  capacity : page.capacity = response.getD "ConsumedCapacity"

variable {response key last : Fields}

theorem itemsOf_ok {items : List Fields} : itemsOf response = .ok items ↔
    ∃ wires, wireItems response = .ok wires ∧
      List.Forall₂ (fun w item => Wire.decodeItem w = .ok item) wires items := by
  rw [itemsOf, wireItems]
  cases response.get? "Items" with
  | none => simp [eq_comm]
  | some v => simp only [bind_ok, mapM_ok]

theorem lastOf_eq (hkey : response.get? "LastEvaluatedKey" = some (.map key)) (hne : key ≠ [])
    (hlast : Wire.decodeFields key = .ok last) : lastOf response = .ok (some last) := by
  have htruthy : (Value.map key).truthy? = some (.map key) := by
    simp [Value.truthy?, Value.isTruthy, hne]
  have hitem : Wire.decodeItem (.map key) = .ok last := hlast
  rw [lastOf, Fields.getD, hkey, Option.getD_some, htruthy]
  simp only [hitem]
  rfl

theorem ofResponse_ok {page : Page} (hlast : lastOf response = .ok (some last)) :
    ofResponse response = .ok page ↔ page.Shows response last := by
  simp only [ofResponse, bind_ok, pure_ok, hlast, Except.ok.injEq, exists_eq_left']
  constructor
  · intro h
    obtain ⟨items, hitems, count, hcount, scanned, hscanned, rfl⟩ := h
    exact ⟨itemsOf_ok.mp hitems, rfl, hcount, hscanned, rfl⟩
  · intro h
    refine ⟨page.items, itemsOf_ok.mpr h.items, page.count, h.count, page.scanned, h.scanned, ?_⟩
    rw [← h.last, ← h.capacity]

end Page

/-! ### Requests that start from a key -/

namespace ReadRequest

/-- The name under which a caller passes the key to start from. -/
abbrev startKey : String := "ExclusiveStartKey"

theorem spelled_erase (req : Fields) :
    spelled (req.erase startKey) = (spelled req).map (·.erase startKey) := by
  have htable : Projection.table? (req.erase startKey) = Projection.table? req := by
    rw [Projection.table?, Projection.table?, Fields.getD_erase (by decide),
      Fields.getD_erase (by decide)]
  have hwrite (found) : Projection.write found (req.erase startKey) =
      (Projection.write found req).erase startKey := by
    cases found with
    | none => exact Fields.erase_erase ..
    | some found =>
      rw [Projection.write, Projection.write, Fields.erase_put (by decide),
        Fields.erase_put (by decide)]
  rw [spelled, spelled, Fields.has_erase (by decide)]
  split
  · rw [Projection.spellOut, Amendment.result_checked, Amendment.result_checked, htable]
    cases Projection.table? req with
    | error f => rfl
    | ok found => exact congrArg Except.ok (hwrite found)
  · rfl

theorem encodeValues_erase (req : Fields) :
    encodeValues (req.erase startKey) = (encodeValues req).map (·.erase startKey) := by
  rw [encodeValues, encodeParam, encodeParam, Fields.getD_erase (by decide)]
  cases (req.getD "ExpressionAttributeValues").truthy? with
  | none => rfl
  | some v =>
    cases hv : encodeEntries v with
    | error f => simp only [hv]; rfl
    | ok w =>
      simp only [hv]
      exact congrArg Except.ok (Fields.erase_put (by decide) req w).symm

/-- What is done to the parameters of a read other than the key to start from. -/
def spelledValues (ps : Fields) : Except Fault Fields := spelled ps >>= encodeValues

theorem spelledValues_erase (ps : Fields) :
    spelledValues (ps.erase startKey) = (spelledValues ps).map (·.erase startKey) := by
  rw [spelledValues, spelledValues, spelled_erase]
  cases spelled ps with
  | error f => rfl
  | ok req => exact encodeValues_erase req

theorem spelledValues_get? {ps req : Fields} (h : spelledValues ps = .ok req) :
    req.get? startKey = ps.get? startKey := by
  obtain ⟨req', hspelled, hvalues⟩ := bind_ok.mp h
  rw [encodeParam_get? hvalues (by decide), spelled_get? hspelled (by decide) (by decide)]

/-- Without a key to start from nothing is left to be done. -/
theorem build_erase (ps : Fields) :
    build (.map (ps.erase startKey)) = spelledValues (ps.erase startKey) := by
  rw [build_eq, Value.toFieldsOrEmpty_map, ok_bind]
  show (spelled (ps.erase startKey) >>= fun req => encodeValues req >>= _) = _
  rw [← bind_assoc]
  show spelledValues (ps.erase startKey) >>= _ = _
  cases h : spelledValues (ps.erase startKey) with
  | error f => rfl
  | ok req =>
    rw [ok_bind, encodeParam, Fields.getD, spelledValues_get? h, Fields.get?_erase, if_pos rfl]
    rfl

variable {params : Value} {ps last sent : Fields}

theorem build_start (hps : params.toFieldsOrEmpty = .ok ps)
    (hstart : ps.get? startKey = some (.map last)) (hne : last ≠ [])
    (hsent : Wire.encodeFields last = .ok sent) :
    build params = (spelledValues ps).map (·.put startKey (.map sent)) := by
  have htruthy : (Value.map last).truthy? = some (.map last) := by
    simp [Value.truthy?, Value.isTruthy, hne]
  have hitem : Wire.encodeItem (.map last) = .ok (.map sent) := by
    rw [Wire.encodeItem, hsent]
    rfl
  rw [build_eq, hps, ok_bind, ← bind_assoc]
  show spelledValues ps >>= _ = _
  cases h : spelledValues ps with
  | error f => rfl
  | ok req =>
    rw [ok_bind, encodeParam, Fields.getD, spelledValues_get? h, hstart, Option.getD_some, htruthy]
    simp only [hitem]
    rfl

end ReadRequest

/-- A query or a scan sends the request that is built from its parameters, and two more. -/
theorem Table.sends_read {t : Table} {params : Value} {s : Session} {req : Fields}
    (h : t.Sends (.query params) s req ∨ t.Sends (.scan params) s req) :
    ∃ built, ReadRequest.build params = .ok built ∧ req = t.extend built := by
  rcases h with h | h
  · obtain ⟨p, progress, hp, rfl, -⟩ := sends_iff.mp h
    obtain ⟨_, built, -, hbuilt, rfl, -⟩ := prepare_query hp
    exact ⟨built, hbuilt, rfl⟩
  · obtain ⟨p, progress, hp, rfl, -⟩ := sends_iff.mp h
    obtain ⟨built, hbuilt, rfl, -⟩ := prepare_scan hp
    exact ⟨built, hbuilt, rfl⟩

/-- **Going on from a page.** Let a response hold a key to go on from. Its page has the items of
the response and that key in native form. Where a read is asked to start from this key, its request
holds the key as it came, field by field in order, and is otherwise the request of the same read
without a key; and so do the requests that queries and scans send. -/
theorem Page.cursor_resumes {response key : Fields}
    (hkey : response.get? "LastEvaluatedKey" = some (.map key)) (hne : key ≠ [])
    (hvalues : ∀ e ∈ key, Wire.KeyValue e.2) :
    ∃ last sent, List.Forall₂ (fun e w => e.1 = w.1 ∧ Wire.Resumes e.2 w.2) key sent ∧
      (∀ page, ofResponse response = .ok page ↔ page.Shows response last) ∧
      ∀ (params : Value) (ps : Fields), params.toFieldsOrEmpty = .ok ps →
        ps.get? "ExclusiveStartKey" = some (.map last) →
        (ReadRequest.build params).map (·.erase "ExclusiveStartKey") =
          ReadRequest.build (.map (ps.erase "ExclusiveStartKey")) ∧
        (∀ req, ReadRequest.build params = .ok req →
          req.get? "ExclusiveStartKey" = some (.map sent)) ∧
        ∀ (t : Table) (s : Session) (req : Fields),
          t.Sends (.query params) s req ∨ t.Sends (.scan params) s req →
          req.get? "ExclusiveStartKey" = some (.map sent) := by
  obtain ⟨last, sent, hlast, hsent, hresumes⟩ := Wire.exists_resumed hvalues
  refine ⟨last, sent, hresumes, fun page => ofResponse_ok (lastOf_eq hkey hne hlast), ?_⟩
  intro params ps hps hstart
  have hlastNe : last ≠ [] := by
    rintro rfl
    exact hne (List.forall₂_nil_right_iff.mp (Wire.decodeFields_ok.mp hlast))
  have hbuild := ReadRequest.build_start hps hstart hlastNe hsent
  have hstarts (req : Fields) (h : ReadRequest.build params = .ok req) :
      req.get? "ExclusiveStartKey" = some (.map sent) := by
    rw [hbuild] at h
    obtain ⟨req', -, rfl⟩ := map_ok.mp h
    exact Fields.get?_put_self ..
  refine ⟨?_, hstarts, fun t s req h => ?_⟩
  · rw [hbuild, ReadRequest.build_erase, ReadRequest.spelledValues_erase]
    cases ReadRequest.spelledValues ps with
    | error f => rfl
    | ok req => exact congrArg Except.ok (Fields.erase_put_self req _ _)
  · obtain ⟨built, hbuilt, rfl⟩ := Table.sends_read h
    rw [Table.extend_get? _ (by decide) (by decide)]
    exact hstarts built hbuilt

/-- A key of a text, of bytes that can be written to, and of a numeral that the store would spell
without a sign and zeros in front. -/
theorem Page.cursor_resumes_numeral :
    let key : Fields := [(.text "id", WireType.text.wrap (.text "k")),
      (.text "part", WireType.binary.wrap (.bytes ⟨true, false⟩ [0, 255])),
      (.text "at", WireType.number.wrap (.text "+007.50"))]
    let native : Fields := [(.text "id", .text "k"), (.text "part", .bytes ⟨true, false⟩ [0, 255]),
      (.text "at", .decimal (.finite false 750 (-2)))]
    let response : Fields := [(.text "Items", .list [.map key]),
      (.text "LastEvaluatedKey", .map key)]
    let page : Page := ⟨[native], some native, 1, 1, .null⟩
    response.get? "LastEvaluatedKey" = some (.map key) ∧ key ≠ [] ∧
      (∀ e ∈ key, Wire.KeyValue e.2) ∧ ofResponse response = .ok page ∧
      page.Shows response native ∧
      ∃ sent req, List.Forall₂ (fun e w => e.1 = w.1 ∧ Wire.Resumes e.2 w.2) key sent ∧
        ReadRequest.build (.map [(.text "ExclusiveStartKey", .map native)]) = .ok req ∧
        req.get? "ExclusiveStartKey" = some (.map sent) := by
  intro key native response page
  have hkey : response.get? "LastEvaluatedKey" = some (.map key) := by decide +kernel
  have hne : key ≠ [] := by simp [key]
  have hvalues : ∀ e ∈ key, Wire.KeyValue e.2 := by
    simp only [key, List.forall_mem_cons, List.not_mem_nil, false_imp_iff, forall_const, and_true]
    refine ⟨.text rfl, .binary .., .number (d := .finite false 750 (-2)) ?_ (by decide)⟩
    decide +kernel
  have hpage : ofResponse response = .ok page := by decide +kernel
  obtain ⟨last, sent, hresumes, hpages, hreads⟩ := cursor_resumes hkey hne hvalues
  have hshows := (hpages page).mp hpage
  obtain rfl : native = last := Option.some.inj hshows.last
  obtain ⟨req, hreq⟩ : ∃ req, ReadRequest.build
      (.map [(.text "ExclusiveStartKey", .map native)]) = .ok req := ⟨_, by cbv⟩
  have hstart := (hreads _ _ (Value.toFieldsOrEmpty_map _) (Fields.get?_cons_self ..)).2.1 req hreq
  exact ⟨hkey, hne, hvalues, hpage, hshows, sent, req, hresumes, hreq, hstart⟩

end ItemStore
