import ItemStore.Endpoint
import ItemStore.Proofs.Table.Calls
import ItemStore.Proofs.Table.Removal
import ItemStore.Proofs.Table.Report
import ItemStore.Proofs.Update.Tables

/-! The record that an event addresses.

An event names an account and an identifier, each in its query string or else in its body. A body
may hold other values under these names too: a name that the query string has stays in the body.
Whatever it holds, the one call that an event leads to is about the record that the event names: by
its key, by the item that is put, and by the fields that an update leaves alone. -/
namespace ItemStore

open Outcome Update
open Wire (encodeValue isText)

/-! ### What an event names -/

namespace Endpoint

/-- The query string of an event, empty if it has none. -/
def queryOf (event : Fields) : Fields := UpdateExpression.table (event.getD "queryStringParameters")

/-- The value that an event has under a name: from the query string, if it is not falsy there, or
else from the body. -/
def named (event body : Fields) (name : String) : Value :=
  ((queryOf event).getD name).truthy?.getD (body.getD name)

/-- The event names the account and the identifier, each by its text. -/
structure Addresses (event : Fields) (account id : Value) : Prop where
  exists_body : ∃ body, bodyOf event = .ok (some (.map body)) ∧
    textOf (named event body "accountId") = .ok account ∧
    textOf (named event body "id") = .ok id

theorem inside_ok {v w : Value} {name : String} (h : inside v name = .ok w) :
    w = (UpdateExpression.table v).getD name := by
  rw [inside] at h
  split at h
  · obtain ⟨fs, hfs, hw⟩ := bind_ok.mp h
    cases v with
    | map es =>
      cases hfs
      exact (Except.ok.inj hw).symm
    | _ => cases hfs
  · next hfalsy =>
    cases h
    -- A falsy value is the empty map, or no map at all.
    cases v with
    | map es =>
      cases es with
      | nil => rfl
      | cons e es => exact absurd rfl hfalsy
    | _ => rfl

theorem isText_of_textOf {v text : Value} (h : textOf v = .ok text) : isText text = true := by
  rw [textOf] at h
  split at h
  · cases h
    rfl
  · obtain ⟨ps, -, rfl⟩ := map_ok.mp h
    exact Wire.isText_ofPoints ps

/-- A name is looked up in the body only if the query string has nothing under it, and no other name
of the body is lost. -/
theorem resolve_ok {query text : Value} {name : String} {body rest : Fields}
    (h : resolve query name body = .ok (text, rest)) :
    textOf (((UpdateExpression.table query).getD name).truthy?.getD (body.getD name)) = .ok text ∧
      ∀ other, other ≠ name → rest.getD other = body.getD other := by
  rw [resolve] at h
  obtain ⟨v, hv, h⟩ := bind_ok.mp h
  rw [← inside_ok hv]
  split at h
  · next u hu =>
    obtain ⟨text', htext, heq⟩ := bind_ok.mp h
    cases heq
    exact ⟨by rw [hu]; exact htext, fun _ _ => rfl⟩
  · next hu =>
    obtain ⟨text', htext, heq⟩ := bind_ok.mp h
    cases heq
    refine ⟨by rw [hu]; exact htext, fun other hother => ?_⟩
    rw [Fields.getD, Fields.get?_erase, if_neg hother.symm]
    rfl

/-- An event that asks for a record names its account, and its identifier unless it is posted. -/
theorem ofEvent_record {event verb account id : Value} {body : Fields}
    (h : Request.ofEvent event = .ok (.record verb account id body)) :
    ∃ es, event = .map es ∧ verbOf es = .ok verb ∧ Addresses es account id ∧
      account.isTruthy = true ∧ (Verb.ofValue? verb = some .post ∨ id.isTruthy = true) := by
  rw [Request.ofEvent] at h
  obtain ⟨es, hes, h⟩ := bind_ok.mp h
  obtain ⟨verb', hverb, h⟩ := bind_ok.mp h
  obtain ⟨found, hbody, h⟩ := bind_ok.mp h
  split at h
  · cases h
  · next body₀ =>
    obtain ⟨⟨account', rest⟩, haccount, h⟩ := bind_ok.mp h
    obtain ⟨⟨id', body'⟩, hid, h⟩ := bind_ok.mp h
    dsimp only at h
    split at h
    · cases h
    · next hnamed =>
      cases h
      simp only [Bool.or_eq_true, Bool.and_eq_true, Bool.not_eq_true', bne_iff_ne, ne_eq, not_or,
        not_and, not_not, Bool.not_eq_false] at hnamed
      obtain ⟨haccount', -⟩ := resolve_ok haccount
      obtain ⟨hid', -⟩ := resolve_ok hid
      have hkept : rest.getD "id" = Fields.getD body₀ "id" := (resolve_ok haccount).2 _ (by decide)
      rw [hkept] at hid'
      obtain ⟨htruthy, hposted⟩ := hnamed
      refine ⟨es, Value.eq_map_of_fields hes, hverb, ⟨body₀, hbody, haccount', hid'⟩, htruthy, ?_⟩
      cases hgiven : id.isTruthy with
      | true => exact .inr rfl
      | false => exact .inl (hposted hgiven)
  · cases h

/-! ### What a call is about -/

/-- The wire form of a text. -/
def onWire (text : Value) : Value := WireType.text.wrap text

theorem encode_text {text : Value} (h : isText text = true) :
    encodeValue text = .ok (onWire text) := by
  rcases Wire.isText_iff.mp h with ⟨s, rfl⟩ | ⟨t, rfl⟩
  · rfl
  · rfl

/-- The key of a record. -/
def keyOf (account id : Value) : Fields := [(.text "accountId", account), (.text "id", id)]

/-- The request is for the record under exactly this key. -/
def HasKey (account id : Value) (req : Fields) : Prop :=
  req.get? "Key" = some (.map (keyOf (onWire account) (onWire id)))

/-- No reference of the request's update is the name or stands for it, nor does its table of names
have an entry for it. -/
structure NeverNames (req : Fields) (name : String) : Prop where
  exists_names : ∃ (text : String) (expression : UpdateExpression) (names : Fields),
    req.get? "UpdateExpression" = some (.text text) ∧
    UpdateExpression.read? text = some expression ∧
    req.get? "ExpressionAttributeNames" = some (.map names) ∧
    (∀ ref ∈ expression.assigned.map (·.1) ++ expression.removed,
      ref ≠ name ∧ ∃ k, names.get? ref = some k ∧ k ≠ .text name) ∧
    ∀ e ∈ names, e.2 ≠ .text name

/-- What a call by a verb has to do with the record of an account and an identifier; a record that
is posted without one gets the generated identifier. -/
def StaysOn (account id generated : Value) (call : Call) : Verb → Prop
  | .get => call.method = .getItem ∧ HasKey account id call.request
  | .delete => call.method = .deleteItem ∧ HasKey account id call.request
  | .patch => call.method = .updateItem ∧ HasKey account id call.request ∧
      NeverNames call.request "accountId" ∧ NeverNames call.request "id"
  | .put => call.method = .putItem ∧ Table.Puts call.request "accountId" (onWire account) ∧
      Table.Puts call.request "id" (onWire id)
  | .post => call.method = .putItem ∧ Table.Puts call.request "accountId" (onWire account) ∧
      Table.Puts call.request "id" (onWire (if id.isTruthy then id else generated))

variable {t : Table} {account id : Value} {body : Fields} {s : Session} {req : Fields}

theorem isMap_keyOf : (keyOf account id).IsMap := by
  simp [keyOf, Fields.IsMap, Value.text_same]

theorem keyOf_get?_account : (keyOf account id).get? "accountId" = some account := by
  simp [keyOf, Fields.get?_cons, Value.text_same]

theorem keyOf_get?_id : (keyOf account id).get? "id" = some id := by
  simp [keyOf, Fields.get?_cons, Value.text_same]

/-- An update names nothing but its fields. -/
theorem neverNames_attach {u : Update} {req' : Fields} {name : String}
    (hbare : (req.getD "ExpressionAttributeNames").toFieldsOrEmpty = .ok [])
    (h : u.attach.result req = .ok req') (hfields : ∀ e ∈ u.fields, e.1 ≠ .text name)
    (hplain : name.toList.head? ≠ some '#') : NeverNames req' name := by
  obtain ⟨names, values, htables, rfl⟩ := attach_ok.mp h
  have hresolves := tables_resolve htables
  obtain ⟨callerNames, _, _, _, hcallers, hnames, -⟩ := tables_ok htables
  rw [hbare] at hcallers
  cases hcallers
  have hfield (f : Numbered) (hf : f ∈ u.numbered) : f.name ≠ .text name :=
    hfields f.entry (u.numbered_entries ▸ List.mem_map_of_mem hf)
  have hrefer (f : Numbered) (hf : f ∈ u.numbered) :
      f.nameRef ≠ name ∧ ∃ k, names.get? f.nameRef = some k ∧ k ≠ .text name := by
    refine ⟨fun hname => hplain ?_, f.name, (hresolves f hf).name, hfield f hf⟩
    rw [← hname, Numbered.nameRef, String.toList_append]
    rfl
  refine ⟨u.expression, _, names, get?_write .., u.read?_expression, get?_write .., ?_, ?_⟩
  · intro ref href
    rcases List.mem_append.mp href with href | href
    · obtain ⟨a, ha, rfl⟩ := List.mem_map.mp href
      obtain ⟨f, hf, rfl⟩ := List.mem_map.mp ha
      exact hrefer f (List.mem_of_mem_filter hf)
    · obtain ⟨f, hf, rfl⟩ := List.mem_map.mp href
      exact hrefer f (List.mem_of_mem_filter hf)
  · rw [hnames]
    intro e he
    obtain ⟨r, hr, rfl⟩ := List.mem_map.mp he
    obtain ⟨f, hf, rfl⟩ := List.mem_map.mp hr
    exact hfield f hf

theorem NeverNames.congr {req' : Fields} {name : String} (h : NeverNames req name)
    (hsame : ∀ n ∈ meaningParams, req'.get? n = req.get? n) : NeverNames req' name := by
  obtain ⟨text, expression, names, htext, hread, hnames, hrefs, htable⟩ := h.exists_names
  refine ⟨text, expression, names, ?_, hread, ?_, hrefs, htable⟩
  · rw [hsame _ (by decide), htext]
  · rw [hsame _ (by decide), hnames]

section Sent
variable (haccount : isText account = true) (hid : isText id = true)
include haccount hid

theorem encode_keyOf {w : Value} (h : Wire.encodeItem (.map (keyOf account id)) = .ok w) :
    w = .map (keyOf (onWire account) (onWire id)) := by
  obtain ⟨_, ws, ⟨⟩, hws, rfl⟩ := Wire.encodeItem_ok.mp h
  have hkey : Wire.encodeFields (keyOf account id) =
      .ok (keyOf (onWire account) (onWire id)) := by
    rw [Wire.encodeFields_ok]
    exact .cons ⟨rfl, encode_text haccount⟩ (.cons ⟨rfl, encode_text hid⟩ .nil)
  rw [hkey] at hws
  cases hws
  rfl

theorem hasKey_of_encode {built : Fields} {w : Value}
    (hw : Wire.encodeItem (.map (keyOf account id)) = .ok w) :
    HasKey account id ((t.extend built).put "Key" w) := by
  rw [HasKey, ← encode_keyOf haccount hid hw]
  exact Fields.get?_put_self ..

theorem hasKey_get (hsent : t.Sends (operation .get account id body) s req) :
    HasKey account id req := by
  obtain ⟨p, progress, hp, rfl, -⟩ := Table.sends_iff.mp hsent
  obtain ⟨ks, built, w, hks, -, hw, rfl, -⟩ := Table.prepare_get hp
  obtain ⟨heq, -⟩ := Key.validate_ok.mp hks
  cases heq
  exact hasKey_of_encode haccount hid hw

theorem hasKey_delete (hsent : t.Sends (operation .delete account id body) s req) :
    HasKey account id req := by
  obtain ⟨p, progress, hp, rfl, -⟩ := Table.sends_iff.mp hsent
  obtain ⟨ks, built, w, hks, -, hw, rfl, -⟩ := Table.prepare_delete hp
  obtain ⟨heq, -⟩ := Key.validate_ok.mp hks
  cases heq
  exact hasKey_of_encode haccount hid hw

theorem neverNames_patch (hsent : t.Sends (operation .patch account id body) s req) :
    HasKey account id req ∧ NeverNames req "accountId" ∧ NeverNames req "id" := by
  obtain ⟨p, progress, hp, rfl, -⟩ := Table.sends_iff.mp hsent
  obtain ⟨ks, fs, stamped, d, u, passed, built, w, hks, -, -, hu, hpassed, hbuilt, hw, rfl, -⟩ :=
    Table.prepare_update hp
  obtain ⟨heq, -⟩ := Key.validate_ok.mp hks
  cases heq
  cases Table.freeParams_ok hpassed
  -- A field under a name of the key is no field of the update.
  have hfields (name : String) (hkey : (keyOf account id).has name = true) :
      ∀ e ∈ u.fields, e.1 ≠ .text name := by
    rw [compile_ok hu]
    intro e he hname
    have hfree := (List.mem_filter.mp he).2
    rw [hname, Bool.not_eq_true'] at hfree
    exact absurd (hfree.symm.trans hkey) (by decide)
  have hnever (name : String) (hkey : (keyOf account id).has name = true)
      (hplain : name.toList.head? ≠ some '#') :
      NeverNames ((t.extend built).put "Key" w) name :=
    (neverNames_attach rfl hbuilt (hfields name hkey) hplain).congr
      (Table.get?_extend_of_meaning _ w)
  refine ⟨hasKey_of_encode haccount hid hw, hnever "accountId" ?_ (by decide),
    hnever "id" ?_ (by decide)⟩
  · rw [Fields.has_eq_isSome, keyOf_get?_account]
    rfl
  · rw [Fields.has_eq_isSome, keyOf_get?_id]
    rfl

end Sent

/-- A text of the record that is stored stands in the item in wire form. -/
theorem puts_text {record built : Fields} {text w : Value} {name : String}
    (hitem : Wire.encodeItem (.map record) = .ok w) (htext : isText text = true)
    (hfound : record.get? name = some text) :
    Table.Puts ((t.extend built).put "Item" w) name (onWire text) := by
  obtain ⟨w', hw', hputs⟩ := Table.puts_of_get? hitem hfound
  rw [encode_text htext] at hw'
  cases hw'
  exact hputs

theorem puts_put (haccount : isText account = true) (hid : isText id = true)
    (hsent : t.Sends (operation .put account id body) s req) :
    Table.Puts req "accountId" (onWire account) ∧ Table.Puts req "id" (onWire id) := by
  obtain ⟨p, progress, hp, rfl, -⟩ := Table.sends_iff.mp hsent
  obtain ⟨ks, fs, stamped, d, built, w, hks, heq, hstamped, -, hitem, rfl, -⟩ :=
    Table.prepare_replace hp
  cases heq
  obtain ⟨heq, -⟩ := Key.validate_ok.mp hks
  cases heq
  obtain ⟨managed, -, rfl⟩ := Lifecycle.stampWrite_replace hstamped
  -- The key is laid over the body, so its texts are the ones found.
  have hfound {name : String} {v : Value} (hv : (keyOf account id).get? name = some v) :
      (((Lifecycle.storable body).overlay managed).overlay (keyOf account id)).get? name =
        some v := by
    rw [Fields.get?_overlay isMap_keyOf, hv, Option.some_or]
  exact ⟨puts_text hitem haccount (hfound keyOf_get?_account),
    puts_text hitem hid (hfound keyOf_get?_id)⟩

/-- The identifier that the next record without one gets. -/
def generated (sources : Sources) (s : Session) : Value := .text (sources.ids s.draws.ids)

theorem puts_post (haccount : isText account = true) (hid : isText id = true)
    (htruthy : account.isTruthy = true) (hschema : t.schema = schema)
    (hsent : t.Sends (operation .post account id body) s req) :
    Table.Puts req "accountId" (onWire account) ∧
      Table.Puts req "id" (onWire (if id.isTruthy then id else generated t.sources s)) := by
  obtain ⟨p, progress, hp, rfl, -⟩ := Table.sends_iff.mp hsent
  obtain ⟨fs, stamped, d, built, w, heq, hstamped, -, hitem, rfl, -⟩ := Table.prepare_create hp
  cases heq
  obtain ⟨ids, stamps, r, hids, hstamps, rfl⟩ := Lifecycle.stampWrite_create hstamped
  have hmap := Table.isMap_created hids hstamps
  obtain ⟨stamp, -, rfl⟩ := Lifecycle.newStamps_ok hstamps
  have hstays : account.isDeleteSentinel = false := by
    refine isDeleteSentinel_eq_false_iff.mpr ?_
    rintro rfl
    cases htruthy
  have hbody : (Lifecycle.storable (body.put "accountId" account)).get? "accountId" =
      some account :=
    Fields.get?_filter_of_get? (p := fun v => !v.isDeleteSentinel) (Fields.get?_put_self ..)
      (by rw [hstays]; rfl)
  obtain ⟨-, ⟨hno, -⟩ | ⟨-, rfl⟩⟩ := Lifecycle.newId_ok hids
  · rw [hschema] at hno
    cases hno
  · refine ⟨puts_text hitem haccount ?_, puts_text hitem ?_ ?_⟩
    · rw [Fields.get?_overlay hmap, hbody, hschema]
      simp [schema, Fields.get?_cons, Fields.get?_nil, Value.text_same]
    · split
      · exact hid
      · rfl
    · rw [Fields.get?_overlay hmap, List.cons_append, Fields.get?_cons]
      have hnull : Value.null.isTruthy = false := rfl
      cases hgiven : id.isTruthy <;> simp [Value.text_same, generated, hgiven, hnull]

/-! ### Events -/

variable {setting : Option String} {sources : Sources}

/-- The handle of an endpoint manages every field, and draws from the sources of the endpoint. -/
theorem tableFor_ok (h : tableFor setting sources = .ok t) :
    t.schema = schema ∧ t.sources = sources := by
  unfold tableFor at h
  dsimp only at h
  split at h
  · cases h
  · next hname =>
    simp only [Table.ofParts, if_neg hname] at h
    cases h
    exact ⟨rfl, rfl⟩

/-- The response to what an operation comes to. -/
def responseTo (v : Verb) : Except Fault Answer → Except Fault Response
  | .ok answer => answerResponse v answer
  | .error f => faultResponse f

/-- How an event can be handled. -/
inductive Handled (setting : Option String) (sources : Sources) (event : Value) (s : Session) :
    Except Fault Response × Session → Prop
  | failed (f : Fault) : Handled setting sources event s (.error f, s)
  | refused {status : Nat} {text : String}
    (hrequest : Request.ofEvent event = .ok (.refused status text)) :
    Handled setting sources event s (refusal status (Text.points text), s)
  | unsupported (text : Text.Points) : Handled setting sources event s (refusal 405 text, s)
  | performed {t : Table} {verb account id : Value} {v : Verb} {body : Fields}
    (hrequest : Request.ofEvent event = .ok (.record verb account id body))
    (htable : tableFor setting sources = .ok t) (hv : Verb.ofValue? verb = some v) :
    Handled setting sources event s (responseTo v (t.perform (operation v account id body) s).1,
      (t.perform (operation v account id body) s).2)

theorem handle_handled (setting : Option String) (sources : Sources) (event : Value)
    (s : Session) : Handled setting sources event s (handle setting sources event s) := by
  rw [handle]
  rcases hrequest : Request.ofEvent event with f | ⟨status, text⟩ | ⟨verb, account, id, body⟩
  · exact .failed f
  · exact .refused hrequest
  · cases htable : tableFor setting sources with
    | error f => exact .failed f
    | ok t =>
      dsimp only
      rw [dispatch]
      cases hverb : Verb.ofValue? verb with
      | none =>
        dsimp only
        cases verb.shown with
        | error f => exact .failed f
        | ok name => exact .unsupported _
      | some v =>
        have hperformed := Handled.performed (s := s) hrequest htable hverb
        dsimp only
        rcases hrun : t.perform (operation v account id body) s with ⟨f | answer, after⟩
        · rw [hrun] at hperformed
          exact hperformed
        · rw [hrun] at hperformed
          exact hperformed

/-- An event leaves the session alone, or runs the operation of its verb on its record. -/
theorem handle_session (setting : Option String) (sources : Sources) (event : Value)
    (s : Session) :
    (handle setting sources event s).2 = s ∨
      ∃ t verb v account id body, Request.ofEvent event = .ok (.record verb account id body) ∧
        tableFor setting sources = .ok t ∧ Verb.ofValue? verb = some v ∧
        (handle setting sources event s).2 = (t.perform (operation v account id body) s).2 := by
  have hhandled := handle_handled setting sources event s
  generalize handle setting sources event s = result at hhandled ⊢
  cases hhandled with
  | failed | refused | unsupported => exact .inl rfl
  | performed hrequest htable hv => exact .inr ⟨_, _, _, _, _, _, hrequest, htable, hv, rfl⟩

/-- The call of an operation of the endpoint stays on its record. -/
theorem staysOn_of_sends {v : Verb} (haccount : isText account = true) (hid : isText id = true)
    (htruthy : account.isTruthy = true) (hschema : t.schema = schema)
    (hsent : t.Sends (operation v account id body) s req) :
    StaysOn account id (generated t.sources s) ⟨(operation v account id body).method, req⟩ v := by
  cases v with
  | get => exact ⟨rfl, hasKey_get haccount hid hsent⟩
  | post => exact ⟨rfl, puts_post haccount hid htruthy hschema hsent⟩
  | patch => exact ⟨rfl, neverNames_patch haccount hid hsent⟩
  | put => exact ⟨rfl, puts_put haccount hid hsent⟩
  | delete => exact ⟨rfl, hasKey_delete haccount hid hsent⟩

/-- **The record of an event.** Whatever an event holds, it leads to one call at most. That call is
the one of its verb, and about the record of the account and the identifier that the event names:
under the key of the two and nothing else, or with an item that holds both. An update never names
either field. -/
theorem handle_stays_on_record (setting : Option String) (sources : Sources) (event : Value)
    (s : Session) :
    ∃ made, (handle setting sources event s).2.transport.calls = s.transport.calls ++ made ∧
      made.length ≤ 1 ∧
      ∀ call ∈ made, ∃ es verb v account id, event = .map es ∧ verbOf es = .ok verb ∧
        Verb.ofValue? verb = some v ∧ Addresses es account id ∧ account.isTruthy = true ∧
        (v = .post ∨ id.isTruthy = true) ∧ StaysOn account id (generated sources s) call v := by
  rcases handle_session setting sources event s with
    hsame | ⟨t, verb, v, account, id, body, hrequest, htable, hv, hrun⟩
  · rw [hsame]
    exact ⟨[], (List.append_nil _).symm, Nat.zero_le 1, List.forall_mem_nil _⟩
  · rw [hrun]
    rcases t.perform_after (operation v account id body) s with hsame | ⟨req, hcall⟩
    · rw [hsame]
      exact ⟨[], (List.append_nil _).symm, Nat.zero_le 1, List.forall_mem_nil _⟩
    · obtain ⟨es, rfl, hverb, haddresses, htruthy, hposted⟩ := ofEvent_record hrequest
      obtain ⟨hschema, rfl⟩ := tableFor_ok htable
      obtain ⟨_, -, haccount, hid⟩ := haddresses.exists_body
      refine ⟨_, hcall.calls, le_rfl, List.forall_mem_singleton.mpr ?_⟩
      refine ⟨es, verb, v, account, id, rfl, hverb, hv, haddresses, htruthy, ?_, ?_⟩
      · rw [hv] at hposted
        exact hposted.imp_left Option.some.inj
      · exact staysOn_of_sends (isText_of_textOf haccount) (isText_of_textOf hid) htruthy hschema
          hcall.calls

/-- The query string names the identifier only, and the body, which names the account, holds another
identifier. -/
theorem handle_stays_on_record_conflict :
    let es : Fields := [
      (.text "requestContext", .map [(.text "http", .map [(.text "method", .text "PUT")])]),
      (.text "queryStringParameters", .map [(.text "id", .text "k")]),
      (.text "body", .text "\x7b\"accountId\": \"a\", \"id\": \"l\"\x7d")]
    let sources : Sources := ⟨fun _ => some ⟨0, some 0⟩, fun _ => ""⟩
    ∃ call, (handle (some "t") sources (.map es) (.start [])).2.transport.calls = [call] ∧
      StaysOn (.text "a") (.text "k") (generated sources (.start [])) call .put := by
  intro es sources
  have hbody : bodyOf es =
      .ok (some (.map [(.text "accountId", .text "a"), (.text "id", .text "l")])) := by
    decide +kernel
  have hone : (handle (some "t") sources (.map es) (.start [])).2.transport.calls.length = 1 := by
    decide +kernel
  obtain ⟨made, hcalls, -, hstays⟩ :=
    handle_stays_on_record (some "t") sources (.map es) (.start [])
  have hmade : (handle (some "t") sources (.map es) (.start [])).2.transport.calls = made := hcalls
  obtain ⟨call, rfl⟩ := List.length_eq_one_iff.mp (hmade ▸ hone)
  obtain ⟨es', verb, v, account, id, heq, hverb, hv, haddresses, -, -, hstaysOn⟩ :=
    hstays call (List.mem_singleton_self call)
  cases heq
  obtain ⟨body, hfound, haccount, hid⟩ := haddresses.exists_body
  rw [hbody] at hfound
  cases hfound
  have hput : verbOf es = .ok (.text "PUT") := by decide +kernel
  rw [hput] at hverb
  cases hverb
  cases hv
  rw [show textOf _ = .ok (.text "a") by decide +kernel] at haccount
  rw [show textOf _ = .ok (.text "k") by decide +kernel] at hid
  cases haccount
  cases hid
  exact ⟨call, hmade, hstaysOn⟩

end Endpoint

end ItemStore
